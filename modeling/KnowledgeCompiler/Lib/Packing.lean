import Mathlib.Data.List.Basic

namespace KnowledgeCompiler.Lib.Packing

variable {α : Type*}

-- A list that is written out only when it holds something.
def closed (current : List α) : List (List α) := if current = [] then [] else [current]

@[simp] theorem flatten_closed (current : List α) : (closed current).flatten = current := by
  unfold closed
  split
  · rename_i hempty
    rw [hempty]
    rfl
  · simp

theorem append_closed (full : List (List α)) (current : List α) :
    full ++ closed current = if current = [] then full else full ++ [current] := by
  unfold closed
  split
  · exact List.append_nil full
  · rfl

theorem ne_nil_of_mem_closed {current group : List α} (hgroup : group ∈ closed current) :
    group ≠ [] := by
  unfold closed at hgroup
  split at hgroup
  · cases hgroup
  · rename_i hne
    rwa [List.mem_singleton.mp hgroup]

section Cut

variable (joined : α → Bool)

-- The items cut behind every one that is not joined to the next.
def cut : List α → List α → List (List α)
  | current, [] => closed current
  | current, item :: rest =>
      if joined item then cut (current ++ [item]) rest else (current ++ [item]) :: cut [] rest

theorem flatten_cut (current items : List α) : (cut joined current items).flatten = current ++ items := by
  induction items generalizing current with
  | nil => simp [cut]
  | cons item rest ih =>
    unfold cut
    split
    · rw [ih, List.append_assoc, List.singleton_append]
    · rw [List.flatten_cons, ih, List.nil_append, List.append_assoc, List.singleton_append]

theorem ne_nil_of_mem_cut {current items group : List α} (hgroup : group ∈ cut joined current items) :
    group ≠ [] := by
  induction items generalizing current with
  | nil => exact ne_nil_of_mem_closed hgroup
  | cons item rest ih =>
    unfold cut at hgroup
    split at hgroup
    · exact ih hgroup
    · cases List.mem_cons.mp hgroup with
      | inl heq => simp [heq]
      | inr hrest => exact ih hrest

theorem exists_cut_of_current {current : List α} (hcurrent : current ≠ []) (items : List α) :
    ∃ group ∈ cut joined current items, current ⊆ group := by
  induction items generalizing current with
  | nil => exact ⟨current, by simp [cut, closed, hcurrent], List.Subset.refl _⟩
  | cons item rest ih =>
    unfold cut
    split
    · obtain ⟨group, hgroup, hsub⟩ := ih (by simp : current ++ [item] ≠ [])
      exact ⟨group, hgroup, fun other hother => hsub (List.mem_append_left _ hother)⟩
    · exact ⟨current ++ [item], List.mem_cons_self, List.subset_append_left _ _⟩

-- An item stays with the one it is joined to.
theorem cut_keeps_joined {current before after : List α} {item next : α}
    (hjoined : joined item = true) :
    ∃ group ∈ cut joined current (before ++ item :: next :: after), item ∈ group ∧ next ∈ group := by
  induction before generalizing current with
  | nil =>
    rw [List.nil_append, cut, if_pos hjoined, cut]
    split
    · obtain ⟨group, hgroup, hsub⟩ :=
        exists_cut_of_current joined (by simp : current ++ [item] ++ [next] ≠ []) after
      exact ⟨group, hgroup, hsub (by simp), hsub (by simp)⟩
    · exact ⟨_, List.mem_cons_self, by simp, by simp⟩
  | cons first before ih =>
    rw [List.cons_append, cut]
    split
    · exact ih
    · obtain ⟨group, hgroup, hboth⟩ := @ih []
      exact ⟨group, List.mem_cons_of_mem _ hgroup, hboth⟩

end Cut

section Pack

variable (joins : List α → List α → Prop) [∀ current group, Decidable (joins current group)]

-- Groups put together in order, as long as the next one joins what there is.
def pack : List α → List (List α) → List (List α)
  | current, [] => closed current
  | current, group :: rest =>
      if current ≠ [] ∧ ¬joins current group then current :: pack group rest
      else pack (current ++ group) rest

theorem flatten_pack (current : List α) (groups : List (List α)) :
    (pack joins current groups).flatten = current ++ groups.flatten := by
  induction groups generalizing current with
  | nil => simp [pack]
  | cons group rest ih =>
      unfold pack
      split
      · rw [List.flatten_cons, ih, List.flatten_cons]
      · rw [ih, List.flatten_cons, List.append_assoc]

theorem pack_bundles {sound : List α → Prop}
    (hjoins : ∀ current group, joins current group → sound (current ++ group))
    {groups : List (List α)} (hgroups : ∀ group ∈ groups, group ≠ []) (bundle : List (List α))
    (hfilled : ∀ group ∈ bundle, group ≠ []) (hsound : 1 < bundle.length → sound bundle.flatten) :
    ∃ bundles : List (List (List α)), bundles.flatten = bundle ++ groups ∧
      pack joins bundle.flatten groups = bundles.map List.flatten ∧
      ∀ packed ∈ bundles, packed ≠ [] ∧ (1 < packed.length → sound packed.flatten) := by
  induction groups generalizing bundle with
  | nil =>
    cases bundle with
    | nil => exact ⟨[], by simp [pack, closed]⟩
    | cons first rest =>
      have hne : (first :: rest).flatten ≠ [] := by
        simp [hfilled first List.mem_cons_self]
      refine ⟨[first :: rest], by simp, ?_, ?_⟩
      · simp only [pack, closed, if_neg hne, List.map_cons, List.map_nil]
      · intro packed hpacked
        rw [List.mem_singleton.mp hpacked]
        exact ⟨List.cons_ne_nil _ _, hsound⟩
  | cons group groups ih =>
    obtain ⟨hgroup, hrest⟩ := List.forall_mem_cons.mp hgroups
    unfold pack
    split
    · rename_i hflush
      -- the bundle is full, and the group begins the next one
      obtain ⟨bundles, hflatten, hpack, hbundles⟩ := ih hrest [group]
        (by simpa using hgroup) (by simp)
      rw [List.flatten_singleton] at hpack
      refine ⟨bundle :: bundles, by simp [hflatten], by rw [hpack, List.map_cons], ?_⟩
      intro packed hpacked
      cases List.mem_cons.mp hpacked with
      | inl heq =>
        rw [heq]
        refine ⟨?_, hsound⟩
        rintro rfl
        exact hflush.1 rfl
      | inr hin => exact hbundles packed hin
    · rename_i hkeep
      have hwith : bundle.flatten ++ group = (bundle ++ [group]).flatten := by simp
      have hlarger : 1 < (bundle ++ [group]).length → sound (bundle ++ [group]).flatten := by
        intro hlong
        rw [← hwith]
        apply hjoins
        by_contra hnot
        apply hkeep
        refine ⟨?_, hnot⟩
        intro hempty
        cases bundle with
        | nil => simp at hlong
        | cons first rest =>
          exact hfilled first List.mem_cons_self (List.append_eq_nil_iff.mp hempty).1
      have hboth : ∀ other ∈ bundle ++ [group], other ≠ [] := by
        intro other hother
        cases List.mem_append.mp hother with
        | inl hin => exact hfilled other hin
        | inr hin => exact List.mem_singleton.mp hin ▸ hgroup
      obtain ⟨bundles, hflatten, hpack, hbundles⟩ := ih hrest (bundle ++ [group]) hboth hlarger
      rw [hwith]
      exact ⟨bundles, by simp [hflatten], hpack, hbundles⟩

end Pack

end KnowledgeCompiler.Lib.Packing
