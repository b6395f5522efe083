import KnowledgeCompiler.Lib.Lists

namespace KnowledgeCompiler.Lib

theorem not_sublist_swap {α : Type*} {first second : α} {items : List α} (hnodup : items.Nodup)
    (hsublist : [first, second].Sublist items) : ¬[second, first].Sublist items := by
  induction items with
  | nil => cases hsublist
  | cons item rest ih =>
    obtain ⟨hitem, hrest⟩ := List.nodup_cons.mp hnodup
    intro hswap
    cases hsublist with
    | cons _ hsub =>
      cases hswap with
      | cons _ hsub' => exact ih hrest hsub hsub'
      | cons_cons _ hsub' => exact hitem (hsub.subset (by simp))
    | cons_cons _ hsub =>
      cases hswap with
      | cons _ hsub' => exact hitem (hsub'.subset (by simp))
      | cons_cons _ hsub' => exact hitem (List.singleton_sublist.mp hsub)

section Moves

variable {α : Type*} [DecidableEq α]

-- The item, taken out and put back right after another one.
def moveAfter (item anchor : α) (items : List α) : List α :=
  let rest := items.erase item
  rest.take (rest.idxOf anchor + 1) ++ item :: rest.drop (rest.idxOf anchor + 1)

theorem exists_moveAfter {item anchor : α} {items : List α} (hanchor : anchor ∈ items)
    (hne : anchor ≠ item) :
    ∃ before after, items.erase item = before ++ anchor :: after ∧
      moveAfter item anchor items = before ++ anchor :: item :: after := by
  have hmem : anchor ∈ items.erase item := (List.mem_erase_of_ne hne).mpr hanchor
  obtain ⟨before, after, hsplit, hfirst⟩ := List.eq_append_cons_of_mem hmem
  refine ⟨before, after, hsplit, ?_⟩
  have hindex : (items.erase item).idxOf anchor = before.length := by
    rw [hsplit, List.idxOf_append_of_notMem hfirst, List.idxOf_cons_self, Nat.add_zero]
  have htake : before.take (before.length + 1) = before := List.take_of_length_le (Nat.le_succ _)
  have hdrop : before.drop (before.length + 1) = [] := List.drop_of_length_le (Nat.le_succ _)
  unfold moveAfter
  dsimp only
  rw [hindex, hsplit, List.take_append, List.drop_append]
  simp [htake, hdrop]

theorem moveAfter_perm {item anchor : α} {items : List α} (hitem : item ∈ items)
    (hanchor : anchor ∈ items) (hne : anchor ≠ item) : (moveAfter item anchor items).Perm items := by
  obtain ⟨before, after, herase, hmove⟩ := exists_moveAfter hanchor hne
  have hmiddle : (before ++ anchor :: item :: after).Perm (item :: (before ++ anchor :: after)) := by
    have hswap := (List.Perm.swap item anchor after).append_left before
    exact hswap.trans List.perm_middle
  rw [hmove]
  exact hmiddle.trans (herase ▸ (List.perm_cons_erase hitem).symm)

-- The others keep their order.
theorem filter_moveAfter {item anchor : α} {items : List α} (hnodup : items.Nodup)
    (hanchor : anchor ∈ items) (hne : anchor ≠ item) {keeps : α → Bool} (hitem : keeps item = false) :
    (moveAfter item anchor items).filter keeps = items.filter keeps := by
  obtain ⟨before, after, herase, hmove⟩ := exists_moveAfter hanchor hne
  have hrest : (items.erase item).filter keeps = items.filter keeps := by
    rw [hnodup.erase_eq_filter, List.filter_filter]
    refine List.filter_congr fun other _ => ?_
    by_cases heq : other = item
    · simp [heq, hitem]
    · simp [heq]
  rw [hmove, ← hrest, herase]
  simp [List.filter_append, List.filter_cons, hitem]

theorem moveAfter_next {item anchor : α} {items : List α} (hanchor : anchor ∈ items)
    (hne : anchor ≠ item) : [anchor, item] <:+: moveAfter item anchor items := by
  obtain ⟨before, after, -, hmove⟩ := exists_moveAfter hanchor hne
  exact ⟨before, after, by rw [hmove]; simp⟩

-- Where it stands right after the other one, nothing moves.
theorem moveAfter_of_next {item anchor : α} {items : List α} (hnodup : items.Nodup)
    (hnext : [anchor, item] <:+: items) : moveAfter item anchor items = items := by
  obtain ⟨before, after, rfl⟩ := hnext
  have hsplit : before ++ [anchor, item] ++ after = (before ++ [anchor]) ++ item :: after := by simp
  rw [hsplit] at hnodup ⊢
  have hitem : item ∉ before ++ [anchor] := fun hmem =>
    (List.nodup_append.mp hnodup).2.2 item hmem item List.mem_cons_self rfl
  have hanchor : anchor ∉ before := fun hmem =>
    (List.nodup_append.mp (List.nodup_append.mp hnodup).1).2.2 anchor hmem anchor
      (List.mem_singleton_self _) rfl
  have herase : ((before ++ [anchor]) ++ item :: after).erase item = before ++ anchor :: after := by
    rw [List.erase_append_right _ hitem, List.erase_cons_head]
    simp
  have hindex : (before ++ anchor :: after).idxOf anchor = before.length := by
    rw [List.idxOf_append_of_notMem hanchor, List.idxOf_cons_self, Nat.add_zero]
  have hshape : before ++ anchor :: after = (before ++ [anchor]) ++ after := by simp
  have hlength : before.length + 1 = (before ++ [anchor]).length := by simp
  unfold moveAfter
  dsimp only
  rw [herase, hindex, hshape, hlength, List.take_left, List.drop_left]

-- Two other neighbours stay neighbours, unless the item comes between them.
theorem next_moveAfter {item anchor first second : α} {items : List α} (hnodup : items.Nodup)
    (hanchor : anchor ∈ items) (hne : anchor ≠ item) (hnext : [first, second] <:+: items)
    (hfirst : first ≠ item) (hsecond : second ≠ item) (hother : first ≠ anchor) :
    [first, second] <:+: moveAfter item anchor items := by
  obtain ⟨before, after, herase, hmove⟩ := exists_moveAfter hanchor hne
  have hrest : [first, second] <:+: before ++ anchor :: after := by
    rw [← herase, hnodup.erase_eq_filter]
    have hfilter := hnext.filter (· != item)
    simpa [List.filter_cons, hfirst, hsecond] using hfilter
  rw [hmove]
  obtain ⟨left, right, hsplit⟩ := hrest
  rw [List.append_assoc] at hsplit
  rcases List.append_eq_append_iff.mp hsplit with ⟨middle, hbefore, hafter⟩ | ⟨middle, hleft, hafter⟩
  · -- the neighbours begin before the anchor
    cases middle with
    | nil => exact absurd (List.cons.inj hafter).1 hother
    | cons one more =>
      cases more with
      | nil =>
        simp only [List.cons_append, List.nil_append, List.cons.injEq] at hafter
        obtain ⟨hone, htwo, -⟩ := hafter
        refine ⟨left, item :: after, ?_⟩
        rw [hbefore, hone, htwo]
        simp
      | cons two more =>
        simp only [List.cons_append, List.nil_append, List.cons.injEq] at hafter
        obtain ⟨hone, htwo, -⟩ := hafter
        refine ⟨left, more ++ anchor :: item :: after, ?_⟩
        rw [hbefore, hone, htwo]
        simp
  · cases middle with
    | nil => exact absurd (List.cons.inj hafter).1.symm hother
    | cons one more =>
      obtain ⟨-, hafter⟩ := List.cons.inj hafter
      refine ⟨before ++ anchor :: item :: more, right, ?_⟩
      rw [hafter]
      simp

-- What stood behind the anchor stands behind the item.
theorem sublist_moveAfter {item anchor other : α} {items : List α} (hnodup : items.Nodup)
    (hother : other ≠ item) (hne : anchor ≠ item) (hbehind : [anchor, other].Sublist items) :
    [item, other].Sublist (moveAfter item anchor items) := by
  have hanchor : anchor ∈ items := hbehind.subset List.mem_cons_self
  obtain ⟨before, after, herase, hmove⟩ := exists_moveAfter hanchor hne
  have hrest : [anchor, other].Sublist (before ++ anchor :: after) := by
    rw [← herase, hnodup.erase_eq_filter]
    have hfilter := hbehind.filter (· != item)
    simpa [List.filter_cons, hne, hother] using hfilter
  have hnodup' : (before ++ anchor :: after).Nodup := herase ▸ hnodup.erase item
  have hmem : other ∈ after := by
    have hnotin : anchor ∉ before := fun hmem =>
      (List.nodup_append.mp hnodup').2.2 anchor hmem anchor List.mem_cons_self rfl
    have hdrop : [anchor, other].Sublist (anchor :: after) := by
      have hfrom := hrest
      clear hrest hmove herase hnodup'
      induction before with
      | nil => exact hfrom
      | cons first rest ih =>
        rw [List.mem_cons, not_or] at hnotin
        refine ih hnotin.2 ?_
        cases hfrom with
        | cons _ hsub => exact hsub
        | cons_cons _ hsub => exact absurd rfl hnotin.1
    exact List.singleton_sublist.mp (List.cons_sublist_cons.mp hdrop)
  rw [hmove]
  have hpair : [item, other].Sublist (item :: after) :=
    List.cons_sublist_cons.mpr (List.singleton_sublist.mpr hmem)
  exact (hpair.trans (List.sublist_cons_self _ _)).trans (List.sublist_append_right _ _)

variable (anchor : α → Option α)

-- The item goes to its anchor, if it has one.
def settle (items : List α) (item : α) : List α :=
  match anchor item with
  | none => items
  | some found => moveAfter item found items

-- The anchors of the moving items are there and do not move.
structure Anchored (moving items : List α) : Prop where
  nodup : items.Nodup
  subset : ∀ item ∈ moving, item ∈ items
  anchors : ∀ item ∈ moving, ∀ found, anchor item = some found → found ∈ items ∧ found ∉ moving

namespace Anchored

variable {anchor} {moving items : List α}

omit [DecidableEq α] in
theorem ne (hanchored : Anchored anchor moving items) {item found : α} (hitem : item ∈ moving)
    (hfound : anchor item = some found) : found ≠ item :=
  fun heq => (hanchored.anchors item hitem found hfound).2 (heq ▸ hitem)

theorem settle_perm (hanchored : Anchored anchor moving items) {item : α} (hitem : item ∈ moving) :
    (settle anchor items item).Perm items := by
  unfold settle
  split
  · exact .refl _
  · rename_i found hfound
    exact moveAfter_perm (hanchored.subset item hitem) (hanchored.anchors item hitem found hfound).1
      (hanchored.ne hitem hfound)

omit [DecidableEq α] in
theorem of_perm (hanchored : Anchored anchor moving items) {other : List α}
    (hperm : other.Perm items) : Anchored anchor moving other where
  nodup := hperm.nodup_iff.mpr hanchored.nodup
  subset item hitem := hperm.mem_iff.mpr (hanchored.subset item hitem)
  anchors item hitem found hfound :=
    ⟨hperm.mem_iff.mpr (hanchored.anchors item hitem found hfound).1,
      (hanchored.anchors item hitem found hfound).2⟩

theorem foldl_perm (hanchored : Anchored anchor moving items) (rest : List α)
    (hrest : ∀ item ∈ rest, item ∈ moving) : (rest.foldl (settle anchor) items).Perm items := by
  induction rest generalizing items with
  | nil => exact .refl _
  | cons item rest ih =>
    have hstep := hanchored.settle_perm (hrest item List.mem_cons_self)
    exact (ih (hanchored.of_perm hstep)
      fun other hother => hrest other (List.mem_cons_of_mem _ hother)).trans hstep

theorem filter_settle (hanchored : Anchored anchor moving items) {item : α} (hitem : item ∈ moving)
    {keeps : α → Bool} (hkeeps : keeps item = false) :
    (settle anchor items item).filter keeps = items.filter keeps := by
  unfold settle
  split
  · rfl
  · rename_i found hfound
    exact filter_moveAfter hanchored.nodup (hanchored.anchors item hitem found hfound).1
      (hanchored.ne hitem hfound) hkeeps

theorem filter_foldl (hanchored : Anchored anchor moving items) (rest : List α)
    (hrest : ∀ item ∈ rest, item ∈ moving) {keeps : α → Bool}
    (hkeeps : ∀ item ∈ rest, keeps item = false) :
    (rest.foldl (settle anchor) items).filter keeps = items.filter keeps := by
  induction rest generalizing items with
  | nil => rfl
  | cons item rest ih =>
    have hitem := hrest item List.mem_cons_self
    rw [List.foldl_cons, ih (hanchored.of_perm (hanchored.settle_perm hitem))
      (fun other hother => hrest other (List.mem_cons_of_mem _ hother))
      (fun other hother => hkeeps other (List.mem_cons_of_mem _ hother))]
    exact hanchored.filter_settle hitem (hkeeps item List.mem_cons_self)

theorem sublist_foldl (hanchored : Anchored anchor moving items) (rest : List α)
    (hrest : ∀ item ∈ rest, item ∈ moving) {first second : α} (hfirst : first ∉ rest)
    (hsecond : second ∉ rest) (hsublist : [first, second].Sublist items) :
    [first, second].Sublist (rest.foldl (settle anchor) items) := by
  have hfilter : (rest.foldl (settle anchor) items).filter
      (fun item => item = first || item = second) =
        items.filter fun item => item = first || item = second := by
    refine hanchored.filter_foldl rest hrest fun item hitem => ?_
    have hne : item ≠ first := fun heq => hfirst (heq ▸ hitem)
    have hne' : item ≠ second := fun heq => hsecond (heq ▸ hitem)
    simp [hne, hne']
  have hpart : ((rest.foldl (settle anchor) items).filter
      fun item => item = first || item = second).Sublist (rest.foldl (settle anchor) items) :=
    List.filter_sublist
  have hpair := hsublist.filter fun item => item = first || item = second
  rw [← hfilter] at hpair
  exact (by simpa [List.filter_cons] using hpair : [first, second].Sublist _).trans hpart

-- Where no two items share an anchor, each item ends up next to its own.
theorem next_foldl (hanchored : Anchored anchor moving items) (settled rest : List α)
    (hmoving : ∀ item ∈ settled ++ rest, item ∈ moving) (hnodup : (settled ++ rest).Nodup)
    (hapart : ∀ first ∈ moving, ∀ second ∈ moving, ∀ found, anchor first = some found →
      anchor second = some found → first = second)
    (hsettled : ∀ item ∈ settled, ∀ found, anchor item = some found → [found, item] <:+: items) :
    ∀ item ∈ settled ++ rest, ∀ found, anchor item = some found →
      [found, item] <:+: rest.foldl (settle anchor) items := by
  induction rest generalizing items settled with
  | nil =>
    rw [List.append_nil]
    exact hsettled
  | cons item rest ih =>
    have hshape : settled ++ item :: rest = settled ++ [item] ++ rest := by simp
    have hitem : item ∈ moving := hmoving item (by simp)
    rw [hshape] at hmoving hnodup ⊢
    refine ih (hanchored.of_perm (hanchored.settle_perm hitem)) (settled ++ [item]) hmoving hnodup ?_
    intro other hother found hfound
    rcases List.mem_append.mp hother with hother | hother
    · have hdistinct : other ≠ item := fun heq =>
        (List.nodup_append.mp (List.nodup_append.mp hnodup).1).2.2 other hother item
          (List.mem_singleton_self _) heq
      unfold settle
      split
      · exact hsettled other hother found hfound
      · rename_i host hhost
        have hmem : other ∈ moving := hmoving other (by simp [hother])
        refine next_moveAfter hanchored.nodup (hanchored.anchors item hitem host hhost).1
          (hanchored.ne hitem hhost) (hsettled other hother found hfound) ?_ hdistinct ?_
        · exact fun heq => (hanchored.anchors other hmem found hfound).2 (heq ▸ hitem)
        · exact fun heq => hdistinct (hapart other hmem item hitem found hfound (heq ▸ hhost))
    · obtain rfl := List.mem_singleton.mp hother
      simp only [settle, hfound]
      exact moveAfter_next (hanchored.anchors other hitem found hfound).1
        (hanchored.ne hitem hfound)

-- Two items of one anchor change places.
theorem swapped_foldl (hanchored : Anchored anchor moving items) {before between after : List α}
    {first second found : α} (hmoving : moving = before ++ first :: (between ++ second :: after))
    (hnodup : moving.Nodup) (hfirst : anchor first = some found)
    (hsecond : anchor second = some found) :
    [second, first].Sublist (moving.foldl (settle anchor) items) := by
  have hmem (rest : List α) (hsub : rest.Sublist moving) : ∀ item ∈ rest, item ∈ moving :=
    fun item hitem => hsub.subset hitem
  have hfirst_mem : first ∈ moving := by rw [hmoving]; simp
  have hsecond_mem : second ∈ moving := by rw [hmoving]; simp
  have hdistinct : first ≠ second ∧ first ∉ between ∧ first ∉ after ∧ second ∉ after := by
    rw [hmoving, List.nodup_append, List.nodup_cons] at hnodup
    obtain ⟨-, ⟨hnot, hrest⟩, -⟩ := hnodup
    rw [List.mem_append, List.mem_cons, not_or, not_or] at hnot
    have hafter := (List.nodup_cons.mp (List.nodup_append.mp hrest).2.1).1
    exact ⟨hnot.2.1, hnot.1, hnot.2.2, hafter⟩
  obtain ⟨hne, hbetween, hafter, hafter'⟩ := hdistinct
  have hfound := hanchored.anchors first hfirst_mem found hfirst
  have hsub_before : before.Sublist moving := by rw [hmoving]; exact List.sublist_append_left _ _
  have hsub_between : between.Sublist moving := by
    rw [hmoving]
    exact ((List.sublist_append_left _ _).trans (List.sublist_cons_self _ _)).trans
      (List.sublist_append_right _ _)
  have hsub_after : after.Sublist moving := by
    rw [hmoving]
    exact (((List.sublist_cons_self _ _).trans (List.sublist_append_right _ _)).trans
      (List.sublist_cons_self _ _)).trans (List.sublist_append_right _ _)
  -- up to the first item, then up to the second one
  have hfold : moving.foldl (settle anchor) items = after.foldl (settle anchor)
      (settle anchor (between.foldl (settle anchor)
        (settle anchor (before.foldl (settle anchor) items) first)) second) := by
    rw [hmoving, List.foldl_append, List.foldl_cons, List.foldl_append, List.foldl_cons]
  have h₁ := hanchored.of_perm (hanchored.foldl_perm before (hmem before hsub_before))
  have hnext : [found, first].Sublist (settle anchor (before.foldl (settle anchor) items) first) := by
    simp only [settle, hfirst]
    exact (moveAfter_next (h₁.anchors first hfirst_mem found hfirst).1
      (h₁.ne hfirst_mem hfirst)).sublist
  have h₂ := h₁.of_perm (h₁.settle_perm hfirst_mem)
  have hbehind := h₂.sublist_foldl between (hmem between hsub_between)
    (fun hin => hfound.2 (hmem between hsub_between found hin)) hbetween hnext
  have h₃ := h₂.of_perm (h₂.foldl_perm between (hmem between hsub_between))
  have hswapped := sublist_moveAfter h₃.nodup hne (h₃.ne hsecond_mem hsecond) hbehind
  have h₄ := h₃.of_perm (h₃.settle_perm hsecond_mem)
  rw [hfold]
  refine h₄.sublist_foldl after (hmem after hsub_after) hafter' hafter ?_
  simp only [settle, hsecond]
  exact hswapped

end Anchored

end Moves

end KnowledgeCompiler.Lib
