import Mathlib.Algebra.Order.Group.Nat
import Mathlib.Data.List.Induction
import Mathlib.Tactic.Push

namespace KnowledgeCompiler.Lib.HashChain

variable {α δ : Type*}

def head (link : δ → α → δ) (start : δ) (entries : List α) : δ := entries.foldl link start

-- Two links agree only on one digest and one entry, for the digests of a chain.
structure Binding (link : δ → α → δ) (start : δ) (isDigest : δ → Prop) : Prop where
  start : isDigest start
  next : ∀ digest entry, isDigest digest → isDigest (link digest entry)
  inj : ∀ digest other entry second, isDigest digest → isDigest other →
    link digest entry = link other second → digest = other ∧ entry = second

-- The places of the entries are 1, 2, and so on.
def Numbered (place : α → ℤ) (entries : List α) : Prop :=
  entries.map place = (List.range entries.length).map (fun index : ℕ => (index : ℤ) + 1)

section Numbered

variable {place : α → ℤ}

theorem numbered_nil : Numbered place [] := rfl

theorem numbered_append_iff (entries : List α) (entry : α) :
    Numbered place (entries ++ [entry]) ↔
      Numbered place entries ∧ place entry = (entries.length : ℤ) + 1 := by
  simp only [Numbered, List.map_append, List.length_append, List.length_singleton,
    List.range_succ, List.map_singleton]
  constructor
  · intro h
    obtain ⟨hentries, hentry⟩ := List.append_inj' h rfl
    exact ⟨hentries, List.singleton_inj.mp hentry⟩
  · rintro ⟨hentries, hentry⟩
    rw [hentries, hentry]

theorem numbered_map_iff {β : Type*} {value : β → α} (entries : List β) :
    Numbered place (entries.map value) ↔ Numbered (place ∘ value) entries := by
  simp only [Numbered, List.map_map, List.length_map]

end Numbered

section Chain

variable {link : δ → α → δ} {start : δ} {isDigest : δ → Prop}

theorem head_append (entries : List α) (entry : α) :
    head link start (entries ++ [entry]) = link (head link start entries) entry := by
  simp [head]

theorem Binding.isDigest_head (hbinding : Binding link start isDigest) (entries : List α) :
    isDigest (head link start entries) := by
  induction entries using List.reverseRecOn with
  | nil => exact hbinding.start
  | append_singleton entries entry ih =>
      rw [head_append]
      exact hbinding.next _ _ ih

theorem Binding.eq_of_head_eq (hbinding : Binding link start isDigest) (first second : List α)
    (hlength : first.length = second.length)
    (hhead : head link start first = head link start second) : first = second := by
  induction first using List.reverseRecOn generalizing second with
  | nil => exact (List.length_eq_zero_iff.mp hlength.symm).symm
  | append_singleton first entry ih =>
      cases second using List.reverseRecOn with
      | nil => simp at hlength
      | append_singleton second other =>
          rw [head_append, head_append] at hhead
          obtain ⟨hrest, rfl⟩ := hbinding.inj _ _ _ _ (hbinding.isDigest_head first)
            (hbinding.isDigest_head second) hhead
          rw [ih second (by simpa using hlength) hrest]

-- The last entries agree, and with them the lengths, unless one chain has none.
theorem Binding.numbered_eq (hbinding : Binding link start isDigest) {place : α → ℤ}
    {first second : List α} (hfirst : Numbered place first) (hsecond : Numbered place second)
    (hfirst_ne : first ≠ []) (hsecond_ne : second ≠ [])
    (hhead : head link start first = head link start second) : first = second := by
  apply hbinding.eq_of_head_eq first second ?_ hhead
  obtain ⟨early, entry, rfl⟩ := List.eq_nil_or_concat first |>.resolve_left hfirst_ne
  obtain ⟨before, other, rfl⟩ := List.eq_nil_or_concat second |>.resolve_left hsecond_ne
  simp only [List.concat_eq_append] at *
  rw [head_append, head_append] at hhead
  obtain ⟨_, rfl⟩ := hbinding.inj _ _ _ _ (hbinding.isDigest_head early)
    (hbinding.isDigest_head before) hhead
  have hplace := ((numbered_append_iff early entry).mp hfirst).2
  have hother := ((numbered_append_iff before entry).mp hsecond).2
  rw [hplace] at hother
  simp only [List.length_append, List.length_singleton]
  omega

-- A chain whose head is the start has no entry, or else a link that gives the start.
theorem Binding.numbered_eq_or (hbinding : Binding link start isDigest) {place : α → ℤ}
    {first second : List α} (hfirst : Numbered place first) (hsecond : Numbered place second)
    (hhead : head link start first = head link start second) :
    first = second ∨ (first = [] ∨ second = []) ∧ head link start first = start := by
  by_cases hfirst_nil : first = []
  · right
    exact ⟨Or.inl hfirst_nil, by rw [hfirst_nil]; rfl⟩
  · by_cases hsecond_nil : second = []
    · right
      exact ⟨Or.inr hsecond_nil, by rw [hhead, hsecond_nil]; rfl⟩
    · left
      exact hbinding.numbered_eq hfirst hsecond hfirst_nil hsecond_nil hhead

end Chain

end KnowledgeCompiler.Lib.HashChain
