import Mathlib.Data.List.TakeWhile
import Mathlib.Order.Lattice

namespace KnowledgeCompiler.Lib

variable {α κ : Type*} [LinearOrder κ] (level : α → κ)

-- The last of the items whose level is below the bound.
def ancestor (before : List α) (bound : κ) : Option α :=
  before.reverse.find? fun item => level item < bound

-- What is left of a stack, its top first, once all at the bound or above it are off.
def unwound (bound : κ) (stack : List α) : List α :=
  stack.dropWhile fun item => bound ≤ level item

-- The stack answers for all that has gone before.
def Tracks (before stack : List α) : Prop :=
  ∀ bound, stack.find? (fun item => level item < bound) = ancestor level before bound

-- Every item stands as it should to those before it.
def EachAfter {α : Type*} (holds : List α → α → Prop) (items : List α) : Prop :=
  ∀ i item, items[i]? = some item → holds (items.take i) item

section Each

variable {α β : Type*} {holds : List α → α → Prop}

theorem eachAfter_nil : EachAfter holds [] := by simp [EachAfter]

theorem EachAfter.append {items : List α} {item : α} (hitems : EachAfter holds items)
    (hitem : holds items item) : EachAfter holds (items ++ [item]) := by
  intro i other hother
  rcases lt_trichotomy i items.length with hlt | rfl | hgt
  · rw [List.take_append_of_le_length hlt.le]
    rw [List.getElem?_append_left hlt] at hother
    exact hitems i other hother
  · rw [List.getElem?_append_right le_rfl, Nat.sub_self] at hother
    cases hother
    simpa using hitem
  · rw [List.getElem?_append_right hgt.le] at hother
    simp [Nat.sub_ne_zero_of_lt hgt] at hother

theorem EachAfter.map {items : List α} (hitems : EachAfter holds items) {change : α → β}
    {also : List β → β → Prop}
    (hchange : ∀ before item, holds before item → also (before.map change) (change item)) :
    EachAfter also (items.map change) := by
  intro i other hother
  rw [List.getElem?_map, Option.map_eq_some_iff] at hother
  obtain ⟨item, hitem, rfl⟩ := hother
  rw [← List.map_take]
  exact hchange _ _ (hitems i item hitem)

theorem EachAfter.imp {items : List α} {also : List α → α → Prop} (hitems : EachAfter holds items)
    (himp : ∀ before item, holds before item → also before item) : EachAfter also items :=
  fun i item hitem => himp _ _ (hitems i item hitem)

end Each

section Stack

variable {level}

theorem tracks_nil : Tracks level [] [] := fun _ => rfl

theorem head?_unwound (bound : κ) (stack : List α) :
    (unwound level bound stack).head? = stack.find? fun item => level item < bound := by
  induction stack with
  | nil => rfl
  | cons item stack ih =>
      unfold unwound at ih ⊢
      by_cases hlevel : level item < bound
      · simp [hlevel]
      · simpa [List.dropWhile_cons, hlevel, le_of_not_gt hlevel] using ih

theorem find?_unwound {bound limit : κ} (hle : limit ≤ bound) (stack : List α) :
    (unwound level bound stack).find? (fun item => level item < limit) =
      stack.find? fun item => level item < limit := by
  induction stack with
  | nil => rfl
  | cons item stack ih =>
      unfold unwound at ih ⊢
      by_cases hlevel : bound ≤ level item
      · simpa [List.dropWhile_cons, hlevel, hle.trans hlevel] using ih
      · simp [hlevel]

theorem Tracks.head? {before stack : List α} (htracks : Tracks level before stack) (bound : κ) :
    (unwound level bound stack).head? = ancestor level before bound :=
  (head?_unwound bound stack).trans (htracks bound)

theorem ancestor_append (before : List α) (item : α) (bound : κ) :
    ancestor level (before ++ [item]) bound =
      if level item < bound then some item else ancestor level before bound := by
  unfold ancestor
  rw [List.reverse_append, List.reverse_singleton, List.singleton_append, List.find?_cons]
  by_cases hlevel : level item < bound <;> simp [hlevel]

theorem Tracks.push {before stack : List α} (htracks : Tracks level before stack) (item : α) :
    Tracks level (before ++ [item]) (item :: unwound level (level item) stack) := by
  intro bound
  rw [ancestor_append, List.find?_cons]
  by_cases hlevel : level item < bound
  · simp [hlevel]
  · simp [hlevel, find?_unwound (le_of_not_gt hlevel), htracks bound]

theorem mem_of_mem_unwound {bound : κ} {stack : List α} {item : α}
    (hitem : item ∈ unwound level bound stack) : item ∈ stack :=
  (List.dropWhile_suffix _).subset hitem

theorem unwound_congr {other : α → κ} {bound : κ} {stack : List α}
    (hsame : ∀ item ∈ stack, level item = other item) :
    unwound level bound stack = unwound other bound stack := by
  induction stack with
  | nil => rfl
  | cons item stack ih =>
      obtain ⟨hitem, hrest⟩ := List.forall_mem_cons.mp hsame
      unfold unwound at ih ⊢
      rw [List.dropWhile_cons, List.dropWhile_cons, hitem, ih hrest]

theorem ancestor_map {β : Type*} {change : β → α} (before : List β) (bound : κ) :
    ancestor level (before.map change) bound =
      (ancestor (level ∘ change) before bound).map change := by
  unfold ancestor
  rw [← List.map_reverse, List.find?_map]
  rfl

-- The ancestor stands earlier, below the bound, and nothing after it does.
theorem ancestor_eq_some_iff {before : List α} {bound : κ} {item : α} :
    ancestor level before bound = some item ↔
      ∃ earlier between, before = earlier ++ item :: between ∧ level item < bound ∧
        ∀ other ∈ between, bound ≤ level other := by
  unfold ancestor
  rw [List.find?_eq_some_iff_append]
  constructor
  · rintro ⟨hitem, between, earlier, hbefore, hall⟩
    refine ⟨earlier.reverse, between.reverse, ?_, by simpa using hitem, ?_⟩
    · rw [← List.reverse_reverse before, hbefore]
      simp
    · intro other hother
      simpa using hall other (List.mem_reverse.mp hother)
  · rintro ⟨earlier, between, rfl, hitem, hall⟩
    refine ⟨by simpa using hitem, between.reverse, earlier.reverse, by simp, ?_⟩
    intro other hother
    simpa using hall other (List.mem_reverse.mp hother)

theorem mem_of_ancestor {before : List α} {bound : κ} {item : α}
    (hancestor : ancestor level before bound = some item) : item ∈ before := by
  obtain ⟨earlier, between, rfl, _⟩ := ancestor_eq_some_iff.mp hancestor
  simp

end Stack

end KnowledgeCompiler.Lib
