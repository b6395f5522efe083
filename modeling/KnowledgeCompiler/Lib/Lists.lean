import Mathlib.Data.List.Basic
import Mathlib.Data.List.Chain
import Mathlib.Data.List.Forall2
import Mathlib.Data.List.Nodup
import Mathlib.Data.List.Perm.Basic

namespace KnowledgeCompiler.Lib

-- A list that goes from each of its items to the next one, to where there is none.
structure Linked {α : Type*} (next : α → Option α) (chain : List α) : Prop where
  steps : chain.IsChain (fun item follower => next item = some follower)
  closed : ∀ last ∈ chain.getLast?, next last = none

namespace Linked

variable {α : Type*} {next : α → Option α}

theorem single {item : α} (hnone : next item = none) : Linked next [item] where
  steps := List.isChain_singleton item
  closed := by simpa using hnone

theorem cons {item follower : α} {rest : List α} (hlinked : Linked next (follower :: rest))
    (hnext : next item = some follower) : Linked next (item :: follower :: rest) where
  steps := List.isChain_cons_cons.mpr ⟨hnext, hlinked.steps⟩
  closed := by
    rw [List.getLast?_cons_cons]
    exact hlinked.closed

-- The follower of an item of the list stands right after it.
theorem split_of_mem {chain : List α} (hlinked : Linked next chain) {item follower : α}
    (hitem : item ∈ chain) (hnext : next item = some follower) :
    ∃ before after, chain = before ++ item :: follower :: after := by
  obtain ⟨before, rest, rfl⟩ := List.append_of_mem hitem
  cases rest with
  | nil =>
    have hnone := hlinked.closed item (by simp)
    rw [hnext] at hnone
    cases hnone
  | cons other after =>
    have hother := List.isChain_iff_forall_rel_of_append_cons_cons.mp hlinked.steps rfl
    obtain rfl := Option.some.inj (hnext.symm.trans hother)
    exact ⟨before, after, rfl⟩

end Linked

namespace Grouping

variable {α β κ : Type*} [DecidableEq κ]

-- The items of a list key by key are all its items, when the keys are distinct and enough.
theorem flatMap_filter_perm {keys : List κ} (hkeys : keys.Nodup) (key : α → κ) (items : List α)
    (hcover : ∀ item ∈ items, key item ∈ keys) :
    (keys.flatMap fun wanted => items.filter fun item => key item = wanted).Perm items := by
  induction items with
  | nil => simp
  | cons item rest ih =>
      have hrest := ih fun other hmem => hcover other (List.mem_cons_of_mem _ hmem)
      obtain ⟨before, after, rfl⟩ := List.append_of_mem (hcover item List.mem_cons_self)
      have hapart : ∀ wanted ∈ before ++ after, key item ≠ wanted := by
        intro wanted hmem heq
        have hnodup := List.nodup_middle.mp hkeys
        exact (List.nodup_cons.mp hnodup).1 (heq ▸ hmem)
      have hskip (part : List κ) (hpart : ∀ wanted ∈ part, wanted ∈ before ++ after) :
          (part.flatMap fun wanted => (item :: rest).filter fun other => key other = wanted) =
            part.flatMap fun wanted => rest.filter fun other => key other = wanted := by
        refine List.flatMap_congr fun wanted hmem => ?_
        rw [List.filter_cons_of_neg]
        simpa using hapart wanted (hpart wanted hmem)
      have hbefore := hskip before fun wanted hmem => List.mem_append_left _ hmem
      have hafter := hskip after fun wanted hmem => List.mem_append_right _ hmem
      rw [List.flatMap_append, List.flatMap_cons, hbefore, hafter, List.filter_cons_of_pos (by simp)]
      rw [List.flatMap_append, List.flatMap_cons] at hrest
      rw [List.cons_append]
      exact List.perm_middle.trans (hrest.cons item)

theorem flatMap_getElem? (items : List α) (count : ℕ) (hcount : items.length ≤ count) :
    ((List.range count).flatMap fun index => items[index]?.toList) = items := by
  induction items generalizing count with
  | nil => simp
  | cons item rest ih =>
      cases count with
      | zero => simp at hcount
      | succ count =>
          rw [List.range_succ_eq_map, List.flatMap_cons, List.flatMap_map]
          simp only [List.getElem?_cons_zero, Option.toList_some, Nat.succ_eq_add_one,
            List.getElem?_cons_succ, List.singleton_append]
          rw [ih count (by simpa using hcount)]

end Grouping

section Occurrences

variable {α β : Type*} [DecidableEq α]

-- Each item with the number of those that are equal to it and come before it.
def occurrencesFrom (seen : List α) : List α → List (α × Nat)
  | [] => []
  | item :: rest => (item, seen.count item) :: occurrencesFrom (item :: seen) rest

def occurrences (items : List α) : List (α × Nat) := occurrencesFrom [] items

theorem mem_occurrencesFrom {items seen : List α} {item : α} {number : Nat} :
    (item, number) ∈ occurrencesFrom seen items ↔
      seen.count item ≤ number ∧ number < seen.count item + items.count item := by
  induction items generalizing seen with
  | nil =>
      rw [occurrencesFrom, List.count_nil]
      exact iff_of_false List.not_mem_nil (by omega)
  | cons first rest ih =>
      rw [occurrencesFrom, List.mem_cons, ih]
      by_cases hitem : first = item
      · subst hitem
        rw [List.count_cons_self, List.count_cons_self, Prod.mk.injEq]
        simp only [true_and]
        omega
      · rw [List.count_cons_of_ne hitem, List.count_cons_of_ne hitem, Prod.mk.injEq]
        have hother : ¬(item = first ∧ number = seen.count first) := fun h => hitem h.1.symm
        rw [or_iff_right hother]

theorem mem_occurrences {items : List α} {item : α} {number : Nat} :
    (item, number) ∈ occurrences items ↔ number < items.count item := by
  rw [occurrences, mem_occurrencesFrom, List.count_nil]
  omega

theorem nodup_occurrencesFrom (items seen : List α) : (occurrencesFrom seen items).Nodup := by
  induction items generalizing seen with
  | nil => exact List.nodup_nil
  | cons first rest ih =>
      refine List.nodup_cons.mpr ⟨fun hmem => ?_, ih _⟩
      rw [mem_occurrencesFrom, List.count_cons_self] at hmem
      omega

-- Names that are made of the items and their numbers.
theorem nodup_map_occurrences_iff {items : List α} {name : α → Nat → β} :
    ((occurrences items).map (fun occurrence => name occurrence.1 occurrence.2)).Nodup ↔
      ∀ first n second m, n < items.count first → m < items.count second →
        name first n = name second m → first = second ∧ n = m := by
  have hnodup : (occurrences items).Nodup := nodup_occurrencesFrom items []
  rw [List.nodup_map_iff_inj_on hnodup]
  constructor
  · intro hinj first n second m hfirst hsecond hname
    have hequal := hinj (first, n) (mem_occurrences.mpr hfirst) (second, m)
      (mem_occurrences.mpr hsecond) hname
    exact Prod.mk.injEq _ _ _ _ ▸ hequal
  · rintro hnames ⟨first, n⟩ hfirst ⟨second, m⟩ hsecond hname
    obtain ⟨rfl, rfl⟩ := hnames first n second m (mem_occurrences.mp hfirst)
      (mem_occurrences.mp hsecond) hname
    rfl

end Occurrences

section Pairs

variable {α ε : Type*}

-- The pairs of a list's items, the earlier item first.
def pairs : List α → List (α × α)
  | [] => []
  | first :: rest => rest.map (first, ·) ++ pairs rest

theorem mem_pairs_cons {first : α} {rest : List α} {pair : α × α} :
    pair ∈ pairs (first :: rest) ↔ (pair.1 = first ∧ pair.2 ∈ rest) ∨ pair ∈ pairs rest := by
  obtain ⟨one, other⟩ := pair
  simp only [pairs, List.mem_append, List.mem_map, Prod.mk.injEq]
  constructor
  · rintro (⟨_, hmem, rfl, rfl⟩ | hmem)
    · exact Or.inl ⟨rfl, hmem⟩
    · exact Or.inr hmem
  · rintro (⟨rfl, hmem⟩ | hmem)
    · exact Or.inl ⟨other, hmem, rfl, rfl⟩
    · exact Or.inr hmem

-- The items of another order make the same pairs, some the other way round.
theorem mem_pairs_of_perm {first second : List α} (hperm : first.Perm second) {pair : α × α}
    (hmem : pair ∈ pairs first) : pair ∈ pairs second ∨ pair.swap ∈ pairs second := by
  induction hperm generalizing pair with
  | nil => exact Or.inl hmem
  | cons item hrest ih =>
      rcases mem_pairs_cons.mp hmem with ⟨hfirst, hother⟩ | hmem
      · exact Or.inl (mem_pairs_cons.mpr (Or.inl ⟨hfirst, hrest.subset hother⟩))
      · rcases ih hmem with hmem | hmem
        · exact Or.inl (mem_pairs_cons.mpr (Or.inr hmem))
        · exact Or.inr (mem_pairs_cons.mpr (Or.inr hmem))
  | swap one other rest =>
      simp only [mem_pairs_cons, List.mem_cons, Prod.fst_swap, Prod.snd_swap] at hmem ⊢
      tauto
  | trans _ _ ihfirst ihsecond =>
      rcases ihfirst hmem with hmem | hmem
      · exact ihsecond hmem
      · rcases ihsecond hmem with hmem | hmem
        · exact Or.inr hmem
        · exact Or.inl (by simpa using hmem)

-- The items that pass a test, which may raise.
def select (test : α → Except ε Bool) : List α → Except ε (List α)
  | [] => .ok []
  | item :: rest =>
      match test item, select test rest with
      | .error error, _ => .error error
      | .ok _, .error error => .error error
      | .ok true, .ok kept => .ok (item :: kept)
      | .ok false, .ok kept => .ok kept

def passes (test : α → Except ε Bool) (item : α) : Bool :=
  match test item with
  | .ok passed => passed
  | .error _ => false

theorem select_eq_ok_iff {test : α → Except ε Bool} {items found : List α} :
    select test items = .ok found ↔
      (∀ item ∈ items, ∃ passed, test item = .ok passed) ∧ found = items.filter (passes test) := by
  induction items generalizing found with
  | nil => simp [select, eq_comm]
  | cons item rest ih =>
      cases htest : test item with
      | error error => simp [select, htest]
      | ok passed =>
          cases hrest : select test rest with
          | error error =>
              have hnone : ¬∀ other ∈ rest, ∃ passed, test other = .ok passed := by
                intro hall
                have hok := ih.mpr ⟨hall, rfl⟩
                rw [hrest] at hok
                cases hok
              simp only [select, htest, hrest, List.forall_mem_cons, reduceCtorEq, false_iff]
              rintro ⟨⟨_, hall⟩, _⟩
              exact hnone hall
          | ok kept =>
              obtain ⟨hall, rfl⟩ := ih.mp hrest
              have hanswers : ∀ other ∈ item :: rest, ∃ passed, test other = .ok passed :=
                List.forall_mem_cons.mpr ⟨⟨passed, htest⟩, hall⟩
              rw [and_iff_right hanswers]
              cases passed with
              | true => simp [select, htest, hrest, passes, eq_comm]
              | false => simp [select, htest, hrest, passes, eq_comm]

-- Exactly the items with a property are selected when the test decides it of each.
theorem select_exact_iff {test : α → Except ε Bool} {holds : α → Prop} [DecidablePred holds]
    {items : List α} :
    select test items = .ok (items.filter holds) ↔
      ∀ item ∈ items, test item = .ok (decide (holds item)) := by
  rw [select_eq_ok_iff]
  constructor
  · rintro ⟨hall, hfound⟩ item hitem
    obtain ⟨passed, hpassed⟩ := hall item hitem
    have hmem : item ∈ items.filter (holds ·) ↔ item ∈ items.filter (passes test) := by rw [hfound]
    simp only [List.mem_filter, hitem, true_and, decide_eq_true_eq, passes, hpassed] at hmem
    rw [hpassed]
    cases passed with
    | true => simp [hmem]
    | false => simp [hmem]
  · intro htest
    refine ⟨fun item hitem => ⟨_, htest item hitem⟩, List.filter_congr ?_⟩
    intro item hitem
    simp [passes, htest item hitem]

end Pairs

theorem map_eq_of_forall₂ {α β γ : Type*} {first : α → γ} {second : β → γ} {items : List α}
    {others : List β} (hall : List.Forall₂ (fun item other => second other = first item) items others) :
    others.map second = items.map first := by
  induction hall with
  | nil => rfl
  | cons hhead _ ih => rw [List.map_cons, List.map_cons, hhead, ih]

end KnowledgeCompiler.Lib
