import KnowledgeCompiler.Identity.Matching.Optimal
import KnowledgeCompiler.Quality.NumericMatching

namespace KnowledgeCompiler.Quality

open Lib Identity Finset

-- A matrix whose scores are exact.
abbrev ExactWeights := List (List (Option ℚ))

namespace ExactAssignment

open Matching (Labels Placed Row)

-- `weights[row][column]`
def entry (weights : ExactWeights) (row column : ℕ) : Option ℚ := (weights[row]!)[column]!

def invalid_weight : ℚ := -1000000

def square (weights : ExactWeights) (row_count column_count row column : ℕ) : ℚ :=
  if row < row_count ∧ column < column_count then (entry weights row column).getD invalid_weight
  else 0

-- `max(values)`
def maximum : List ℚ → ℚ
  | [] => 0
  | value :: rest => rest.foldl max value

def costs (weights : ExactWeights) (row_count column_count : ℕ) : ℕ → ℕ → ℚ :=
  let size := row_count + column_count
  let cell := square weights row_count column_count
  let greatest := maximum ((List.range size).map
    (fun row => maximum ((List.range size).map (cell row))))
  fun row column => greatest - cell row column

-- One row of the outer loop. The second inner loop tests at its end.
def place (cost : ℕ → ℕ → ℚ) (size : ℕ) (labels : Labels) (row : ℕ) : Option Labels := do
  let matching := Function.update labels.parent 0 row
  let search ← Matching.search cost size matching (size + 1)
    { u := labels.u
      v := labels.v
      minv := fun _ => none
      way := labels.way
      used := fun _ => false
      j0 := 0 }
  let matching ← Assignment.augment search.way (size + 1) matching search.j0
  return { u := search.u, v := search.v, parent := matching, way := search.way }

-- What a column of the square adds to the assignment.
def picked (weights : ExactWeights) (row_count column_count : ℕ) (matching : ℕ → ℕ) (column : ℕ) :
    Option (ℕ × ℕ) :=
  let row := matching column
  if (1 ≤ row ∧ row ≤ row_count) ∧ 1 ≤ column ∧ column ≤ column_count then
    if (entry weights (row - 1) (column - 1)).any (0 < ·) then some (row - 1, column - 1) else none
  else none

def _maximum_weight_assignment (weights : ExactWeights) : Option (Dict ℕ ℕ) :=
  let row_count := weights.length
  let column_count := (weights.headD []).length
  if row_count = 0 ∨ column_count = 0 then some .empty
  else do
    let size := row_count + column_count
    let labels ← (List.range' 1 size).foldlM
      (place (costs weights row_count column_count) size)
      ⟨fun _ => 0, fun _ => 0, fun _ => 0, fun _ => 0⟩
    return (List.range' 1 size).foldl
      (Dict.collect (picked weights row_count column_count labels.parent)) .empty

section Placing

variable {cost : ℕ → ℕ → ℚ} {size : ℕ}

theorem augment_of_head_test (way : ℕ → ℕ) (fuel : ℕ) (parent : ℕ → ℕ) (column : ℕ)
    {final : ℕ → ℕ} (h : Matching.augment way fuel parent column = some final) (hcolumn : column ≠ 0) :
    Assignment.augment way fuel parent column = some final := by
  induction fuel generalizing parent column with
  | zero =>
      rw [Matching.augment, if_neg hcolumn] at h
      cases h
  | succ fuel ih =>
      rw [Matching.augment, if_neg hcolumn] at h
      rw [Assignment.augment]
      by_cases hzero : way column = 0
      · rw [hzero] at h
        have hdone : Matching.augment way fuel (Function.update parent column (parent 0)) 0 =
            some (Function.update parent column (parent 0)) := by
          cases fuel <;> exact if_pos rfl
        rw [hdone] at h
        simp only [hzero, if_pos]
        exact h
      · simp only [if_neg hzero]
        exact ih _ _ h hzero

theorem search_free {parent : ℕ → ℕ} (fuel : ℕ) (s : Matching.Search) {final : Matching.Search}
    (h : Matching.search cost size parent fuel s = some final) : parent final.j0 = 0 := by
  induction fuel generalizing s with
  | zero => cases h
  | succ fuel ih =>
      rw [Matching.search] at h
      split at h
      · cases h
      · rename_i next _
        split at h
        · rename_i hfree
          obtain rfl := Option.some.inj h
          exact hfree
        · exact ih next h

theorem place_of_head_test {labels next : Labels} {row : ℕ} (hrow : row ≠ 0)
    (h : Matching.place cost size labels row = some next) : place cost size labels row = some next := by
  simp only [Matching.place, Option.bind_eq_bind, Option.bind_eq_some_iff] at h
  obtain ⟨found, hsearch, final, haugment, hnext⟩ := h
  have hfree := search_free _ _ hsearch
  have hcolumn : found.j0 ≠ 0 := by
    intro hzero
    rw [hzero, Function.update_self] at hfree
    exact hrow hfree
  rw [place, Option.bind_eq_bind, hsearch, Option.bind_some, Option.bind_eq_bind,
    augment_of_head_test _ _ _ _ haugment hcolumn]
  exact hnext

theorem exists_placed (cost : ℕ → ℕ → ℚ) (size : ℕ) :
    ∃ labels, (List.range' 1 size).foldlM (place cost size)
        ⟨fun _ => 0, fun _ => 0, fun _ => 0, fun _ => 0⟩ = some labels ∧
      Placed cost size size labels := by
  have hrows (k n : ℕ) (labels : Labels) (hinv : Placed cost size n labels) (hsize : n + k = size) :
      ∃ final, (List.range' (n + 1) k).foldlM (place cost size) labels = some final ∧
        Placed cost size size final := by
    induction k generalizing n labels with
    | zero => exact ⟨labels, rfl, by simpa [← hsize] using hinv⟩
    | succ k ih =>
        obtain ⟨next, hplace, hnext⟩ := hinv.place (by omega)
        obtain ⟨final, hrest, hfinal⟩ := ih (n + 1) next hnext (by omega)
        have hplace' := place_of_head_test (Nat.succ_ne_zero n) hplace
        exact ⟨final, by simp [List.range'_succ, hplace', hrest], hfinal⟩
  exact hrows size 0 _ (Matching.placed_start cost size) (Nat.zero_add size)

-- The prices of the last round make the permutation a cheapest one.
theorem cost_le {labels : Labels} (hinv : Placed cost size size labels) (best : Equiv.Perm (Fin size))
    (hbest : ∀ row, labels.parent (best row + 1) = row + 1) (full : Equiv.Perm (Fin size)) :
    ∑ row : Fin size, cost row (best row) ≤ ∑ row : Fin size, cost row (full row) := by
  have htight : ∀ row : Fin size, cost row (best row) = labels.u (row + 1) + labels.v (best row + 1) := by
    intro row
    have h := hinv.tight (best row + 1) (Row.succ _) (by rw [hbest]; omega)
    simp only [Matching.Tight, Matching.reduced, hbest, Nat.add_sub_cancel] at h
    linarith
  have hfeasible : ∀ row : Fin size, labels.u (row + 1) + labels.v (full row + 1) ≤ cost row (full row) := by
    intro row
    have h := hinv.feasible (row + 1) (full row + 1) (Row.succ row) (Row.succ (full row))
    simp only [Matching.reduced, Nat.add_sub_cancel] at h
    linarith
  have hprice : ∀ perm : Equiv.Perm (Fin size),
      ∑ row : Fin size, (labels.u (row + 1) + labels.v (perm row + 1)) =
        ∑ row : Fin size, labels.u (row + 1) + ∑ column : Fin size, labels.v (column + 1) := by
    intro perm
    rw [sum_add_distrib, Equiv.sum_comp perm fun column : Fin size => labels.v (column + 1)]
  calc
    ∑ row : Fin size, cost row (best row) =
        ∑ row : Fin size, (labels.u (row + 1) + labels.v (best row + 1)) :=
      sum_congr rfl fun row _ => htight row
    _ = ∑ row : Fin size, (labels.u (row + 1) + labels.v (full row + 1)) := by
      rw [hprice best, hprice full]
    _ ≤ ∑ row : Fin size, cost row (full row) := sum_le_sum fun row _ => hfeasible row

end Placing

section Maps

-- A partial injective map over the eligible entries.
structure EligibleMap (weights : ExactWeights) where
  partner : ℕ → Option ℕ
  eligible : ∀ row column, partner row = some column → (entry weights row column).isSome
  injective : Lib.Assignment.Injective partner

def total (weights : ExactWeights) (partner : ℕ → Option ℕ) : ℚ :=
  Lib.Assignment.total (range weights.length) (fun row column => (entry weights row column).getD 0)
    partner

-- An assignment that no map over the eligible entries outweighs.
structure IsMaximum (weights : ExactWeights) (assignment : Dict ℕ ℕ) : Prop where
  positive : ∀ row column, assignment.get? row = some column →
    ∃ weight, entry weights row column = some weight ∧ 0 < weight
  injective : Lib.Assignment.Injective assignment.get?
  greatest : ∀ other : EligibleMap weights, total weights other.partner ≤ total weights assignment.get?

variable {weights : ExactWeights} {cols : ℕ}

theorem lt_of_entry {row column : ℕ} (hrect : ∀ line ∈ weights, line.length = cols)
    (hentry : (entry weights row column).isSome) : row < weights.length ∧ column < cols := by
  unfold entry at hentry
  have hrow : row < weights.length := by
    by_contra hout
    rw [getElem!_neg weights row hout] at hentry
    cases hentry
  rw [getElem!_pos weights row hrow] at hentry
  have hcolumn : column < (weights[row]).length := by
    by_contra hout
    rw [getElem!_neg _ column hout] at hentry
    cases hentry
  exact ⟨hrow, by rwa [hrect _ (List.getElem_mem hrow)] at hcolumn⟩

-- The rows past the matrix carry no weight.
theorem total_eq_sum {partner : ℕ → Option ℕ} {size : ℕ} (hsize : weights.length ≤ size)
    (hdomain : ∀ row column, partner row = some column → row < weights.length) :
    total weights partner = ∑ row : Fin size,
      (partner row).elim 0 fun column => (entry weights row column).getD 0 := by
  rw [Fin.sum_univ_eq_sum_range
    fun row => (partner row).elim 0 fun column => (entry weights row column).getD 0]
  refine sum_subset (range_subset_range.mpr hsize) ?_
  intro row _ hout
  cases hp : partner row with
  | none => rfl
  | some column => exact absurd (mem_range.mpr (hdomain row column hp)) hout

-- Every real row that a map leaves out goes to a zero column of its own.
theorem EligibleMap.exists_full (hrect : ∀ line ∈ weights, line.length = cols)
    (other : EligibleMap weights) :
    ∃ full : Equiv.Perm (Fin (weights.length + cols)),
      ∑ row : Fin (weights.length + cols), square weights weights.length cols row (full row) =
        total weights other.partner := by
  have hdomain : ∀ row column, other.partner row = some column → row < weights.length ∧ column < cols :=
    fun row column h => lt_of_entry hrect (other.eligible row column h)
  have hpartner : ∀ row : Fin (weights.length + cols),
      ∃ column : Option (Fin (weights.length + cols)),
        column.map Fin.val = if row.val < weights.length then
          some ((other.partner row).getD (cols + row)) else none := by
    intro row
    by_cases hrow : row.val < weights.length
    · rw [if_pos hrow]
      cases hp : other.partner row with
      | none => exact ⟨some ⟨cols + row, by omega⟩, rfl⟩
      | some column => exact ⟨some ⟨column, by have := (hdomain _ _ hp).2; omega⟩, rfl⟩
    · rw [if_neg hrow]
      exact ⟨none, rfl⟩
  choose partner hpartner using hpartner
  have hvalue : ∀ row column, partner row = some column → row.val < weights.length ∧
      column.val = (other.partner row).getD (cols + row) := by
    intro row column h
    have hmap := hpartner row
    rw [h] at hmap
    split at hmap
    · rename_i hrow
      exact ⟨hrow, Option.some.inj hmap⟩
    · cases hmap
  have hinj : Lib.Assignment.Injective partner := by
    intro first second column h1 h2
    obtain ⟨-, hv1⟩ := hvalue first column h1
    obtain ⟨-, hv2⟩ := hvalue second column h2
    apply Fin.ext
    cases hp1 : other.partner first with
    | none =>
        cases hp2 : other.partner second with
        | none =>
            rw [hp1, Option.getD_none] at hv1
            rw [hp2, Option.getD_none] at hv2
            omega
        | some c2 =>
            rw [hp1, Option.getD_none] at hv1
            rw [hp2, Option.getD_some] at hv2
            have := (hdomain _ _ hp2).2
            omega
    | some c1 =>
        cases hp2 : other.partner second with
        | none =>
            rw [hp1, Option.getD_some] at hv1
            rw [hp2, Option.getD_none] at hv2
            have := (hdomain _ _ hp1).2
            omega
        | some c2 =>
            rw [hp1, Option.getD_some] at hv1
            rw [hp2, Option.getD_some] at hv2
            exact other.injective _ _ c1 hp1 (by rw [hp2, ← hv2, hv1])
  obtain ⟨full, hfull⟩ := Lib.Assignment.exists_perm_extending partner hinj
  refine ⟨full, ?_⟩
  rw [total_eq_sum (Nat.le_add_right weights.length cols) fun row column h => (hdomain row column h).1]
  refine sum_congr rfl fun row _ => ?_
  by_cases hrow : row.val < weights.length
  · obtain ⟨column, hcolumn⟩ : ∃ column, partner row = some column := by
      have hmap := hpartner row
      rw [if_pos hrow] at hmap
      obtain ⟨column, hcolumn, -⟩ := Option.map_eq_some_iff.mp hmap
      exact ⟨column, hcolumn⟩
    rw [hfull row column hcolumn]
    have hv := (hvalue row column hcolumn).2
    cases hp : other.partner row with
    | none =>
        rw [hp, Option.getD_none] at hv
        exact if_neg fun h => by have := h.2; omega
    | some c =>
        rw [hp, Option.getD_some] at hv
        obtain ⟨weight, hweight⟩ := Option.isSome_iff_exists.mp (other.eligible _ _ hp)
        rw [hv, square, if_pos ⟨hrow, (hdomain _ _ hp).2⟩, Option.elim_some, hweight]
        rfl
  · have hnone : other.partner row = none := by
      cases hp : other.partner row with
      | none => rfl
      | some c => exact absurd (hdomain _ _ hp).1 hrow
    rw [hnone, square, if_neg fun h => hrow h.1]
    rfl

-- What the permutation assigns: real pairs of positive weight.
def Chosen {size : ℕ} (weights : ExactWeights) (cols : ℕ) (best : Equiv.Perm (Fin size))
    (row column : ℕ) : Prop :=
  ∃ hrow : row < size, (best ⟨row, hrow⟩).val = column ∧ row < weights.length ∧ column < cols ∧
    ∃ weight, entry weights row column = some weight ∧ 0 < weight

theorem picked_eq_some {matching : ℕ → ℕ} {column : ℕ} {pair : ℕ × ℕ} :
    picked weights weights.length cols matching column = some pair ↔
      matching column = pair.1 + 1 ∧ column = pair.2 + 1 ∧ pair.1 < weights.length ∧ pair.2 < cols ∧
        ∃ weight, entry weights pair.1 pair.2 = some weight ∧ 0 < weight := by
  unfold picked
  dsimp only
  constructor
  · intro h
    split_ifs at h with hin hpositive
    obtain rfl := Option.some.inj h
    obtain ⟨weight, hweight, hlt⟩ := (Option.any_eq_true _ _).mp hpositive
    exact ⟨by dsimp only; omega, by dsimp only; omega, by dsimp only; omega, by dsimp only; omega,
      weight, hweight, of_decide_eq_true hlt⟩
  · rintro ⟨hrow, hcolumn, hr, hc, weight, hweight, hlt⟩
    have hin : (1 ≤ matching column ∧ matching column ≤ weights.length) ∧ 1 ≤ column ∧ column ≤ cols := by
      omega
    rw [if_pos hin, hrow, hcolumn, Nat.add_sub_cancel, Nat.add_sub_cancel, hweight,
      if_pos (by simpa using hlt)]

theorem collected_iff {labels : Labels} {cost : ℕ → ℕ → ℚ} {size : ℕ}
    (hinv : Placed cost size size labels) (best : Equiv.Perm (Fin size))
    (hbest : ∀ row, labels.parent (best row + 1) = row + 1) (row column : ℕ) :
    ((List.range' 1 size).foldl
        (Dict.collect (picked weights weights.length cols labels.parent)) .empty).get? row =
      some column ↔ Chosen weights cols best row column := by
  rw [Dict.get?_foldl_collect]
  · simp only [Dict.get?_empty, reduceCtorEq, false_or, picked_eq_some]
    constructor
    · rintro ⟨j, hj, hrow, rfl, hr, hc, hweight⟩
      have hj' := Matching.mem_columns.mp hj
      have hbound := hinv.bound _ hj'
      have hlt : row < size := by omega
      have hperm := (hinv.perm_iff best hbest ⟨row, hlt⟩ ⟨column, hj'.2⟩).mp hrow
      exact ⟨hlt, congrArg Fin.val hperm, hr, hc, hweight⟩
    · rintro ⟨hlt, rfl, hr, hc, hweight⟩
      exact ⟨_, Matching.mem_columns.mpr (Row.succ (best ⟨row, hlt⟩)), hbest ⟨row, hlt⟩, rfl, hr, hc,
        hweight⟩
  · refine List.Pairwise.imp_of_mem ?_ (List.nodup_range' ..)
    intro first second hfirst hsecond hne p hp q hq heq
    have h1 := picked_eq_some.mp hp
    have h2 := picked_eq_some.mp hq
    refine hne (hinv.inj _ _ (Matching.mem_columns.mp hfirst) (Matching.mem_columns.mp hsecond) ?_ ?_)
    · rw [h1.1]
      exact Nat.succ_ne_zero _
    · rw [h1.1, h2.1, heq]
  · simp

-- Ineligible cells and cells that are not positive add nothing to the permutation.
theorem square_le {size : ℕ} {assignment : Dict ℕ ℕ} (best : Equiv.Perm (Fin size))
    (hchosen : ∀ row column, assignment.get? row = some column ↔ Chosen weights cols best row column)
    (row : Fin size) :
    square weights weights.length cols row (best row) ≤
      (assignment.get? row).elim 0 fun column => (entry weights row column).getD 0 := by
  cases hget : assignment.get? row with
  | some column =>
      obtain ⟨_, rfl, hr, hc, weight, hweight, -⟩ := (hchosen row column).mp hget
      have hweight' : entry weights row (best row) = some weight := hweight
      rw [square, if_pos ⟨hr, hc⟩, Option.elim_some, hweight']
      exact le_refl _
  | none =>
      rw [Option.elim_none, square]
      split
      · rename_i hin
        cases hweight : entry weights row (best row) with
        | none =>
            rw [Option.getD_none, invalid_weight]
            norm_num
        | some weight =>
            rw [Option.getD_some]
            by_contra hlt
            have hsome := (hchosen row (best row)).mpr
              ⟨row.2, rfl, hin.1, hin.2, weight, hweight, not_le.mp hlt⟩
            rw [hget] at hsome
            cases hsome
      · exact le_refl 0

theorem isMaximum_of_chosen {labels : Labels} {assignment : Dict ℕ ℕ}
    (hrect : ∀ line ∈ weights, line.length = cols)
    (hinv : Placed (costs weights weights.length cols) (weights.length + cols) (weights.length + cols)
      labels)
    (best : Equiv.Perm (Fin (weights.length + cols)))
    (hbest : ∀ row, labels.parent (best row + 1) = row + 1)
    (hchosen : ∀ row column, assignment.get? row = some column ↔ Chosen weights cols best row column) :
    IsMaximum weights assignment := by
  constructor
  · intro row column hget
    obtain ⟨_, _, _, _, hweight⟩ := (hchosen row column).mp hget
    exact hweight
  · intro first second column h1 h2
    obtain ⟨_, he1, _⟩ := (hchosen first column).mp h1
    obtain ⟨_, he2, _⟩ := (hchosen second column).mp h2
    exact congrArg Fin.val (best.injective (Fin.ext (he1.trans he2.symm)))
  · intro other
    obtain ⟨full, hfull⟩ := other.exists_full hrect
    have hcost := cost_le hinv best hbest full
    simp only [costs, sum_sub_distrib, sub_le_sub_iff_left] at hcost
    have hdomain : ∀ row column, assignment.get? row = some column → row < weights.length := by
      intro row column hget
      obtain ⟨_, _, hrow, _⟩ := (hchosen row column).mp hget
      exact hrow
    rw [← hfull, total_eq_sum (Nat.le_add_right weights.length cols) hdomain]
    exact hcost.trans (sum_le_sum fun row _ => square_le best hchosen row)

theorem isMaximum_of_empty (hrect : ∀ line ∈ weights, line.length = cols)
    (hempty : weights.length = 0 ∨ cols = 0) : IsMaximum weights .empty := by
  constructor
  · intro row column hget
    cases hget
  · intro first second column h1
    cases h1
  · intro other
    have hnone : ∀ row, other.partner row = none := by
      intro row
      cases hp : other.partner row with
      | none => rfl
      | some column =>
          have := lt_of_entry hrect (other.eligible row column hp)
          omega
    simp [total, Lib.Assignment.total, hnone]

theorem exists_isMaximum (weights : ExactWeights) (cols : ℕ)
    (hrect : ∀ line ∈ weights, line.length = cols) :
    ∃ assignment, _maximum_weight_assignment weights = some assignment ∧ IsMaximum weights assignment := by
  by_cases hempty : weights.length = 0 ∨ (weights.headD []).length = 0
  · refine ⟨.empty, if_pos hempty, ?_⟩
    cases weights with
    | nil => exact isMaximum_of_empty hrect (Or.inl rfl)
    | cons line rest =>
        have hline : line.length = cols := hrect line List.mem_cons_self
        exact isMaximum_of_empty hrect (Or.inr (hline ▸ hempty.resolve_left (Nat.succ_ne_zero _)))
  · have hhead : (weights.headD []).length = cols := by
      cases weights with
      | nil => exact absurd (Or.inl rfl) hempty
      | cons line rest => exact hrect line List.mem_cons_self
    obtain ⟨labels, hrun, hinv⟩ := exists_placed (costs weights weights.length cols)
      (weights.length + cols)
    obtain ⟨best, hbest⟩ := hinv.exists_perm
    refine ⟨_, ?_, isMaximum_of_chosen hrect hinv best hbest (collected_iff hinv best hbest)⟩
    unfold _maximum_weight_assignment
    rw [if_neg hempty]
    simp only [hhead, hrun]
    rfl

theorem maximum_weight_assignment_optimal (weights : ExactWeights) (cols : ℕ)
    (hrect : ∀ line ∈ weights, line.length = cols) :
    ∃ assignment, _maximum_weight_assignment weights = some assignment ∧
      (∀ row column, assignment.get? row = some column →
        ∃ weight, entry weights row column = some weight ∧ 0 < weight) ∧
      Lib.Assignment.Injective assignment.get? ∧
      ∀ other : EligibleMap weights,
        total weights other.partner ≤ total weights assignment.get? := by
  obtain ⟨assignment, hrun, hmaximum⟩ := exists_isMaximum weights cols hrect
  exact ⟨assignment, hrun, hmaximum.positive, hmaximum.injective, hmaximum.greatest⟩

end Maps

def two_facts : ExactWeights := [[some (9 / 10), none], [some (7 / 10), some (6 / 10)]]

theorem two_facts_assigned :
    ∃ assignment, _maximum_weight_assignment two_facts = some assignment ∧
      Lib.Assignment.Injective assignment.get? ∧
      ∀ other : EligibleMap two_facts,
        total two_facts other.partner ≤ total two_facts assignment.get? := by
  obtain ⟨assignment, hrun, -, hinjective, hgreatest⟩ :=
    maximum_weight_assignment_optimal two_facts 2 (by simp [two_facts])
  exact ⟨assignment, hrun, hinjective, hgreatest⟩

end ExactAssignment

end KnowledgeCompiler.Quality
