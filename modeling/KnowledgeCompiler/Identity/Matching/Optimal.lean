import KnowledgeCompiler.Identity.Matching.Augment
import KnowledgeCompiler.Lib.Assignment

namespace KnowledgeCompiler.Identity.Matching

open Lib Finset

structure PartialMatching (rows cols : Nat) where
  partner : Nat → Option Nat
  row_lt : ∀ row column, partner row = some column → row < rows
  column_lt : ∀ row column, partner row = some column → column < cols
  injective : Assignment.Injective partner

def PartialMatching.weight {rows cols : Nat} (weights : List (List ℚ))
    (matching : PartialMatching rows cols) : ℚ :=
  Assignment.total (range rows) (fun i j => (weights[i]!)[j]!) matching.partner

section Complete

variable {cost : Nat → Nat → ℚ} {size : Nat} {labels : Labels}

theorem Row.succ (row : Fin size) : Row size (row + 1) := ⟨Nat.le_add_left _ _, row.2⟩

-- Once every row is placed, `parent` is a bijection between columns and rows.
theorem Placed.exists_perm (hinv : Placed cost size size labels) :
    ∃ best : Equiv.Perm (Fin size), ∀ row, labels.parent (best row + 1) = row + 1 := by
  have hheld : ∀ row : Fin size, ∃ column : Fin size, labels.parent (column + 1) = row + 1 := by
    intro row
    obtain ⟨j, hj, hp⟩ := hinv.onto (row + 1) (Row.succ row)
    have hj1 := hj.1
    have hj2 := hj.2
    refine ⟨⟨j - 1, by omega⟩, ?_⟩
    rw [← hp]
    congr 1
    show j - 1 + 1 = j
    omega
  choose column hcolumn using hheld
  have hinj : Function.Injective column := by
    intro first second he
    have h := (hcolumn first).symm.trans (he ▸ hcolumn second)
    exact Fin.ext (Nat.succ.inj h)
  exact ⟨Equiv.ofBijective column (Finite.injective_iff_bijective.mp hinj), hcolumn⟩

theorem Placed.perm_iff (hinv : Placed cost size size labels) (best : Equiv.Perm (Fin size))
    (hbest : ∀ row, labels.parent (best row + 1) = row + 1) (row column : Fin size) :
    labels.parent (column + 1) = row + 1 ↔ best row = column := by
  constructor
  · intro hp
    have he := hinv.inj (best row + 1) (column + 1) (Row.succ _) (Row.succ _)
      (by rw [hbest]; omega) ((hbest row).trans hp.symm)
    exact Fin.ext (Nat.succ.inj he)
  · rintro rfl
    exact hbest row

end Complete

section Collect

variable (parent : Nat → Nat) (rows cols : Nat)

theorem collect_get? (columns : List Nat) (before : Dict Nat Nat)
    (hinj : ∀ j ∈ columns, ∀ k ∈ columns, parent j - 1 = parent k - 1 → j = k)
    (hn : columns.Nodup)
    (hbefore : ∀ j ∈ columns, before.get? (parent j - 1) = none) (row col : Nat) :
    (columns.foldl (collect_column parent rows cols) before).get? row = some col ↔
      before.get? row = some col ∨
        ∃ j ∈ columns, parent j - 1 = row ∧ j - 1 = col ∧ row < rows ∧ col < cols := by
  induction columns generalizing before with
  | nil => simp
  | cons j rest ih =>
      obtain ⟨hj, hrest⟩ := List.nodup_cons.mp hn
      have hstep : ∀ key value, (collect_column parent rows cols before j).get? key = some value ↔
          before.get? key = some value ∨
            parent j - 1 = key ∧ j - 1 = value ∧ key < rows ∧ value < cols := by
        intro key value
        have hnone := hbefore j List.mem_cons_self
        unfold collect_column
        by_cases hin : parent j - 1 < rows ∧ j - 1 < cols
        · simp only [hin, and_self, ite_true]
          by_cases hkey : key = parent j - 1
          · subst hkey
            rw [Dict.get?_set_self, hnone]
            constructor
            · intro h
              obtain rfl := Option.some.inj h
              exact Or.inr ⟨rfl, rfl, hin⟩
            · rintro (h | ⟨_, rfl, _⟩)
              · cases h
              · rfl
          · rw [Dict.get?_set_of_ne _ _ hkey]
            exact ⟨Or.inl, fun h => h.elim id (fun h' => absurd h'.1.symm hkey)⟩
        · simp only [hin, ite_false]
          refine ⟨Or.inl, fun h => h.elim id ?_⟩
          rintro ⟨rfl, rfl, hlt⟩
          exact absurd hlt hin
      rw [List.foldl_cons, ih (collect_column parent rows cols before j)
        (fun a ha b hb => hinj a (List.mem_cons_of_mem _ ha) b (List.mem_cons_of_mem _ hb)) hrest ?_,
        hstep]
      · simp only [List.exists_mem_cons_iff, or_assoc]
      · intro k hk
        by_contra hsome
        obtain ⟨value, hv⟩ := Option.ne_none_iff_exists'.mp hsome
        rcases (hstep _ _).mp hv with h | ⟨h, _⟩
        · rw [hbefore k (List.mem_cons_of_mem _ hk)] at h
          cases h
        · exact hj (hinj j List.mem_cons_self k (List.mem_cons_of_mem _ hk) h ▸ hk)

end Collect

section Weight

variable {weights : List (List ℚ)} {cols : Nat}

theorem padded_nonneg (hnonneg : ∀ row ∈ weights, ∀ weight ∈ row, 0 ≤ weight)
    (hrect : ∀ row ∈ weights, row.length = cols) (i j : Nat) :
    0 ≤ padded weights weights.length cols i j := by
  unfold padded
  split
  · rename_i hin
    have hrow : weights[i]! = weights[i] := getElem!_pos weights i hin.1
    have hj : j < (weights[i]).length := by
      rw [hrect _ (List.getElem_mem hin.1)]
      exact hin.2
    rw [hrow, getElem!_pos _ j hj]
    exact hnonneg _ (List.getElem_mem hin.1) _ (List.getElem_mem hj)
  · exact le_rfl

theorem padded_of_lt {i j : Nat} (hi : i < weights.length) (hj : j < cols) :
    padded weights weights.length cols i j = (weights[i]!)[j]! := if_pos ⟨hi, hj⟩

-- The rows of the padding carry no weight.
theorem weight_eq_sum {size : Nat} (hsize : weights.length ≤ size)
    (matching : PartialMatching weights.length cols) :
    matching.weight weights = ∑ row : Fin size,
      (matching.partner row).elim 0 (fun j => (weights[row.val]!)[j]!) := by
  unfold PartialMatching.weight Assignment.total
  rw [Fin.sum_univ_eq_sum_range (fun i => (matching.partner i).elim 0 (fun j => (weights[i]!)[j]!))
    size]
  refine sum_subset (range_subset_range.mpr hsize) ?_
  intro row _ hout
  cases hp : matching.partner row with
  | none => rfl
  | some column => exact absurd (mem_range.mpr (matching.row_lt _ _ hp)) hout

theorem weight_eq_square {size : Nat} (hsize : weights.length ≤ size)
    (matching : PartialMatching weights.length cols) (partner : Fin size → Option (Fin size))
    (hpartner : ∀ row, (partner row).map Fin.val = matching.partner row) :
    matching.weight weights = Assignment.total univ
      (fun row column : Fin size => padded weights weights.length cols row column) partner := by
  rw [weight_eq_sum hsize]
  refine sum_congr rfl fun row _ => ?_
  rw [← hpartner row]
  cases hp : partner row with
  | none => rfl
  | some column =>
      have hm : matching.partner row = some column.val := by rw [← hpartner row, hp]; rfl
      exact (padded_of_lt (matching.row_lt _ _ hm) (matching.column_lt _ _ hm)).symm

theorem exists_square {size : Nat} (hcols : cols ≤ size)
    (matching : PartialMatching weights.length cols) :
    ∃ partner : Fin size → Option (Fin size),
      (∀ row, (partner row).map Fin.val = matching.partner row) ∧ Assignment.Injective partner := by
  have hlift : ∀ row : Fin size, ∃ column : Option (Fin size),
      column.map Fin.val = matching.partner row := by
    intro row
    cases hp : matching.partner row with
    | none => exact ⟨none, rfl⟩
    | some column => exact ⟨some ⟨column, (matching.column_lt _ _ hp).trans_le hcols⟩, rfl⟩
  choose partner hpartner using hlift
  refine ⟨partner, hpartner, ?_⟩
  intro first second column h1 h2
  have hm1 : matching.partner first = some column.val := by rw [← hpartner first, h1]; rfl
  have hm2 : matching.partner second = some column.val := by rw [← hpartner second, h2]; rfl
  exact Fin.ext (matching.injective _ _ _ hm1 hm2)

theorem headD_length (hrect : ∀ row ∈ weights, row.length = cols) (hrows : weights ≠ []) :
    (weights.headD []).length = cols := by
  obtain ⟨row, rest, rfl⟩ := List.exists_cons_of_ne_nil hrows
  exact hrect row List.mem_cons_self

theorem weight_of_none (matching : PartialMatching weights.length cols)
    (hnone : ∀ row, matching.partner row = none) : matching.weight weights = 0 := by
  simp [PartialMatching.weight, Assignment.total, hnone]

theorem partner_none_of_empty {rows : Nat} (hempty : rows = 0 ∨ cols = 0)
    (matching : PartialMatching rows cols) (row : Nat) : matching.partner row = none := by
  cases hp : matching.partner row with
  | none => rfl
  | some column =>
      have := matching.row_lt _ _ hp
      have := matching.column_lt _ _ hp
      omega

def emptyMatching (rows cols : Nat) : PartialMatching rows cols where
  partner := fun _ => none
  row_lt := by simp
  column_lt := by simp
  injective := by simp [Assignment.Injective]

-- Before the first row nothing is placed and no price is constrained.
theorem placed_start (cost : Nat → Nat → ℚ) (size : Nat) : Placed cost size 0
    { u := fun _ => 0, v := fun _ => 0, parent := fun _ => 0, way := fun _ => 0 } := by
  refine ⟨?_, by simp, by simp, by simp, ?_⟩
  · intro i j hi _
    have := hi.1
    have := hi.2
    omega
  · intro i hi
    have := hi.1
    have := hi.2
    omega

end Weight

section Result

variable {weights : List (List ℚ)} {cols : Nat}

-- The rows of the square whose partner is a real pair of the matrix.
def realPartner {size : Nat} (rows cols : Nat) (best : Equiv.Perm (Fin size)) (row : Nat) :
    Option Nat :=
  if hrow : row < size then
    if row < rows ∧ (best ⟨row, hrow⟩).val < cols then some (best ⟨row, hrow⟩) else none
  else none

theorem realPartner_eq_some {size : Nat} (rows : Nat) (hsize : rows ≤ size)
    (best : Equiv.Perm (Fin size)) (row column : Nat) :
    realPartner rows cols best row = some column ↔
      ∃ hrow : row < rows, (best ⟨row, hrow.trans_le hsize⟩).val = column ∧ column < cols := by
  unfold realPartner
  constructor
  · intro h
    split at h
    · split at h
      · rename_i hin
        obtain rfl := Option.some.inj h
        exact ⟨hin.1, rfl, hin.2⟩
      · cases h
    · cases h
  · rintro ⟨hrow, rfl, hlt⟩
    rw [dif_pos (hrow.trans_le hsize), if_pos ⟨hrow, hlt⟩]

def realMatching {size : Nat} (rows cols : Nat) (hsize : rows ≤ size)
    (best : Equiv.Perm (Fin size)) : PartialMatching rows cols where
  partner := realPartner rows cols best
  row_lt row column h := ((realPartner_eq_some rows hsize best row column).mp h).1
  column_lt row column h := ((realPartner_eq_some rows hsize best row column).mp h).2.2
  injective := by
    intro first second column h1 h2
    obtain ⟨hr1, he1, _⟩ := (realPartner_eq_some rows hsize best first column).mp h1
    obtain ⟨hr2, he2, _⟩ := (realPartner_eq_some rows hsize best second column).mp h2
    have he := best.injective (Fin.ext (he1.trans he2.symm))
    exact congrArg Fin.val he

-- The collected dictionary is the permutation without its padding.
theorem collect_eq_real {size : Nat} {labels : Labels} (best : Equiv.Perm (Fin size))
    (hbest : ∀ row, labels.parent (best row + 1) = row + 1) (rows : Nat) (hsize : rows ≤ size) :
    ((List.range' 1 size).foldl (collect_column labels.parent rows cols) .empty).get? =
      realPartner rows cols best := by
  have hrowOf : ∀ j, Row size j → ∃ column : Fin size, j = column + 1 ∧
      labels.parent j = best.symm column + 1 := by
    intro j hj
    have hj1 := hj.1
    have hj2 := hj.2
    refine ⟨⟨j - 1, by omega⟩, by show j = j - 1 + 1; omega, ?_⟩
    have h := hbest (best.symm ⟨j - 1, by omega⟩)
    rw [Equiv.apply_symm_apply] at h
    rw [← h]
    congr 1
    show j = j - 1 + 1
    omega
  funext row
  apply Option.ext
  intro column
  rw [collect_get? labels.parent rows cols _ _ ?_ (List.nodup_range' ..) (by simp)]
  · rw [realPartner_eq_some rows hsize]
    constructor
    · rintro (h | ⟨j, hj, hp, rfl, hrow, hcol⟩)
      · cases h
      · obtain ⟨c, rfl, hc⟩ := hrowOf j (mem_columns.mp hj)
        have hrow' : (⟨row, hrow.trans_le hsize⟩ : Fin size) = best.symm c := by
          apply Fin.ext
          show row = _
          omega
        exact ⟨hrow, by rw [hrow', Equiv.apply_symm_apply, Nat.add_sub_cancel], hcol⟩
    · rintro ⟨hrow, rfl, hcol⟩
      refine Or.inr ⟨_, mem_columns.mpr (Row.succ (best ⟨row, hrow.trans_le hsize⟩)), ?_, ?_, hrow,
        hcol⟩
      · rw [hbest, Nat.add_sub_cancel]
      · exact Nat.add_sub_cancel ..
  · intro j hj k hk he
    obtain ⟨c, rfl, hc⟩ := hrowOf j (mem_columns.mp hj)
    obtain ⟨d, rfl, hd⟩ := hrowOf k (mem_columns.mp hk)
    rw [hc, hd, Nat.add_sub_cancel, Nat.add_sub_cancel] at he
    rw [best.symm.injective (Fin.ext he)]

theorem realMatching_weight {size : Nat} (hsize : weights.length ≤ size)
    (best : Equiv.Perm (Fin size)) :
    (realMatching weights.length cols hsize best).weight weights =
      ∑ row : Fin size, padded weights weights.length cols row (best row) := by
  rw [weight_eq_sum hsize]
  refine sum_congr rfl fun row _ => ?_
  show (realPartner weights.length cols best row).elim 0 _ = _
  unfold realPartner padded
  rw [dif_pos row.2]
  split
  · rfl
  · rfl

-- Every matching of the matrix, read on the square, weighs at most as much as
-- the permutation along which the prices are tight.
theorem Placed.weight_le {size : Nat} {labels : Labels}
    (hinv : Placed (fun i j => -padded weights weights.length cols i j) size size labels)
    (hnonneg : ∀ row ∈ weights, ∀ weight ∈ row, 0 ≤ weight)
    (hrect : ∀ row ∈ weights, row.length = cols) (best : Equiv.Perm (Fin size))
    (hbest : ∀ row, labels.parent (best row + 1) = row + 1)
    (partner : Fin size → Option (Fin size)) (hinj : Assignment.Injective partner) :
    Assignment.total univ
        (fun row column : Fin size => padded weights weights.length cols row column) partner ≤
      ∑ row : Fin size, padded weights weights.length cols row (best row) := by
  refine Assignment.total_le_of_prices _ (fun row : Fin size => -labels.u (row + 1))
    (fun column : Fin size => -labels.v (column + 1)) ?_ ?_ best ?_ partner hinj
  · exact fun row column => padded_nonneg hnonneg hrect row column
  · intro row column
    have h := hinv.feasible (row + 1) (column + 1) (Row.succ row) (Row.succ column)
    simp only [reduced, Nat.add_sub_cancel] at h
    linarith
  · intro row
    have h := hinv.tight (best row + 1) (Row.succ _) (by rw [hbest]; omega)
    simp only [Tight, reduced, hbest, Nat.add_sub_cancel] at h
    linarith

-- The two ways a run ends: a matrix without cells, or labels in which every
-- row of the square is placed.
theorem max_weight_matching_runs (weights : List (List ℚ)) (cols : Nat)
    (hrect : ∀ row ∈ weights, row.length = cols) :
    (weights.length = 0 ∨ cols = 0) ∧ max_weight_matching weights = some .empty ∨
      ∃ labels : Labels, ∃ best : Equiv.Perm (Fin (max weights.length cols)),
        Placed (fun i j => -padded weights weights.length cols i j) (max weights.length cols)
          (max weights.length cols) labels ∧
        (∀ row, labels.parent (best row + 1) = row + 1) ∧
        ∃ assignment, max_weight_matching weights = some assignment ∧
          (realMatching weights.length cols (le_max_left _ _) best).partner = assignment.get? := by
  by_cases hempty : weights.length = 0 ∨ cols = 0
  · refine Or.inl ⟨hempty, ?_⟩
    have hcode : weights.length = 0 ∨ (weights.headD []).length = 0 := by
      by_cases hnil : weights = []
      · simp [hnil]
      · exact hempty.imp id (fun h => (headD_length hrect hnil).trans h)
    simp only [max_weight_matching]
    rw [if_pos hcode]
  · have hnil : weights ≠ [] := by
      rintro rfl
      simp at hempty
    obtain ⟨labels, hrun, hinv⟩ := (placed_start
      (fun i j => -padded weights weights.length cols i j) (max weights.length cols)).rows
      (max weights.length cols) 0 _ (Nat.zero_add _)
    obtain ⟨best, hbest⟩ := hinv.exists_perm
    refine Or.inr ⟨labels, best, hinv, hbest, _, ?_,
      (collect_eq_real best hbest weights.length (le_max_left _ _)).symm⟩
    simp only [max_weight_matching, headD_length hrect hnil, hempty, ite_false]
    simp only [Nat.zero_add] at hrun
    rw [hrun]
    rfl

-- Whatever the signs of the weights, the method ends with a partial matching.
theorem max_weight_matching_partial (weights : List (List ℚ)) (cols : Nat)
    (hrect : ∀ row ∈ weights, row.length = cols) :
    ∃ assignment, max_weight_matching weights = some assignment ∧
      ∃ matching : PartialMatching weights.length cols, matching.partner = assignment.get? := by
  rcases max_weight_matching_runs weights cols hrect with ⟨_, hrun⟩ | ⟨_, best, _, _, h⟩
  · exact ⟨.empty, hrun, emptyMatching _ _, rfl⟩
  · obtain ⟨assignment, hrun, hpartner⟩ := h
    exact ⟨assignment, hrun, _, hpartner⟩

theorem max_weight_matching_optimal (weights : List (List ℚ)) (cols : Nat)
    (hrect : ∀ row ∈ weights, row.length = cols)
    (hnonneg : ∀ row ∈ weights, ∀ weight ∈ row, 0 ≤ weight) :
    ∃ assignment, max_weight_matching weights = some assignment ∧
      ∃ matching : PartialMatching weights.length cols, matching.partner = assignment.get? ∧
        ∀ other : PartialMatching weights.length cols,
          other.weight weights ≤ matching.weight weights := by
  rcases max_weight_matching_runs weights cols hrect with
    ⟨hempty, hrun⟩ | ⟨labels, best, hinv, hbest, assignment, hrun, hpartner⟩
  · refine ⟨.empty, hrun, emptyMatching _ _, rfl, fun other => ?_⟩
    rw [weight_of_none other (partner_none_of_empty hempty other),
      weight_of_none _ (partner_none_of_empty hempty _)]
  · refine ⟨assignment, hrun, _, hpartner, fun other => ?_⟩
    obtain ⟨partner, hsquare, hinj⟩ := exists_square (le_max_right _ _) other
    rw [weight_eq_square (le_max_left _ _) other partner hsquare,
      realMatching_weight (le_max_left _ _) best]
    exact hinv.weight_le hnonneg hrect best hbest partner hinj

theorem max_weight_matching_optimal_rectangular :
    ∃ assignment, max_weight_matching [[1, 1/2], [1, 0], [1/3, 1]] = some assignment ∧
      ∃ matching : PartialMatching 3 2, matching.partner = assignment.get? ∧
        ∀ other : PartialMatching 3 2,
          other.weight [[1, 1/2], [1, 0], [1/3, 1]] ≤
            matching.weight [[1, 1/2], [1, 0], [1/3, 1]] :=
  max_weight_matching_optimal [[1, 1/2], [1, 0], [1/3, 1]] 2 (by decide) (by decide +kernel)

end Result

end KnowledgeCompiler.Identity.Matching
