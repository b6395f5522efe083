import KnowledgeCompiler.Quality.ExactAssignment
import Mathlib.Algebra.Order.AbsoluteValue.Basic
import Mathlib.Data.Finset.SymmDiff

namespace KnowledgeCompiler.Quality.ExactAssignment

open Lib Finset

-- `score is not None and abs(score - selected) <= epsilon`
def ties (epsilon selected : ℚ) (score : Option ℚ) : Bool :=
  score.any (fun value => |value - selected| ≤ epsilon)

def ambiguous_pair (weights : ExactWeights) (epsilon : ℚ) (nodes : List ℕ × List ℕ) (pair : ℕ × ℕ) :
    List ℕ × List ℕ :=
  match entry weights pair.1 pair.2 with
  | none => nodes
  | some selected =>
      let row_ties := (List.range (weights[pair.1]!).length).filter
        (fun candidate => candidate ≠ pair.2 && ties epsilon selected (entry weights pair.1 candidate))
      let column_ties := (List.range weights.length).filter
        (fun candidate => candidate ≠ pair.1 && ties epsilon selected (entry weights candidate pair.2))
      if row_ties ≠ [] ∨ column_ties ≠ [] then
        (nodes.1 ++ pair.1 :: column_ties, nodes.2 ++ pair.2 :: row_ties)
      else nodes

def _ambiguous_nodes (weights : ExactWeights) (assignment : Dict ℕ ℕ) (epsilon : ℚ) :
    List ℕ × List ℕ :=
  assignment.entries.foldl (ambiguous_pair weights epsilon) ([], [])

section Marks

variable {weights : ExactWeights} {epsilon : ℚ}

-- No other score in the row or the column of the pair comes near its own.
structure Untied (weights : ExactWeights) (epsilon : ℚ) (pair : ℕ × ℕ) (selected : ℚ) : Prop where
  row : ∀ candidate score, candidate ≠ pair.2 → entry weights pair.1 candidate = some score →
    epsilon < |score - selected|
  column : ∀ candidate score, candidate ≠ pair.1 → entry weights candidate pair.2 = some score →
    epsilon < |score - selected|

theorem entry_bounds {row column : ℕ} {weight : ℚ} (hentry : entry weights row column = some weight) :
    row < weights.length ∧ column < (weights[row]!).length := by
  unfold entry at hentry
  have hrow : row < weights.length := by
    by_contra hout
    rw [getElem!_neg weights row hout] at hentry
    cases hentry
  refine ⟨hrow, ?_⟩
  by_contra hout
  rw [getElem!_neg _ column hout] at hentry
  cases hentry

theorem untied_of_unmarked {nodes : List ℕ × List ℕ} {pair : ℕ × ℕ}
    (hunmarked : ambiguous_pair weights epsilon nodes pair = ([], [])) :
    nodes = ([], []) ∧
      ∀ selected, entry weights pair.1 pair.2 = some selected → Untied weights epsilon pair selected := by
  unfold ambiguous_pair at hunmarked
  cases hentry : entry weights pair.1 pair.2 with
  | none =>
      rw [hentry] at hunmarked
      exact ⟨hunmarked, by simp⟩
  | some value =>
      rw [hentry] at hunmarked
      dsimp only at hunmarked
      split at hunmarked
      · simp at hunmarked
      · rename_i hties
        obtain ⟨hrow, hcolumn⟩ := not_or.mp hties
        rw [not_not, List.filter_eq_nil_iff] at hrow hcolumn
        refine ⟨hunmarked, fun selected hselected => ?_⟩
        obtain rfl := Option.some.inj hselected
        constructor
        · intro candidate score hne hscore
          have hout := hrow candidate (List.mem_range.mpr (entry_bounds hscore).2)
          simpa [hne, ties, hscore] using hout
        · intro candidate score hne hscore
          have hout := hcolumn candidate (List.mem_range.mpr (entry_bounds hscore).1)
          simpa [hne, ties, hscore] using hout

theorem untied_of_unmarked_all {entries : List (ℕ × ℕ)}
    (hunmarked : entries.foldl (ambiguous_pair weights epsilon) ([], []) = ([], [])) :
    ∀ pair ∈ entries, ∀ selected, entry weights pair.1 pair.2 = some selected →
      Untied weights epsilon pair selected := by
  induction entries using List.reverseRecOn with
  | nil => simp
  | append_singleton entries last ih =>
      rw [List.foldl_append, List.foldl_cons, List.foldl_nil] at hunmarked
      obtain ⟨hbefore, hlast⟩ := untied_of_unmarked hunmarked
      intro pair hpair
      rcases List.mem_append.mp hpair with hin | heq
      · exact ih hbefore pair hin
      · rw [List.mem_singleton.mp heq]
        exact hlast

end Marks

section Pairs

variable {weights : ExactWeights}

-- The pairs of a map, inside the rows of the matrix.
def pairs (weights : ExactWeights) (partner : ℕ → Option ℕ) : Finset (ℕ × ℕ) :=
  (range weights.length).biUnion fun row => (partner row).toFinset.image (Prod.mk row)

def weight_at (weights : ExactWeights) (pair : ℕ × ℕ) : ℚ := (entry weights pair.1 pair.2).getD 0

theorem mem_pairs {partner : ℕ → Option ℕ} {pair : ℕ × ℕ} :
    pair ∈ pairs weights partner ↔ pair.1 < weights.length ∧ partner pair.1 = some pair.2 := by
  obtain ⟨row, column⟩ := pair
  simp only [pairs, mem_biUnion, mem_range, mem_image, Option.mem_toFinset, Option.mem_def,
    Prod.mk.injEq]
  constructor
  · rintro ⟨_, hrow, _, hcolumn, rfl, rfl⟩
    exact ⟨hrow, hcolumn⟩
  · rintro ⟨hrow, hcolumn⟩
    exact ⟨row, hrow, column, hcolumn, rfl, rfl⟩

theorem total_eq_pairs (partner : ℕ → Option ℕ) :
    total weights partner = ∑ pair ∈ pairs weights partner, weight_at weights pair := by
  unfold total Lib.Assignment.total pairs
  rw [sum_biUnion]
  · refine sum_congr rfl fun row _ => ?_
    cases partner row with
    | none => simp
    | some column => simp [weight_at]
  · intro first _ second _ hne
    simp only [Function.onFun, disjoint_left, mem_image]
    rintro pair ⟨_, _, rfl⟩ ⟨_, _, heq⟩
    exact hne (congrArg Prod.fst heq).symm

-- One pair more, in a row and a column that were free.
theorem exists_larger {partner : ℕ → Option ℕ} (hinjective : Lib.Assignment.Injective partner)
    (heligible : ∀ row column, partner row = some column → (entry weights row column).isSome)
    {row column : ℕ} {weight : ℚ} (hentry : entry weights row column = some weight)
    (hpositive : 0 < weight) (hrow : partner row = none) (hcolumn : ∀ other, partner other ≠ some column) :
    ∃ larger : EligibleMap weights, total weights partner < total weights larger.partner := by
  refine ⟨⟨Function.update partner row (some column), ?_, ?_⟩, ?_⟩
  · intro other found hfound
    by_cases heq : other = row
    · rw [heq, Function.update_self] at hfound
      obtain rfl := Option.some.inj hfound
      rw [heq, hentry]
      rfl
    · rw [Function.update_of_ne heq] at hfound
      exact heligible other found hfound
  · intro first second found hfirst hsecond
    rw [Function.update_apply] at hfirst hsecond
    split at hfirst <;> split at hsecond
    · rename_i hf hs
      exact hf.trans hs.symm
    · exact absurd (hsecond.trans hfirst.symm) (hcolumn second)
    · exact absurd (hfirst.trans hsecond.symm) (hcolumn first)
    · exact hinjective first second found hfirst hsecond
  · have hpairs : pairs weights (Function.update partner row (some column)) =
        insert (row, column) (pairs weights partner) := by
      ext ⟨other, found⟩
      rw [mem_insert, mem_pairs, mem_pairs, Function.update_apply, Prod.mk.injEq]
      by_cases heq : other = row
      · simp [heq, hrow, (entry_bounds hentry).1, eq_comm]
      · simp [heq]
    have hnew : (row, column) ∉ pairs weights partner := fun h => hcolumn row (mem_pairs.mp h).2
    dsimp only
    rw [total_eq_pairs, total_eq_pairs, hpairs, sum_insert hnew]
    have hweight : weight_at weights (row, column) = weight := by rw [weight_at, hentry]; rfl
    rw [hweight]
    exact lt_add_of_pos_left _ hpositive

end Pairs

section Distance

variable {weights : ExactWeights} {epsilon : ℚ} {assignment : Dict ℕ ℕ}

def PositiveMap (weights : ExactWeights) (partner : ℕ → Option ℕ) : Prop :=
  ∀ row column, partner row = some column → ∃ weight, entry weights row column = some weight ∧ 0 < weight

theorem weight_at_pos {partner : ℕ → Option ℕ} (hpositive : PositiveMap weights partner) {pair : ℕ × ℕ}
    (hpair : pair ∈ pairs weights partner) : 0 < weight_at weights pair := by
  obtain ⟨weight, hentry, hlt⟩ := hpositive pair.1 pair.2 (mem_pairs.mp hpair).2
  rw [weight_at, hentry]
  exact hlt

-- Pairs that only one of two equally good maps has weigh as much as those only the other has.
theorem sum_apart {first second : ℕ → Option ℕ} (htotal : total weights first = total weights second) :
    ∑ pair ∈ pairs weights first \ pairs weights second, weight_at weights pair =
      ∑ pair ∈ pairs weights second \ pairs weights first, weight_at weights pair := by
  rw [total_eq_pairs, total_eq_pairs] at htotal
  have hfirst := sum_inter_add_sum_sdiff (pairs weights first) (pairs weights second)
    (weight_at weights)
  have hsecond := sum_inter_add_sum_sdiff (pairs weights second) (pairs weights first)
    (weight_at weights)
  rw [inter_comm] at hsecond
  linarith

theorem apart_nonempty {first second : ℕ → Option ℕ} (hpositive : PositiveMap weights second)
    (htotal : total weights first = total weights second)
    (hne : pairs weights first ≠ pairs weights second) :
    (pairs weights first \ pairs weights second).Nonempty := by
  by_contra hempty
  rw [not_nonempty_iff_eq_empty] at hempty
  have hsum := sum_apart htotal
  rw [hempty, sum_empty] at hsum
  have hother : pairs weights second \ pairs weights first = ∅ := by
    by_contra hsome
    have hlt := sum_pos (fun pair hpair => weight_at_pos hpositive (mem_sdiff.mp hpair).1)
      (nonempty_iff_ne_empty.mpr hsome)
    exact hlt.ne hsum
  exact hne (subset_antisymm (sdiff_eq_empty_iff_subset.mp hempty) (sdiff_eq_empty_iff_subset.mp hother))

-- Two equally good maps that are apart in one pair each share its row or its column.
theorem shares_line (hmaximum : IsMaximum weights assignment) {other : EligibleMap weights}
    (hpositive : PositiveMap weights other.partner) {mine theirs : ℕ × ℕ}
    (hmine : pairs weights assignment.get? \ pairs weights other.partner = {mine})
    (htheirs : pairs weights other.partner \ pairs weights assignment.get? = {theirs}) :
    mine.1 = theirs.1 ∨ mine.2 = theirs.2 := by
  by_contra happart
  obtain ⟨hrows, hcolumns⟩ := not_or.mp happart
  obtain ⟨hin, hout⟩ := mem_sdiff.mp (htheirs ▸ mem_singleton_self theirs)
  obtain ⟨hrow, hpartner⟩ := mem_pairs.mp hin
  obtain ⟨weight, hentry, hlt⟩ := hpositive theirs.1 theirs.2 hpartner
  have heligible : ∀ row column, assignment.get? row = some column →
      (entry weights row column).isSome := by
    intro row column hget
    obtain ⟨found, hfound, -⟩ := hmaximum.positive row column hget
    rw [hfound]
    rfl
  -- whatever of the assignment the other map lacks is `mine`
  have hshared : ∀ pair, pair.1 < weights.length → assignment.get? pair.1 = some pair.2 →
      pair = mine ∨ other.partner pair.1 = some pair.2 := by
    intro pair hlength hget
    by_cases hboth : pair ∈ pairs weights other.partner
    · exact Or.inr (mem_pairs.mp hboth).2
    · exact Or.inl (mem_singleton.mp (hmine ▸ mem_sdiff.mpr ⟨mem_pairs.mpr ⟨hlength, hget⟩, hboth⟩))
  have hfree : assignment.get? theirs.1 = none := by
    cases hget : assignment.get? theirs.1 with
    | none => rfl
    | some column =>
        rcases hshared (theirs.1, column) hrow hget with heq | hsame
        · exact absurd (congrArg Prod.fst heq).symm hrows
        · rw [hpartner] at hsame
          obtain rfl := Option.some.inj hsame
          exact absurd (mem_pairs.mpr ⟨hrow, hget⟩) hout
  have hunused : ∀ row, assignment.get? row ≠ some theirs.2 := by
    intro row hget
    have hlength := (entry_bounds (Option.eq_some_of_isSome (heligible row theirs.2 hget))).1
    rcases hshared (row, theirs.2) hlength hget with heq | hsame
    · exact hcolumns (congrArg Prod.snd heq).symm
    · obtain rfl := other.injective row theirs.1 theirs.2 hsame hpartner
      rw [hget] at hfree
      cases hfree
  obtain ⟨larger, hlarger⟩ := exists_larger hmaximum.injective heligible hentry hlt hfree hunused
  exact absurd hlarger (not_lt.mpr (hmaximum.greatest larger))

theorem three_apart (hmaximum : IsMaximum weights assignment) (hepsilon : 0 ≤ epsilon)
    (hunmarked : _ambiguous_nodes weights assignment epsilon = ([], [])) (other : EligibleMap weights)
    (hpositive : PositiveMap weights other.partner)
    (htotal : total weights assignment.get? = total weights other.partner)
    (hne : pairs weights assignment.get? ≠ pairs weights other.partner) :
    3 ≤ (symmDiff (pairs weights assignment.get?) (pairs weights other.partner)).card := by
  have hmine := apart_nonempty hpositive htotal hne
  have htheirs : (pairs weights other.partner \ pairs weights assignment.get?).Nonempty :=
    apart_nonempty hmaximum.positive htotal.symm hne.symm
  by_contra hfew
  rw [symmDiff_def, sup_eq_union, card_union_of_disjoint disjoint_sdiff_sdiff] at hfew
  obtain ⟨mine, hmine'⟩ := card_eq_one.mp (by
    have := hmine.card_pos
    have := htheirs.card_pos
    omega : (pairs weights assignment.get? \ pairs weights other.partner).card = 1)
  obtain ⟨theirs, htheirs'⟩ := card_eq_one.mp (by
    have := hmine.card_pos
    have := htheirs.card_pos
    omega : (pairs weights other.partner \ pairs weights assignment.get?).card = 1)
  have hequal := sum_apart htotal
  rw [hmine', htheirs', sum_singleton, sum_singleton] at hequal
  obtain ⟨hin, hout⟩ := mem_sdiff.mp (hmine' ▸ mem_singleton_self mine)
  obtain ⟨hin', hout'⟩ := mem_sdiff.mp (htheirs' ▸ mem_singleton_self theirs)
  obtain ⟨selected, hselected, -⟩ := hmaximum.positive mine.1 mine.2 (mem_pairs.mp hin).2
  obtain ⟨score, hscore, -⟩ := hpositive theirs.1 theirs.2 (mem_pairs.mp hin').2
  rw [weight_at, weight_at, hselected, hscore, Option.getD_some, Option.getD_some] at hequal
  have huntied := untied_of_unmarked_all hunmarked mine
    ((Dict.mem_entries_iff _ _ _).mpr (mem_pairs.mp hin).2) selected hselected
  have hdistinct : mine ≠ theirs := fun h => hout' (h ▸ hin)
  have hnear : ¬epsilon < |score - selected| := by
    rw [hequal, sub_self, abs_zero]
    exact not_lt.mpr hepsilon
  rcases shares_line hmaximum hpositive hmine' htheirs' with hrow | hcolumn
  · refine hnear (huntied.row theirs.2 score ?_ (hrow ▸ hscore))
    exact fun h => hdistinct (Prod.ext hrow h.symm)
  · refine hnear (huntied.column theirs.1 score ?_ (hcolumn ▸ hscore))
    exact fun h => hdistinct (Prod.ext h.symm hcolumn)

theorem unmarked_apart (weights : ExactWeights) (cols : ℕ)
    (hrect : ∀ line ∈ weights, line.length = cols) (epsilon : ℚ) (hepsilon : 0 ≤ epsilon)
    (assignment : Dict ℕ ℕ) (hassignment : _maximum_weight_assignment weights = some assignment)
    (hunmarked : _ambiguous_nodes weights assignment epsilon = ([], [])) (other : EligibleMap weights)
    (hpositive : PositiveMap weights other.partner)
    (htotal : total weights assignment.get? = total weights other.partner)
    (hne : pairs weights assignment.get? ≠ pairs weights other.partner) :
    3 ≤ (symmDiff (pairs weights assignment.get?) (pairs weights other.partner)).card := by
  obtain ⟨found, hrun, hmaximum⟩ := exists_isMaximum weights cols hrect
  obtain rfl := Option.some.inj (hassignment.symm.trans hrun)
  exact three_apart hmaximum hepsilon hunmarked other hpositive htotal hne

end Distance

section Crossed

def crossed_scores : ExactWeights :=
  [[some (9 / 10), some (8 / 10)], [some (7 / 10), some (6 / 10)]]

def crossed : EligibleMap crossed_scores where
  partner row := if row = 0 then some 1 else if row = 1 then some 0 else none
  eligible := by
    intro row column h
    split_ifs at h with hzero hone
    · obtain rfl := Option.some.inj h
      rw [hzero]
      rfl
    · obtain rfl := Option.some.inj h
      rw [hone]
      rfl
  injective := by
    intro first second column hfirst hsecond
    dsimp only at hfirst hsecond
    split_ifs at hfirst hsecond <;> simp_all

def straight : Dict ℕ ℕ := .ofPairs [(0, 0), (1, 1)]

theorem straight_assigned : _maximum_weight_assignment crossed_scores = some straight := by
  decide +kernel

theorem straight_unmarked : _ambiguous_nodes crossed_scores straight (1 / 1000000) = ([], []) := by
  decide +kernel

theorem crossed_as_good :
    total crossed_scores straight.get? = total crossed_scores crossed.partner := by
  decide +kernel

theorem crossed_apart :
    pairs crossed_scores straight.get? ≠ pairs crossed_scores crossed.partner := by
  decide

theorem crossed_positive : PositiveMap crossed_scores crossed.partner := by
  intro row column h
  simp only [crossed] at h
  split_ifs at h with hzero hone
  · obtain rfl := Option.some.inj h
    exact ⟨8 / 10, by rw [hzero]; rfl, by norm_num⟩
  · obtain rfl := Option.some.inj h
    exact ⟨7 / 10, by rw [hone]; rfl, by norm_num⟩

-- Two pairs swapped for two others: nothing is marked.
theorem equally_good_unmarked :
    ∃ (weights : ExactWeights) (assignment : Dict ℕ ℕ) (other : EligibleMap weights),
      _maximum_weight_assignment weights = some assignment ∧
      _ambiguous_nodes weights assignment (1 / 1000000) = ([], []) ∧
      total weights assignment.get? = total weights other.partner ∧
      pairs weights assignment.get? ≠ pairs weights other.partner :=
  ⟨crossed_scores, straight, crossed, straight_assigned, straight_unmarked, crossed_as_good,
    crossed_apart⟩

theorem crossed_three_apart :
    3 ≤ (symmDiff (pairs crossed_scores straight.get?) (pairs crossed_scores crossed.partner)).card :=
  unmarked_apart crossed_scores 2 (by simp [crossed_scores]) (1 / 1000000) (by norm_num) straight
    straight_assigned straight_unmarked crossed crossed_positive crossed_as_good crossed_apart

end Crossed

end KnowledgeCompiler.Quality.ExactAssignment
