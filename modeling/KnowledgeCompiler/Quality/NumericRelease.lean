import KnowledgeCompiler.Quality.NumericMatching

namespace KnowledgeCompiler.Quality

open Lib Identity

section Assignments

open Assignment

theorem exists_of_positive {weights : Weights} {row column : ℕ}
    (hpositive : positive (weights[row]!)[column]! = true) :
    ∃ scores weight, weights[row]? = some scores ∧ scores[column]? = some (some weight) := by
  rw [List.getElem!_eq_getElem?_getD, List.getElem!_eq_getElem?_getD] at hpositive
  cases hrow : weights[row]? with
  | none =>
      rw [hrow] at hpositive
      cases hpositive
  | some scores =>
      rw [hrow, Option.getD_some] at hpositive
      cases hcolumn : scores[column]? with
      | none =>
          rw [hcolumn] at hpositive
          cases hpositive
      | some score =>
          rw [hcolumn, Option.getD_some] at hpositive
          cases score with
          | none => cases hpositive
          | some weight => exact ⟨scores, weight, rfl, hcolumn⟩

-- Every pair has a positive weight, and no column stands in two pairs.
structure Fits (weights : Weights) (assignment : Dict ℕ ℕ) : Prop where
  weighted : ∀ row column, assignment.get? row = some column →
    positive (weights[row]!)[column]! = true
  injective : ∀ first second column, assignment.get? first = some column →
    assignment.get? second = some column → first = second

-- The columns are gone through once each, so a row placed later never takes a column again.
theorem fits_collect (weights : Weights) (row_count column_count : ℕ) (matching : ℕ → ℕ)
    (columns : List ℕ) (hnodup : columns.Nodup) (assignment : Dict ℕ ℕ)
    (hfits : Fits weights assignment)
    (hfresh : ∀ row column, assignment.get? row = some column → column + 1 ∉ columns) :
    Fits weights
      (columns.foldl (collect_column weights row_count column_count matching) assignment) := by
  induction columns generalizing assignment with
  | nil => exact hfits
  | cons column rest ih =>
      obtain ⟨hnew, hrest⟩ := List.nodup_cons.mp hnodup
      have hlater : ∀ row found, assignment.get? row = some found → found + 1 ∉ rest :=
        fun row found hfound hmem => hfresh row found hfound (List.mem_cons_of_mem _ hmem)
      rw [List.foldl_cons]
      unfold collect_column
      dsimp only
      split
      · rename_i hinside
        have hcolumn : column - 1 + 1 = column := Nat.succ_pred_eq_of_pos hinside.2.1
        split
        · rename_i hpositive
          refine ih hrest _ ⟨?_, ?_⟩ ?_
          · intro row found hfound
            rw [Dict.get?_set] at hfound
            split at hfound
            · rename_i hrow
              cases hfound
              rw [hrow]
              exact hpositive
            · exact hfits.weighted row found hfound
          · intro first second found hfirst hsecond
            rw [Dict.get?_set] at hfirst hsecond
            have hunused (row : ℕ) : assignment.get? row ≠ some (column - 1) := fun hused =>
              hfresh row _ hused (hcolumn ▸ List.mem_cons_self)
            split at hfirst <;> split at hsecond
            · rename_i hrow hrow'
              exact hrow.trans hrow'.symm
            · cases hfirst
              exact absurd hsecond (hunused second)
            · cases hsecond
              exact absurd hfirst (hunused first)
            · exact hfits.injective first second found hfirst hsecond
          · intro row found hfound
            rw [Dict.get?_set] at hfound
            split at hfound
            · cases hfound
              rwa [hcolumn]
            · exact hlater row found hfound
        · exact ih hrest assignment hfits hlater
      · exact ih hrest assignment hfits hlater

theorem maximum_weight_assignment_fits {fuel : ℕ} {weights : Weights} {assignment : Dict ℕ ℕ}
    (hassignment : _maximum_weight_assignment fuel weights = some assignment) :
    Fits weights assignment := by
  have hempty : Fits weights .empty :=
    { weighted := fun row column hnone => by cases hnone
      injective := fun first second column hnone => by cases hnone }
  unfold _maximum_weight_assignment at hassignment
  dsimp only at hassignment
  split at hassignment
  · cases hassignment
    exact hempty
  · obtain ⟨labels, -, hcollected⟩ := Option.bind_eq_some_iff.mp hassignment
    cases hcollected
    exact fits_collect weights _ _ _ _ List.nodup_range' .empty hempty
      (fun row column hnone => by cases hnone)

end Assignments

section Passes

open Method Assignment

variable {unicode : Unicode} {ratio : String → String → Binary64} {policy : GeometryMatcherConfig}
  {facts : List AuthorityNumericFact} {cells : List ParserNumericCell}

theorem pair_at_eq_ok {pair : ℕ × ℕ} {fact : AuthorityNumericFact} {cell : ParserNumericCell}
    (hpair : pair_at facts cells pair = .ok (fact, cell)) :
    facts[pair.1]? = some fact ∧ cells[pair.2]? = some cell := by
  unfold pair_at at hpair
  split at hpair
  · rename_i hfact hcell
    cases hpair
    exact ⟨hfact, hcell⟩
  · cases hpair

theorem of_scored {constraints : Bool} {fact : AuthorityNumericFact} {cell : ParserNumericCell}
    {weight : Binary64} (hscored : scored unicode ratio policy constraints fact cell = some weight) :
    constraints = true := by
  unfold scored at hscored
  dsimp only at hscored
  split at hscored
  · rename_i hholds
    exact hholds.1
  · cases hscored

theorem strict_of_positive {row column : ℕ}
    (hpositive : positive ((strict_weights unicode ratio policy facts cells)[row]!)[column]! = true) :
    ∃ fact cell, facts[row]? = some fact ∧ cells[column]? = some cell ∧
      _strict_constraints unicode ratio fact cell policy = true := by
  obtain ⟨scores, weight, hrow, hcolumn⟩ := exists_of_positive hpositive
  rw [strict_weights, List.getElem?_map, Option.map_eq_some_iff] at hrow
  obtain ⟨fact, hfact, rfl⟩ := hrow
  rw [List.getElem?_map, Option.map_eq_some_iff] at hcolumn
  obtain ⟨cell, hcell, hscored⟩ := hcolumn
  exact ⟨fact, cell, hfact, hcell, of_scored hscored⟩

theorem diagnostic_of_positive {rows columns : List ℕ} {weights : Weights}
    (hweights : diagnostic_weights unicode ratio policy facts cells rows columns = .ok weights)
    {row column : ℕ} (hpositive : positive (weights[row]!)[column]! = true) :
    ∃ fact cell, pair_at facts cells (rows[row]!, columns[column]!) = .ok (fact, cell) ∧
      _diagnostic_constraints unicode ratio fact cell policy = true := by
  obtain ⟨scores, weight, hrow, hcolumn⟩ := exists_of_positive hpositive
  obtain ⟨hlength, hrows⟩ := List.forall₂_iff_get.mp (mapM_eq_ok_iff.mp hweights)
  obtain ⟨hlt, hscores⟩ := List.getElem?_eq_some_iff.mp hrow
  have hmade := hrows row (hlength ▸ hlt) hlt
  rw [List.get_eq_getElem, List.get_eq_getElem, hscores] at hmade
  obtain ⟨hlength', hcolumns⟩ := List.forall₂_iff_get.mp (mapM_eq_ok_iff.mp hmade)
  obtain ⟨hlt', hscore⟩ := List.getElem?_eq_some_iff.mp hcolumn
  have hscored := hcolumns column (hlength' ▸ hlt') hlt'
  rw [List.get_eq_getElem, List.get_eq_getElem, hscore] at hscored
  obtain ⟨⟨fact, cell⟩, hpair, hvalue⟩ := of_bind_eq_ok hscored
  rw [getElem!_pos rows row (hlength ▸ hlt), getElem!_pos columns column (hlength' ▸ hlt')]
  exact ⟨fact, cell, hpair, of_scored (Except.ok.inj hvalue)⟩

theorem diagnosed {fuel : ℕ} {pass : StrictPass} {assignment : Dict ℕ ℕ}
    (hassignment : diagnostic_pass unicode ratio policy fuel facts cells pass = .ok assignment)
    {pair : ℕ × ℕ} (hpair : pair ∈ assignment.entries) :
    ∃ fact cell, pair_at facts cells pair = .ok (fact, cell) ∧
      _diagnostic_constraints unicode ratio fact cell policy = true := by
  obtain ⟨weights, hweights, hrest⟩ := of_bind_eq_ok hassignment
  split at hrest
  · cases hrest
  · rename_i relative hrelative
    cases hrest
    obtain ⟨⟨row, column⟩, hmem, hmade⟩ :=
      List.mem_map.mp (Dict.mem_of_get?_ofPairs ((Dict.mem_entries_iff _ pair.1 pair.2).mp hpair))
    have hfits := maximum_weight_assignment_fits hrelative
    have hpairs : pair = _ := hmade.symm
    rw [hpairs]
    exact diagnostic_of_positive hweights
      (hfits.weighted row column ((Dict.mem_entries_iff _ _ _).mp hmem))

theorem code_of_diagnostic {fact : AuthorityNumericFact} {cell : ParserNumericCell}
    (hconstraints : _diagnostic_constraints unicode ratio fact cell policy = true) :
    NumericMismatchCode.WRONG_UNIT_SCALE ∈ _mismatch_codes unicode fact cell ∨
      NumericMismatchCode.WRONG_PERIOD ∈ _mismatch_codes unicode fact cell := by
  unfold _diagnostic_constraints at hconstraints
  rw [Bool.and_eq_true, Bool.or_eq_true] at hconstraints
  unfold _mismatch_codes
  rcases hconstraints.2 with hperiod | hunit
  · exact .inr (by simp [hperiod])
  · exact .inl (by simp [hunit])

-- A pair that only the second pass made shows in one of the two counters.
theorem code_of_diagnosed {fuel : ℕ} {pass : StrictPass} {assignment : Dict ℕ ℕ}
    {diagnostic_matches : List NumericDiagnosticMatch}
    (hassignment : diagnostic_pass unicode ratio policy fuel facts cells pass = .ok assignment)
    (hmatches : (sorted_pairs assignment.entries).mapM
      (diagnostic_at unicode ratio policy facts cells) = .ok diagnostic_matches)
    {found : NumericDiagnosticMatch} (hfound : found ∈ diagnostic_matches) :
    .WRONG_UNIT_SCALE ∈ found.mismatch_codes ∨ .WRONG_PERIOD ∈ found.mismatch_codes := by
  obtain ⟨pair, hpair, hmade⟩ := exists_item_of_mapM hmatches hfound
  have hentry : pair ∈ assignment.entries := (List.perm_insertionSort _ _).mem_iff.mp hpair
  obtain ⟨fact, cell, hat, hconstraints⟩ := diagnosed hassignment hentry
  unfold diagnostic_at at hmade
  rw [hat] at hmade
  obtain ⟨node, hnode, hbuilt⟩ := of_bind_eq_ok hmade
  cases hnode
  dsimp only at hbuilt
  split at hbuilt
  · cases hbuilt
    exact code_of_diagnostic hconstraints
  · cases hbuilt

theorem paired {pairs : List (ℕ × ℕ)} {found : List NumericAuthorityMerge}
    (hfound : pairs.mapM (merge_at unicode ratio policy facts cells) = .ok found) :
    ∃ pairing, List.Forall₂ (fun pair node => pair_at facts cells pair = .ok node) pairs pairing ∧
      List.Forall₂ (fun merge node => merge =
        _make_merge unicode node.1 node.2 (_signal_scores unicode ratio node.1 node.2 policy))
        found pairing := by
  replace hfound := mapM_eq_ok_iff.mp hfound
  induction hfound with
  | nil => exact ⟨[], .nil, .nil⟩
  | cons hmerge _ ih =>
      obtain ⟨pairing, hpairs, hmerges⟩ := ih
      obtain ⟨node, hnode, hmade⟩ := of_bind_eq_ok hmerge
      exact ⟨node :: pairing, .cons hnode hpairs, .cons (Except.ok.inj hmade).symm hmerges⟩

theorem map_of_indices {α : Type} {items chosen : List α} {rows : List ℕ}
    (hchosen : List.Forall₂ (fun row item => items[row]? = some item) rows chosen) :
    rows.map (fun row => items[row]?) = chosen.map some := by
  induction hchosen with
  | nil => rfl
  | cons hitem _ ih => rw [List.map_cons, List.map_cons, hitem, ih]

-- Items chosen once each by their places are the items.
theorem perm_of_indices {α : Type} {items chosen : List α} {rows : List ℕ}
    (hrows : rows.Perm (List.range items.length))
    (hchosen : List.Forall₂ (fun row item => items[row]? = some item) rows chosen) :
    chosen.Perm items := by
  have hall : (List.range items.length).map (fun row => items[row]?) = items.map some := by
    refine List.ext_getElem (by simp) fun i hi hi' => ?_
    simp only [List.length_map, List.length_range] at hi
    simp [List.getElem?_eq_getElem hi]
  have hperm := hrows.map (fun row => items[row]?)
  rw [map_of_indices hchosen, hall] at hperm
  simpa [List.filterMap_map] using hperm.filterMap id

end Passes

-- What a published match of a fact and a cell says.
structure Agrees (fact : AuthorityNumericFact) (cell : ParserNumericCell)
    (merge : NumericAuthorityMerge) : Prop where
  fact_id : merge.authority_fact_id = fact.fact_id
  cell_id : merge.parser_cell_id = cell.parser_cell_id
  entity : fact.key.entity_id = cell.key.entity_id
  period : fact.key.period_start = cell.key.period_start ∧
    fact.key.period_end = cell.key.period_end ∧ fact.key.instant = cell.key.instant
  scale : fact.key.scale = cell.key.scale
  value : cell.parser_value * cell.key.scale = fact.value
  output : merge.output_value = fact.value

-- The published matches pair every fact with a cell of its own and leave no cell over.
def Bijective (authority_facts : List AuthorityNumericFact) (parser_cells : List ParserNumericCell)
    (published : List NumericAuthorityMerge) : Prop :=
  ∃ pairing : List (AuthorityNumericFact × ParserNumericCell),
    (pairing.map Prod.fst).Perm authority_facts ∧ (pairing.map Prod.snd).Perm parser_cells ∧
      List.Forall₂ (fun merge node => Agrees node.1 node.2 merge) published pairing

section Release

open Method

variable {unicode : Unicode} {ratio : String → String → Binary64} {policy : GeometryMatcherConfig}
  {facts : List AuthorityNumericFact} {cells : List ParserNumericCell}

theorem strict_agrees {fact : AuthorityNumericFact} {cell : ParserNumericCell}
    (hstrict : _strict_constraints unicode ratio fact cell policy = true)
    (hvalue : NumericMismatchCode.CRITICAL_NUMERIC_MISMATCH ∉ _mismatch_codes unicode fact cell)
    (signals : GeometryMatchSignals) : Agrees fact cell (_make_merge unicode fact cell signals) := by
  simp only [_strict_constraints, _structural_constraints, _period_equal, _unit_scale_equal,
    Bool.and_eq_true, decide_eq_true_eq] at hstrict
  obtain ⟨⟨hstructural, ⟨hstart, hend⟩, hinstant⟩, -, hscale⟩ := hstrict
  have hmismatch : cell.authority_value = fact.value := by
    by_contra hne
    exact hvalue (by simp [_mismatch_codes, hne])
  exact
    { fact_id := rfl
      cell_id := rfl
      entity := hstructural.1.1.1.1.1.1.1
      period := ⟨hstart, hend, hinstant⟩
      scale := hscale
      value := hmismatch
      output := rfl }

theorem ambiguous_pair_marks (weights : Weights) (epsilon : Binary64) (nodes : List ℕ × List ℕ)
    (pair : ℕ × ℕ) :
    ambiguous_pair weights epsilon nodes pair = nodes ∨
      pair.1 ∈ (ambiguous_pair weights epsilon nodes pair).1 := by
  unfold ambiguous_pair
  split
  · exact .inl rfl
  · dsimp only
    split
    · exact .inr (by simp)
    · exact .inl rfl

-- Nothing is ambiguous unless the row of some assigned pair is.
theorem ambiguous_row_assigned (weights : Weights) (epsilon : Binary64) (entries : List (ℕ × ℕ)) :
    let nodes := entries.foldl (ambiguous_pair weights epsilon) ([], [])
    nodes.1 ≠ [] ∨ nodes.2 ≠ [] → ∃ pair ∈ entries, pair.1 ∈ nodes.1 := by
  induction entries using List.reverseRecOn with
  | nil => simp
  | append_singleton entries pair ih =>
      intro nodes hmarked
      have hnodes : nodes = ambiguous_pair weights epsilon
          (entries.foldl (ambiguous_pair weights epsilon) ([], [])) pair := by
        simp only [nodes, List.foldl_append, List.foldl_cons, List.foldl_nil]
      rcases ambiguous_pair_marks weights epsilon
        (entries.foldl (ambiguous_pair weights epsilon) ([], [])) pair with hsame | hmem
      · rw [hnodes, hsame] at hmarked ⊢
        obtain ⟨found, hfound, hmem⟩ := ih hmarked
        exact ⟨found, List.mem_append_left _ hfound, hmem⟩
      · exact ⟨pair, List.mem_append_right _ (List.mem_singleton_self pair), hnodes ▸ hmem⟩

theorem exists_strict_pass {fuel : ℕ} {pass : StrictPass}
    (hpass : strict_pass unicode ratio policy fuel facts cells = .ok pass) :
    Fits (strict_weights unicode ratio policy facts cells) pass.strict_assignment ∧
      (pass.ambiguous_fact_rows ≠ [] ∨ pass.ambiguous_cell_columns ≠ [] →
        ∃ pair ∈ pass.strict_assignment.entries, pair.1 ∈ pass.ambiguous_fact_rows) := by
  unfold strict_pass at hpass
  dsimp only at hpass
  split at hpass
  · cases hpass
  · rename_i assignment hassignment
    cases hpass
    exact ⟨maximum_weight_assignment_fits hassignment, ambiguous_row_assigned _ _ _⟩

-- What the first pass has accepted.
structure Accepted (unicode : Unicode) (ratio : String → String → Binary64)
    (policy : GeometryMatcherConfig) (facts : List AuthorityNumericFact)
    (cells : List ParserNumericCell) (accepted : List (ℕ × ℕ)) : Prop where
  rows_nodup : (accepted.map Prod.fst).Nodup
  columns_nodup : (accepted.map Prod.snd).Nodup
  strict : ∀ pair ∈ accepted, ∃ fact cell, pair_at facts cells pair = .ok (fact, cell) ∧
    _strict_constraints unicode ratio fact cell policy = true

theorem accepted_of_fits {pass : StrictPass}
    (hfits : Fits (strict_weights unicode ratio policy facts cells) pass.strict_assignment) :
    Accepted unicode ratio policy facts cells pass.accepted_assignment where
  rows_nodup := (List.filter_sublist.map Prod.fst).nodup pass.strict_assignment.nodup
  columns_nodup := by
    have hnodup := (List.Nodup.of_map Prod.fst pass.strict_assignment.nodup).filter
      (fun pair => pair.1 ∉ pass.ambiguous_fact_rows && pair.2 ∉ pass.ambiguous_cell_columns)
    refine List.Nodup.map_on ?_ hnodup
    rintro ⟨first, column⟩ hfirst ⟨second, _⟩ hsecond ⟨⟩
    have hfirst' := (Dict.mem_entries_iff _ _ _).mp (List.mem_filter.mp hfirst).1
    have hsecond' := (Dict.mem_entries_iff _ _ _).mp (List.mem_filter.mp hsecond).1
    rw [hfits.injective first second column hfirst' hsecond']
  strict := by
    rintro ⟨row, column⟩ hpair
    have hpositive := hfits.weighted row column
      ((Dict.mem_entries_iff _ _ _).mp (List.mem_filter.mp hpair).1)
    obtain ⟨fact, cell, hfact, hcell, hstrict⟩ := strict_of_positive hpositive
    refine ⟨fact, cell, ?_, hstrict⟩
    simp only [pair_at, hfact, hcell]

-- As many distinct places of a list as it has items are all of its places.
theorem perm_range {places : List ℕ} {length : ℕ} (hnodup : places.Nodup)
    (hinside : ∀ place ∈ places, place < length) (hlength : places.length = length) :
    places.Perm (List.range length) := by
  have hsub : places ⊆ List.range length := fun place hplace =>
    List.mem_range.mpr (hinside place hplace)
  refine (List.subperm_of_subset hnodup hsub).perm_of_length_le ?_
  rw [List.length_range, hlength]

theorem counter_eq_ok {value : ℤ} {count : ℕ} (hcounter : counter value = .ok count) :
    (count : ℤ) = value := by
  unfold counter at hcounter
  split at hcounter
  · rename_i hnonneg
    cases hcounter
    exact Int.toNat_of_nonneg hnonneg
  · cases hcounter

-- What a gate that passes says of the codes and of the rows left over.
theorem passed_gate {all_codes : List NumericMismatchCode}
    {parser_unsupported missing_authoritative : ℤ} {gate : NumericHardGate}
    (hgate : hard_gate all_codes parser_unsupported missing_authoritative = .ok gate)
    (hpassed : gate.passed = true) :
    all_codes = [] ∧ parser_unsupported = 0 ∧ missing_authoritative = 0 := by
  obtain ⟨unsupported, hunsupported, hrest⟩ := of_bind_eq_ok hgate
  obtain ⟨missing, hmissing, hmade⟩ := of_bind_eq_ok hrest
  have hzero := gate.earned.mp hpassed
  cases hmade
  obtain ⟨hcritical, hrow, hrow', hsign, hunit, hperiod⟩ := hzero
  refine ⟨List.eq_nil_iff_forall_not_mem.mpr fun code hcode => ?_, ?_, ?_⟩
  · cases code with
    | CRITICAL_NUMERIC_MISMATCH => exact List.count_eq_zero.mp hcritical hcode
    | WRONG_SIGN => exact List.count_eq_zero.mp hsign hcode
    | WRONG_UNIT_SCALE => exact List.count_eq_zero.mp hunit hcode
    | WRONG_PERIOD => exact List.count_eq_zero.mp hperiod hcode
  · rw [← counter_eq_ok hunsupported]
    exact congrArg Nat.cast hrow
  · rw [← counter_eq_ok hmissing]
    exact congrArg Nat.cast hrow'

theorem reason_codes_of_passed {gate : NumericHardGate} (hpassed : gate.passed = true) :
    _reason_codes gate false = [] := by
  obtain ⟨hcritical, hrow, hrow', hsign, hunit, hperiod⟩ := gate.earned.mp hpassed
  simp [_reason_codes, hcritical, hrow, hrow', hsign, hunit, hperiod]

theorem Accepted.inside {accepted : List (ℕ × ℕ)}
    (haccepted : Accepted unicode ratio policy facts cells accepted) {pair : ℕ × ℕ}
    (hpair : pair ∈ accepted) : pair.1 < facts.length ∧ pair.2 < cells.length := by
  obtain ⟨fact, cell, hat, -⟩ := haccepted.strict pair hpair
  obtain ⟨hfact, hcell⟩ := pair_at_eq_ok hat
  exact ⟨(List.getElem?_eq_some_iff.mp hfact).1, (List.getElem?_eq_some_iff.mp hcell).1⟩

theorem Accepted.rows_perm {accepted : List (ℕ × ℕ)}
    (haccepted : Accepted unicode ratio policy facts cells accepted)
    (hfacts : accepted.length = facts.length) :
    (accepted.map Prod.fst).Perm (List.range facts.length) := by
  refine perm_range haccepted.rows_nodup ?_ (by rw [List.length_map, hfacts])
  exact List.forall_mem_map.mpr fun pair hpair => (haccepted.inside hpair).1

theorem Accepted.columns_perm {accepted : List (ℕ × ℕ)}
    (haccepted : Accepted unicode ratio policy facts cells accepted)
    (hcells : accepted.length = cells.length) :
    (accepted.map Prod.snd).Perm (List.range cells.length) := by
  refine perm_range haccepted.columns_nodup ?_ (by rw [List.length_map, hcells])
  exact List.forall_mem_map.mpr fun pair hpair => (haccepted.inside hpair).2

-- Everything is matched by the first pass, so the pairs of its places are a bijection.
theorem bijective_of_accepted {accepted : List (ℕ × ℕ)} {found : List NumericAuthorityMerge}
    (haccepted : Accepted unicode ratio policy facts cells accepted)
    (hfacts : accepted.length = facts.length) (hcells : accepted.length = cells.length)
    (hfound : (sorted_pairs accepted).mapM (merge_at unicode ratio policy facts cells) = .ok found)
    (hcodes : ∀ merge ∈ found, merge.mismatch_codes = []) : Bijective facts cells found := by
  have hsorted : (sorted_pairs accepted).Perm accepted := List.perm_insertionSort _ _
  have hrows := haccepted.rows_perm hfacts
  have hcolumns := haccepted.columns_perm hcells
  obtain ⟨pairing, hpairs, hmerges⟩ := paired hfound
  refine ⟨pairing, ?_, ?_, ?_⟩
  · refine perm_of_indices ((hsorted.map Prod.fst).trans hrows) ?_
    rw [List.forall₂_map_left_iff, List.forall₂_map_right_iff]
    exact hpairs.imp fun pair node hat => (pair_at_eq_ok hat).1
  · refine perm_of_indices ((hsorted.map Prod.snd).trans hcolumns) ?_
    rw [List.forall₂_map_left_iff, List.forall₂_map_right_iff]
    exact hpairs.imp fun pair node hat => (pair_at_eq_ok hat).2
  · obtain ⟨hlength, hmerge⟩ := List.forall₂_iff_get.mp hmerges
    obtain ⟨hlength', hpair⟩ := List.forall₂_iff_get.mp hpairs
    refine List.forall₂_iff_get.mpr ⟨hlength, fun i hi hi' => ?_⟩
    have hpair' := hpair i (hlength' ▸ hi') hi'
    obtain ⟨fact, cell, hat, hstrict⟩ := haccepted.strict _
      (hsorted.mem_iff.mp (List.get_mem (sorted_pairs accepted) ⟨i, hlength' ▸ hi'⟩))
    have hnode : pairing.get ⟨i, hi'⟩ = (fact, cell) := Except.ok.inj (hpair'.symm.trans hat)
    have hnone := hcodes _ (List.get_mem found ⟨i, hi⟩)
    rw [hmerge i hi hi', hnode] at hnone ⊢
    refine strict_agrees hstrict ?_ _
    have hclean : _mismatch_codes unicode fact cell = [] := hnone
    rw [hclean]
    exact List.not_mem_nil

theorem match_numeric_geometry_sound {fuel : ℕ} {authority_facts : List AuthorityNumericFact}
    {parser_cells : List ParserNumericCell} {result : NumericGeometryResult}
    (hresult : match_numeric_geometry unicode ratio policy fuel authority_facts parser_cells =
      .ok result) :
    (result.state = .AUTHORITY_VERIFIED →
      Bijective authority_facts parser_cells result.publishable_matches ∧
        result.reason_codes = [] ∧
          ∃ pass, strict_pass unicode ratio policy fuel (sorted_facts authority_facts)
              (sorted_cells parser_cells) = .ok pass ∧
            pass.ambiguous_fact_rows = [] ∧ pass.ambiguous_cell_columns = []) ∧
      (result.state ≠ .AUTHORITY_VERIFIED →
        result.publishable_matches = [] ∧ result.billable = false) := by
  have hderived := result.state_derived
  refine ⟨fun hverified => ?_, fun hfailed => ?_⟩
  swap
  · have hpassed : result.hard_gate.passed = false := by
      by_contra hpassed
      rw [Bool.not_eq_false] at hpassed
      exact hfailed (by rw [hderived, hpassed]; rfl)
    rw [result.publishable_derived, result.billable_derived, hpassed]
    exact ⟨rfl, rfl⟩
  have hpassed : result.hard_gate.passed = true := by
    by_contra hpassed
    rw [hderived, if_neg hpassed] at hverified
    cases hverified
  unfold match_numeric_geometry at hresult
  dsimp only at hresult
  split at hresult
  · cases hresult
  split at hresult
  · cases hresult
  obtain ⟨pass, hpass, hresult⟩ := of_bind_eq_ok hresult
  obtain ⟨found, hfound, hresult⟩ := of_bind_eq_ok hresult
  obtain ⟨diagnostic, hdiagnostic, hresult⟩ := of_bind_eq_ok hresult
  obtain ⟨diagnosed, hdiagnosed, hresult⟩ := of_bind_eq_ok hresult
  obtain ⟨gate, hgate, hresult⟩ := of_bind_eq_ok hresult
  cases hresult
  obtain ⟨hcodes, hunsupported, hmissing⟩ := passed_gate hgate hpassed
  obtain ⟨hmerged, hdiagnosed_codes⟩ := List.append_eq_nil_iff.mp hcodes
  obtain ⟨hfits, hambiguous⟩ := exists_strict_pass hpass
  have haccepted := accepted_of_fits hfits
  -- A pair of the second pass would carry a code, and no code is left.
  have hnone : diagnosed = [] := by
    refine List.eq_nil_iff_forall_not_mem.mpr fun merge hmerge => ?_
    have hclean := List.flatMap_eq_nil_iff.mp hdiagnosed_codes merge hmerge
    rcases code_of_diagnosed hdiagnostic hdiagnosed hmerge with hcode | hcode
    · rw [hclean] at hcode
      cases hcode
    · rw [hclean] at hcode
      cases hcode
  have hempty : diagnostic.entries = [] := by
    have hlength := (mapM_eq_ok_iff.mp hdiagnosed).length_eq
    rw [hnone, sorted_pairs, List.length_insertionSort] at hlength
    exact List.eq_nil_of_length_eq_zero hlength
  have hrows : pass.accepted_assignment.length = (sorted_facts authority_facts).length := by
    rw [haccepted.rows_nodup.dedup, List.length_map, Dict.keys, hempty] at hmissing
    simp only [List.map_nil, List.length_nil] at hmissing
    omega
  have hcolumns : pass.accepted_assignment.length = (sorted_cells parser_cells).length := by
    rw [haccepted.columns_nodup.dedup, List.length_map, Dict.values, hempty] at hunsupported
    simp only [List.map_nil, List.dedup_nil, List.length_nil] at hunsupported
    omega
  have hclear : ¬(pass.ambiguous_fact_rows ≠ [] ∨ pass.ambiguous_cell_columns ≠ []) := by
    intro hmarked
    obtain ⟨⟨row, column⟩, hpair, hrow⟩ := hambiguous hmarked
    have hpositive := hfits.weighted row column ((Dict.mem_entries_iff _ _ _).mp hpair)
    obtain ⟨fact, cell, hfact, -⟩ := strict_of_positive hpositive
    have hmem : row ∈ pass.accepted_assignment.map Prod.fst :=
      (haccepted.rows_perm hrows).mem_iff.mpr
        (List.mem_range.mpr (List.getElem?_eq_some_iff.mp hfact).1)
    obtain ⟨other, hother, hsame⟩ := List.mem_map.mp hmem
    have hunmarked := (List.mem_filter.mp hother).2
    rw [Bool.and_eq_true, decide_eq_true_eq, hsame] at hunmarked
    exact hunmarked.1 hrow
  obtain ⟨hclear_rows, hclear_columns⟩ := not_or.mp hclear
  rw [not_not] at hclear_rows hclear_columns
  obtain ⟨pairing, hpairing, hpairing', hagrees⟩ := bijective_of_accepted haccepted hrows hcolumns
    hfound (List.flatMap_eq_nil_iff.mp hmerged)
  have hpublished : (released found diagnosed gate
      (pass.ambiguous_fact_rows ≠ [] || pass.ambiguous_cell_columns ≠ [])).publishable_matches =
        found := if_pos hpassed
  rw [hpublished]
  refine ⟨⟨pairing, ?_, ?_, hagrees⟩, ?_, pass, hpass, hclear_rows, hclear_columns⟩
  · exact hpairing.trans (List.perm_insertionSort _ _)
  · exact hpairing'.trans (List.perm_insertionSort _ _)
  · rw [hclear_rows, hclear_columns]
    exact reason_codes_of_passed hpassed

end Release

section Filing

def value_box : BBox1000 := ⟨100, 100, 200, 120, by decide⟩

def statement_key (concept : String) : NumericCellKey where
  entity_id := "corp-1"
  statement := "income"
  concept := concept
  instant := some ⟨2025, 12, 31⟩
  unit := "usd"
  scale := 1000
  page := 1
  row_key := concept
  column_key := "2025"
  scale_pos := by decide

def filed_fact (fact_id concept : String) (value : ℚ) : AuthorityNumericFact where
  fact_id := fact_id
  key := statement_key concept
  xbrl_label := concept
  value := value
  provenance := .DartXbrlProvenance "report.pdf"

def parsed_cell (parser_cell_id concept number : String) (value : ℚ) : ParserNumericCell where
  parser_cell_id := parser_cell_id
  key := statement_key concept
  geometry_source := .PDF_CELL
  source_document_uri := "report.pdf"
  label := concept
  row_header := concept
  column_header := "2025"
  original_parser_number := number
  parser_value := value
  bbox1000 := value_box
  words := [⟨number, value_box, .VALUE⟩]
  has_value_word := ⟨_, List.mem_singleton_self _, rfl⟩

def filed_facts : List AuthorityNumericFact :=
  [filed_fact "fact-2" "revenue" 5000, filed_fact "fact-1" "assets" (-7000)]

def parsed_cells : List ParserNumericCell :=
  [parsed_cell "cell-1" "revenue" "5" 5, parsed_cell "cell-2" "assets" "(7)" (-7)]

-- The two labels have one letter in common.
def filing_ratio (left right : String) : Binary64 :=
  if left = right then .finite 1 else .of (2 / 13)

theorem filing_released :
    ∃ result, match_numeric_geometry .ascii filing_ratio {} 5 filed_facts parsed_cells = .ok result ∧
      result.billable = true ∧ Bijective filed_facts parsed_cells result.publishable_matches := by
  have hstate : (match_numeric_geometry .ascii filing_ratio {} 5 filed_facts
      parsed_cells).toOption.map (fun result => (result.state, result.billable)) =
        some (.AUTHORITY_VERIFIED, true) := by decide +kernel
  obtain ⟨result, hresult, hverified⟩ := Option.map_eq_some_iff.mp hstate
  have hok := Method.eq_ok_of_toOption hresult
  obtain ⟨hstate, hbillable⟩ := Prod.mk.inj hverified
  exact ⟨result, hok, hbillable, ((match_numeric_geometry_sound hok).1 hstate).1⟩

end Filing

end KnowledgeCompiler.Quality
