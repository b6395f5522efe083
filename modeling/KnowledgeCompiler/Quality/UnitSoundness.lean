import KnowledgeCompiler.Quality.NumericRelease

namespace KnowledgeCompiler.Quality

open Lib Identity

section Published

open Method

variable {unicode : Unicode} {ratio : String → String → Binary64} {policy : GeometryMatcherConfig}
  {authority_facts : List AuthorityNumericFact} {parser_cells : List ParserNumericCell}
  {result : NumericGeometryResult} {fuel : ℕ}

-- A fact and a cell that a result publishes as a verified pair.
def Published (result : NumericGeometryResult) (fact : AuthorityNumericFact)
    (cell : ParserNumericCell) : Prop :=
  ∃ merge ∈ result.publishable_matches, merge.authority_fact_id = fact.fact_id ∧
    merge.parser_cell_id = cell.parser_cell_id

theorem distinct_ids
    (hresult : match_numeric_geometry unicode ratio policy fuel authority_facts parser_cells =
      .ok result) :
    (authority_facts.map AuthorityNumericFact.fact_id).Nodup ∧
      (parser_cells.map ParserNumericCell.parser_cell_id).Nodup := by
  unfold match_numeric_geometry at hresult
  dsimp only at hresult
  split at hresult
  · cases hresult
  split at hresult
  · cases hresult
  rename_i hfacts hcells
  have hfacts' : (sorted_facts authority_facts).Perm authority_facts := List.perm_insertionSort _ _
  have hcells' : (sorted_cells parser_cells).Perm parser_cells := List.perm_insertionSort _ _
  exact ⟨(hfacts'.map _).nodup_iff.mp (not_not.mp hfacts),
    (hcells'.map _).nodup_iff.mp (not_not.mp hcells)⟩

-- Whatever is published comes from a pair of the first pass.
theorem exists_strict_pair
    (hresult : match_numeric_geometry unicode ratio policy fuel authority_facts parser_cells =
      .ok result) {merge : NumericAuthorityMerge} (hmerge : merge ∈ result.publishable_matches) :
    ∃ fact ∈ authority_facts, ∃ cell ∈ parser_cells,
      _strict_constraints unicode ratio fact cell policy = true ∧
      merge.authority_fact_id = fact.fact_id ∧ merge.parser_cell_id = cell.parser_cell_id := by
  have hmatches : merge ∈ result.«matches» := by
    rw [result.publishable_derived] at hmerge
    split at hmerge
    · exact hmerge
    · cases hmerge
  unfold match_numeric_geometry at hresult
  dsimp only at hresult
  split at hresult
  · cases hresult
  split at hresult
  · cases hresult
  obtain ⟨pass, hpass, hresult⟩ := of_bind_eq_ok hresult
  obtain ⟨found, hfound, hresult⟩ := of_bind_eq_ok hresult
  obtain ⟨diagnostic, -, hresult⟩ := of_bind_eq_ok hresult
  obtain ⟨diagnosed, -, hresult⟩ := of_bind_eq_ok hresult
  obtain ⟨gate, -, hresult⟩ := of_bind_eq_ok hresult
  cases hresult
  obtain ⟨pair, hpair, hmade⟩ := exists_item_of_mapM hfound hmatches
  have haccepted : pair ∈ pass.accepted_assignment := (List.perm_insertionSort _ _).mem_iff.mp hpair
  obtain ⟨fact, cell, hat, hstrict⟩ :=
    (accepted_of_fits (exists_strict_pass hpass).1).strict pair haccepted
  obtain ⟨hfact, hcell⟩ := pair_at_eq_ok hat
  unfold merge_at at hmade
  rw [hat] at hmade
  obtain rfl := Except.ok.inj hmade
  exact ⟨fact, (List.perm_insertionSort _ _).mem_iff.mp (List.mem_of_getElem? hfact), cell,
    (List.perm_insertionSort _ _).mem_iff.mp (List.mem_of_getElem? hcell), hstrict, rfl, rfl⟩

theorem same_label_of_published
    (hresult : match_numeric_geometry unicode ratio policy fuel authority_facts parser_cells =
      .ok result)
    {fact : AuthorityNumericFact} (hfact : fact ∈ authority_facts) {cell : ParserNumericCell}
    (hcell : cell ∈ parser_cells) (hpublished : Published result fact cell) :
    _normalize_label unicode fact.key.unit = _normalize_label unicode cell.key.unit := by
  obtain ⟨merge, hmerge, hfact_id, hcell_id⟩ := hpublished
  obtain ⟨paired_fact, hpaired_fact, paired_cell, hpaired_cell, hstrict, hid, hid'⟩ :=
    exists_strict_pair hresult hmerge
  obtain ⟨hfacts, hcells⟩ := distinct_ids hresult
  have hsame := List.inj_on_of_nodup_map hfacts hfact hpaired_fact (hfact_id.symm.trans hid)
  have hsame' := List.inj_on_of_nodup_map hcells hcell hpaired_cell (hcell_id.symm.trans hid')
  rw [hsame, hsame']
  simp only [_strict_constraints, _unit_scale_equal, Bool.and_eq_true, decide_eq_true_eq] at hstrict
  exact hstrict.2.1

end Published

-- The unit up to compatibility forms, letter case and white space.
def unit_form (unicode : Unicode) (unit : String) : List Char :=
  (unicode.casefold (unicode.nfkc unit)).toList.filter (fun c => !Text.isSpace c)

def SameUnit (unicode : Unicode) (first second : String) : Prop :=
  unit_form unicode first = unit_form unicode second

section Lone

def lone_key (unit : String) : NumericCellKey where
  entity_id := "corp-1"
  statement := "x"
  concept := "x"
  instant := some ⟨2025, 12, 31⟩
  unit := unit
  scale := 1
  page := 1
  row_key := "x"
  column_key := "x"
  scale_pos := Nat.one_pos

def lone_fact (unit : String) : AuthorityNumericFact where
  fact_id := "fact"
  key := lone_key unit
  xbrl_label := "x"
  value := 5
  provenance := .DartXbrlProvenance "report.pdf"

def lone_cell (unit : String) : ParserNumericCell where
  parser_cell_id := "cell"
  key := lone_key unit
  geometry_source := .PDF_CELL
  source_document_uri := "report.pdf"
  label := "x"
  row_header := "x"
  column_header := "x"
  original_parser_number := "5"
  parser_value := 5
  bbox1000 := value_box
  words := [⟨"5", value_box, .VALUE⟩]
  has_value_word := ⟨_, List.mem_singleton_self _, rfl⟩

variable (unicode : Unicode) (ratio : String → String → Binary64) {first second : String}

-- What all similarities of a lone pair come to: its labels are one text, which may normalise to nothing.
theorem lone_similarity :
    _fuzzy_similarity unicode ratio "x" "x" = .finite 0 ∨
      _fuzzy_similarity unicode ratio "x" "x" = .finite 1 := by
  unfold _fuzzy_similarity
  dsimp only
  split
  · exact Or.inl rfl
  · rw [if_pos rfl]
    exact Or.inr rfl

-- The total of a pair whose similarities are all the same.
def lone_total (similarity : Binary64) : Binary64 :=
  let coverage := (Binary64.sum [_intersection_ratio value_box value_box]).div (.finite 1)
  let words_cells := (similarity.add coverage).div (.finite 2)
  let headers := (similarity.add similarity).div (.finite 2)
  let page := (Binary64.finite 0).max ((Binary64.finite 1).sub (.of 0))
  let policy : GeometryMatcherConfig := {}
  clamped ((((((((words_cells.mul policy.pdf_words_cells_weight).add
    (((flag true).max similarity).mul policy.xbrl_label_weight)).add
    ((flag true).mul policy.numeric_value_weight)).add
    (page.mul policy.page_weight)).add
    (headers.mul policy.row_column_headers_weight)).add
    ((flag true).mul policy.statement_context_weight)).add
    ((flag true).mul policy.unit_scale_weight)).add
    (similarity.mul policy.fuzzy_label_weight))

theorem lone_unit_scale (hlabel : _normalize_label unicode first = _normalize_label unicode second) :
    _unit_scale_equal unicode (lone_key first) (lone_key second) = true := by
  simp [_unit_scale_equal, lone_key, hlabel]

theorem lone_score (hlabel : _normalize_label unicode first = _normalize_label unicode second) :
    (_signal_scores unicode ratio (lone_fact first) (lone_cell second) {}).total =
      lone_total (_fuzzy_similarity unicode ratio "x" "x") := by
  have hunit := lone_unit_scale unicode hlabel
  have hvalue : (lone_cell second).authority_value = (lone_fact first).value := by
    simp [ParserNumericCell.authority_value, lone_cell, lone_fact, lone_key]
  simp only [_signal_scores, hvalue]
  simp only [lone_fact, lone_cell, hunit]
  simp [lone_total, lone_key]

theorem lone_strict (hlabel : _normalize_label unicode first = _normalize_label unicode second) :
    _strict_constraints unicode ratio (lone_fact first) (lone_cell second) {} = true := by
  have hunit := lone_unit_scale unicode hlabel
  simp only [_strict_constraints, _structural_constraints, _dimensions_equal]
  simp [lone_fact, lone_cell, lone_key, _period_equal, _source_compatible, _normalized_dimensions]
  exact hunit

def lone_assignment : Dict ℕ ℕ := .ofPairs [(0, 0)]

theorem lone_assigned {similarity : Binary64}
    (hsimilarity : similarity = .finite 0 ∨ similarity = .finite 1) :
    _maximum_weight_assignment 3 [[some (lone_total similarity)]] = some lone_assignment ∧
      _ambiguous_nodes [[some (lone_total similarity)]] lone_assignment
          (GeometryMatcherConfig.ambiguity_epsilon {}) = ([], []) ∧
      (GeometryMatcherConfig.minimum_match_score {}).le (lone_total similarity) = true := by
  rcases hsimilarity with rfl | rfl
  · decide +kernel
  · decide +kernel

theorem lone_pass (hlabel : _normalize_label unicode first = _normalize_label unicode second) :
    strict_pass unicode ratio {} 3 [lone_fact first] [lone_cell second] =
      .ok ⟨lone_assignment, [], []⟩ := by
  obtain ⟨hassigned, hnodes, hscore⟩ := lone_assigned (lone_similarity unicode ratio)
  have hweights : strict_weights unicode ratio {} [lone_fact first] [lone_cell second] =
      [[some (lone_total (_fuzzy_similarity unicode ratio "x" "x"))]] := by
    simp only [strict_weights, List.map_cons, List.map_nil, scored, lone_score unicode ratio hlabel,
      lone_strict unicode ratio hlabel, hscore, and_self, if_true]
  simp only [strict_pass, hweights, hassigned, hnodes]

theorem lone_codes (hlabel : _normalize_label unicode first = _normalize_label unicode second) :
    _mismatch_codes unicode (lone_fact first) (lone_cell second) = [] := by
  have hunit := lone_unit_scale unicode hlabel
  have hvalue : (lone_cell second).authority_value = 5 := by
    simp [ParserNumericCell.authority_value, lone_cell, lone_key]
  simp only [_mismatch_codes, hvalue]
  simp [lone_fact, lone_cell, lone_key, _period_equal]
  exact hunit

-- One fact and one cell whose units have one label are published.
theorem lone_published (hlabel : _normalize_label unicode first = _normalize_label unicode second) :
    ∃ result, match_numeric_geometry unicode ratio {} 3 [lone_fact first] [lone_cell second] =
        .ok result ∧ Published result (lone_fact first) (lone_cell second) := by
  have hcodes := lone_codes unicode hlabel
  have hpass := lone_pass unicode ratio hlabel
  have haccepted : (StrictPass.mk lone_assignment [] []).accepted_assignment = [(0, 0)] := by decide
  have hdiagnostic : diagnostic_pass unicode ratio {} 3 [lone_fact first] [lone_cell second]
      ⟨lone_assignment, [], []⟩ = .ok .empty := rfl
  have hmerged : (sorted_pairs [(0, 0)]).mapM
      (merge_at unicode ratio {} [lone_fact first] [lone_cell second]) =
      .ok [_make_merge unicode (lone_fact first) (lone_cell second)
        (_signal_scores unicode ratio (lone_fact first) (lone_cell second) {})] := rfl
  have hnone : (sorted_pairs (Dict.empty : Dict ℕ ℕ).entries).mapM
      (diagnostic_at unicode ratio {} [lone_fact first] [lone_cell second]) = .ok [] := rfl
  have hsurplus : ([lone_cell second].length : ℤ) - (([(0, 0)] : List (ℕ × ℕ)).map Prod.snd).dedup.length -
      (Dict.empty : Dict ℕ ℕ).values.dedup.length = 0 := rfl
  have hmissing : ([lone_fact first].length : ℤ) - (([(0, 0)] : List (ℕ × ℕ)).map Prod.fst).dedup.length -
      (Dict.empty : Dict ℕ ℕ).keys.length = 0 := rfl
  have hmerge_codes : (_make_merge unicode (lone_fact first) (lone_cell second)
      (_signal_scores unicode ratio (lone_fact first) (lone_cell second) {})).mismatch_codes = [] :=
    hcodes
  obtain ⟨gate, hgate, hpassed⟩ : ∃ gate, hard_gate [] 0 0 = .ok gate ∧ gate.passed = true :=
    ⟨_, rfl, rfl⟩
  refine ⟨released [_make_merge unicode (lone_fact first) (lone_cell second)
    (_signal_scores unicode ratio (lone_fact first) (lone_cell second) {})] [] gate false, ?_, ?_⟩
  · have hfacts : sorted_facts [lone_fact first] = [lone_fact first] := rfl
    have hcells : sorted_cells [lone_cell second] = [lone_cell second] := rfl
    unfold match_numeric_geometry
    simp only [hfacts, hcells, List.map_cons, List.map_nil, List.nodup_singleton, not_true,
      if_false, hpass]
    simp only [bind, Except.bind, haccepted, hmerged, hdiagnostic, hnone]
    simp only [List.flatMap_cons, List.flatMap_nil, List.append_nil, hmerge_codes]
    rw [hsurplus, hmissing, hgate]
    rfl
  · rw [Published, released]
    simp only [hpassed, if_true, List.mem_singleton, exists_eq_left]
    exact ⟨rfl, rfl⟩

end Lone

theorem published_units_iff (unicode : Unicode) (ratio : String → String → Binary64)
    (first second : String) :
    (∀ policy fuel authority_facts parser_cells result,
      match_numeric_geometry unicode ratio policy fuel authority_facts parser_cells = .ok result →
      ∀ fact ∈ authority_facts, ∀ cell ∈ parser_cells, fact.key.unit = first → cell.key.unit = second →
        Published result fact cell → SameUnit unicode first second) ↔
      (_normalize_label unicode first = _normalize_label unicode second →
        SameUnit unicode first second) := by
  constructor
  · intro hsound hlabel
    obtain ⟨result, hresult, hpublished⟩ := lone_published unicode ratio hlabel
    exact hsound _ _ _ _ result hresult _ (List.mem_singleton_self _) _ (List.mem_singleton_self _)
      rfl rfl hpublished
  · intro hlabels policy fuel authority_facts parser_cells result hresult fact hfact cell hcell hfirst
      hsecond hpublished
    have hlabel := same_label_of_published hresult hfact hcell hpublished
    rw [hfirst, hsecond] at hlabel
    exact hlabels hlabel

theorem dollars_euros_label : _normalize_label .ascii "$" = _normalize_label .ascii "€" := by
  decide

-- A fact in dollars and a cell in euros.
theorem dollars_published_as_euros :
    ∃ authority_facts parser_cells result,
      match_numeric_geometry .ascii filing_ratio {} 3 authority_facts parser_cells = .ok result ∧
      ∃ fact ∈ authority_facts, ∃ cell ∈ parser_cells, fact.key.unit = "$" ∧ cell.key.unit = "€" ∧
        Published result fact cell ∧ ¬SameUnit .ascii "$" "€" := by
  obtain ⟨result, hresult, hpublished⟩ :=
    lone_published .ascii filing_ratio dollars_euros_label
  refine ⟨_, _, result, hresult, _, List.mem_singleton_self _, _, List.mem_singleton_self _, rfl, rfl,
    hpublished, ?_⟩
  rw [SameUnit]
  decide

end KnowledgeCompiler.Quality
