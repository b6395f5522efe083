import KnowledgeCompiler.Quality.NumericGeometry
import Mathlib.Data.List.Sort
import Mathlib.Logic.Function.Basic

namespace KnowledgeCompiler.Quality

open Lib Identity

abbrev Weights := List (List (Option Binary64))

namespace Assignment

-- The arrays of the outer loop. Rows and columns count from 1; column 0 holds the row to be placed.
structure Labels where
  potentials_rows : ℕ → Binary64
  potentials_columns : ℕ → Binary64
  matching : ℕ → ℕ
  predecessor : ℕ → ℕ

structure Search where
  potentials_rows : ℕ → Binary64
  potentials_columns : ℕ → Binary64
  minimums : ℕ → Binary64
  predecessor : ℕ → ℕ
  used : ℕ → Bool
  column0 : ℕ

structure Scan where
  minimums : ℕ → Binary64
  predecessor : ℕ → ℕ
  delta : Binary64
  column1 : ℕ

def invalid_weight : Binary64 := .finite (-1000000)

def square (weights : Weights) (row_count column_count row column : ℕ) : Binary64 :=
  if row < row_count ∧ column < column_count then ((weights[row]!)[column]!).getD invalid_weight
  else .finite 0

-- `max(values)`
def maximum : List Binary64 → Binary64
  | [] => .nan
  | value :: rest => rest.foldl Binary64.max value

def costs (weights : Weights) (row_count column_count : ℕ) : ℕ → ℕ → Binary64 :=
  let size := row_count + column_count
  let cell := square weights row_count column_count
  let greatest := maximum ((List.range size).map
    (fun row => maximum ((List.range size).map (cell row))))
  fun row column => greatest.sub (cell row column)

def scan_column (cost : ℕ → ℕ → Binary64) (search : Search) (row0 : ℕ) (scan : Scan)
    (column : ℕ) : Scan :=
  if search.used column then scan
  else
    let current := ((cost (row0 - 1) (column - 1)).sub (search.potentials_rows row0)).sub
      (search.potentials_columns column)
    let scan :=
      if current.lt (scan.minimums column) then
        { scan with
          minimums := Function.update scan.minimums column current
          predecessor := Function.update scan.predecessor column search.column0 }
      else scan
    if (scan.minimums column).lt scan.delta then
      { scan with delta := scan.minimums column, column1 := column }
    else scan

def shift_column (matching : ℕ → ℕ) (delta : Binary64) (search : Search) (column : ℕ) : Search :=
  if search.used column then
    { search with
      potentials_rows := Function.update search.potentials_rows (matching column)
        ((search.potentials_rows (matching column)).add delta)
      potentials_columns := Function.update search.potentials_columns column
        ((search.potentials_columns column).sub delta) }
  else
    { search with
      minimums := Function.update search.minimums column ((search.minimums column).sub delta) }

-- One round of the first inner loop, up to its exit test.
def advance (cost : ℕ → ℕ → Binary64) (size : ℕ) (matching : ℕ → ℕ) (search : Search) : Search :=
  let search := { search with used := Function.update search.used search.column0 true }
  let scan := (List.range' 1 size).foldl (scan_column cost search (matching search.column0))
    ⟨search.minimums, search.predecessor, .infinity false, 0⟩
  let search := { search with minimums := scan.minimums, predecessor := scan.predecessor }
  let search := (List.range (size + 1)).foldl (shift_column matching scan.delta) search
  { search with column0 := scan.column1 }

def find (cost : ℕ → ℕ → Binary64) (size : ℕ) (matching : ℕ → ℕ) : ℕ → Search → Option Search
  | 0, _ => none
  | fuel + 1, search =>
      let next := advance cost size matching search
      if matching next.column0 = 0 then some next else find cost size matching fuel next

-- The second inner loop.
def augment (predecessor : ℕ → ℕ) : ℕ → (ℕ → ℕ) → ℕ → Option (ℕ → ℕ)
  | 0, _, _ => none
  | fuel + 1, matching, column0 =>
      let column1 := predecessor column0
      let matching := Function.update matching column0 (matching column1)
      if column1 = 0 then some matching else augment predecessor fuel matching column1

-- One row of the outer loop.
def place (cost : ℕ → ℕ → Binary64) (size fuel : ℕ) (labels : Labels) (row : ℕ) :
    Option Labels := do
  let matching := Function.update labels.matching 0 row
  let search ← find cost size matching fuel
    { potentials_rows := labels.potentials_rows
      potentials_columns := labels.potentials_columns
      minimums := fun _ => .infinity false
      predecessor := labels.predecessor
      used := fun _ => false
      column0 := 0 }
  let matching ← augment search.predecessor fuel matching search.column0
  return ⟨search.potentials_rows, search.potentials_columns, matching, search.predecessor⟩

def positive (value : Option Binary64) : Bool := value.any (fun weight => (Binary64.finite 0).lt weight)

def collect_column (weights : Weights) (row_count column_count : ℕ) (matching : ℕ → ℕ)
    (assignment : Dict ℕ ℕ) (column : ℕ) : Dict ℕ ℕ :=
  let row := matching column
  if (1 ≤ row ∧ row ≤ row_count) ∧ 1 ≤ column ∧ column ≤ column_count then
    if positive (weights[row - 1]!)[column - 1]! then assignment.set (row - 1) (column - 1)
    else assignment
  else assignment

end Assignment

open Assignment in
def _maximum_weight_assignment (fuel : ℕ) (weights : Weights) : Option (Dict ℕ ℕ) :=
  let row_count := weights.length
  let column_count := (weights.headD []).length
  if row_count = 0 ∨ column_count = 0 then some .empty
  else do
    let size := row_count + column_count
    let labels ← (List.range' 1 size).foldlM (place (costs weights row_count column_count) size fuel)
      ⟨fun _ => .finite 0, fun _ => .finite 0, fun _ => 0, fun _ => 0⟩
    return (List.range' 1 size).foldl
      (collect_column weights row_count column_count labels.matching) .empty

def ties (epsilon selected : Binary64) (score : Option Binary64) : Bool :=
  score.any (fun score => (score.sub selected).abs.le epsilon)

-- The sets of rows and columns, as lists.
def ambiguous_pair (weights : Weights) (epsilon : Binary64) (nodes : List ℕ × List ℕ)
    (pair : ℕ × ℕ) : List ℕ × List ℕ :=
  match (weights[pair.1]!)[pair.2]! with
  | none => nodes
  | some selected =>
      let row_ties := (List.range weights[pair.1]!.length).filter
        (fun candidate => candidate ≠ pair.2 && ties epsilon selected (weights[pair.1]!)[candidate]!)
      let column_ties := (List.range weights.length).filter
        (fun candidate => candidate ≠ pair.1 && ties epsilon selected (weights[candidate]!)[pair.2]!)
      if row_ties ≠ [] ∨ column_ties ≠ [] then
        (nodes.1 ++ pair.1 :: column_ties, nodes.2 ++ pair.2 :: row_ties)
      else nodes

def _ambiguous_nodes (weights : Weights) (assignment : Dict ℕ ℕ) (epsilon : Binary64) :
    List ℕ × List ℕ :=
  assignment.entries.foldl (ambiguous_pair weights epsilon) ([], [])

section Matcher

variable (unicode : Unicode) (ratio : String → String → Binary64)

def _mismatch_codes (fact : AuthorityNumericFact) (cell : ParserNumericCell) :
    List NumericMismatchCode :=
  let parser_authority_value := cell.authority_value
  (if parser_authority_value ≠ fact.value then [.CRITICAL_NUMERIC_MISMATCH] else []) ++
    (if parser_authority_value ≠ 0 ∧ fact.value ≠ 0 ∧
        decide (parser_authority_value > 0) ≠ decide (fact.value > 0) then [.WRONG_SIGN] else []) ++
    (if !_unit_scale_equal unicode fact.key cell.key then [.WRONG_UNIT_SCALE] else []) ++
    (if !_period_equal fact.key cell.key then [.WRONG_PERIOD] else [])

def _make_merge (fact : AuthorityNumericFact) (cell : ParserNumericCell)
    (signals : GeometryMatchSignals) : NumericAuthorityMerge where
  authority_fact_id := fact.fact_id
  parser_cell_id := cell.parser_cell_id
  key := fact.key
  output_value := fact.value
  original_parser_number := cell.original_parser_number
  original_parser_value := cell.parser_value
  parser_value_in_authority_unit := cell.authority_value
  source_bbox1000 := cell.bbox1000
  signals := signals
  mismatch_codes := _mismatch_codes unicode fact cell

def _reason_codes (gate : NumericHardGate) (ambiguity : Bool) : List String :=
  (if gate.critical_numeric_mismatch ≠ 0 then
      [NumericMismatchCode.CRITICAL_NUMERIC_MISMATCH.value] else []) ++
    (if gate.unsupported_numeric_row ≠ 0 then ["unsupported_numeric_row"] else []) ++
    (if gate.missing_authoritative_row ≠ 0 then ["missing_authoritative_row"] else []) ++
    (if gate.wrong_sign ≠ 0 then [NumericMismatchCode.WRONG_SIGN.value] else []) ++
    (if gate.wrong_unit_scale ≠ 0 then [NumericMismatchCode.WRONG_UNIT_SCALE.value] else []) ++
    (if gate.wrong_period ≠ 0 then [NumericMismatchCode.WRONG_PERIOD.value] else []) ++
    (if ambiguity then ["ambiguous_bipartite_match"] else [])

variable (policy : GeometryMatcherConfig)

-- `signals.total if ... else None`
def scored (constraints : Bool) (fact : AuthorityNumericFact) (cell : ParserNumericCell) :
    Option Binary64 :=
  let signals := _signal_scores unicode ratio fact cell policy
  if constraints ∧ policy.minimum_match_score.le signals.total then some signals.total else none

def strict_weights (facts : List AuthorityNumericFact) (cells : List ParserNumericCell) : Weights :=
  facts.map (fun fact => cells.map (fun cell =>
    scored unicode ratio policy (_strict_constraints unicode ratio fact cell policy) fact cell))

-- `facts[row]` and `cells[column]`
def pair_at (facts : List AuthorityNumericFact) (cells : List ParserNumericCell) (pair : ℕ × ℕ) :
    Except Raised (AuthorityNumericFact × ParserNumericCell) :=
  match facts[pair.1]?, cells[pair.2]? with
  | some fact, some cell => .ok (fact, cell)
  | _, _ => .error .index_error

def merge_at (facts : List AuthorityNumericFact) (cells : List ParserNumericCell)
    (pair : ℕ × ℕ) : Except Raised NumericAuthorityMerge := do
  let (fact, cell) ← pair_at facts cells pair
  return _make_merge unicode fact cell (_signal_scores unicode ratio fact cell policy)

def diagnostic_weights (facts : List AuthorityNumericFact) (cells : List ParserNumericCell)
    (remaining_fact_rows remaining_cell_columns : List ℕ) : Except Raised Weights :=
  remaining_fact_rows.mapM (fun row => remaining_cell_columns.mapM (fun column => do
    let (fact, cell) ← pair_at facts cells (row, column)
    return scored unicode ratio policy (_diagnostic_constraints unicode ratio fact cell policy)
      fact cell))

def diagnostic_at (facts : List AuthorityNumericFact) (cells : List ParserNumericCell)
    (pair : ℕ × ℕ) : Except Raised NumericDiagnosticMatch := do
  let (fact, cell) ← pair_at facts cells pair
  if hmismatched : _mismatch_codes unicode fact cell ≠ [] then
    return {
      authority_fact_id := fact.fact_id
      parser_cell_id := cell.parser_cell_id
      original_parser_number := cell.original_parser_number
      source_bbox1000 := cell.bbox1000
      signals := _signal_scores unicode ratio fact cell policy
      mismatch_codes := _mismatch_codes unicode fact cell
      mismatched := hmismatched }
  else .error (.validation_error "diagnostic matches require at least one mismatch")

-- `sorted(assignment.items())`, whose keys are distinct
def sorted_pairs (pairs : List (ℕ × ℕ)) : List (ℕ × ℕ) :=
  pairs.insertionSort (fun first second => first.1 ≤ second.1)

-- A counter below zero is no `NumericHardGate`.
def counter (value : ℤ) : Except Raised ℕ :=
  if 0 ≤ value then .ok value.toNat
  else .error (.validation_error "Input should be greater than or equal to 0")

def hard_gate (all_codes : List NumericMismatchCode) (parser_unsupported missing_authoritative : ℤ) :
    Except Raised NumericHardGate := do
  let unsupported_numeric_row ← counter parser_unsupported
  let missing_authoritative_row ← counter missing_authoritative
  return {
    critical_numeric_mismatch := all_codes.count .CRITICAL_NUMERIC_MISMATCH
    unsupported_numeric_row
    missing_authoritative_row
    wrong_sign := all_codes.count .WRONG_SIGN
    wrong_unit_scale := all_codes.count .WRONG_UNIT_SCALE
    wrong_period := all_codes.count .WRONG_PERIOD
    passed := all_codes.count .CRITICAL_NUMERIC_MISMATCH = 0 && unsupported_numeric_row = 0 &&
      missing_authoritative_row = 0 && all_codes.count .WRONG_SIGN = 0 &&
      all_codes.count .WRONG_UNIT_SCALE = 0 && all_codes.count .WRONG_PERIOD = 0
    earned := by simp [and_assoc] }

-- The first pass: what it assigns, and the rows and columns it finds ambiguous.
structure StrictPass where
  strict_assignment : Dict ℕ ℕ
  ambiguous_fact_rows : List ℕ
  ambiguous_cell_columns : List ℕ

def strict_pass (fuel : ℕ) (facts : List AuthorityNumericFact) (cells : List ParserNumericCell) :
    Except Raised StrictPass :=
  let weights := strict_weights unicode ratio policy facts cells
  match _maximum_weight_assignment fuel weights with
  | none => .error .unfinished
  | some strict_assignment =>
      let nodes := _ambiguous_nodes weights strict_assignment policy.ambiguity_epsilon
      .ok ⟨strict_assignment, nodes.1, nodes.2⟩

def StrictPass.accepted_assignment (pass : StrictPass) : List (ℕ × ℕ) :=
  pass.strict_assignment.entries.filter
    (fun pair => pair.1 ∉ pass.ambiguous_fact_rows && pair.2 ∉ pass.ambiguous_cell_columns)

def StrictPass.remaining_fact_rows (pass : StrictPass) (facts : List AuthorityNumericFact) : List ℕ :=
  (List.range facts.length).filter (fun row =>
    row ∉ pass.accepted_assignment.map Prod.fst && row ∉ pass.ambiguous_fact_rows)

def StrictPass.remaining_cell_columns (pass : StrictPass) (cells : List ParserNumericCell) : List ℕ :=
  (List.range cells.length).filter (fun column =>
    column ∉ pass.accepted_assignment.map Prod.snd && column ∉ pass.ambiguous_cell_columns)

-- The second pass, over what the first one has left.
def diagnostic_pass (fuel : ℕ) (facts : List AuthorityNumericFact) (cells : List ParserNumericCell)
    (pass : StrictPass) : Except Raised (Dict ℕ ℕ) := do
  let remaining_fact_rows := pass.remaining_fact_rows facts
  let remaining_cell_columns := pass.remaining_cell_columns cells
  let weights ← diagnostic_weights unicode ratio policy facts cells remaining_fact_rows
    remaining_cell_columns
  match _maximum_weight_assignment fuel weights with
  | none => .error .unfinished
  | some relative_diagnostic_assignment =>
      return .ofPairs (relative_diagnostic_assignment.entries.map
        (fun pair => (remaining_fact_rows[pair.1]!, remaining_cell_columns[pair.2]!)))

def released («matches» : List NumericAuthorityMerge)
    (diagnostic_matches : List NumericDiagnosticMatch) (gate : NumericHardGate) (ambiguity : Bool) :
    NumericGeometryResult where
  state := if gate.passed then .AUTHORITY_VERIFIED else .UNRESOLVED
  «matches» := «matches»
  diagnostic_matches := diagnostic_matches
  publishable_matches := if gate.passed then «matches» else []
  hard_gate := gate
  reason_codes := _reason_codes gate ambiguity
  billable := gate.passed
  state_derived := rfl
  publishable_derived := rfl
  billable_derived := rfl

def sorted_facts (authority_facts : List AuthorityNumericFact) : List AuthorityNumericFact :=
  authority_facts.insertionSort (fun first second => first.fact_id ≤ second.fact_id)

def sorted_cells (parser_cells : List ParserNumericCell) : List ParserNumericCell :=
  parser_cells.insertionSort (fun first second => first.parser_cell_id ≤ second.parser_cell_id)

def match_numeric_geometry (fuel : ℕ) (authority_facts : List AuthorityNumericFact)
    (parser_cells : List ParserNumericCell) : Except Raised NumericGeometryResult := do
  let facts := sorted_facts authority_facts
  let cells := sorted_cells parser_cells
  if ¬(facts.map AuthorityNumericFact.fact_id).Nodup then
    .error (.value_error "authority fact IDs must be unique")
  else if ¬(cells.map ParserNumericCell.parser_cell_id).Nodup then
    .error (.value_error "parser cell IDs must be unique")
  else
    let pass ← strict_pass unicode ratio policy fuel facts cells
    let «matches» ← (sorted_pairs pass.accepted_assignment).mapM
      (merge_at unicode ratio policy facts cells)
    let diagnostic_assignment ← diagnostic_pass unicode ratio policy fuel facts cells pass
    let diagnostic_matches ← (sorted_pairs diagnostic_assignment.entries).mapM
      (diagnostic_at unicode ratio policy facts cells)
    let all_codes := «matches».flatMap NumericAuthorityMerge.mismatch_codes ++
      diagnostic_matches.flatMap NumericDiagnosticMatch.mismatch_codes
    let missing_authoritative : ℤ := facts.length -
      (pass.accepted_assignment.map Prod.fst).dedup.length - diagnostic_assignment.keys.length
    let parser_unsupported : ℤ := cells.length -
      (pass.accepted_assignment.map Prod.snd).dedup.length -
        diagnostic_assignment.values.dedup.length
    let gate ← hard_gate all_codes parser_unsupported missing_authoritative
    return released «matches» diagnostic_matches gate
      (pass.ambiguous_fact_rows ≠ [] || pass.ambiguous_cell_columns ≠ [])

end Matcher

end KnowledgeCompiler.Quality
