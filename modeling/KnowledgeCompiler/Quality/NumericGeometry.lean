import KnowledgeCompiler.Identity.Fingerprint
import KnowledgeCompiler.Lib.Binary64
import KnowledgeCompiler.Lib.Dict
import KnowledgeCompiler.Lib.Method

namespace KnowledgeCompiler.Quality

open Lib Identity

inductive AuthoritySource
  | DART_XBRL
  | SEC_INLINE_XBRL
deriving DecidableEq

inductive GeometrySource
  | PDF_CELL
  | RENDERED_HTML_REGION
deriving DecidableEq

inductive GeometryWordRole
  | VALUE
  | LABEL
  | ROW_HEADER
  | COLUMN_HEADER
deriving DecidableEq

inductive NumericResolutionState
  | AUTHORITY_VERIFIED
  | UNRESOLVED
deriving DecidableEq

inductive NumericMismatchCode
  | CRITICAL_NUMERIC_MISMATCH
  | WRONG_SIGN
  | WRONG_UNIT_SCALE
  | WRONG_PERIOD
deriving DecidableEq

def NumericMismatchCode.value : NumericMismatchCode → String
  | .CRITICAL_NUMERIC_MISMATCH => "critical_numeric_mismatch"
  | .WRONG_SIGN => "wrong_sign"
  | .WRONG_UNIT_SCALE => "wrong_unit_scale"
  | .WRONG_PERIOD => "wrong_period"

structure Date where
  year : ℕ
  month : ℕ
  day : ℕ
deriving DecidableEq

structure BBox1000 where
  x1 : ℤ
  y1 : ℤ
  x2 : ℤ
  y2 : ℤ
  ordered : x1 < x2 ∧ y1 < y2
deriving DecidableEq

structure NumericCellKey where
  entity_id : String
  statement : String
  concept : String
  period_start : Option Date := none
  period_end : Option Date := none
  instant : Option Date := none
  unit : String
  scale : ℕ
  dimensions : Dict String String := .empty
  page : ℤ
  row_key : String
  column_key : String
  scale_pos : 0 < scale
deriving DecidableEq

-- The filing that a fact comes from, as far as the matcher reads it.
inductive AuthorityProvenance
  | DartXbrlProvenance (pdf_document_uri : String)
  | SecInlineXbrlProvenance (filing_html_uri : String)
deriving DecidableEq

-- A finite `Decimal` is the number it stands for.
structure AuthorityNumericFact where
  fact_id : String
  key : NumericCellKey
  xbrl_label : String
  value : ℚ
  provenance : AuthorityProvenance

structure GeometryWord where
  text : String
  bbox1000 : BBox1000
  role : GeometryWordRole

structure ParserNumericCell where
  parser_cell_id : String
  key : NumericCellKey
  geometry_source : GeometrySource
  source_document_uri : String
  label : String
  row_header : String
  column_header : String
  original_parser_number : String
  parser_value : ℚ
  bbox1000 : BBox1000
  words : List GeometryWord
  has_value_word : ∃ word ∈ words, word.role = .VALUE

-- The weights and thresholds of a policy may be any floats here.
structure GeometryMatcherConfig where
  pdf_words_cells_weight : Binary64 := .of (12 / 100)
  xbrl_label_weight : Binary64 := .of (15 / 100)
  numeric_value_weight : Binary64 := .of (15 / 100)
  page_weight : Binary64 := .of (10 / 100)
  row_column_headers_weight : Binary64 := .of (13 / 100)
  statement_context_weight : Binary64 := .of (10 / 100)
  unit_scale_weight : Binary64 := .of (10 / 100)
  fuzzy_label_weight : Binary64 := .of (15 / 100)
  minimum_match_score : Binary64 := .of (62 / 100)
  minimum_label_similarity : Binary64 := .of (78 / 100)
  page_tolerance : ℕ := 0
  ambiguity_epsilon : Binary64 := .of (1 / 1000000)

structure GeometryMatchSignals where
  pdf_words_cells : Binary64
  xbrl_label : Binary64
  numeric_value : Binary64
  page : Binary64
  row_column_headers : Binary64
  statement_context : Binary64
  unit_scale : Binary64
  fuzzy_label : Binary64
  total : Binary64
deriving DecidableEq

structure NumericAuthorityMerge where
  authority_fact_id : String
  parser_cell_id : String
  key : NumericCellKey
  output_value : ℚ
  original_parser_number : String
  original_parser_value : ℚ
  parser_value_in_authority_unit : ℚ
  source_bbox1000 : BBox1000
  structure_source : String := "parser"
  value_source : String := "authority"
  bbox_source : String := "geometry_matcher"
  signals : GeometryMatchSignals
  mismatch_codes : List NumericMismatchCode
deriving DecidableEq

structure NumericDiagnosticMatch where
  authority_fact_id : String
  parser_cell_id : String
  original_parser_number : String
  source_bbox1000 : BBox1000
  signals : GeometryMatchSignals
  mismatch_codes : List NumericMismatchCode
  mismatched : mismatch_codes ≠ []

-- The gate passes exactly when its six counters are zero, as the constructor checks.
structure NumericHardGate where
  critical_numeric_mismatch : ℕ
  unsupported_numeric_row : ℕ
  missing_authoritative_row : ℕ
  wrong_sign : ℕ
  wrong_unit_scale : ℕ
  wrong_period : ℕ
  passed : Bool
  earned : passed = true ↔
    critical_numeric_mismatch = 0 ∧ unsupported_numeric_row = 0 ∧ missing_authoritative_row = 0 ∧
      wrong_sign = 0 ∧ wrong_unit_scale = 0 ∧ wrong_period = 0

-- A failed batch exposes nothing and costs nothing, as the constructor checks.
structure NumericGeometryResult where
  state : NumericResolutionState
  «matches» : List NumericAuthorityMerge
  diagnostic_matches : List NumericDiagnosticMatch
  publishable_matches : List NumericAuthorityMerge
  hard_gate : NumericHardGate
  reason_codes : List String
  billable : Bool
  human_review_allowed : Bool := false
  state_derived : state = if hard_gate.passed then .AUTHORITY_VERIFIED else .UNRESOLVED
  publishable_derived : publishable_matches = if hard_gate.passed then «matches» else []
  billable_derived : billable = hard_gate.passed

inductive Raised
  | value_error (message : String)
  | validation_error (message : String)
  | index_error
  -- A loop has outlived the fuel of the model.
  | unfinished
deriving DecidableEq

section Signals

-- `unicodedata`, and `SequenceMatcher(None, left, right, autojunk=False).ratio()`
variable (unicode : Unicode) (ratio : String → String → Binary64)

def _label_words (value : String) : List (List Char) :=
  ((unicode.casefold (unicode.nfkc value)).toList.splitOnP (fun c => !unicode.is_word c)).filter
    (· ≠ [])

def _normalize_label (value : String) : String :=
  String.ofList ([' '].intercalate (_label_words unicode value))

def _fuzzy_similarity (left right : String) : Binary64 :=
  let left_normalized := _normalize_label unicode left
  let right_normalized := _normalize_label unicode right
  if left_normalized = "" ∨ right_normalized = "" then .finite 0
  else if left_normalized = right_normalized then .finite 1
  else
    let sequence := ratio left_normalized right_normalized
    let left_tokens := (Text.words left_normalized.toList).dedup
    let right_tokens := (Text.words right_normalized.toList).dedup
    let common := left_tokens.filter (· ∈ right_tokens)
    let union := left_tokens ++ right_tokens.filter (· ∉ left_tokens)
    let token_score : Binary64 :=
      if union = [] then .finite 0 else .of (common.length / union.length)
    let containment : Binary64 :=
      if left_normalized.toList <:+: right_normalized.toList ∨
          right_normalized.toList <:+: left_normalized.toList then
        .of (min left_normalized.length right_normalized.length /
          max left_normalized.length right_normalized.length)
      else .finite 0
    Binary64.min (.finite 1) ((sequence.max token_score).max containment)

def _intersection_ratio (inner outer : BBox1000) : Binary64 :=
  let intersection_width := max 0 (min inner.x2 outer.x2 - max inner.x1 outer.x1)
  let intersection_height := max 0 (min inner.y2 outer.y2 - max inner.y1 outer.y1)
  let inner_area := (inner.x2 - inner.x1) * (inner.y2 - inner.y1)
  .of ((intersection_width * intersection_height : ℤ) / (inner_area : ℤ))

def _period_equal (left right : NumericCellKey) : Bool :=
  left.period_start = right.period_start && left.period_end = right.period_end &&
    left.instant = right.instant

def _unit_scale_equal (left right : NumericCellKey) : Bool :=
  _normalize_label unicode left.unit = _normalize_label unicode right.unit &&
    left.scale = right.scale

def _normalized_dimensions (key : NumericCellKey) : Dict String String :=
  .ofPairs (key.dimensions.entries.map
    (fun entry => (_normalize_label unicode entry.1, _normalize_label unicode entry.2)))

-- Two dictionaries are equal whatever the order of their entries.
def _dimensions_equal (left right : NumericCellKey) : Bool :=
  (_normalized_dimensions unicode left).entries.Perm (_normalized_dimensions unicode right).entries

def _source_compatible (fact : AuthorityNumericFact) (cell : ParserNumericCell) : Bool :=
  match fact.provenance with
  | .DartXbrlProvenance pdf_document_uri =>
      cell.geometry_source = .PDF_CELL && cell.source_document_uri = pdf_document_uri
  | .SecInlineXbrlProvenance filing_html_uri =>
      cell.geometry_source = .RENDERED_HTML_REGION && cell.source_document_uri = filing_html_uri

def _structural_constraints (fact : AuthorityNumericFact) (cell : ParserNumericCell)
    (config : GeometryMatcherConfig) : Bool :=
  let authority := fact.key
  let parser := cell.key
  let row_label := (_fuzzy_similarity unicode ratio fact.xbrl_label cell.label).max
    (_fuzzy_similarity unicode ratio authority.row_key cell.row_header)
  let column_label := _fuzzy_similarity unicode ratio authority.column_key cell.column_header
  authority.entity_id = parser.entity_id &&
    _normalize_label unicode authority.statement = _normalize_label unicode parser.statement &&
    _normalize_label unicode authority.concept = _normalize_label unicode parser.concept &&
    _dimensions_equal unicode authority parser &&
    |authority.page - parser.page| ≤ config.page_tolerance &&
    _source_compatible fact cell &&
    (_normalize_label unicode authority.row_key = _normalize_label unicode parser.row_key ||
      config.minimum_label_similarity.le row_label) &&
    (_normalize_label unicode authority.column_key = _normalize_label unicode parser.column_key ||
      config.minimum_label_similarity.le column_label)

def _strict_constraints (fact : AuthorityNumericFact) (cell : ParserNumericCell)
    (config : GeometryMatcherConfig) : Bool :=
  _structural_constraints unicode ratio fact cell config && _period_equal fact.key cell.key &&
    _unit_scale_equal unicode fact.key cell.key

def _diagnostic_constraints (fact : AuthorityNumericFact) (cell : ParserNumericCell)
    (config : GeometryMatcherConfig) : Bool :=
  _structural_constraints unicode ratio fact cell config &&
    (!_period_equal fact.key cell.key || !_unit_scale_equal unicode fact.key cell.key)

-- `float(flag)`
def flag (holds : Bool) : Binary64 := if holds then .finite 1 else .finite 0

-- `min(1.0, max(0.0, value))`
def clamped (value : Binary64) : Binary64 := Binary64.min (.finite 1) ((Binary64.finite 0).max value)

-- `cell.parser_value * cell.key.scale`
def ParserNumericCell.authority_value (cell : ParserNumericCell) : ℚ :=
  cell.parser_value * cell.key.scale

def _signal_scores (fact : AuthorityNumericFact) (cell : ParserNumericCell)
    (config : GeometryMatcherConfig) : GeometryMatchSignals :=
  let label_words := " ".intercalate
    ((cell.words.filter (fun word => word.role ≠ .VALUE)).map GeometryWord.text)
  let lexical_words := _fuzzy_similarity unicode ratio fact.xbrl_label
    (if label_words = "" then cell.label else label_words)
  let value_words := cell.words.filter (fun word => word.role = .VALUE)
  let geometry_coverage := (Binary64.sum (value_words.map
    (fun word => _intersection_ratio word.bbox1000 cell.bbox1000))).div (.finite value_words.length)
  let words_cells := (lexical_words.add geometry_coverage).div (.finite 2)
  let exact_label := flag
    (_normalize_label unicode fact.xbrl_label = _normalize_label unicode cell.label)
  let xbrl_label := exact_label.max (_fuzzy_similarity unicode ratio fact.xbrl_label cell.row_header)
  let numeric_value := flag (cell.authority_value = fact.value)
  let page := (Binary64.finite 0).max ((Binary64.finite 1).sub
    (.of ((|fact.key.page - cell.key.page| : ℤ) / (config.page_tolerance + 1))))
  let row_headers := _fuzzy_similarity unicode ratio fact.key.row_key cell.row_header
  let column_headers := _fuzzy_similarity unicode ratio fact.key.column_key cell.column_header
  let headers := (row_headers.add column_headers).div (.finite 2)
  let statement := flag
    (_normalize_label unicode fact.key.statement = _normalize_label unicode cell.key.statement)
  let unit_scale := flag (_unit_scale_equal unicode fact.key cell.key)
  let fuzzy_label := _fuzzy_similarity unicode ratio fact.xbrl_label cell.label
  let total := (((((((words_cells.mul config.pdf_words_cells_weight).add
    (xbrl_label.mul config.xbrl_label_weight)).add
    (numeric_value.mul config.numeric_value_weight)).add
    (page.mul config.page_weight)).add
    (headers.mul config.row_column_headers_weight)).add
    (statement.mul config.statement_context_weight)).add
    (unit_scale.mul config.unit_scale_weight)).add
    (fuzzy_label.mul config.fuzzy_label_weight)
  { pdf_words_cells := clamped words_cells
    xbrl_label := clamped xbrl_label
    numeric_value
    page := clamped page
    row_column_headers := clamped headers
    statement_context := statement
    unit_scale
    fuzzy_label := clamped fuzzy_label
    total := clamped total }

end Signals

end KnowledgeCompiler.Quality
