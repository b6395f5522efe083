import KnowledgeCompiler.Identity.Score
import KnowledgeCompiler.Lib.Method
import Mathlib.Data.List.Sort

namespace KnowledgeCompiler.Documents

open Lib Identity

structure TableBlock where
  page_number1 : ℤ
  local_id : String
  header : List String := []
  rows : List (List String) := []
  column_x_boundaries : List ℤ := []
  border_style : String := ""
  table_id : String := ""
  caption : String := ""
  -- Per mille of the page, from its top.
  y0 : Option ℤ := none
  y1 : Option ℤ := none
  -- The page of each row, and its place in that page's table.
  row_origins : List (ℤ × ℤ) := []
  every_row_sourced : row_origins = [] ∨ row_origins.length = rows.length
deriving DecidableEq

namespace TableBlock

variable (table : TableBlock)

def column_count : ℕ :=
  if table.header ≠ [] then table.header.length
  else (table.rows.map List.length).foldr max 0

def with_origins : TableBlock :=
  if table.row_origins ≠ [] then table
  else { table with
    row_origins := (List.range table.rows.length).map fun (index : ℕ) => (table.page_number1, (index : ℤ))
    every_row_sourced := .inr (by simp) }

def page_span : List ℤ := (table.row_origins.map Prod.fst).dedup.insertionSort (· ≤ ·)

def label : String := if table.table_id ≠ "" then table.table_id else table.caption

end TableBlock

inductive TableSignal
  | normalized_header_similarity
  | column_count_compatibility
  | x_boundary_alignment
  | data_type_pattern_similarity
  | border_style_similarity
  | page_bottom_top_position
  | caption_or_table_id_match
deriving DecidableEq

def TableSignal.all : List TableSignal := [
  .normalized_header_similarity, .column_count_compatibility, .x_boundary_alignment,
  .data_type_pattern_similarity, .border_style_similarity, .page_bottom_top_position,
  .caption_or_table_id_match]

def TABLE_WEIGHTS : TableSignal → ℚ
  | .normalized_header_similarity => 25 / 100
  | .column_count_compatibility => 20 / 100
  | .x_boundary_alignment => 20 / 100
  | .data_type_pattern_similarity => 10 / 100
  | .border_style_similarity => 10 / 100
  | .page_bottom_top_position => 10 / 100
  | .caption_or_table_id_match => 5 / 100

def TABLE_AUTO_MERGE : ℚ := 90 / 100

def TABLE_RELATION_FLOOR : ℚ := 70 / 100

inductive ContinuationVerdict
  | MERGE
  | RELATION_ONLY
  | SEPARATE
deriving DecidableEq

def ContinuationVerdict.value : ContinuationVerdict → String
  | MERGE => "MERGE"
  | RELATION_ONLY => "RELATION_ONLY"
  | SEPARATE => "SEPARATE"

-- A link that is recorded is always `CONTINUES_TABLE`.
structure LinkDecision where
  verdict : ContinuationVerdict
  score : ℚ
  continues_table : Bool
  signals : List (TableSignal × ℚ)
  missing : List (TableSignal × MissingReason)
  reason : String

def _token_overlap (unicode : Unicode) (left right : String) : ℚ :=
  jaccard (normalize_text_for_identity unicode left) (normalize_text_for_identity unicode right)

def _closeness (left right tolerance : ℚ) : ℚ :=
  if tolerance ≤ 0 then (if left = right then 1 else 0)
  else max 0 (1 - |left - right| / tolerance)

-- The tables of the Unicode database, and the class `\d`.
structure TableReader where
  unicode : Unicode
  is_digit : Char → Bool

inductive ColumnType
  | empty
  | numeric
  | date
  | text
deriving DecidableEq

namespace TableReader

variable (reader : TableReader)

-- `-?[\d,. ]+%?`
def is_numeric (value : List Char) : Bool :=
  let body := if value.head? = some '-' then value.tail else value
  let body := if body.getLast? = some '%' then body.dropLast else body
  body ≠ [] && body.all fun c => reader.is_digit c || c = ',' || c = '.' || c = ' '

-- `[\d]{4}-[\d]{2}-[\d]{2}`
def is_date (value : List Char) : Bool :=
  value.length = 10 && value.zipIdx.all fun entry =>
    if entry.2 = 4 ∨ entry.2 = 7 then entry.1 = '-' else reader.is_digit entry.1

def column_type (values : List String) : ColumnType :=
  if values = [] then .empty
  else if values.all fun value => reader.is_numeric (Text.strip value.toList) then .numeric
  else if values.all fun value => reader.is_date (Text.strip value.toList) then .date
  else .text

def _column_type_pattern (rows : List (List String)) : List ColumnType :=
  (List.range ((rows.map List.length).foldr max 0)).map fun column =>
    reader.column_type ((rows.filterMap (·[column]?)).filter (· ≠ ""))

def header_similarity (upper lower : TableBlock) : Reading :=
  if upper.header = [] ∨ lower.header = [] then (none, some .NOT_APPLICABLE)
  else
    let left := upper.header.map (normalize_text_for_identity reader.unicode)
    let right := lower.header.map (normalize_text_for_identity reader.unicode)
    (some (if left = right then 1 else 0), none)

def count_compatibility (upper lower : TableBlock) : Reading :=
  if upper.column_count = 0 ∨ lower.column_count = 0 then (none, some .NOT_APPLICABLE)
  else (some (if upper.column_count = lower.column_count then 1 else 0), none)

def boundary_alignment (upper lower : TableBlock) : Reading :=
  if upper.column_x_boundaries = [] ∨ lower.column_x_boundaries = [] then (none, some .NOT_APPLICABLE)
  else if upper.column_x_boundaries.length ≠ lower.column_x_boundaries.length then (some 0, none)
  else
    let closeness := List.zipWith (fun (a b : ℤ) => _closeness a b 30)
      upper.column_x_boundaries lower.column_x_boundaries
    (some (closeness.sum / closeness.length), none)

def pattern_similarity (upper lower : TableBlock) : Reading :=
  let upper_types := reader._column_type_pattern upper.rows
  let lower_types := reader._column_type_pattern lower.rows
  if upper_types = [] ∨ lower_types = [] then (none, some .NOT_APPLICABLE)
  else
    let shared := (upper_types.zip lower_types).countP fun pair => pair.1 = pair.2
    (some (shared / (max upper_types.length lower_types.length : ℕ)), none)

def border_similarity (upper lower : TableBlock) : Reading :=
  if upper.border_style = "" ∨ lower.border_style = "" then (none, some .NOT_APPLICABLE)
  else (some (if upper.border_style = lower.border_style then 1 else 0), none)

-- One table runs off the bottom of a page, the other starts at the top of the next.
def page_position (upper lower : TableBlock) : Reading :=
  match upper.y1, lower.y0 with
  | some y1, some y0 =>
      if lower.page_number1 ≠ upper.page_number1 + 1 then (some 0, none)
      else
        let at_bottom : ℚ := max 0 ((y1 - 700) / 300)
        let at_top : ℚ := max 0 ((300 - y0) / 300)
        (some (min 1 ((at_bottom + at_top) / 2)), none)
  | _, _ => (none, some .NOT_APPLICABLE)

def label_match (upper lower : TableBlock) : Reading :=
  if upper.label = "" ∨ lower.label = "" then (none, some .NOT_APPLICABLE)
  else (some (_token_overlap reader.unicode upper.label lower.label), none)

def raw (upper lower : TableBlock) : TableSignal → Reading
  | .normalized_header_similarity => reader.header_similarity upper lower
  | .column_count_compatibility => count_compatibility upper lower
  | .x_boundary_alignment => boundary_alignment upper lower
  | .data_type_pattern_similarity => reader.pattern_similarity upper lower
  | .border_style_similarity => border_similarity upper lower
  | .page_bottom_top_position => page_position upper lower
  | .caption_or_table_id_match => reader.label_match upper lower

end TableReader

-- The signals that have values, and the reason of each of the others.
def present_signals (raw : TableSignal → Reading) : List (TableSignal × ℚ) :=
  TableSignal.all.filterMap fun signal => (raw signal).1.map (signal, ·)

def missing_signals (raw : TableSignal → Reading) : List (TableSignal × MissingReason) :=
  TableSignal.all.filterMap fun signal =>
    match (raw signal).1 with
    | some _ => none
    | none => some (signal, (raw signal).2.getD .MODEL_UNAVAILABLE)

def _renormalise (raw : TableSignal → Reading) (weights : TableSignal → ℚ) : ℚ :=
  let present := present_signals raw
  let available := (present.map fun entry => weights entry.1).sum
  if available ≤ 0 then 0
  else (present.map fun entry => entry.2 * weights entry.1).sum / available

def link_tables (reader : TableReader) (upper lower : TableBlock) : LinkDecision :=
  let raw := reader.raw upper lower
  let score := _renormalise raw TABLE_WEIGHTS
  let signals := present_signals raw
  let missing := missing_signals raw
  if TABLE_AUTO_MERGE ≤ score then
    { verdict := .MERGE, score, continues_table := true, signals, missing
      reason := "continuation evidence at " ++ Text.fixed2 score }
  else if TABLE_RELATION_FLOOR ≤ score then
    { verdict := .RELATION_ONLY, score, continues_table := true, signals, missing
      reason := Text.fixed2 score ++ " is in the review band; the relation is recorded and " ++
        "the two tables stay separate" }
  else
    { verdict := .SEPARATE, score, continues_table := false, signals, missing
      reason := Text.fixed2 score ++ " is below the " ++ Text.fixed2 TABLE_RELATION_FLOOR ++ " floor" }

def pages_text (pages : List ℤ) : String := "[" ++ String.intercalate ", " (pages.map toString) ++ "]"

-- The rows of both, the upper table's first, each with its origin.
def stacked (upper lower : TableBlock)
    (hsourced : (upper.row_origins ++ lower.row_origins).length = (upper.rows ++ lower.rows).length) :
    TableBlock where
  page_number1 := upper.page_number1
  local_id := upper.local_id ++ "+" ++ lower.local_id
  header := if upper.header ≠ [] then upper.header else lower.header
  rows := upper.rows ++ lower.rows
  column_x_boundaries := upper.column_x_boundaries
  border_style := upper.border_style
  table_id := if upper.table_id ≠ "" then upper.table_id else lower.table_id
  caption := if upper.caption ≠ "" then upper.caption else lower.caption
  y0 := upper.y0
  y1 := lower.y1
  row_origins := upper.row_origins ++ lower.row_origins
  every_row_sourced := .inr hsourced

def merge_tables (upper lower : TableBlock) (decision : LinkDecision) : Except String TableBlock :=
  if decision.verdict ≠ .MERGE then
    .error ("the link decision was " ++ decision.verdict.value ++ ", not MERGE. " ++
      "§18.4 forbids an uncertain physical merge -- record the relation " ++
      "instead.")
  else
    let upper_sourced := upper.with_origins
    let lower_sourced := lower.with_origins
    if upper_sourced.column_count ≠ lower_sourced.column_count then
      .error ("column counts differ (" ++ toString upper_sourced.column_count ++ " and " ++
        toString lower_sourced.column_count ++ "); merging would silently reshape rows")
    else if hsourced : (upper_sourced.row_origins ++ lower_sourced.row_origins).length ≠
        (upper_sourced.rows ++ lower_sourced.rows).length then
      .error "a merged row lost its origin"
    else
      let merged := stacked upper_sourced lower_sourced (not_not.mp hsourced)
      let expected := [upper_sourced.page_number1, lower_sourced.page_number1]
      if ¬expected ⊆ merged.page_span then
        .error ("the merged table's page span " ++ pages_text merged.page_span ++ " does not cover " ++
          pages_text (expected.dedup.insertionSort (· ≤ ·)) ++
          "; the original span is not recoverable")
      else .ok merged

end KnowledgeCompiler.Documents
