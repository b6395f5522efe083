import KnowledgeCompiler.Absorption.TypeReasoning
import KnowledgeCompiler.Identity.Score
import KnowledgeCompiler.Lib.Dict
import KnowledgeCompiler.Lib.Sha256
import Mathlib.Data.Prod.Lex

namespace KnowledgeCompiler.Absorption

open Lib Identity

def ElementType.value : ElementType → String
  | TEXT => "TEXT"
  | HEADING => "HEADING"
  | TABLE => "TABLE"
  | TABLE_ROW => "TABLE_ROW"
  | TABLE_CELL => "TABLE_CELL"
  | FORMULA => "FORMULA"
  | FIGURE => "FIGURE"
  | CAPTION => "CAPTION"
  | FOOTNOTE => "FOOTNOTE"

abbrev Bbox : Type := ℤ × ℤ × ℤ × ℤ

-- `normalize_bbox1000` takes the box.
def is_bbox1000 (box : Bbox) : Bool :=
  let (x0, y0, x1, y1) := box
  [x0, y0, x1, y1].all (fun value => 0 ≤ value && value ≤ 1000) && x0 ≤ x1 && y0 ≤ y1

structure DocumentElement where
  element_id : String
  version_id : String
  element_type : ElementType
  logical_id : String
  text : String
  structural_path : List String := []
  page_index : ℕ := 0
  bbox1000 : Option Bbox := none
  order_index : ℤ := 0
  table_key : String := ""
  binds_to : String := ""
  named : element_id ≠ "" ∧ version_id ≠ ""
  boxed : bbox1000.all is_bbox1000 = true

structure ElementIndex where
  version_id : String
  elements : List DocumentElement
  by_logical_id : Dict String DocumentElement
  by_content_hash : Dict String (List String)
  order : List String

inductive AlignmentSignal
  | align_type
  | align_spatial
  | align_structural
  | align_content
  | align_context
deriving DecidableEq, Repr

def ALIGNMENT_SIGNAL_NAMES : List AlignmentSignal :=
  [.align_type, .align_spatial, .align_structural, .align_content, .align_context]

inductive CandidateTier
  | EXACT_CONTENT
  | SAME_NEIGHBOURHOOD
  | TYPE_COMPATIBLE
  | INCOMPATIBLE
deriving DecidableEq, Repr

-- Which element of the old version stands for one of the new version.
structure AlignmentContext where
  pairs : Dict String String

section Elements

variable (characters : Characters)

def DocumentElement.content_hash (element : DocumentElement) : String :=
  sha256.hexdigest (element.element_type.value ++ "\x1f" ++
    normalize_text_for_identity characters.toUnicode element.text).toUTF8

def DocumentElement.numbers (element : DocumentElement) : List String :=
  numeric_tokens characters element.text

def DocumentElement.centre1000 (element : DocumentElement) : Option (ℚ × ℚ) :=
  element.bbox1000.map fun (x0, y0, x1, y1) => (((x0 + x1 : ℤ) : ℚ) / 2, ((y0 + y1 : ℤ) : ℚ) / 2)

namespace ElementIndex

def add_logical (version_id : String) (by_logical : Dict String DocumentElement)
    (element : DocumentElement) : Except String (Dict String DocumentElement) :=
  if (by_logical.get? element.logical_id).isSome then
    .error ("two elements in " ++ version_id ++ " claim logical id " ++ element.logical_id ++
      "; the join back to UnitSnapshot would be ambiguous")
  else .ok (by_logical.set element.logical_id element)

def of (version_id : String) (elements : List DocumentElement) : Except String ElementIndex := do
  let ordered := Ranked.rank (fun item => toLex (item.order_index, item.element_id)) elements
  let by_logical ← ordered.foldlM (add_logical version_id) .empty
  return {
    version_id
    elements := ordered
    by_logical_id := by_logical
    by_content_hash := ordered.foldl (fun by_hash element =>
      by_hash.update (element.content_hash characters)
        fun found => found.getD [] ++ [element.logical_id]) .empty
    order := ordered.map DocumentElement.logical_id }

variable (index : ElementIndex)

-- The logical ids before and after this one.
def neighbours (logical_id : String) : Option String × Option String :=
  if logical_id ∈ index.order then
    let position := index.order.idxOf logical_id
    (if 0 < position then index.order[position - 1]? else none, index.order[position + 1]?)
  else (none, none)

def is_unique_content (logical_id : String) : Bool :=
  match index.by_logical_id.get? logical_id with
  | none => false
  | some element =>
      ((index.by_content_hash.get? (element.content_hash characters)).getD []).length = 1

end ElementIndex

end Elements

def type_compatibility (left right : ElementType) : ℚ :=
  if left = right then 1
  else if (left = .TEXT ∧ right ∈ [.FOOTNOTE, .CAPTION, .HEADING]) ∨
      (right = .TEXT ∧ left ∈ [.FOOTNOTE, .CAPTION, .HEADING]) then 1 / 2
  else 0

section Signals

-- `root` is `** 0.5`.
variable (characters : Characters) (root : ℚ → ℚ) (before after : DocumentElement)
  (before_index after_index : ElementIndex) (context : AlignmentContext)
  (enabled : Finset AlignmentSignal)

def classify_tier : CandidateTier :=
  if before.content_hash characters = after.content_hash characters &&
      (before_index.is_unique_content characters before.logical_id &&
        after_index.is_unique_content characters after.logical_id) then .EXACT_CONTENT
  else if type_compatibility before.element_type after.element_type ≤ 0 then .INCOMPATIBLE
  else if before.structural_path ≠ [] ∧ before.structural_path = after.structural_path then
    .SAME_NEIGHBOURHOOD
  else .TYPE_COMPATIBLE

def _spatial : Reading :=
  match before.centre1000, after.centre1000 with
  | some left, some right =>
      let page_gap : ℕ := ((before.page_index : ℤ) - after.page_index).natAbs
      let page_term : ℚ := max 0 (1 - 34 / 100 * page_gap)
      let distance := root ((left.1 - right.1) ^ 2 + (left.2 - right.2) ^ 2)
      let position_term := max 0 (1 - distance / (1000 * root 2))
      (some (1 / 2 * page_term + 1 / 2 * position_term), none)
  | _, _ => (none, some .NOT_APPLICABLE)

def _structural_role : Reading :=
  if before.table_key ≠ "" ∧ after.table_key ≠ "" then
    let left := normalize_text_for_identity characters.toUnicode before.table_key
    let right := normalize_text_for_identity characters.toUnicode after.table_key
    (some (if left = right then 1 else 0), none)
  else if before.binds_to ≠ "" ∧ after.binds_to ≠ "" then
    match before_index.by_logical_id.get? before.binds_to,
      after_index.by_logical_id.get? after.binds_to with
    | some left, some right =>
        let same := left.content_hash characters = right.content_hash characters ∧
          left.element_type = right.element_type
        (some (if same then 1 else 0), none)
    | _, _ => (none, some .ERROR)
  else (none, some .NOT_APPLICABLE)

def _content : Reading :=
  let both_figures := before.element_type = .FIGURE ∧ after.element_type = .FIGURE
  if both_figures ∧ before.text = "" ∧ after.text = "" then (none, some .MODEL_UNAVAILABLE)
  else
    let lexical := jaccard (normalize_text_for_identity characters.toUnicode before.text)
      (normalize_text_for_identity characters.toUnicode after.text)
    let left_numbers := before.numbers characters
    let right_numbers := after.numbers characters
    if left_numbers = [] ∧ right_numbers = [] then (some lexical, none)
    else
      let numeric : ℚ :=
        if left_numbers = right_numbers then 1
        else if Ranked.rank id left_numbers = Ranked.rank id right_numbers then 1 / 2
        else 0
      (some (6 / 10 * lexical + 4 / 10 * numeric), none)

def _context : Reading :=
  let before_sides := before_index.neighbours before.logical_id
  let after_sides := after_index.neighbours after.logical_id
  let agreement (before_side after_side : Option String) : Option ℚ :=
    match before_side, after_side with
    | some before_side, some after_side =>
        some (if context.pairs.get? after_side = some before_side then 1 else 0)
    | _, _ => none
  let agreements := [agreement before_sides.1 after_sides.1,
    agreement before_sides.2 after_sides.2].reduceOption
  if agreements = [] then (none, some .NOT_APPLICABLE)
  else (some (agreements.sum / agreements.length), none)

-- What each alignment signal came out as.
def compatibility : AlignmentSignal → Reading := fun name =>
  let exact := classify_tier characters before after before_index after_index = .EXACT_CONTENT
  if name ∈ enabled then
    match name with
    | .align_type => (some (type_compatibility before.element_type after.element_type), none)
    | .align_structural => _structural_role characters before after before_index after_index
    | .align_content => _content characters before after
    | .align_spatial => if exact then (none, some .NOT_APPLICABLE) else _spatial root before after
    | .align_context =>
        if exact then (none, some .NOT_APPLICABLE)
        else _context before after before_index after_index context
  else (none, some .NOT_APPLICABLE)

end Signals

end KnowledgeCompiler.Absorption
