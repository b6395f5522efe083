import KnowledgeCompiler.Documents.Blocks
import KnowledgeCompiler.Lib.Dict
import KnowledgeCompiler.Lib.Minimum
import KnowledgeCompiler.Lib.Lists
import KnowledgeCompiler.Lib.Ranked
import Mathlib.Data.Finset.Card

namespace KnowledgeCompiler.Documents.ReadingOrder

open Lib

def _TERMINAL_PUNCTUATION : List Char := ['.', '!', '?', '。', '！', '？', '…', ':', ';']

structure ReadingOrderRecord where
  block_id : String
  page_number : ℤ
  final_order : ℕ
  page_order : ℕ
  provider_order : Option ℤ
  geometry_order : Option ℕ
  column_index : Option ℕ
  column_count : ℕ
  band_index : Option ℕ
  semantic_role : String
  previous_page_block_id : Option String
  cross_page_relation : Option String
  uncertain : Bool
  evidence : List String
  quality_flags : List String
deriving DecidableEq

structure ReadingOrderResult where
  ordered_block_ids : List String
  records : List ReadingOrderRecord
  uncertain_block_ids : List String
deriving DecidableEq

-- A block that has a place on its page.
structure Placed where
  block : NormalizationBlock
  box : Bbox
  placed : block.bbox1000 = some box
deriving DecidableEq

def place? (block : NormalizationBlock) : Option Placed :=
  match placed : block.bbox1000 with
  | some box => some { block, box, placed }
  | none => none

structure _Column where
  items : List Placed
  left : ℤ
  right : ℤ
  center : ℚ

-- Where geometry has put a block.
structure Metadata where
  column_index : Option ℕ
  column_count : ℕ
  band_index : Option ℕ
  evidence : List String
  uncertain : Bool

structure _PagePosition where
  block : NormalizationBlock
  geometry_order : Option ℕ
  column_index : Option ℕ
  column_count : ℕ
  band_index : Option ℕ
  evidence : List String
  uncertain : Bool

abbrev BboxKey : Type := ℤ ×ₗ ℤ ×ₗ ℤ ×ₗ ℤ ×ₗ ProviderKey

def _bbox_key (item : Placed) : BboxKey :=
  let (x1, y1, x2, y2) := item.box
  toLex (y1, toLex (x1, toLex (y2, toLex (x2, _provider_key item.block))))

-- `n / d` of integers, as a float.
def quotient (n d : ℤ) : ℚ := Binary64.rounded (n / d)

def _center_x (item : Placed) : ℚ :=
  let (x1, _, x2, _) := item.box
  quotient (x1 + x2) 2

def _center_y (item : Placed) : ℚ :=
  let (_, y1, _, y2) := item.box
  quotient (y1 + y2) 2

def _intersection_ratio (left right : Bbox) : ℚ :=
  let (left_x1, left_y1, left_x2, left_y2) := left
  let (right_x1, right_y1, right_x2, right_y2) := right
  let width := max 0 (min left_x2 right_x2 - max left_x1 right_x1)
  let height := max 0 (min left_y2 right_y2 - max left_y1 right_y1)
  let left_area := (left_x2 - left_x1) * (left_y2 - left_y1)
  let right_area := (right_x2 - right_x1) * (right_y2 - right_y1)
  quotient (width * height) (max 1 (min left_area right_area))

def _is_spanning (item : Placed) : Bool :=
  let (x1, _, x2, _) := item.box
  680 ≤ x2 - x1 || (x1 ≤ 250 && 750 ≤ x2)

-- `statistics.fmean(values)`
def fmean (values : List ℚ) : ℚ := Binary64.rounded (Binary64.rounded values.sum / values.length)

def overlap_ratio (item : Placed) (column : _Column) : ℚ :=
  let (x1, _, x2, _) := item.box
  quotient (max 0 (min x2 column.right - max x1 column.left))
    (max 1 (min (x2 - x1) (column.right - column.left)))

def center_distance (item : Placed) (column : _Column) : ℚ :=
  |Binary64.rounded (_center_x item - column.center)|

def fits (item : Placed) (column : _Column) : Bool :=
  Binary64.rounded (3 / 10) ≤ overlap_ratio item column || center_distance item column ≤ 150

def _Column.single (item : Placed) : _Column where
  items := [item]
  left := item.box.1
  right := item.box.2.2.1
  center := _center_x item

def _Column.append (item : Placed) (column : _Column) : _Column where
  items := column.items ++ [item]
  left := min column.left item.box.1
  right := max column.right item.box.2.2.1
  center := fmean ((column.items ++ [item]).map _center_x)

-- The columns so far, and whether a block lay near the edge of one.
def assign_column (state : List _Column × Bool) (item : Placed) : List _Column × Bool :=
  let candidates : List (ℚ ×ₗ ℚ ×ₗ ℕ) := state.1.zipIdx.filterMap fun entry =>
    if fits item entry.1 then
      some (toLex (-overlap_ratio item entry.1, toLex (center_distance item entry.1, entry.2)))
    else none
  let near := state.1.any fun column => !fits item column &&
    (150 < center_distance item column && center_distance item column < 220)
  match firstMin (fun first second => first < second) candidates with
  | some found => (state.1.modify (ofLex (ofLex found).2).2 (_Column.append item), state.2 || near)
  | none => (state.1 ++ [_Column.single item], state.2 || near)

def _cluster_columns (blocks : List Placed) : List _Column × Bool :=
  let sorted := Ranked.rank (fun item => toLex (_center_x item, _bbox_key item)) blocks
  let clustered := sorted.foldl assign_column ([], false)
  (Ranked.rank (fun column : _Column => toLex (column.center, toLex (column.left, column.right)))
    clustered.1, clustered.2)

-- `body.insert(index, item)`
def insert {α : Type} (items : List α) (index : ℕ) (item : α) : List α :=
  items.take index ++ item :: items.drop index

-- A caption goes after the last figure or table before it, or else after the nearest one.
def place_caption (body : List Placed) (caption : Placed) : List Placed :=
  let caption_index := body.idxOf caption
  let candidates := body.zipIdx.filter fun entry =>
    ["figure", "table"].contains entry.1.block.block_type &&
      entry.1.block.page_number = caption.block.page_number
  let before := candidates.filter fun entry => entry.2 < caption_index
  let distance (entry : Placed × ℕ) : ℕ := ((entry.2 : ℤ) - caption_index).natAbs
  let selected :=
    if before ≠ [] then firstMin (fun first second => second.2 < first.2) before
    else firstMin (fun first second => distance first < distance second) candidates
  match selected with
  | none => body
  | some entry =>
      let rest := body.erase caption
      insert rest (rest.idxOf entry.1 + 1) caption

section Roles

-- `str.casefold`
variable (casefold : String → String)

def _semantic_role (block : NormalizationBlock) : String :=
  let role := casefold block.block_type
  if ["header", "title"].contains role then role
  else if ["footer", "page_number"].contains role then role
  else if role = "caption" then "caption_after_media"
  else "body"

def _apply_semantic_cues (blocks : List Placed) : List Placed :=
  let prefixes := blocks.filter fun item => ["header", "title"].contains item.block.block_type
  let suffixes := blocks.filter fun item => ["footer", "page_number"].contains item.block.block_type
  let body := blocks.filter fun item => !prefixes.contains item && !suffixes.contains item
  let captions := body.filter fun item => item.block.block_type = "caption"
  Ranked.rank (fun item => toLex (decide (_semantic_role casefold item.block ≠ "header"), _bbox_key item))
      prefixes ++ captions.foldl place_caption body ++ Ranked.rank _bbox_key suffixes

end Roles

section Page

variable (blocks : List NormalizationBlock)

def bounded : List Placed := blocks.filterMap place?

def unbounded : List NormalizationBlock := blocks.filter fun block => block.bbox1000.isNone

def spanning : List Placed := Ranked.rank _bbox_key ((bounded blocks).filter _is_spanning)

def ordinary : List Placed := (bounded blocks).filter fun item => !_is_spanning item

-- The spanning blocks above a block.
def band_of (item : Placed) : ℕ :=
  (spanning blocks).countP fun anchor => _center_y anchor < _center_y item

def band_members (band : ℕ) : List Placed :=
  (ordinary blocks).filter fun item => band_of blocks item = band

-- A column's blocks from the top, then the next column's; a spanning block ends the band.
def band_entries (band : ℕ) : List (Placed × Metadata) :=
  let clustered := _cluster_columns (band_members blocks band)
  (clustered.1.zipIdx.flatMap fun column =>
    (Ranked.rank _bbox_key column.1.items).map fun item =>
      (item, {
        column_index := some column.2
        column_count := clustered.1.length
        band_index := some band
        evidence := ["bbox_geometry_applied", "column_cluster_assigned"] ++
          if clustered.2 then ["column_boundary_near_threshold"] else []
        uncertain := clustered.2 })) ++
  ((spanning blocks)[band]?.toList.map fun anchor =>
    (anchor, {
      column_index := none
      column_count := max 1 clustered.1.length
      band_index := some band
      evidence := ["bbox_geometry_applied", "spanning_block_boundary"]
      uncertain := false }))

def page_entries : List (Placed × Metadata) :=
  (List.range ((spanning blocks).length + 1)).flatMap (band_entries blocks)

-- The blocks of two that overlap.
def overlapping : Finset String :=
  (((pairs (bounded blocks)).filter fun pair => 1 / 4 ≤ _intersection_ratio pair.1.box pair.2.box).flatMap
    fun pair => [pair.1.block.block_id, pair.2.block.block_id]).toFinset

def uncertain_ids : Finset String :=
  (((page_entries blocks).filter (·.2.uncertain)).map (·.1.block.block_id)).toFinset ∪ overlapping blocks

def duplicate_provider : Bool :=
  let provider_values := blocks.filterMap _provider_order
  provider_values.length ≠ provider_values.toFinset.card

variable (casefold : String → String)

def semantic : List NormalizationBlock :=
  (_apply_semantic_cues casefold ((page_entries blocks).map Prod.fst)).map Placed.block ++
    Ranked.rank _provider_key (unbounded blocks)

def unplaced : Metadata where
  column_index := none
  column_count := 0
  band_index := none
  evidence := ["bbox_geometry_unavailable", "provider_order_fallback"]
  uncertain := false

def page_position (block : NormalizationBlock) : _PagePosition :=
  let entries := page_entries blocks
  let metadata := Dict.ofPairs (entries.map fun entry => (entry.1.block.block_id, entry.2))
  let geometry_orders := Dict.ofPairs (entries.zipIdx.map fun entry => (entry.1.1.block.block_id, entry.2))
  let found := (metadata.get? block.block_id).getD unplaced
  let provider := _provider_order block
  let unordered := block.bbox1000.isNone && provider.isNone
  let duplicated := duplicate_provider blocks && provider.isSome && block.bbox1000.isNone
  let uncertain := decide (block.block_id ∈ uncertain_ids blocks)
  { block
    geometry_order := geometry_orders.get? block.block_id
    column_index := found.column_index
    column_count := found.column_count
    band_index := found.band_index
    evidence := (if provider.isSome then "provider_order_available" else "provider_order_unavailable") ::
      found.evidence ++ ["semantic_role:" ++ _semantic_role casefold block] ++
      (if unordered then ["no_provider_or_geometry_order"] else []) ++
      (if duplicated then ["duplicate_provider_order_without_geometry"] else []) ++
      (if uncertain then ["substantial_bbox_overlap"] else [])
    uncertain := uncertain || found.uncertain || unordered || duplicated }

def _page_positions : List _PagePosition := (semantic blocks casefold).map (page_position blocks casefold)

end Page

def _cross_page_relation (previous : Option NormalizationBlock) (current : NormalizationBlock) :
    Option String × Bool :=
  match previous with
  | none => (none, false)
  | some previous =>
      if current.page_number ≠ previous.page_number + 1 then (none, false)
      else
        let previous_text := Text.rstrip
          (if previous.normalized_text ≠ "" then previous.normalized_text else previous.raw_text).toList
        if previous.block_type = "heading" && ["paragraph", "list"].contains current.block_type then
          (some "heading_body_continuity", false)
        else if ["paragraph", "list", "quote"].contains previous.block_type &&
            ["paragraph", "list", "quote"].contains current.block_type &&
            previous_text.getLast?.any (!_TERMINAL_PUNCTUATION.contains ·) then
          (some "possible_prose_continuation", true)
        else if previous.block_type = "figure" && current.block_type = "caption" then
          (some "figure_caption_continuity", false)
        else if previous.block_type = "table" && current.block_type = "table" then
          (some "possible_split_table", true)
        else (some "page_boundary", false)

-- The records so far, and the block of the last one.
structure Reading where
  records : List ReadingOrderRecord
  previous : Option NormalizationBlock

section Document

variable (casefold : String → String)

def record_position (page_number : ℤ) (reading : Reading) (entry : _PagePosition × ℕ) : Reading :=
  let position := entry.1
  let relation := _cross_page_relation reading.previous position.block
  let provider := _provider_order position.block
  let disagrees := match position.geometry_order, provider with
    | some geometry, some order => decide ((geometry : ℤ) ≠ order)
    | _, _ => false
  let uncertain := position.uncertain || relation.2
  { records := reading.records ++ [{
      block_id := position.block.block_id
      page_number
      final_order := reading.records.length
      page_order := entry.2
      provider_order := provider
      geometry_order := position.geometry_order
      column_index := position.column_index
      column_count := position.column_count
      band_index := position.band_index
      semantic_role := _semantic_role casefold position.block
      previous_page_block_id :=
        if relation.1.isSome then reading.previous.map NormalizationBlock.block_id else none
      cross_page_relation := relation.1
      uncertain
      evidence := position.evidence ++ (relation.1.toList.map ("cross_page:" ++ ·)) ++
        if disagrees then ["provider_geometry_order_disagreement_resolved"] else []
      quality_flags := if uncertain then ["reading_order_uncertain"] else [] }]
    previous := some position.block }

def page_blocks (blocks : List NormalizationBlock) (page_number : ℤ) : List NormalizationBlock :=
  blocks.filter fun block => block.page_number = page_number

def pages (blocks : List NormalizationBlock) : List ℤ :=
  Ranked.rank id ((blocks.map NormalizationBlock.page_number).dedup)

def record_page (blocks : List NormalizationBlock) (reading : Reading) (page_number : ℤ) : Reading :=
  (_page_positions (page_blocks blocks page_number) casefold).zipIdx.foldl
    (record_position casefold page_number) reading

def infer_reading_order (blocks : List NormalizationBlock) : Except String ReadingOrderResult :=
  let identities := blocks.map NormalizationBlock.block_id
  if identities.length ≠ identities.toFinset.card then
    .error "reading-order block IDs must be unique"
  else if blocks.any (·.page_number < 1) then .error "page_number must be positive"
  else
    let reading := (pages blocks).foldl (record_page casefold blocks) { records := [], previous := none }
    .ok {
      ordered_block_ids := reading.records.map ReadingOrderRecord.block_id
      records := reading.records
      uncertain_block_ids := (reading.records.filter (·.uncertain)).map ReadingOrderRecord.block_id }

end Document

end KnowledgeCompiler.Documents.ReadingOrder
