import KnowledgeCompiler.Parallel.Finalization
import KnowledgeCompiler.Parallel.Recovery
import Mathlib.Data.Prod.Lex

namespace KnowledgeCompiler.Parallel

open Lib Method

inductive BlockKind
  | HEADING
  | PARAGRAPH
  | LIST_ITEM
  | TABLE
  | FIGURE
  | CAPTION
  | FOOTNOTE
  | OTHER
deriving DecidableEq

def BlockKind.value : BlockKind → String
  | HEADING => "heading"
  | PARAGRAPH => "paragraph"
  | LIST_ITEM => "list_item"
  | TABLE => "table"
  | FIGURE => "figure"
  | CAPTION => "caption"
  | FOOTNOTE => "footnote"
  | OTHER => "other"

inductive MarginalRole
  | HEADER
  | FOOTER
deriving DecidableEq

def MarginalRole.value : MarginalRole → String
  | HEADER => "header"
  | FOOTER => "footer"

inductive ContinuityEdgeKind
  | CONTINUES
  | BELONGS_TO
  | CAPTION_OF
  | HEADER_OF
  | FOOTNOTE_OF
  | SAME_TABLE
  | DUPLICATE_MARGINAL
deriving DecidableEq

def ContinuityEdgeKind.value : ContinuityEdgeKind → String
  | CONTINUES => "continues"
  | BELONGS_TO => "belongs_to"
  | CAPTION_OF => "caption_of"
  | HEADER_OF => "header_of"
  | FOOTNOTE_OF => "footnote_of"
  | SAME_TABLE => "same_table"
  | DUPLICATE_MARGINAL => "duplicate_marginal"

structure TableIdentity where
  normalized_header : List String
  column_geometry : List ℕ
  title : String
  unit : String
  row_style : String := ""
  surrounding_text : String := ""
  columned : normalized_header ≠ [] ∧ column_geometry ≠ []
  equal : normalized_header.length = column_geometry.length
  positive : ∀ width ∈ column_geometry, 0 < width

structure ParsedBlock where
  block_id : String
  page_id : String
  page_index0 : ℕ
  order : ℕ
  kind : BlockKind
  text : String
  source_refs : List String
  heading_depth : Option ℕ := none
  marginal_role : Option MarginalRole := none
  table_identity : Option TableIdentity := none
  table_row_count : ℕ := 0
  named : block_id ≠ "" ∧ page_id ≠ ""
  evidenced : Text.strip text.toList ≠ [] ∧ source_refs ≠ []
  headed : if kind = .HEADING then heading_depth.isSome ∧ ∀ depth ∈ heading_depth, 1 ≤ depth ∧ depth ≤ 6
    else heading_depth = none
  tabled : if kind = .TABLE then table_identity.isSome else table_identity = none ∧ table_row_count = 0

structure ShardOutput where
  shard_id : String
  primary_page_ids : List String
  context_page_ids : List String
  blocks : List ParsedBlock
  named : shard_id ≠ "" ∧ primary_page_ids ≠ []
  separate : ∀ page_id ∈ primary_page_ids, page_id ∉ context_page_ids
  within : ∀ block ∈ blocks, block.page_id ∈ primary_page_ids ∨ block.page_id ∈ context_page_ids

structure ContinuityEdge where
  from_block_id : String
  to_block_id : String
  kind : ContinuityEdgeKind
  evidence : List EvidenceReceipt
  proper : from_block_id ≠ to_block_id
  evidenced : evidence ≠ []

structure MergedBlock where
  merged_block_id : String
  kind : BlockKind
  text : String
  page_ids : List String
  page_index0 : ℕ
  order : ℕ
  source_refs : List String
  provenance_block_ids : List String
  heading_depth : Option ℕ := none
  table_identity : Option TableIdentity := none
  table_row_count : ℕ := 0

structure ContinuityMergeResult where
  merge_id : String
  accepted : Bool
  markdown : Option String
  blocks : List MergedBlock
  dropped_marginal_block_ids : List String
  reason_codes : List String
  merge_sha256 : String

structure MergeArguments where
  document_version_id : String
  outputs : List ShardOutput
  edges : List ContinuityEdge
  expected_page_ids : List String
  occurred_at : Datetime
  idempotency_key : String

structure ContinuityMerger where
  events : Option EventJournal := none
  results : Dict String (String × ContinuityMergeResult) := .empty

-- How the canonical encoder writes them.

def optional_number_json : Option ℕ → Json
  | none => .null
  | some value => .int value

def TableIdentity.json (table : TableIdentity) : Json :=
  .obj [("normalized_header", strings_json table.normalized_header),
    ("column_geometry", .arr (table.column_geometry.map fun width => .int width)),
    ("title", .str table.title), ("unit", .str table.unit), ("row_style", .str table.row_style),
    ("surrounding_text", .str table.surrounding_text)]

def optional_table_json (table : Option TableIdentity) : Json := table.elim .null TableIdentity.json

def ParsedBlock.json (block : ParsedBlock) : Json :=
  .obj [("block_id", .str block.block_id), ("page_id", .str block.page_id),
    ("page_index0", .int block.page_index0), ("order", .int block.order),
    ("kind", .str block.kind.value), ("text", .str block.text),
    ("source_refs", strings_json block.source_refs),
    ("heading_depth", optional_number_json block.heading_depth),
    ("marginal_role", optional_json (block.marginal_role.map MarginalRole.value)),
    ("table_identity", optional_table_json block.table_identity),
    ("table_row_count", .int block.table_row_count)]

def ShardOutput.json (output : ShardOutput) : Json :=
  .obj [("shard_id", .str output.shard_id),
    ("primary_page_ids", strings_json output.primary_page_ids),
    ("context_page_ids", strings_json output.context_page_ids),
    ("blocks", .arr (output.blocks.map ParsedBlock.json))]

def ContinuityEdge.json (edge : ContinuityEdge) : Json :=
  .obj [("from_block_id", .str edge.from_block_id), ("to_block_id", .str edge.to_block_id),
    ("kind", .str edge.kind.value), ("evidence", .arr (edge.evidence.map EvidenceReceipt.json))]

def MergedBlock.json (block : MergedBlock) : Json :=
  .obj [("merged_block_id", .str block.merged_block_id), ("kind", .str block.kind.value),
    ("text", .str block.text), ("page_ids", strings_json block.page_ids),
    ("page_index0", .int block.page_index0), ("order", .int block.order),
    ("source_refs", strings_json block.source_refs),
    ("provenance_block_ids", strings_json block.provenance_block_ids),
    ("heading_depth", optional_number_json block.heading_depth),
    ("table_identity", optional_table_json block.table_identity),
    ("table_row_count", .int block.table_row_count)]

def sorted_strings (values : List String) : List String := values.insertionSort (· ≤ ·)

section Fingerprint

variable (hasher : Hasher) (casefold : String → String)

def _normalize_text (value : String) : String :=
  casefold (String.ofList (Text.strip (Text.collapseSpaces value.toList)))

def TableIdentity.fingerprint (table : TableIdentity) : String :=
  canonical_sha256 hasher
    (.obj [("header", strings_json (table.normalized_header.map (_normalize_text casefold))),
      ("column_geometry", .arr (table.column_geometry.map fun width => .int width)),
      ("title", .str (_normalize_text casefold table.title)),
      ("unit", .str (_normalize_text casefold table.unit)),
      ("row_style", .str (_normalize_text casefold table.row_style)),
      ("surrounding_text", .str (_normalize_text casefold table.surrounding_text))])

def ParsedBlock.stable_fingerprint (block : ParsedBlock) : String :=
  canonical_sha256 hasher
    (.obj [("kind", .str block.kind.value), ("text", .str (_normalize_text casefold block.text)),
      ("heading_depth", optional_number_json block.heading_depth),
      ("table",
        optional_json (block.table_identity.map (TableIdentity.fingerprint hasher casefold)))])

end Fingerprint

namespace ContinuityMerger

def conflict (message : String) : DocumentFault := .merge_conflict message

-- `key=lambda block: (block.page_index0, block.order, block.block_id)`
def reading_order (first second : ParsedBlock) : Prop :=
  toLex (first.page_index0, toLex (first.order, first.block_id)) ≤
    toLex (second.page_index0, toLex (second.order, second.block_id))

instance : DecidableRel reading_order := fun _ _ => inferInstanceAs (Decidable (_ ≤ _))

def merged_order (first second : MergedBlock) : Prop :=
  toLex (first.page_index0, toLex (first.order, first.merged_block_id)) ≤
    toLex (second.page_index0, toLex (second.order, second.merged_block_id))

instance : DecidableRel merged_order := fun _ _ => inferInstanceAs (Decidable (_ ≤ _))

def owned_of (output : ShardOutput) : List ParsedBlock :=
  output.blocks.filter (·.page_id ∈ output.primary_page_ids)

def _owned_blocks (outputs : List ShardOutput) : Except DocumentFault (List ParsedBlock) := do
  refuse_if (¬(outputs.flatMap ShardOutput.primary_page_ids).Nodup)
    (conflict "a page has multiple primary owners")
  refuse_if (¬((outputs.flatMap owned_of).map ParsedBlock.block_id).Nodup)
    (conflict "a primary block id appears more than once")
  .ok ((outputs.flatMap owned_of).insertionSort reading_order)

section Marginals

variable (hasher : Hasher) (casefold : String → String)

def marginal_groups (blocks : List ParsedBlock) : Dict (MarginalRole × String) (List ParsedBlock) :=
  blocks.foldl (fun groups block =>
    match block.marginal_role with
    | none => groups
    | some role =>
        groups.update (role, block.stable_fingerprint hasher casefold)
          (fun group => group.getD [] ++ [block])) .empty

def _repeated_marginals (blocks : List ParsedBlock) : List String :=
  ((marginal_groups hasher casefold blocks).values.filter fun group =>
    2 ≤ (group.map ParsedBlock.page_id).dedup.length).flatMap (·.map ParsedBlock.block_id)

end Marginals

section Joins

variable (hasher : Hasher) (casefold : String → String) (blocks : Dict String ParsedBlock)

-- `blocks[block_id]`
def block_at (block_id : String) : Except DocumentFault ParsedBlock :=
  (blocks.get? block_id).elim (.error (.fault (.key_error block_id))) .ok

def check_relationship (dropped : List String) (edge : ContinuityEdge) :
    Except DocumentFault Unit := do
  if edge.kind = .DUPLICATE_MARGINAL then
    refuse_if (edge.from_block_id ∉ dropped ∨ edge.to_block_id ∉ dropped)
      (conflict "duplicate_marginal edge must reference detected repeated marginals")
  else
    refuse_if (edge.from_block_id ∉ blocks.keys ∨ edge.to_block_id ∉ blocks.keys)
      (conflict "continuity relationship references a missing primary block")
    let source ← block_at blocks edge.from_block_id
    let target ← block_at blocks edge.to_block_id
    refuse_if (edge.kind = .CAPTION_OF ∧ ¬(source.kind = .CAPTION ∧ target.kind = .FIGURE))
      (conflict "caption_of requires caption to figure")
    refuse_if (edge.kind = .FOOTNOTE_OF ∧ source.kind ≠ .FOOTNOTE)
      (conflict "footnote_of requires a footnote source")
    refuse_if (edge.kind = .HEADER_OF ∧ source.kind ≠ .HEADING)
      (conflict "header_of requires a heading source")

def _validate_relationship_edges (dropped : List String) (edges : List ContinuityEdge) :
    Except DocumentFault Unit :=
  edges.forM (check_relationship blocks dropped)

structure Joins where
  outgoing : Dict String String := .empty
  incoming : Dict String String := .empty

def check_same_table (source target : ParsedBlock) : Except DocumentFault Unit := do
  refuse_if (source.kind ≠ .TABLE ∨ target.kind ≠ .TABLE)
    (conflict "same_table edge requires two table blocks")
  match source.table_identity, target.table_identity with
  | some source_table, some target_table =>
      refuse_if (source_table.fingerprint hasher casefold ≠ target_table.fingerprint hasher casefold)
        (conflict "cross-page table identity mismatch")
      refuse_if (target.page_index0 ≠ source.page_index0 + 1)
        (conflict "cross-page table continuation must be page-adjacent")
  | _, _ => .error (conflict "table identity metadata is missing")

def check_continues (source target : ParsedBlock) : Except DocumentFault Unit :=
  refuse_if (source.kind ≠ target.kind ∨ source.kind ∉ [.PARAGRAPH, .LIST_ITEM])
    (conflict "continues edge requires compatible paragraph or list blocks")

def join (joins : Joins) (edge : ContinuityEdge) : Except DocumentFault Joins := do
  refuse_if (edge.from_block_id ∉ blocks.keys ∨ edge.to_block_id ∉ blocks.keys)
    (conflict "continuity edge references a missing primary block")
  refuse_if ((joins.outgoing.get? edge.from_block_id).isSome ∨
      (joins.incoming.get? edge.to_block_id).isSome)
    (conflict "continuity graph has an ambiguous join")
  let source ← block_at blocks edge.from_block_id
  let target ← block_at blocks edge.to_block_id
  refuse_if (target.page_index0 < source.page_index0) (conflict "continuity edge points backwards")
  if edge.kind = .SAME_TABLE then check_same_table hasher casefold source target
  else check_continues source target
  .ok { outgoing := joins.outgoing.set edge.from_block_id edge.to_block_id
        incoming := joins.incoming.set edge.to_block_id edge.from_block_id }

-- The chain from a block on, and what has been visited after it. No more blocks
-- than there are can be new ones.
def follow (outgoing : Dict String String) :
    ℕ → List String → String → Except DocumentFault (List String × List String)
  | 0, _, _ => .error (conflict "continuity graph contains a cycle")
  | unvisited + 1, visited, current => do
      refuse_if (current ∈ visited) (conflict "continuity graph contains a cycle")
      match outgoing.get? current with
      | none => .ok ([current], visited ++ [current])
      | some next =>
          let (rest, reached) ← follow outgoing unvisited (visited ++ [current]) next
          .ok (current :: rest, reached)

def gather_chain (joins : Joins) (gathered : List (List String) × List String) (block_id : String) :
    Except DocumentFault (List (List String) × List String) := do
  if (joins.incoming.get? block_id).isSome then .ok gathered
  else
    let (chain, visited) ← follow joins.outgoing (blocks.keys.length + 1) gathered.2 block_id
    .ok (gathered.1 ++ [chain], visited)

def _join_chains (edges : List ContinuityEdge) : Except DocumentFault (List (List String)) := do
  let joins ← (edges.filter fun edge => edge.kind = .CONTINUES ∨ edge.kind = .SAME_TABLE).foldlM
    (join hasher casefold blocks) {}
  let (chains, visited) ← (sorted_strings blocks.keys).foldlM (gather_chain blocks joins) ([], [])
  refuse_if (¬(visited ⊆ blocks.keys ∧ blocks.keys ⊆ visited))
    (conflict "continuity graph contains an unrooted cycle")
  .ok chains

def chain_text (first : ParsedBlock) (members : List ParsedBlock) : String :=
  match first.kind with
  | .PARAGRAPH | .LIST_ITEM =>
      " ".intercalate (members.map fun block => String.ofList (Text.strip block.text.toList))
  | .TABLE =>
      "\n".intercalate (members.map fun block => String.ofList (Text.rstrip block.text.toList))
  | _ => first.text

def merged_of (first : ParsedBlock) (members : List ParsedBlock) : MergedBlock :=
  let provenance := members.map ParsedBlock.block_id
  let text := chain_text first members
  { merged_block_id := stable_id hasher "block"
      [strings_json provenance, .str (canonical_sha256 hasher (.str text))]
    kind := first.kind
    text
    page_ids := fromkeys (members.map ParsedBlock.page_id)
    page_index0 := first.page_index0
    order := first.order
    source_refs := fromkeys (members.flatMap ParsedBlock.source_refs)
    provenance_block_ids := provenance
    heading_depth := first.heading_depth
    table_identity := first.table_identity
    table_row_count := (members.map ParsedBlock.table_row_count).sum }

-- A chain holds the block it was gathered from, so its first member is there.
def _merge_chain (chain : List String) : Except DocumentFault MergedBlock := do
  let members ← chain.mapM (block_at blocks)
  match members with
  | [] => .error (.fault (.runtime_error "tuple index out of range"))
  | first :: _ => .ok (merged_of hasher first members)

end Joins

section Ordering

variable (merged : List MergedBlock)

-- What a relationship edge says about two merged blocks: the one before, the one after.
def precedence (by_original : Dict String String) (edge : ContinuityEdge) : Option (String × String) :=
  match by_original.get? edge.from_block_id, by_original.get? edge.to_block_id with
  | some source_id, some target_id =>
      if source_id = target_id then none
      else
        match edge.kind with
        | .CAPTION_OF | .FOOTNOTE_OF | .BELONGS_TO => some (target_id, source_id)
        | .HEADER_OF => some (source_id, target_id)
        | _ => none
  | _, _ => none

def by_original : Dict String String :=
  Dict.ofPairs (merged.flatMap fun block =>
    block.provenance_block_ids.map fun original_id => (original_id, block.merged_block_id))

def by_id : Dict String MergedBlock :=
  Dict.ofPairs (merged.map fun block => (block.merged_block_id, block))

def base_order : Dict String ℕ :=
  Dict.ofPairs (merged.mapIdx fun index block => (block.merged_block_id, index))

-- `key=lambda item: (base_order[item], item)`
def earlier (first second : String) : Prop :=
  toLex (((base_order merged).get? first).getD 0, first) ≤
    toLex (((base_order merged).get? second).getD 0, second)

instance : DecidableRel (earlier merged) := fun _ _ => inferInstanceAs (Decidable (_ ≤ _))

-- `incoming`, `ready` and `ordered`
structure Progress where
  incoming : Dict String ℤ
  ready : List String
  ordered : List MergedBlock := []

def release (progress : Progress) (successor : String) : Progress :=
  let left := (progress.incoming.get? successor).getD 0 - 1
  { progress with
    incoming := progress.incoming.set successor left
    ready := if left = 0 then (progress.ready ++ [successor]).insertionSort (earlier merged)
      else progress.ready }

-- The second argument counts the blocks that may still become ready.
def drain (before_after : List (String × String)) : ℕ → Progress → Progress
  | 0, progress => progress
  | unordered + 1, progress =>
      match progress.ready with
      | [] => progress
      | block_id :: waiting =>
          let successors := (before_after.filter (·.1 = block_id)).map Prod.snd
          drain before_after unordered
            ((successors.insertionSort (earlier merged)).foldl (release merged)
              { progress with
                ready := waiting
                ordered := progress.ordered ++ ((by_id merged).get? block_id).toList })

def start (before_after : List (String × String)) : Progress :=
  let incoming := (by_id merged).keys.map fun block_id =>
    (block_id, ((before_after.countP (·.2 = block_id) : ℕ) : ℤ))
  { incoming := Dict.ofPairs incoming
    ready := ((incoming.filter (·.2 = 0)).map Prod.fst).insertionSort (earlier merged) }

-- The pairs are a set: each is taken once.
def _order_relationships (edges : List ContinuityEdge) : Except DocumentFault (List MergedBlock) := do
  let before_after := (edges.filterMap (precedence (by_original merged))).dedup
  let progress := drain merged before_after (by_id merged).keys.length (start merged before_after)
  refuse_if (progress.ordered.length ≠ merged.length)
    (conflict "continuity relationship graph contains a cycle")
  .ok progress.ordered

end Ordering

def stripped (text : String) : String := String.ofList (Text.strip text.toList)

def markdown_part (block : MergedBlock) : String :=
  match block.kind with
  | .HEADING =>
      String.ofList (List.replicate (block.heading_depth.getD 1) '#') ++ " " ++ stripped block.text
  | .LIST_ITEM => "- " ++ stripped block.text
  | .CAPTION => "*" ++ stripped block.text ++ "*"
  | .FOOTNOTE =>
      "[^source-" ++ String.ofList (block.merged_block_id.toList.take 8) ++ "]: " ++
        stripped block.text
  | _ => stripped block.text

def _markdown (blocks : List MergedBlock) : String :=
  stripped ("\n\n".intercalate (blocks.map markdown_part)) ++ "\n"

section Validation

variable (owned_blocks : List ParsedBlock) (merged_blocks : List MergedBlock) (dropped : List String)

def conserved : Prop :=
  let provenance := merged_blocks.flatMap MergedBlock.provenance_block_ids
  (∀ block_id, block_id ∈ provenance ↔
    block_id ∈ (owned_blocks.map ParsedBlock.block_id).filter (· ∉ dropped)) ∧ provenance.Nodup

instance : Decidable (conserved owned_blocks merged_blocks dropped) :=
  let provenance := merged_blocks.flatMap MergedBlock.provenance_block_ids
  let expected := (owned_blocks.map ParsedBlock.block_id).filter (· ∉ dropped)
  decidable_of_iff ((provenance ⊆ expected ∧ expected ⊆ provenance) ∧ provenance.Nodup)
    (and_congr_left' ⟨fun h _ => ⟨fun hm => h.1 hm, fun hm => h.2 hm⟩,
      fun h => ⟨fun block_id hm => (h block_id).mp hm, fun block_id hm => (h block_id).mpr hm⟩⟩)

def covered_pages : List String :=
  merged_blocks.flatMap MergedBlock.page_ids ++
    (owned_blocks.filter (·.block_id ∈ dropped)).map ParsedBlock.page_id

-- `current > previous + 1` for two headings in a row.
def depth_jump : List (Option ℕ) → Bool
  | some previous :: some current :: rest =>
      previous + 1 < current || depth_jump (some current :: rest)
  | _ :: rest => depth_jump rest
  | [] => false

def heading_depths : List (Option ℕ) :=
  (merged_blocks.filter (·.kind = .HEADING)).map MergedBlock.heading_depth

def fence : Char := Char.ofNat 0x60

-- How many times three in a row stand in the text, none counted twice.
def count_fences : List Char → ℕ
  | first :: second :: third :: rest =>
      if first = fence ∧ second = fence ∧ third = fence then count_fences rest + 1
      else count_fences (second :: third :: rest)
  | _ => 0

-- The reasons that hold, sorted; no two are the same.
def _validate (expected_page_ids : List String) (markdown : String) : List String :=
  let input_rows :=
    ((owned_blocks.filter (·.block_id ∉ dropped)).map ParsedBlock.table_row_count).sum
  let output_rows := (merged_blocks.map MergedBlock.table_row_count).sum
  let covered := covered_pages owned_blocks merged_blocks dropped
  let found : List (Bool × String) :=
    [(!decide (conserved owned_blocks merged_blocks dropped), "block_count_conservation_failed"),
      (!decide (expected_page_ids ⊆ covered ∧ covered ⊆ expected_page_ids), "page_coverage_failed"),
      (merged_blocks.any (·.source_refs = []), "source_reference_missing"),
      (!decide (merged_blocks.map fun block => (block.page_index0, block.order)).Nodup,
        "sequence_invalid"),
      (depth_jump (heading_depths merged_blocks), "heading_depth_jump"),
      (input_rows ≠ output_rows, "table_row_conservation_failed"),
      ('\x00' ∈ markdown.toList || count_fences markdown.toList % 2 = 1, "markdown_invalid")]
  sorted_strings ((found.filter Prod.fst).map Prod.snd)

end Validation

section Merging

variable (hasher : Hasher) (casefold : String → String)

def merge_input (arguments : MergeArguments) : Json :=
  .obj [("document_version_id", .str arguments.document_version_id),
    ("outputs", .arr (arguments.outputs.map ShardOutput.json)),
    ("edges", .arr (arguments.edges.map ContinuityEdge.json)),
    ("expected_page_ids", strings_json arguments.expected_page_ids)]

def input_digest (arguments : MergeArguments) : String :=
  canonical_sha256 hasher (merge_input arguments)

def merge_payload (input_digest : String) (merged : List MergedBlock) (dropped reasons : List String)
    (markdown : String) : Json :=
  .obj [("input_sha256", .str input_digest), ("accepted", .bool reasons.isEmpty),
    ("blocks", .arr (merged.map MergedBlock.json)), ("dropped", strings_json (sorted_strings dropped)),
    ("reasons", strings_json reasons),
    ("markdown_sha256", .str (canonical_sha256 hasher (.str markdown)))]

def result_of (document_version_id input_digest : String) (merged : List MergedBlock)
    (dropped reasons : List String) (markdown : String) : ContinuityMergeResult :=
  let digest := canonical_sha256 hasher (merge_payload hasher input_digest merged dropped reasons markdown)
  { merge_id := stable_id hasher "merge" [.str document_version_id, .str digest]
    accepted := reasons.isEmpty
    markdown := if reasons.isEmpty then some markdown else none
    blocks := merged
    dropped_marginal_block_ids := sorted_strings dropped
    reason_codes := reasons
    merge_sha256 := digest }

-- What a merge computes between its two events.
def merged (arguments : MergeArguments) : Except DocumentFault ContinuityMergeResult := do
  let owned ← _owned_blocks arguments.outputs
  let actual_owned_pages :=
    fromkeys (arguments.outputs.flatMap ShardOutput.primary_page_ids)
  refuse_if (¬(actual_owned_pages ⊆ arguments.expected_page_ids ∧
      arguments.expected_page_ids ⊆ actual_owned_pages) ∨
      actual_owned_pages.length ≠ arguments.expected_page_ids.length)
    (conflict "shard ownership does not cover expected pages exactly")
  let dropped := _repeated_marginals hasher casefold owned
  let active := Dict.ofPairs ((owned.filter (·.block_id ∉ dropped)).map fun block =>
    (block.block_id, block))
  _validate_relationship_edges active dropped arguments.edges
  let active_edges := arguments.edges.filter fun edge =>
    edge.from_block_id ∈ active.keys ∧ edge.to_block_id ∈ active.keys
  let chains ← _join_chains hasher casefold active active_edges
  let unordered ← chains.mapM (_merge_chain hasher active)
  let merged ← _order_relationships (unordered.insertionSort merged_order) active_edges
  let markdown := _markdown merged
  let reasons := _validate owned merged dropped arguments.expected_page_ids markdown
  .ok (result_of hasher arguments.document_version_id (input_digest hasher arguments) merged dropped
    reasons markdown)

def emit (event_type aggregate_id : String) (payload : List (String × Json))
    (occurred_at : Datetime) (idempotency_key : String) :
    Method ContinuityMerger DocumentFault Unit := do
  let merger ← self
  match merger.events with
  | none => returns ()
  | some journal =>
      let next ← check
        ((journal.append hasher event_type aggregate_id payload occurred_at idempotency_key).mapError
          .fault)
      assign (fun merger => { merger with events := some next })

def started_payload (arguments : MergeArguments) : List (String × Json) :=
  [("input_sha256", .str (input_digest hasher arguments)), ("shards", .int arguments.outputs.length)]

def completed_payload (result : ContinuityMergeResult) : List (String × Json) :=
  [("merge_sha256", .str result.merge_sha256), ("accepted", .bool result.accepted),
    ("reason_codes", strings_json result.reason_codes)]

def started_key (idempotency_key : String) : String := s!"merge-started:{idempotency_key}"

def completed_key (idempotency_key : String) : String := s!"merge-completed:{idempotency_key}"

def merge (arguments : MergeArguments) :
    Method ContinuityMerger DocumentFault ContinuityMergeResult := do
  let merger ← self
  match merger.results.get? arguments.idempotency_key with
  | some (existing_digest, result) =>
      require (existing_digest = input_digest hasher arguments)
        (conflict "merge idempotency key reused with different merge input")
      returns result
  | none =>
      emit hasher "continuity.merge.started.v1" arguments.document_version_id
        (started_payload hasher arguments) arguments.occurred_at
        (started_key arguments.idempotency_key)
      let result ← check (merged hasher casefold arguments)
      assign (fun merger => { merger with
        results := merger.results.set arguments.idempotency_key
          (input_digest hasher arguments, result) })
      emit hasher "continuity.merge.completed.v1" arguments.document_version_id
        (completed_payload result) arguments.occurred_at (completed_key arguments.idempotency_key)
      returns result

end Merging

end ContinuityMerger

end KnowledgeCompiler.Parallel
