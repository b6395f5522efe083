import KnowledgeCompiler.Parallel.Models
import Mathlib.Data.Finset.Card

namespace KnowledgeCompiler.Parallel

open Lib

inductive ShardFault
  | value_error (message : String)
  | overflow_error (message : String)
  | index_error (message : String)
deriving DecidableEq

inductive ContinuitySignal
  | REPEATED_TABLE_HEADER
  | TABLE_CUT
  | COLUMN_STRUCTURE_CONTINUES
  | INCOMPLETE_SENTENCE
  | HEADING_BODY
  | FIGURE_CAPTION
  | FOOTNOTE_REFERENCE
  | NUMBERED_LIST
  | APPENDIX_TABLE
  | SAME_TEMPLATE
deriving DecidableEq

-- A float literal of the source.
def literal (value : ℚ) : Binary64 := .of value

-- The proofs are what `__post_init__` checks.
structure PageDescriptor where
  page_id : String
  index0 : ℕ
  page_class : PageClass
  width_px : ℕ
  height_px : ℕ
  token_estimate : ℕ
  expected_output_tokens : ℕ
  table_density : Binary64 := .finite 0
  formula_density : Binary64 := .finite 0
  prior_latency_seconds : Binary64 := .finite 0
  prior_oom : Bool := false
  continuity_to_next : Finset ContinuitySignal := ∅
  named : 1 ≤ page_id.length
  sized : 1 ≤ width_px ∧ 1 ≤ height_px
  dense : ∀ density ∈ [table_density, formula_density],
    ((Binary64.finite 0).le density && density.le (.finite 1)) = true
  latency_nonnegative : prior_latency_seconds.lt (.finite 0) = false
deriving DecidableEq

namespace PageDescriptor

variable (page : PageDescriptor)

def pixels : ℕ := page.width_px * page.height_px

def tokens : ℕ := page.token_estimate + page.expected_output_tokens

def continues : Bool := page.continuity_to_next ≠ ∅

end PageDescriptor

structure ShardSizing where
  pages_per_shard : ℕ
  max_pixels : ℕ
  expected_seconds : Binary64
  required_worker_class : String
  overlap_pages : ℕ
deriving DecidableEq

structure ShardFields where
  shard_id : String
  document_id : String
  document_version_id : String
  ordinal : ℕ
  primary_page_ids : List String
  context_page_ids : List String
  ordered_input_page_ids : List String
  expected_seconds : Binary64
  required_worker_class : String
  policy_version : String
deriving DecidableEq

-- `ParseShard.__post_init__`
def ShardFields.post_init (fields : ShardFields) : Except ShardFault Unit :=
  let expected := fields.primary_page_ids.toFinset ∪ fields.context_page_ids.toFinset
  refuse_if
    (fields.ordered_input_page_ids.toFinset ≠ expected ∨
      fields.ordered_input_page_ids.length ≠ expected.card)
    (.value_error "ordered input pages must exactly cover primary and context pages")

structure ParseShard extends ShardFields where
  valid : toShardFields.post_init = .ok ()
deriving DecidableEq

def ParseShard.make (fields : ShardFields) : Except ShardFault ParseShard :=
  match h : fields.post_init with
  | .error refused => .error refused
  | .ok () => .ok { toShardFields := fields, valid := h }

structure PlanFields where
  document_id : String
  document_version_id : String
  source_sha256 : String
  shards : List ParseShard
  policy_version : String
deriving DecidableEq

namespace PlanFields

variable (fields : PlanFields)

def owned_page_ids : List String :=
  fields.shards.flatMap (fun shard => shard.primary_page_ids)

-- `ShardPlan.__post_init__`
def post_init : Except ShardFault Unit := do
  (require_sha256 fields.source_sha256 "source_sha256").mapError .value_error
  refuse_if (fields.shards = []) (.value_error "a shard plan cannot be empty")
  refuse_if (¬fields.owned_page_ids.Nodup)
    (.value_error "each page must have exactly one primary owner")
  refuse_if
    (∃ shard ∈ fields.shards, ∃ page_id ∈ shard.primary_page_ids, page_id ∈ shard.context_page_ids)
    (.value_error "context pages cannot also be primary pages in the same shard")

end PlanFields

structure ShardPlan extends PlanFields where
  valid : toPlanFields.post_init = .ok ()
deriving DecidableEq

def ShardPlan.make (fields : PlanFields) : Except ShardFault ShardPlan :=
  match h : fields.post_init with
  | .error refused => .error refused
  | .ok () => .ok { toPlanFields := fields, valid := h }

-- The proof is what `__init__` checks.
structure AdaptiveShardPredictor where
  model_context_tokens : ℕ := 32768
  vram_gib : ℕ := 24
  policy_version : String := "adaptive-shard-v2-bootstrap"
  production : 1024 ≤ model_context_tokens ∧ 1 ≤ vram_gib := by decide

namespace AdaptiveShardPredictor

-- `_BASE_TARGETS`
def base_target : PageClass → ℕ
  | .NATIVE_CLEAN => 32
  | .NORMAL_SCAN => 8
  | .COMPLEX_LAYOUT => 4
  | .INDEPENDENT => 2
  | .LONG_TABLE => 16
  | .FORMULA_HEAVY => 2
  | .PHOTOGRAPHED => 2
  | .OFFICE_STRUCTURED => 16

variable (predictor : AdaptiveShardPredictor) (page : PageDescriptor)

-- `int(self.model_context_tokens * 0.72)`, of a positive number.
def token_budget : Except ShardFault ℕ := do
  let context ← (Binary64.ofNat? predictor.model_context_tokens).elim
    (.error (.overflow_error "int too large to convert to float")) .ok
  ((context.mul (literal 0.72)).toInt?).elim
    (.error (.overflow_error "cannot convert float infinity to integer"))
    (fun budget => .ok budget.toNat)

def halved (target : ℕ) : ℕ := max 1 (target / 2)

def target_of (budget : ℕ) : ℕ :=
  let total_tokens := max 1 page.tokens
  let context_target := max 1 (budget / total_tokens)
  let target := min (base_target page.page_class) context_target
  let target :=
    if (literal 0.35).le page.table_density || (literal 0.10).le page.formula_density then
      halved target
    else target
  let target := if page.prior_oom then halved target else target
  if predictor.vram_gib < 16 then halved target else target

def quotient (numerator denominator : ℕ) : Except ShardFault Binary64 :=
  (Binary64.quotient? numerator denominator).elim
    (.error (.overflow_error "integer division result too large for a float")) .ok

def expected_seconds : Except ShardFault Binary64 := do
  let total_tokens := max 1 page.tokens
  let complexity := ((literal 1.0).add (page.table_density.mul (literal 1.5))).add
    (page.formula_density.mul (literal 2.0))
  let token_seconds ← quotient total_tokens 1200
  let pixel_seconds ← quotient page.pixels 8000000
  let baseline_seconds := page.prior_latency_seconds.max
    (((literal 0.25).add token_seconds).add pixel_seconds)
  .ok ((baseline_seconds.mul complexity).round 6)

def worker_class : String :=
  if page.page_class ∈ [.COMPLEX_LAYOUT, .LONG_TABLE] then "large_context_precision"
  else if page.page_class ∈ [.FORMULA_HEAVY, .PHOTOGRAPHED] then "vision_precision"
  else "standard"

def overlap : ℕ := if page.continues || page.page_class = .LONG_TABLE then 2 else 1

def predict : Except ShardFault ShardSizing := do
  let budget ← predictor.token_budget
  let pages_per_shard := predictor.target_of page budget
  let expected_seconds ← expected_seconds page
  .ok
    { pages_per_shard
      max_pixels := min (page.pixels * pages_per_shard)
        (max page.pixels (predictor.vram_gib * 1500000))
      expected_seconds
      required_worker_class := worker_class page
      overlap_pages := overlap page }

end AdaptiveShardPredictor

namespace DeterministicShardPlanner

variable (hasher : Hasher) (predictor : AdaptiveShardPredictor)

-- `_validate_pages`
def validate_pages (pages : List PageDescriptor) : Except ShardFault Unit := do
  refuse_if (pages.length = 0) (.value_error "cannot plan an empty document")
  refuse_if (pages.insertionSort (fun first second => first.index0 ≤ second.index0) ≠ pages)
    (.value_error "pages must be ordered by index0")
  refuse_if (¬(pages.map PageDescriptor.page_id).Nodup) (.value_error "page ids must be unique")
  refuse_if (¬(pages.map PageDescriptor.index0).Nodup) (.value_error "page indexes must be unique")
  refuse_if (pages.getLast?.any PageDescriptor.continues = true)
    (.value_error "the final page cannot declare continuity to a missing page")

structure Grouping where
  groups : List (List PageDescriptor) := []
  current : List PageDescriptor := []

def Grouping.next (grouping : Grouping) (page : PageDescriptor) : Grouping :=
  let current := grouping.current ++ [page]
  if page.continues then { grouping with current }
  else { groups := grouping.groups ++ [current], current := [] }

-- `_atomic_groups`
def atomic_groups (pages : List PageDescriptor) : List (List PageDescriptor) :=
  let grouping := pages.foldl Grouping.next {}
  if grouping.current = [] then grouping.groups else grouping.groups ++ [grouping.current]

-- `min` and `max` of what may be no value at all.
def extreme (choose : ℕ → ℕ → ℕ) (name : String) : List ℕ → Except ShardFault ℕ
  | [] => .error (.value_error s!"{name}() iterable argument is empty")
  | first :: rest => .ok (rest.foldl choose first)

def NO_LIMIT : ℕ := 2 ^ 31 - 1

structure Packing where
  primary_groups : List (List PageDescriptor) := []
  current : List PageDescriptor := []
  current_limit : ℕ := NO_LIMIT

def Packing.next (packing : Packing) (group : List PageDescriptor) : Except ShardFault Packing := do
  let sizings ← group.mapM predictor.predict
  let group_limit ← extreme min "min" (sizings.map ShardSizing.pages_per_shard)
  let proposed_limit := min packing.current_limit group_limit
  if packing.current ≠ [] ∧ proposed_limit < packing.current.length + group.length then
    .ok
      { primary_groups := packing.primary_groups ++ [packing.current]
        current := group
        current_limit := min NO_LIMIT group_limit }
  else
    .ok
      { packing with
        current := packing.current ++ group
        current_limit := min packing.current_limit group_limit }

def primary_groups (pages : List PageDescriptor) : Except ShardFault (List (List PageDescriptor)) := do
  let packing ← (atomic_groups pages).foldlM (Packing.next predictor) {}
  .ok (if packing.current = [] then packing.primary_groups
    else packing.primary_groups ++ [packing.current])

-- Whether a page is one of the neighbours of a range of indexes.
def is_context (first_index last_index overlap : ℕ) (page : PageDescriptor) : Bool :=
  !(first_index ≤ page.index0 && page.index0 < last_index + 1) &&
    ((first_index : ℤ) - overlap ≤ page.index0 && page.index0 < first_index ||
      last_index < page.index0 && page.index0 ≤ last_index + overlap)

def shard_worker_class (worker_classes : List String) (requires_oversize_worker : Bool) : String :=
  if "large_context_precision" ∈ worker_classes ∨ requires_oversize_worker = true then
    "large_context_precision"
  else if "vision_precision" ∈ worker_classes then "vision_precision"
  else "standard"

-- `group[0].index0` and `group[-1].index0`
def ends (group : List PageDescriptor) : Except ShardFault (ℕ × ℕ) :=
  match group.head?, group.getLast? with
  | some first, some last => .ok (first.index0, last.index0)
  | _, _ => .error (.index_error "tuple index out of range")

def index_of (pages : List PageDescriptor) (page_id : String) : ℕ :=
  -- every context page is one of the pages
  ((Dict.ofPairs (pages.map fun page => (page.page_id, page))).get? page_id).elim 0
    PageDescriptor.index0

def plan_shard (document_id document_version_id source_sha256 : String)
    (pages : List PageDescriptor) (ordinal : ℕ) (group : List PageDescriptor) :
    Except ShardFault ParseShard := do
  let (first_index, last_index) ← ends group
  let sizings ← group.mapM predictor.predict
  let overlap ← extreme max "max" (sizings.map ShardSizing.overlap_pages)
  let context := (pages.filter (is_context first_index last_index overlap)).map
    PageDescriptor.page_id
  let expected_seconds := (Binary64.sum (sizings.map ShardSizing.expected_seconds)).round 6
  let total_tokens := (group.map PageDescriptor.tokens).sum
  let budget ← predictor.token_budget
  let worker_class := shard_worker_class (sizings.map ShardSizing.required_worker_class)
    (budget < total_tokens)
  let primary_ids := group.map PageDescriptor.page_id
  let ordered_input_ids :=
    (pages.map PageDescriptor.page_id).filter fun page_id =>
      page_id ∈ primary_ids || page_id ∈ context
  ParseShard.make
    { shard_id := stable_id hasher "shard"
        [.str document_id, .str document_version_id, .str source_sha256,
          .str predictor.policy_version, strings_json primary_ids]
      document_id
      document_version_id
      ordinal
      primary_page_ids := primary_ids
      context_page_ids := context.insertionSort
        (fun first second => index_of pages first ≤ index_of pages second)
      ordered_input_page_ids := ordered_input_ids
      expected_seconds
      required_worker_class := worker_class
      policy_version := predictor.policy_version }

def plan (document_id document_version_id source_sha256 : String) (pages : List PageDescriptor) :
    Except ShardFault ShardPlan := do
  validate_pages pages
  let groups ← primary_groups predictor pages
  let shards ← groups.zipIdx.mapM fun (group, ordinal) =>
    plan_shard hasher predictor document_id document_version_id source_sha256 pages ordinal group
  ShardPlan.make
    { document_id, document_version_id, source_sha256, shards
      policy_version := predictor.policy_version }

end DeterministicShardPlanner

end KnowledgeCompiler.Parallel
