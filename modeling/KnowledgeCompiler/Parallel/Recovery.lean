import KnowledgeCompiler.Lib.Method
import KnowledgeCompiler.Lib.Minimum
import KnowledgeCompiler.Parallel.Journal
import Mathlib.Data.Finset.Lattice.Fold
import Mathlib.Order.Lattice.Nat

namespace KnowledgeCompiler.Parallel

open Lib Method

inductive RegionLevel
  | CELL
  | ROW
  | TABLE
  | REGION
  | PAGE
  | PAGE_PAIR
  | PAGE_GROUP
  | DOCUMENT
deriving DecidableEq

namespace RegionLevel

def value : RegionLevel → String
  | CELL => "cell"
  | ROW => "row"
  | TABLE => "table"
  | REGION => "region"
  | PAGE => "page"
  | PAGE_PAIR => "page_pair"
  | PAGE_GROUP => "page_group"
  | DOCUMENT => "document"

-- `_ORDER`
def order : RegionLevel → ℕ
  | CELL => 0
  | ROW => 1
  | TABLE => 2
  | REGION => 3
  | PAGE => 4
  | PAGE_PAIR => 5
  | PAGE_GROUP => 5
  | DOCUMENT => 6

end RegionLevel

-- The preprocessing variants, by their values.
inductive PreprocessingVariant
  | DPI
  | CROP_MARGIN
  | CONTRAST
  | GRAYSCALE
  | DEWARP
  | ROTATE
  | DENOISE
  | SHARPEN
  | TILE
  | OVERLAPPING_TILE
  | CELL_GEOMETRY
  | OCR_EXACT
  | AUTHORITY_MAPPING
  | PAGE_RERENDER_ALT_PARSER
  | REGION_CROP
  | ROW_BAND_TILE
  | CANDIDATE_REJECT
  | TARGET_SELECTION
  | NATIVE_AUTHORITY_RECONSTRUCTION
  | CANONICAL_NUMERIC
  | LAYOUT_SPECIALIST
  | PAGE_PAIR_STITCH
  | FORMULA_SPECIALIST
  | SOURCE_REMAP
  | NOTE_RECOMPILE
  | ENTITY_SPLIT
  | RELATION_REMOVE
deriving DecidableEq

def PreprocessingVariant.value : PreprocessingVariant → String
  | DPI => "dpi"
  | CROP_MARGIN => "crop_margin"
  | CONTRAST => "contrast"
  | GRAYSCALE => "grayscale"
  | DEWARP => "dewarp"
  | ROTATE => "rotate"
  | DENOISE => "denoise"
  | SHARPEN => "sharpen"
  | TILE => "tile"
  | OVERLAPPING_TILE => "overlapping_tile"
  | CELL_GEOMETRY => "cell_geometry_specialist"
  | OCR_EXACT => "ocr_exact"
  | AUTHORITY_MAPPING => "authority_mapping"
  | PAGE_RERENDER_ALT_PARSER => "page_rerender_alternate_parser"
  | REGION_CROP => "region_crop"
  | ROW_BAND_TILE => "row_band_tile"
  | CANDIDATE_REJECT => "candidate_reject"
  | TARGET_SELECTION => "target_selection"
  | NATIVE_AUTHORITY_RECONSTRUCTION => "native_authority_reconstruction"
  | CANONICAL_NUMERIC => "canonical_numeric_recovery"
  | LAYOUT_SPECIALIST => "layout_specialist"
  | PAGE_PAIR_STITCH => "page_pair_stitch"
  | FORMULA_SPECIALIST => "formula_specialist"
  | SOURCE_REMAP => "source_remap"
  | NOTE_RECOMPILE => "note_recompile"
  | ENTITY_SPLIT => "entity_split"
  | RELATION_REMOVE => "relation_remove"

structure RecoveryScope where
  level : RegionLevel
  scope_id : String
  source_refs : List String
  located : scope_id ≠ "" ∧ source_refs ≠ []

def RecoveryScope.json (scope : RecoveryScope) : Json :=
  .obj [("level", .str scope.level.value), ("scope_id", .str scope.scope_id),
    ("source_refs", strings_json scope.source_refs)]

structure RecoveryTask where
  task_id : String
  base_attempt_id : String
  base_prediction_sha256 : String
  scope : RecoveryScope
  variant : PreprocessingVariant
  parser_recipe : String
  created_at : AwareDatetime
  idempotency_key : String
  based : is_sha256 base_prediction_sha256 = true

namespace RecoveryTask

def json (task : RecoveryTask) : Json :=
  .obj [("task_id", .str task.task_id), ("base_attempt_id", .str task.base_attempt_id),
    ("base_prediction_sha256", .str task.base_prediction_sha256), ("scope", task.scope.json),
    ("variant", .str task.variant.value), ("parser_recipe", .str task.parser_recipe),
    ("created_at", datetime_json task.created_at.1),
    ("idempotency_key", .str task.idempotency_key)]

-- `first == second`; aware moments are equal where their instants are.
def same (first second : RecoveryTask) : Prop :=
  first.task_id = second.task_id ∧ first.base_attempt_id = second.base_attempt_id ∧
  first.base_prediction_sha256 = second.base_prediction_sha256 ∧
  (first.scope.level = second.scope.level ∧ first.scope.scope_id = second.scope.scope_id ∧
    first.scope.source_refs = second.scope.source_refs) ∧
  first.variant = second.variant ∧ first.parser_recipe = second.parser_recipe ∧
  first.created_at.1.instant = second.created_at.1.instant ∧
  first.idempotency_key = second.idempotency_key

instance (first second : RecoveryTask) : Decidable (first.same second) :=
  inferInstanceAs (Decidable (_ ∧ _))

theorem same_refl (task : RecoveryTask) : task.same task :=
  ⟨rfl, rfl, rfl, ⟨rfl, rfl, rfl⟩, rfl, rfl, rfl, rfl⟩

end RecoveryTask

inductive ValidationLevel
  | TRANSPORT
  | STRUCTURAL
  | NATIVE
  | AUTHORITY
  | DIFFERENTIAL
  | MULTIMODAL
  | DOWNSTREAM
deriving DecidableEq

def ValidationLevel.value : ValidationLevel → ℕ
  | TRANSPORT => 0
  | STRUCTURAL => 1
  | NATIVE => 2
  | AUTHORITY => 3
  | DIFFERENTIAL => 4
  | MULTIMODAL => 5
  | DOWNSTREAM => 6

inductive ValidationSeverity
  | INFO
  | WARNING
  | HARD
  | SECURITY
deriving DecidableEq

def ValidationSeverity.value : ValidationSeverity → String
  | INFO => "info"
  | WARNING => "warning"
  | HARD => "hard"
  | SECURITY => "security"

structure EvidenceReceipt where
  source_ref : String
  sha256 : String
  kind : String
  received : (source_ref ≠ "" ∧ kind ≠ "") ∧ is_sha256 sha256 = true

def EvidenceReceipt.json (receipt : EvidenceReceipt) : Json :=
  .obj [("source_ref", .str receipt.source_ref), ("sha256", .str receipt.sha256),
    ("kind", .str receipt.kind)]

structure ValidationFinding where
  level : ValidationLevel
  code : String
  severity : ValidationSeverity
  evidence : List EvidenceReceipt
  detail : String := ""
  concise : (code ≠ "" ∧ code.length ≤ 100) ∧ evidence ≠ [] ∧ detail.length ≤ 500

def ValidationFinding.json (finding : ValidationFinding) : Json :=
  .obj [("level", .int finding.level.value), ("code", .str finding.code),
    ("severity", .str finding.severity.value),
    ("evidence", .arr (finding.evidence.map EvidenceReceipt.json)),
    ("detail", .str finding.detail)]

structure LevelResult where
  level : ValidationLevel
  required : Bool
  passed : Bool
  reason_codes : List String
  evidence : List EvidenceReceipt

def LevelResult.json (result : LevelResult) : Json :=
  .obj [("level", .int result.level.value), ("required", .bool result.required),
    ("passed", .bool result.passed), ("reason_codes", strings_json result.reason_codes),
    ("evidence", .arr (result.evidence.map EvidenceReceipt.json))]

structure ValidationResult where
  passed : Bool
  hard_failure_count : ℕ
  results : List LevelResult
  findings : List ValidationFinding
  digest : String

def ValidationResult.json (result : ValidationResult) : Json :=
  .obj [("passed", .bool result.passed), ("hard_failure_count", .int result.hard_failure_count),
    ("results", .arr (result.results.map LevelResult.json)),
    ("findings", .arr (result.findings.map ValidationFinding.json)),
    ("digest", .str result.digest)]

structure LineageEdge where
  source_id : String
  derived_id : String
deriving DecidableEq

def LineageEdge.json (edge : LineageEdge) : Json :=
  .obj [("source_id", .str edge.source_id), ("derived_id", .str edge.derived_id)]

section Impact

-- The children of an id that no one has met yet.
def fresh_children (edges : List LineageEdge) (seen : List String) (current : String) :
    List String :=
  fromkeys ((((edges.filter (fun edge => edge.source_id = current)).map
    LineageEdge.derived_id).insertionSort (· ≤ ·)).filter (· ∉ seen))

-- Each turn takes one id out of the queue.
def widen (edges : List LineageEdge) : ℕ → List String → List String → List String
  | 0, _, seen => seen
  | _ + 1, [], seen => seen
  | turns + 1, current :: queue, seen =>
      let children := fresh_children edges seen current
      widen edges turns (queue ++ children) (seen ++ children)

-- An id comes into the queue as a changed one or by an edge, so the turns suffice.
def impacted_descendants (changed_ids : List String) (edges : List LineageEdge) : List String :=
  let seen := widen edges (changed_ids.length + edges.length) (changed_ids.insertionSort (· ≤ ·))
    (fromkeys changed_ids)
  (seen.filter (· ∉ changed_ids)).insertionSort (· ≤ ·)

end Impact

structure RecoveryCandidate where
  task : RecoveryTask
  repair_attempt_id : String
  prediction_sha256 : String
  diff_sha256 : String
  validation : ValidationResult
  source_evidence : List EvidenceReceipt
  base_independent_family : String
  repair_independent_family : String
  lineage_edges : List LineageEdge := []
  hashed : is_sha256 prediction_sha256 = true ∧ is_sha256 diff_sha256 = true
  families : base_independent_family ≠ "" ∧ repair_independent_family ≠ ""

def RecoveryCandidate.json (candidate : RecoveryCandidate) : Json :=
  .obj [("task", candidate.task.json), ("repair_attempt_id", .str candidate.repair_attempt_id),
    ("prediction_sha256", .str candidate.prediction_sha256),
    ("diff_sha256", .str candidate.diff_sha256), ("validation", candidate.validation.json),
    ("source_evidence", .arr (candidate.source_evidence.map EvidenceReceipt.json)),
    ("base_independent_family", .str candidate.base_independent_family),
    ("repair_independent_family", .str candidate.repair_independent_family),
    ("lineage_edges", .arr (candidate.lineage_edges.map LineageEdge.json))]

structure RecoveryDecision where
  task_id : String
  accepted : Bool
  state : VerificationState
  selected_attempt_id : Option String
  base_prediction_sha256 : String
  repaired_prediction_sha256 : Option String
  reason_codes : List String
  decision_sha256 : String
  impacted_object_ids : List String := []
deriving DecidableEq

inductive RecoveryFault
  | fault (raised : Fault)
  | recovery_conflict (message : String)
deriving DecidableEq

structure RecoveryPlanner where
  _tasks_by_key : Dict String RecoveryTask := .empty
  _tasks_by_id : Dict String RecoveryTask := .empty
  _decisions : Dict String (String × RecoveryDecision) := .empty
  _events : Option EventJournal := none

namespace RecoveryPlanner

abbrev Call (α : Type) : Type := Method RecoveryPlanner RecoveryFault α

-- `_MINIMUM_SCOPE`
def MINIMUM_SCOPE : List (String × RegionLevel) :=
  [("P01", .PAGE), ("page_coverage_mismatch", .PAGE), ("B01", .REGION),
    ("visible_region_missing", .REGION), ("T01", .ROW), ("bottom_row_omission", .ROW),
    ("row_omission", .ROW), ("table_cut_detected", .ROW), ("T02", .ROW),
    ("middle_row_omission", .ROW), ("T03", .TABLE), ("extra_rows", .TABLE), ("T04", .TABLE),
    ("wrong_table", .TABLE), ("native_heading_mismatch", .TABLE), ("T05", .CELL),
    ("table_column_shift", .CELL), ("native_object_count_mismatch", .TABLE), ("N01", .CELL),
    ("digit_mutation", .CELL), ("native_numeric_mismatch", .CELL),
    ("authority_numeric_mismatch", .CELL), ("N02", .CELL), ("sign_scale_error", .CELL),
    ("authority_dimension_mismatch", .CELL), ("R01", .REGION), ("reading_order_invalid", .REGION),
    ("visual_hierarchy_invalid", .REGION), ("C01", .PAGE_PAIR), ("cross_page_split", .PAGE_PAIR),
    ("F01", .REGION), ("formula_corruption", .REGION), ("G01", .REGION),
    ("grounding_mismatch", .REGION), ("bbox_invalid", .REGION),
    ("source_coverage_incomplete", .REGION), ("source_link_invalid", .REGION),
    ("caption_missing", .REGION), ("H01", .REGION), ("hallucination", .REGION),
    ("unsupported_content", .REGION), ("differential_disagreement", .REGION), ("H02", .REGION),
    ("repetition_detected", .REGION), ("K01", .REGION), ("note_split_error", .REGION),
    ("K02", .REGION), ("wrong_entity_merge", .REGION), ("K03", .REGION),
    ("unsupported_relation", .REGION)]

-- `(_ORDER[scope.level], scope.scope_id)` comes first.
def before (first second : RecoveryScope) : Bool :=
  first.level.order < second.level.order ||
    first.level.order = second.level.order && first.scope_id < second.scope_id

def smallest_scope (scopes : List RecoveryScope) : Except String RecoveryScope := do
  refuse_if (scopes = []) "recovery requires at least one source-localized scope"
  refuse_if (¬(scopes.map RecoveryScope.scope_id).Nodup) "recovery scope ids must be unique"
  match firstMin before scopes with
  | some scope => .ok scope
  | none => .error "recovery requires at least one source-localized scope"

def minimum_valid_scope (failure_codes : Finset String) (scopes : List RecoveryScope) :
    Except String RecoveryScope := do
  refuse_if (scopes = []) "recovery requires at least one source-localized scope"
  let minimum_rank := failure_codes.sup fun code =>
    ((MINIMUM_SCOPE.lookup code).map RegionLevel.order).getD 0
  let eligible := scopes.filter fun scope => minimum_rank ≤ scope.level.order
  refuse_if (eligible = []) "recovery scopes do not satisfy the failure minimum scope"
  smallest_scope eligible

-- `failure_codes & {...}` is not empty.
def meets (failure_codes : Finset String) (codes : List String) : Bool :=
  codes.any (· ∈ failure_codes)

def choose_variant (failure_codes : Finset String) (scope : RecoveryScope) :
    PreprocessingVariant :=
  let found := meets failure_codes
  if found ["P01", "page_coverage_mismatch"] then .PAGE_RERENDER_ALT_PARSER
  else if found ["B01", "visible_region_missing"] then .REGION_CROP
  else if found ["T01", "bottom_row_omission", "row_omission", "table_cut_detected"] then
    .OVERLAPPING_TILE
  else if found ["T02", "middle_row_omission"] then .ROW_BAND_TILE
  else if found ["T03", "H01", "H02", "extra_rows", "hallucination", "unsupported_content",
      "differential_disagreement", "repetition_detected"] then .CANDIDATE_REJECT
  else if found ["T04", "wrong_table", "native_heading_mismatch"] then .TARGET_SELECTION
  else if found ["T05", "table_column_shift", "native_object_count_mismatch"] then .CELL_GEOMETRY
  else if found ["N01", "digit_mutation", "native_numeric_mismatch",
      "authority_numeric_mismatch"] then .NATIVE_AUTHORITY_RECONSTRUCTION
  else if found ["N02", "sign_scale_error", "authority_dimension_mismatch"] then .CANONICAL_NUMERIC
  else if found ["R01", "reading_order_invalid", "visual_hierarchy_invalid"] then
    .LAYOUT_SPECIALIST
  else if found ["C01", "cross_page_split"] then .PAGE_PAIR_STITCH
  else if found ["F01", "formula_corruption"] then .FORMULA_SPECIALIST
  else if found ["G01", "grounding_mismatch", "bbox_invalid", "source_coverage_incomplete",
      "source_link_invalid", "caption_missing"] then .SOURCE_REMAP
  else if found ["K01", "note_split_error"] then .NOTE_RECOMPILE
  else if found ["K02", "wrong_entity_merge"] then .ENTITY_SPLIT
  else if found ["K03", "unsupported_relation"] then .RELATION_REMOVE
  else if found ["authority_numeric_mismatch", "authority_dimension_mismatch"] then
    .AUTHORITY_MAPPING
  else if found ["table_column_shift", "table_cut_detected", "native_object_count_mismatch"] ∨
      scope.level ∈ [RegionLevel.CELL, .ROW, .TABLE] then .CELL_GEOMETRY
  else if found ["numeric_character_ambiguity", "native_numeric_mismatch"] then .OCR_EXACT
  else if found ["cropped_region", "caption_missing", "bbox_invalid",
      "source_coverage_incomplete"] then .CROP_MARGIN
  else if found ["rotation_detected"] then .ROTATE
  else if found ["photographed_low_quality"] then .DEWARP
  else if found ["reading_order_invalid", "visual_hierarchy_invalid"] then .TILE
  else .OVERLAPPING_TILE

structure PlanArguments where
  base_attempt_id : String
  base_prediction_sha256 : String
  scopes : List RecoveryScope
  failure_codes : Finset String
  parser_recipe : String
  created_at : Datetime
  idempotency_key : String

section Calls

variable (hasher : Hasher)

def identity (base_attempt_id base_prediction_sha256 : String) (scope : RecoveryScope)
    (variant : PreprocessingVariant) (parser_recipe : String) : String :=
  canonical_sha256 hasher (.obj [("base_attempt_id", .str base_attempt_id),
    ("base_prediction_sha256", .str base_prediction_sha256), ("scope", scope.json),
    ("variant", .str variant.value), ("parser_recipe", .str parser_recipe)])

def identity_of (task : RecoveryTask) : String :=
  identity hasher task.base_attempt_id task.base_prediction_sha256 task.scope task.variant
    task.parser_recipe

-- The checks before the lock, and the identity of what is planned.
def prepared (plan : PlanArguments) :
    Except RecoveryFault (RecoveryScope × PreprocessingVariant × String) := do
  let scope ← (minimum_valid_scope plan.failure_codes plan.scopes).mapError
    fun message => .fault (.value_error message)
  let variant := choose_variant plan.failure_codes scope
  (require_sha256 plan.base_prediction_sha256 "base_prediction_sha256").mapError
    fun message => .fault (.value_error message)
  .ok (scope, variant, identity hasher plan.base_attempt_id plan.base_prediction_sha256 scope variant
    plan.parser_recipe)

-- The constructor's checks.
def task_of (plan : PlanArguments) (scope : RecoveryScope) (variant : PreprocessingVariant)
    (identity : String) : Except RecoveryFault RecoveryTask :=
  if based : is_sha256 plan.base_prediction_sha256 = true then
    match Datetime.aware? plan.created_at with
    | none => .error (.fault (.value_error "recovery task time must be timezone-aware"))
    | some created_at => .ok {
        task_id := stable_id hasher "recovery" [.str plan.base_attempt_id, .str scope.scope_id,
          .str variant.value, .str identity]
        base_attempt_id := plan.base_attempt_id
        base_prediction_sha256 := plan.base_prediction_sha256
        scope
        variant
        parser_recipe := plan.parser_recipe
        created_at
        idempotency_key := plan.idempotency_key
        based }
  else .error (.fault
    (.value_error "base_prediction_sha256 must be a lowercase 64-character sha256"))

def emit (event_type aggregate_id : String) (payload : List (String × Json))
    (occurred_at : Datetime) (idempotency_key : String) : Call Unit := do
  let planner ← self
  match planner._events with
  | none => returns ()
  | some journal => do
      let next ← check ((journal.append hasher event_type aggregate_id payload occurred_at
        idempotency_key).mapError .fault)
      assign (fun planner => { planner with _events := some next })

def announce (task : RecoveryTask) : Call Unit := do
  emit hasher "recovery.region.requested.v1" task.task_id
    [("base_attempt_id", .str task.base_attempt_id), ("scope_id", .str task.scope.scope_id),
      ("scope_level", .str task.scope.level.value), ("variant", .str task.variant.value)]
    task.created_at.1 s!"recovery-requested:{task.task_id}"
  emit hasher "recovery.planned.v1" task.task_id
    [("scope_id", .str task.scope.scope_id), ("scope_level", .str task.scope.level.value),
      ("variant", .str task.variant.value), ("parser_recipe", .str task.parser_recipe)]
    task.created_at.1 s!"recovery-planned:{task.task_id}"
  emit hasher "recovery.started.v1" task.task_id
    [("base_attempt_id", .str task.base_attempt_id)]
    task.created_at.1 s!"recovery-started:{task.task_id}"

def register (task : RecoveryTask) : Call Unit :=
  assign (fun planner => { planner with
    _tasks_by_key := planner._tasks_by_key.set task.idempotency_key task
    _tasks_by_id := planner._tasks_by_id.set task.task_id task })

def plan (arguments : PlanArguments) : Call RecoveryTask := do
  let (scope, variant, identity) ← check (prepared hasher arguments)
  let planner ← self
  match planner._tasks_by_key.get? arguments.idempotency_key with
  | some existing => do
      require (identity_of hasher existing = identity)
        (.recovery_conflict "recovery idempotency key reused with different recovery input")
      returns existing
  | none => do
      let task ← check (task_of hasher arguments scope variant identity)
      register task
      announce hasher task
      returns task

def reasons_of (candidate : RecoveryCandidate) : List String :=
  [("recovery_validation_failed", !candidate.validation.passed),
    ("recovery_has_critical_findings", decide (candidate.validation.hard_failure_count ≠ 0)),
    ("recovery_source_evidence_missing", candidate.source_evidence.isEmpty),
    ("recovery_independent_family_missing",
      decide (candidate.base_independent_family = candidate.repair_independent_family)),
    ("recovery_produced_no_change",
      decide (candidate.prediction_sha256 = candidate.task.base_prediction_sha256)),
    ("recovery_diff_missing", decide (candidate.diff_sha256 = ""))].filterMap
      fun (code, holds) => if holds then some code else none

-- What is decided about the candidate, whoever else has decided.
def decision_of (candidate : RecoveryCandidate) : RecoveryDecision :=
  let reasons := reasons_of candidate
  let accepted := reasons.isEmpty
  let reason_codes := reasons.insertionSort (· ≤ ·)
  let impacted_object_ids :=
    if accepted then impacted_descendants [candidate.task.scope.scope_id] candidate.lineage_edges
    else []
  { task_id := candidate.task.task_id
    accepted
    state := if accepted then .AUTO_REPAIRED else .UNRESOLVED
    selected_attempt_id := if accepted then some candidate.repair_attempt_id else none
    base_prediction_sha256 := candidate.task.base_prediction_sha256
    repaired_prediction_sha256 := if accepted then some candidate.prediction_sha256 else none
    reason_codes
    decision_sha256 := canonical_sha256 hasher (.obj [("task_id", .str candidate.task.task_id),
      ("repair_attempt_id", .str candidate.repair_attempt_id), ("accepted", .bool accepted),
      ("base_prediction_sha256", .str candidate.task.base_prediction_sha256),
      ("prediction_sha256", .str candidate.prediction_sha256),
      ("diff_sha256", .str candidate.diff_sha256),
      ("validation_sha256", .str candidate.validation.digest),
      ("base_independent_family", .str candidate.base_independent_family),
      ("repair_independent_family", .str candidate.repair_independent_family),
      ("reasons", strings_json reason_codes),
      ("impacted_object_ids", strings_json impacted_object_ids)])
    impacted_object_ids }

def report (candidate : RecoveryCandidate) (decision : RecoveryDecision)
    (completed_at : Datetime) : Call Unit := do
  let task_id := candidate.task.task_id
  emit hasher "recovery.validated.v1" task_id
    [("passed", .bool candidate.validation.passed),
      ("hard_failure_count", .int candidate.validation.hard_failure_count),
      ("validation_sha256", .str candidate.validation.digest)]
    completed_at s!"recovery-validated:{task_id}"
  emit hasher (if decision.accepted then "region.verified.v1" else "region.unresolved.v1") task_id
    [("scope_id", .str candidate.task.scope.scope_id),
      ("selected_attempt_id", optional_json decision.selected_attempt_id),
      ("reason_codes", strings_json decision.reason_codes)]
    completed_at s!"recovery-region-final:{task_id}"
  emit hasher "recovery.completed.v1" task_id
    [("accepted", .bool decision.accepted), ("state", .str decision.state.value),
      ("decision_sha256", .str decision.decision_sha256)]
    completed_at s!"recovery-completed:{task_id}"

-- The second look at the decisions, under the lock again, finds what the first one found.
def accept (candidate : RecoveryCandidate) (completed_at : Datetime) : Call RecoveryDecision := do
  let planner ← self
  require (∃ registered ∈ planner._tasks_by_id.get? candidate.task.task_id,
      registered.same candidate.task)
    (.recovery_conflict "recovery candidate references an unknown task")
  let input_digest := canonical_sha256 hasher candidate.json
  match planner._decisions.get? candidate.task.task_id with
  | some (existing_digest, decision) => do
      require (existing_digest = input_digest) (.recovery_conflict
        "recovery task already completed with another immutable candidate")
      returns decision
  | none => do
      let decision := decision_of hasher candidate
      report hasher candidate decision completed_at
      assign (fun planner => { planner with
        _decisions := planner._decisions.set candidate.task.task_id (input_digest, decision) })
      returns decision

end Calls

end RecoveryPlanner

end KnowledgeCompiler.Parallel
