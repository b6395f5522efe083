import KnowledgeCompiler.Lib.Binary64.Sum
import KnowledgeCompiler.Lib.Dict
import Mathlib.Data.List.Sort

namespace KnowledgeCompiler.Inspection

open Lib

inductive FailureCode
  | F0_SOURCE_CORRUPT
  | F1_SOURCE_UNSUPPORTED
  | F2_UPLOAD_STORAGE
  | F3_QUEUE_TIMEOUT
  | F4_WORKER_LOST
  | F5_MODEL_INIT
  | F6_MODEL_OOM
  | F7_PARSER_EXCEPTION
  | F8_EMPTY_OUTPUT
  | F9_SUSPICIOUSLY_SHORT
  | F10_DUPLICATED_CONTENT
  | F11_GARBLED_TEXT
  | F12_READING_ORDER
  | F13_TABLE_STRUCTURE
  | F14_FORMULA
  | F15_FIGURE_CAPTION
  | F16_CROSS_PAGE
  | F17_NATIVE_RENDER_DISAGREEMENT
  | F18_PARSER_DISAGREEMENT
  | F19_ENTITY_AMBIGUITY
  | F20_AUTHORITY_CONFLICT
  | F21_TEMPORAL_UNCERTAINTY
  | F22_LINEAGE_BROKEN
  | F23_DEPENDENCY_CYCLE_OR_EXPLOSION
  | F24_RECOMPILE_DIVERGENCE
  | F25_PERMISSION_VIOLATION
  | F26_STALE_WORLD_STATE
  | F27_COST_BUDGET_EXCEEDED
  | F28_SECURITY_BLOCKED
  | F29_PROMPT_INJECTION_SUSPECTED
  | F30_DATA_POISONING_OR_POLICY_SMUGGLING
  | F31_SCHEMA_INCOMPATIBLE
  | F32_MODEL_OR_CONTAINER_UNVERIFIED
  | F33_LICENSE_NOT_APPROVED
  | F34_EVENT_DUPLICATE_OR_OUT_OF_ORDER
  | F35_WORLD_STATE_PUBLISH_RACE
  | F36_RLS_OR_TENANT_CONTEXT_MISSING
  | F37_RETRIEVAL_FILTER_RECALL_FAILURE
  | F38_DELETE_OR_RETENTION_INCOMPLETE
  | F39_BACKUP_RESTORE_VALIDATION_FAILED
  | F40_CONNECTOR_PERMISSION_DRIFT
  | F41_EMBEDDING_VERSION_MIXED
  | F42_MODEL_UPGRADE_REGRESSION
  | F43_HUMAN_REVIEW_STALE_OR_CONFLICTED
  | F44_EXTERNAL_REFERENCE_UNAVAILABLE
  | F45_ACTIVE_CONTENT_OR_MALWARE
  | F46_ARTIFACT_CHECKSUM_MISMATCH
  | F47_PROVENANCE_SIGNATURE_INVALID
  | F48_RATE_LIMIT_OR_ABUSE
deriving DecidableEq

namespace FailureCode

def value : FailureCode → String
  | F0_SOURCE_CORRUPT => "F0_SOURCE_CORRUPT"
  | F1_SOURCE_UNSUPPORTED => "F1_SOURCE_UNSUPPORTED"
  | F2_UPLOAD_STORAGE => "F2_UPLOAD_STORAGE"
  | F3_QUEUE_TIMEOUT => "F3_QUEUE_TIMEOUT"
  | F4_WORKER_LOST => "F4_WORKER_LOST"
  | F5_MODEL_INIT => "F5_MODEL_INIT"
  | F6_MODEL_OOM => "F6_MODEL_OOM"
  | F7_PARSER_EXCEPTION => "F7_PARSER_EXCEPTION"
  | F8_EMPTY_OUTPUT => "F8_EMPTY_OUTPUT"
  | F9_SUSPICIOUSLY_SHORT => "F9_SUSPICIOUSLY_SHORT"
  | F10_DUPLICATED_CONTENT => "F10_DUPLICATED_CONTENT"
  | F11_GARBLED_TEXT => "F11_GARBLED_TEXT"
  | F12_READING_ORDER => "F12_READING_ORDER"
  | F13_TABLE_STRUCTURE => "F13_TABLE_STRUCTURE"
  | F14_FORMULA => "F14_FORMULA"
  | F15_FIGURE_CAPTION => "F15_FIGURE_CAPTION"
  | F16_CROSS_PAGE => "F16_CROSS_PAGE"
  | F17_NATIVE_RENDER_DISAGREEMENT => "F17_NATIVE_RENDER_DISAGREEMENT"
  | F18_PARSER_DISAGREEMENT => "F18_PARSER_DISAGREEMENT"
  | F19_ENTITY_AMBIGUITY => "F19_ENTITY_AMBIGUITY"
  | F20_AUTHORITY_CONFLICT => "F20_AUTHORITY_CONFLICT"
  | F21_TEMPORAL_UNCERTAINTY => "F21_TEMPORAL_UNCERTAINTY"
  | F22_LINEAGE_BROKEN => "F22_LINEAGE_BROKEN"
  | F23_DEPENDENCY_CYCLE_OR_EXPLOSION => "F23_DEPENDENCY_CYCLE_OR_EXPLOSION"
  | F24_RECOMPILE_DIVERGENCE => "F24_RECOMPILE_DIVERGENCE"
  | F25_PERMISSION_VIOLATION => "F25_PERMISSION_VIOLATION"
  | F26_STALE_WORLD_STATE => "F26_STALE_WORLD_STATE"
  | F27_COST_BUDGET_EXCEEDED => "F27_COST_BUDGET_EXCEEDED"
  | F28_SECURITY_BLOCKED => "F28_SECURITY_BLOCKED"
  | F29_PROMPT_INJECTION_SUSPECTED => "F29_PROMPT_INJECTION_SUSPECTED"
  | F30_DATA_POISONING_OR_POLICY_SMUGGLING => "F30_DATA_POISONING_OR_POLICY_SMUGGLING"
  | F31_SCHEMA_INCOMPATIBLE => "F31_SCHEMA_INCOMPATIBLE"
  | F32_MODEL_OR_CONTAINER_UNVERIFIED => "F32_MODEL_OR_CONTAINER_UNVERIFIED"
  | F33_LICENSE_NOT_APPROVED => "F33_LICENSE_NOT_APPROVED"
  | F34_EVENT_DUPLICATE_OR_OUT_OF_ORDER => "F34_EVENT_DUPLICATE_OR_OUT_OF_ORDER"
  | F35_WORLD_STATE_PUBLISH_RACE => "F35_WORLD_STATE_PUBLISH_RACE"
  | F36_RLS_OR_TENANT_CONTEXT_MISSING => "F36_RLS_OR_TENANT_CONTEXT_MISSING"
  | F37_RETRIEVAL_FILTER_RECALL_FAILURE => "F37_RETRIEVAL_FILTER_RECALL_FAILURE"
  | F38_DELETE_OR_RETENTION_INCOMPLETE => "F38_DELETE_OR_RETENTION_INCOMPLETE"
  | F39_BACKUP_RESTORE_VALIDATION_FAILED => "F39_BACKUP_RESTORE_VALIDATION_FAILED"
  | F40_CONNECTOR_PERMISSION_DRIFT => "F40_CONNECTOR_PERMISSION_DRIFT"
  | F41_EMBEDDING_VERSION_MIXED => "F41_EMBEDDING_VERSION_MIXED"
  | F42_MODEL_UPGRADE_REGRESSION => "F42_MODEL_UPGRADE_REGRESSION"
  | F43_HUMAN_REVIEW_STALE_OR_CONFLICTED => "F43_HUMAN_REVIEW_STALE_OR_CONFLICTED"
  | F44_EXTERNAL_REFERENCE_UNAVAILABLE => "F44_EXTERNAL_REFERENCE_UNAVAILABLE"
  | F45_ACTIVE_CONTENT_OR_MALWARE => "F45_ACTIVE_CONTENT_OR_MALWARE"
  | F46_ARTIFACT_CHECKSUM_MISMATCH => "F46_ARTIFACT_CHECKSUM_MISMATCH"
  | F47_PROVENANCE_SIGNATURE_INVALID => "F47_PROVENANCE_SIGNATURE_INVALID"
  | F48_RATE_LIMIT_OR_ABUSE => "F48_RATE_LIMIT_OR_ABUSE"

end FailureCode

def SECURITY_CODES : List FailureCode :=
  [.F28_SECURITY_BLOCKED, .F29_PROMPT_INJECTION_SUSPECTED, .F30_DATA_POISONING_OR_POLICY_SMUGGLING,
    .F45_ACTIVE_CONTENT_OR_MALWARE]

inductive RecoveryLevel
  | L0_ACCEPT
  | L1_SAFE_RERENDER
  | L2_SAME_PARSER_VARIATION
  | L3_ALTERNATE_PARSER_FAMILY
  | L4_CONDITIONAL_ENSEMBLE
  | L5_STRONGER_VERIFIER
  | L6_DOCUMENT_JOINT_RECONCILE
  | L7_HUMAN_REVIEW
  | L8_FAIL_CLOSED
deriving DecidableEq

namespace RecoveryLevel

def value : RecoveryLevel → ℕ
  | L0_ACCEPT => 0
  | L1_SAFE_RERENDER => 1
  | L2_SAME_PARSER_VARIATION => 2
  | L3_ALTERNATE_PARSER_FAMILY => 3
  | L4_CONDITIONAL_ENSEMBLE => 4
  | L5_STRONGER_VERIFIER => 5
  | L6_DOCUMENT_JOINT_RECONCILE => 6
  | L7_HUMAN_REVIEW => 7
  | L8_FAIL_CLOSED => 8

def name : RecoveryLevel → String
  | L0_ACCEPT => "L0_ACCEPT"
  | L1_SAFE_RERENDER => "L1_SAFE_RERENDER"
  | L2_SAME_PARSER_VARIATION => "L2_SAME_PARSER_VARIATION"
  | L3_ALTERNATE_PARSER_FAMILY => "L3_ALTERNATE_PARSER_FAMILY"
  | L4_CONDITIONAL_ENSEMBLE => "L4_CONDITIONAL_ENSEMBLE"
  | L5_STRONGER_VERIFIER => "L5_STRONGER_VERIFIER"
  | L6_DOCUMENT_JOINT_RECONCILE => "L6_DOCUMENT_JOINT_RECONCILE"
  | L7_HUMAN_REVIEW => "L7_HUMAN_REVIEW"
  | L8_FAIL_CLOSED => "L8_FAIL_CLOSED"

end RecoveryLevel

inductive QualityMode
  | FAST
  | BALANCED
  | VERIFIED
deriving DecidableEq

namespace QualityMode

def value : QualityMode → String
  | FAST => "FAST"
  | BALANCED => "BALANCED"
  | VERIFIED => "VERIFIED"

-- `_MODE_CEILING`
def max_level : QualityMode → RecoveryLevel
  | FAST => .L2_SAME_PARSER_VARIATION
  | BALANCED => .L4_CONDITIONAL_ENSEMBLE
  | VERIFIED => .L7_HUMAN_REVIEW

def allows_review (mode : QualityMode) : Bool := mode = VERIFIED

end QualityMode

inductive RecoveryOutcome
  | APPLY
  | BLOCK_SECURITY
  | HUMAN_REVIEW
  | FAIL_CLOSED
  | PAUSED_DEPENDENCY
  | BUDGET_EXHAUSTED
deriving DecidableEq

structure RecoveryPolicy where
  policy_id : String
  code : FailureCode
  level : RecoveryLevel
  action : String
  estimated_gpu_seconds : Binary64 := .finite 0
  estimated_cost_units : Binary64 := .finite 0
deriving DecidableEq

def RecoveryPolicy.signature (policy : RecoveryPolicy) : String :=
  policy.code.value ++ "/" ++ policy.level.name ++ "/" ++ policy.action

structure RecoveryAttempt where
  policy_signature : String
  failure_signature : String
  succeeded : Bool := false
  gpu_seconds : Binary64 := .finite 0
  cost_units : Binary64 := .finite 0
deriving DecidableEq

structure RecoveryBudget where
  max_attempts_per_page : ℤ := 4
  max_gpu_seconds : Binary64 := .finite 600
  max_cost_units : Binary64 := .finite 100
  stop_on_same_failure_signature : Bool := true
deriving DecidableEq

namespace RecoveryBudget

def spent (history : List RecoveryAttempt) : Binary64 × Binary64 :=
  (Binary64.sum (history.map RecoveryAttempt.gpu_seconds),
    Binary64.sum (history.map RecoveryAttempt.cost_units))

def can_afford (budget : RecoveryBudget) (policy : RecoveryPolicy) (history : List RecoveryAttempt) :
    Bool :=
  if budget.max_attempts_per_page ≤ history.length then false
  else
    ((spent history).1.add policy.estimated_gpu_seconds).le budget.max_gpu_seconds &&
      ((spent history).2.add policy.estimated_cost_units).le budget.max_cost_units

end RecoveryBudget

structure RecoveryDecision where
  outcome : RecoveryOutcome
  policy : Option RecoveryPolicy
  reason : String
deriving DecidableEq

structure PolicyRegistry where
  by_code : Dict FailureCode (List RecoveryPolicy)

namespace PolicyRegistry

-- `(p.level, p.policy_id)` of the one is no greater than that of the other.
def no_later (first second : RecoveryPolicy) : Prop :=
  first.level.value < second.level.value ∨
    first.level.value = second.level.value ∧ first.policy_id ≤ second.policy_id

instance : DecidableRel no_later := fun _ _ => instDecidableOr

def for_code (registry : PolicyRegistry) (code : FailureCode) : List RecoveryPolicy :=
  (registry.by_code.get? code).getD []

def add (registry : PolicyRegistry) (policy : RecoveryPolicy) : PolicyRegistry where
  by_code := registry.by_code.set policy.code
    ((registry.for_code policy.code ++ [policy]).insertionSort no_later)

-- `PolicyRegistry(policies)`
def ofPolicies (policies : List RecoveryPolicy) : PolicyRegistry := policies.foldl add ⟨.empty⟩

end PolicyRegistry

def _exhausted (mode : QualityMode) (reason : String) : RecoveryDecision :=
  if mode.allows_review then { outcome := .HUMAN_REVIEW, policy := none, reason }
  else { outcome := .FAIL_CLOSED, policy := none, reason }

-- `policy.signature in tried`
def tried (history : List RecoveryAttempt) (policy : RecoveryPolicy) : Bool :=
  history.any (fun attempt => !attempt.succeeded && attempt.policy_signature = policy.signature)

-- The rungs that the ladder does not pass over.
def rungs (registry : PolicyRegistry) (mode : QualityMode) (code : FailureCode)
    (history : List RecoveryAttempt) : List RecoveryPolicy :=
  (registry.for_code code).filter
    (fun policy => policy.level.value ≤ mode.max_level.value && !tried history policy)

def select_recovery (code : FailureCode) (failure_signature : String) (registry : PolicyRegistry)
    (history : List RecoveryAttempt) (mode : QualityMode) (budget : Option RecoveryBudget)
    (circuit_open : Bool) : RecoveryDecision :=
  let limits := budget.getD {}
  let repeats := history.countP (fun attempt => attempt.failure_signature = failure_signature)
  if code ∈ SECURITY_CODES then
    { outcome := .BLOCK_SECURITY
      policy := none
      reason := code.value ++ " is a security failure; retrying a poisoned " ++
        "document is running it again" }
  else if circuit_open then
    { outcome := .PAUSED_DEPENDENCY
      policy := none
      reason := "a dependency circuit is open; queued work waits rather than " ++
        "buying capacity against a provider-wide failure" }
  else if limits.stop_on_same_failure_signature ∧ 2 ≤ repeats then
    _exhausted mode ("the same failure signature came back " ++ toString repeats ++
      " times; another attempt at the same thing is a retry storm, not a recovery")
  else
    match (rungs registry mode code history).find? (limits.can_afford · history) with
    | some policy =>
        { outcome := .APPLY
          policy := some policy
          reason := policy.level.name ++ " addresses " ++ code.value ++ " within the " ++
            mode.value ++ " ceiling and the remaining budget" }
    | none =>
        if rungs registry mode code history ≠ [] then
          { outcome := .BUDGET_EXHAUSTED
            policy := none
            reason := "a rung for " ++ code.value ++ " exists but the page budget is spent; " ++
              "the result is not downgraded silently" }
        else if registry.for_code code = [] then
          _exhausted mode ("no recovery rung is registered for " ++ code.value ++
            "; a failure that is detected and has no remedy must not resolve as success")
        else
          _exhausted mode ("every rung for " ++ code.value ++ " within the " ++ mode.value ++
            " ceiling has been tried without success")

end KnowledgeCompiler.Inspection
