import KnowledgeCompiler.Lib.Datetime
import KnowledgeCompiler.Lib.Decimal
import KnowledgeCompiler.Lib.Json
import KnowledgeCompiler.Lib.Sha256
import KnowledgeCompiler.Lib.Utf8

namespace KnowledgeCompiler.Parallel

open Lib

section Hashing

variable (hasher : Hasher)

def canonical_json (value : Json) : List Char := Json.dumps value

def canonical_sha256 (value : Json) : String := hasher.hexdigest (Utf8.encode (canonical_json value))

-- Every caller's namespace is a constant that passes the check on it.
def stable_id (identifier_space : String) (parts : List Json) : String :=
  let digest := canonical_sha256 hasher
    (.obj [("namespace", .str identifier_space), ("parts", .arr parts)])
  identifier_space ++ "_" ++ String.ofList (digest.toList.take 32)

end Hashing

def is_sha256 (value : String) : Bool :=
  value.length = 64 && value.toList.all (fun character => character ∈ "0123456789abcdef".toList)

-- `if holds: raise error`
def refuse_if {ε : Type} (holds : Prop) [Decidable holds] (error : ε) : Except ε Unit :=
  if holds then .error error else .ok ()

theorem refuse_if_ok {ε : Type} {holds : Prop} [Decidable holds] {error : ε} (hnot : ¬holds) :
    refuse_if holds error = .ok () := if_neg hnot

theorem refuse_if_eq_ok_iff {ε : Type} {holds : Prop} [Decidable holds] {error : ε} {value : Unit} :
    refuse_if holds error = .ok value ↔ ¬holds := by
  unfold refuse_if
  split
  · rename_i hholds
    simp [hholds]
  · rename_i hnot
    simp [hnot]

def require_sha256 (value field_name : String) : Except String Unit :=
  refuse_if (is_sha256 value = false) s!"{field_name} must be a lowercase 64-character sha256"

def require_identifier (value field_name : String) : Except String Unit :=
  refuse_if (value = "" ∨ 200 < value.length ∨ value.toList.any Text.isSpace = true)
    s!"{field_name} must be a non-empty identifier without whitespace"

def require_aware (value : Datetime) (field_name : String) : Except String Unit :=
  refuse_if (value.utcoffset.isNone = true) s!"{field_name} must be timezone-aware"

def AwareDatetime : Type := { moment : Datetime // moment.utcoffset.isSome = true }

instance : DecidableEq AwareDatetime := inferInstanceAs (DecidableEq { _moment : Datetime // _ })

def Datetime.aware? (moment : Datetime) : Option AwareDatetime :=
  if h : moment.utcoffset.isSome = true then some ⟨moment, h⟩ else none

-- How the canonical encoder writes what is no JSON value of its own.

def datetime_json (value : Datetime) : Json := .str (String.ofList value.isoformat_microseconds)

def decimal_json (value : Decimal) : Json := .str (String.ofList value.text)

def strings_json (values : List String) : Json := .arr (values.map .str)

def optional_json : Option String → Json
  | none => .null
  | some value => .str value

inductive AttemptStatus
  | CREATED
  | QUEUED
  | RUNNING
  | OUTPUT_RECEIVED
  | VALIDATING
  | ACCEPTED
  | REJECTED
  | RETRYABLE_FAILED
  | TERMINAL_FAILED
  | SUPERSEDED
  | QUARANTINED
deriving DecidableEq

def AttemptStatus.value : AttemptStatus → String
  | CREATED => "CREATED"
  | QUEUED => "QUEUED"
  | RUNNING => "RUNNING"
  | OUTPUT_RECEIVED => "OUTPUT_RECEIVED"
  | VALIDATING => "VALIDATING"
  | ACCEPTED => "ACCEPTED"
  | REJECTED => "REJECTED"
  | RETRYABLE_FAILED => "RETRYABLE_FAILED"
  | TERMINAL_FAILED => "TERMINAL_FAILED"
  | SUPERSEDED => "SUPERSEDED"
  | QUARANTINED => "QUARANTINED"

inductive AttemptKind
  | PRIMARY
  | RETRY
  | RECOVERY
  | HEDGE
  | STRAGGLER
  | SHADOW
  | CHALLENGER
deriving DecidableEq

def AttemptKind.value : AttemptKind → String
  | PRIMARY => "primary"
  | RETRY => "retry"
  | RECOVERY => "recovery"
  | HEDGE => "hedge"
  | STRAGGLER => "straggler"
  | SHADOW => "shadow"
  | CHALLENGER => "challenger"

inductive VerificationState
  | VERIFIED
  | AUTHORITY_VERIFIED
  | CROSS_MODEL_VERIFIED
  | AUTO_REPAIRED
  | UNRESOLVED
  | QUARANTINED
  | FAILED
deriving DecidableEq

def VerificationState.value : VerificationState → String
  | VERIFIED => "verified"
  | AUTHORITY_VERIFIED => "authority_verified"
  | CROSS_MODEL_VERIFIED => "cross_model_verified"
  | AUTO_REPAIRED => "auto_repaired"
  | UNRESOLVED => "unresolved"
  | QUARANTINED => "quarantined"
  | FAILED => "failed"

def ACCEPTED_VERIFICATION_STATES : List VerificationState :=
  [.VERIFIED, .AUTHORITY_VERIFIED, .CROSS_MODEL_VERIFIED, .AUTO_REPAIRED]

inductive PageClass
  | NATIVE_CLEAN
  | NORMAL_SCAN
  | COMPLEX_LAYOUT
  | INDEPENDENT
  | LONG_TABLE
  | FORMULA_HEAVY
  | PHOTOGRAPHED
  | OFFICE_STRUCTURED
deriving DecidableEq

-- The proofs are what `__post_init__` checks; a NaN is refused by the comparison itself.
structure CostRecord where
  gpu_seconds : Decimal := .finite false 0 0
  provider_cost : Decimal := .finite false 0 0
  user_credits : Decimal := .finite false 0 0
  duplicate_compute : Bool := false
  nonnegative : [gpu_seconds, provider_cost, user_credits].all (·.ltZero = some false) := by decide
  duplicate_free : duplicate_compute = true → user_credits.same (.finite false 0 0) = true := by decide

def CostRecord.same (first second : CostRecord) : Bool :=
  first.gpu_seconds.same second.gpu_seconds && first.provider_cost.same second.provider_cost &&
    first.user_credits.same second.user_credits &&
    first.duplicate_compute = second.duplicate_compute

structure AttemptFields where
  attempt_id : String
  root_attempt_id : String
  parent_attempt_id : Option String
  kind : AttemptKind
  document_id : String
  document_version_id : String
  shard_id : String
  page_ids : List String
  region_ids : List String
  parser_recipe : String
  model_revision : String
  runtime_image_digest : String
  worker_id : String
  gpu_type : String
  source_sha256 : String
  preprocessing_sha256 : String
  prompt_sha256 : String
  decoding_sha256 : String
  created_at : Datetime
deriving DecidableEq

namespace AttemptFields

-- `ParseAttempt.__post_init__`
def post_init (fields : AttemptFields) : Except String Unit := do
  require_identifier fields.attempt_id "attempt_id"
  require_identifier fields.root_attempt_id "root_attempt_id"
  require_identifier fields.document_id "document_id"
  require_identifier fields.document_version_id "document_version_id"
  require_identifier fields.shard_id "shard_id"
  require_identifier fields.parser_recipe "parser_recipe"
  require_identifier fields.model_revision "model_revision"
  require_identifier fields.runtime_image_digest "runtime_image_digest"
  require_identifier fields.worker_id "worker_id"
  require_identifier fields.gpu_type "gpu_type"
  fields.parent_attempt_id.elim (.ok ()) (require_identifier · "parent_attempt_id")
  refuse_if (fields.page_ids = [] ∧ fields.region_ids = [])
    "an attempt must target at least one page or region"
  refuse_if (¬fields.page_ids.Nodup) "attempt page_ids must be unique"
  refuse_if (¬fields.region_ids.Nodup) "attempt region_ids must be unique"
  require_sha256 fields.source_sha256 "source_sha256"
  require_sha256 fields.preprocessing_sha256 "preprocessing_sha256"
  require_sha256 fields.prompt_sha256 "prompt_sha256"
  require_sha256 fields.decoding_sha256 "decoding_sha256"
  require_aware fields.created_at "created_at"
  refuse_if (fields.parent_attempt_id.isNone ∧ fields.attempt_id ≠ fields.root_attempt_id)
    "a root attempt must identify itself as root_attempt_id"
  refuse_if (fields.parent_attempt_id.isSome ∧ fields.attempt_id = fields.root_attempt_id)
    "a child attempt cannot reuse the root attempt id"

def json (fields : AttemptFields) : Json :=
  .obj
    [("attempt_id", .str fields.attempt_id),
      ("root_attempt_id", .str fields.root_attempt_id),
      ("parent_attempt_id", optional_json fields.parent_attempt_id),
      ("kind", .str fields.kind.value),
      ("document_id", .str fields.document_id),
      ("document_version_id", .str fields.document_version_id),
      ("shard_id", .str fields.shard_id),
      ("page_ids", strings_json fields.page_ids),
      ("region_ids", strings_json fields.region_ids),
      ("parser_recipe", .str fields.parser_recipe),
      ("model_revision", .str fields.model_revision),
      ("runtime_image_digest", .str fields.runtime_image_digest),
      ("worker_id", .str fields.worker_id),
      ("gpu_type", .str fields.gpu_type),
      ("source_sha256", .str fields.source_sha256),
      ("preprocessing_sha256", .str fields.preprocessing_sha256),
      ("prompt_sha256", .str fields.prompt_sha256),
      ("decoding_sha256", .str fields.decoding_sha256),
      ("created_at", datetime_json fields.created_at)]

end AttemptFields

structure ParseAttempt extends AttemptFields where
  valid : toAttemptFields.post_init = .ok ()

def ParseAttempt.make (fields : AttemptFields) : Except String ParseAttempt :=
  match h : fields.post_init with
  | .error refused => .error refused
  | .ok () => .ok { toAttemptFields := fields, valid := h }

structure AttemptOutput where
  prediction_uri : String
  prediction_sha256 : String
  completed_at : Datetime
  cost : CostRecord := {}
  located : prediction_uri ≠ "" ∧ prediction_uri.toList.any Text.isSpace = false
  digested : is_sha256 prediction_sha256 = true
  aware : completed_at.utcoffset.isSome = true

-- `first == second`, as the dataclass compares its fields.
def AttemptOutput.same (first second : AttemptOutput) : Bool :=
  first.prediction_uri = second.prediction_uri &&
    first.prediction_sha256 = second.prediction_sha256 &&
    first.completed_at.instant = second.completed_at.instant && first.cost.same second.cost

structure AttemptTransition where
  sequence : ℕ
  from_status : Option AttemptStatus
  to_status : AttemptStatus
  occurred_at : Datetime
  reason_code : String
  positive : 1 ≤ sequence
  aware : require_aware occurred_at "occurred_at" = .ok ()
  reasoned : require_identifier reason_code "reason_code" = .ok ()

def AttemptTransition.make (sequence : ℕ) (from_status : Option AttemptStatus)
    (to_status : AttemptStatus) (occurred_at : Datetime) (reason_code : String) :
    Except String AttemptTransition :=
  if hsequence : 1 ≤ sequence then
    match haware : require_aware occurred_at "occurred_at" with
    | .error refused => .error refused
    | .ok () =>
        match hreason : require_identifier reason_code "reason_code" with
        | .error refused => .error refused
        | .ok () =>
            .ok ⟨sequence, from_status, to_status, occurred_at, reason_code, hsequence, haware, hreason⟩
  else .error "transition sequence must be positive"

structure AttemptSnapshot where
  attempt : ParseAttempt
  status : AttemptStatus
  output : Option AttemptOutput
  validation_digest : Option String
  transitions : List AttemptTransition
  digested : ∀ digest ∈ validation_digest, is_sha256 digest = true
  latest : transitions.getLast?.map AttemptTransition.to_status = some status

end KnowledgeCompiler.Parallel
