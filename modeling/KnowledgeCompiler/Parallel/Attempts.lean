import KnowledgeCompiler.Lib.Method
import KnowledgeCompiler.Parallel.Journal

namespace KnowledgeCompiler.Parallel

open Lib Method

-- `_ALLOWED_TRANSITIONS`
def ALLOWED_TRANSITIONS : AttemptStatus → List AttemptStatus
  | .CREATED => [.QUEUED, .TERMINAL_FAILED]
  | .QUEUED => [.RUNNING, .RETRYABLE_FAILED, .TERMINAL_FAILED, .QUARANTINED]
  | .RUNNING => [.OUTPUT_RECEIVED, .RETRYABLE_FAILED, .TERMINAL_FAILED, .QUARANTINED]
  | .OUTPUT_RECEIVED => [.VALIDATING, .REJECTED, .QUARANTINED]
  | .VALIDATING =>
      [.ACCEPTED, .REJECTED, .RETRYABLE_FAILED, .TERMINAL_FAILED, .SUPERSEDED, .QUARANTINED]
  | .ACCEPTED => [.SUPERSEDED, .QUARANTINED]
  | .REJECTED => []
  | .RETRYABLE_FAILED => []
  | .TERMINAL_FAILED => []
  | .SUPERSEDED => []
  | .QUARANTINED => []

-- `_MutableAttempt`. Its status is always the one of its last transition.
structure MutableAttempt where
  attempt : ParseAttempt
  status : AttemptStatus
  output : Option AttemptOutput
  validation_digest : Option String
  transitions : List AttemptTransition
  latest : transitions.getLast?.map AttemptTransition.to_status = some status

namespace MutableAttempt

def created (attempt : ParseAttempt) (transition : AttemptTransition) : MutableAttempt where
  attempt := attempt
  status := transition.to_status
  output := none
  validation_digest := none
  transitions := [transition]
  latest := rfl

-- `record.transitions[-1]`
def last (record : MutableAttempt) : AttemptTransition :=
  record.transitions.getLast (by
    intro hnil
    have hlatest := record.latest
    rw [hnil] at hlatest
    cases hlatest)

def moved (record : MutableAttempt) (transition : AttemptTransition) : MutableAttempt where
  attempt := record.attempt
  status := transition.to_status
  output := record.output
  validation_digest := record.validation_digest
  transitions := record.transitions ++ [transition]
  latest := by simp

def snapshot (record : MutableAttempt) : Except Fault AttemptSnapshot :=
  if hdigest : ∀ digest ∈ record.validation_digest, is_sha256 digest = true then
    .ok
      { attempt := record.attempt
        status := record.status
        output := record.output
        validation_digest := record.validation_digest
        transitions := record.transitions
        digested := hdigest
        latest := record.latest }
  else .error (.value_error "validation_digest must be a lowercase 64-character sha256")

end MutableAttempt

structure AcceptanceResult where
  winner : AttemptSnapshot
  challenger : Option AttemptSnapshot
  accepted_new : Bool

structure AttemptStore where
  records : Dict String MutableAttempt := .empty
  creation_keys : Dict String String := .empty
  acceptance_keys : Dict String (String × AcceptanceResult) := .empty
  accepted_by_shard : Dict String String := .empty
  events : Option EventJournal := none

structure RootArguments where
  idempotency_key : String
  document_id : String
  document_version_id : String
  shard_id : String
  page_ids : List String
  region_ids : List String
  parser_recipe : String
  model_revision : String
  runtime_image_digest : String
  worker_id : String
  gpu_type : String
  source_sha256 : String
  preprocessing_sha256 : String
  prompt_sha256 : String
  decoding_sha256 : String
  created_at : Datetime

structure ChildArguments where
  kind : AttemptKind
  idempotency_key : String
  parser_recipe : String
  model_revision : String
  runtime_image_digest : String
  worker_id : String
  gpu_type : String
  preprocessing_sha256 : String
  prompt_sha256 : String
  decoding_sha256 : String
  created_at : Datetime
  region_ids : Option (List String) := none

namespace AttemptStore

variable (hasher : Hasher)

def record_of (attempt_id : String) : Method AttemptStore Fault MutableAttempt := do
  let store ← self
  check ((store.records.get? attempt_id).elim (.error (.attempt_not_found attempt_id)) .ok)

def put (attempt_id : String) (record : MutableAttempt) : Method AttemptStore Fault Unit :=
  assign (fun store => { store with records := store.records.set attempt_id record })

-- `self._events.append(...)`, where there is a journal.
def emit (event_type aggregate_id : String) (payload : List (String × Json))
    (occurred_at : Datetime) (idempotency_key : String) : Method AttemptStore Fault Unit := do
  let store ← self
  match store.events with
  | none => returns ()
  | some journal =>
      let next ← check
        (journal.append hasher event_type aggregate_id payload occurred_at idempotency_key)
      assign (fun store => { store with events := some next })

def creation_identity (attempt : ParseAttempt) : String := canonical_sha256 hasher attempt.json

def create (attempt : ParseAttempt) (idempotency_key : String) :
    Method AttemptStore Fault AttemptSnapshot := do
  let store ← self
  match store.creation_keys.get? idempotency_key with
  | some existing_id =>
      let existing ← check
        ((store.records.get? existing_id).elim (.error (.key_error existing_id)) .ok)
      require (creation_identity hasher existing.attempt = creation_identity hasher attempt)
        (.attempt_conflict "attempt idempotency key reused with different immutable fields")
      check existing.snapshot
  | none =>
      require (store.records.get? attempt.attempt_id).isNone
        (.attempt_conflict "attempt_id already exists")
      let transition ← check
        ((AttemptTransition.make 1 none .CREATED attempt.created_at "attempt_created").mapError
          .value_error)
      let record := MutableAttempt.created attempt transition
      put attempt.attempt_id record
      assign (fun store =>
        { store with creation_keys := store.creation_keys.set idempotency_key attempt.attempt_id })
      check record.snapshot

def create_root (arguments : RootArguments) : Method AttemptStore Fault AttemptSnapshot := do
  let attempt_id := stable_id hasher "attempt"
    [.str "root", .str arguments.idempotency_key, .str arguments.document_version_id,
      .str arguments.shard_id, .str arguments.parser_recipe, .str arguments.worker_id]
  let attempt ← check ((ParseAttempt.make
    { arguments with
      attempt_id
      root_attempt_id := attempt_id
      parent_attempt_id := none
      kind := .PRIMARY }).mapError .value_error)
  create hasher attempt arguments.idempotency_key

def create_child (parent_attempt_id : String) (arguments : ChildArguments) :
    Method AttemptStore Fault AttemptSnapshot := do
  require (arguments.kind ≠ .PRIMARY)
    (.value_error "child attempts cannot use the primary kind")
  let parent ← record_of parent_attempt_id
  let inherited_regions := arguments.region_ids.getD parent.attempt.region_ids
  let predates ← check ((arguments.created_at.lt? parent.attempt.created_at).mapError .type_error)
  require (predates = false) (.value_error "child attempt cannot predate its parent")
  let attempt_id := stable_id hasher "attempt"
    [.str parent.attempt.root_attempt_id, .str parent_attempt_id, .str arguments.kind.value,
      .str arguments.idempotency_key, .str arguments.parser_recipe, .str arguments.worker_id,
      strings_json inherited_regions]
  let attempt ← check ((ParseAttempt.make
    { attempt_id
      root_attempt_id := parent.attempt.root_attempt_id
      parent_attempt_id := some parent_attempt_id
      kind := arguments.kind
      document_id := parent.attempt.document_id
      document_version_id := parent.attempt.document_version_id
      shard_id := parent.attempt.shard_id
      page_ids := parent.attempt.page_ids
      region_ids := inherited_regions
      parser_recipe := arguments.parser_recipe
      model_revision := arguments.model_revision
      runtime_image_digest := arguments.runtime_image_digest
      worker_id := arguments.worker_id
      gpu_type := arguments.gpu_type
      source_sha256 := parent.attempt.source_sha256
      preprocessing_sha256 := arguments.preprocessing_sha256
      prompt_sha256 := arguments.prompt_sha256
      decoding_sha256 := arguments.decoding_sha256
      created_at := arguments.created_at }).mapError .value_error)
  create hasher attempt arguments.idempotency_key

-- The record with its new transition and status; an accepted attempt that steps
-- back frees its shard.
def after_move (store : AttemptStore) (attempt_id : String) (record : MutableAttempt)
    (appended : AttemptTransition) : AttemptStore :=
  let moved := { store with records := store.records.set attempt_id (record.moved appended) }
  let shard_id := record.attempt.shard_id
  if record.status = .ACCEPTED ∧
      (appended.to_status = .SUPERSEDED ∨ appended.to_status = .QUARANTINED) ∧
      store.accepted_by_shard.get? shard_id = some attempt_id then
    { moved with accepted_by_shard := store.accepted_by_shard.erase shard_id }
  else moved

def announce_start (attempt_id : String) (record : MutableAttempt) (to_status : AttemptStatus)
    (occurred_at : Datetime) : Method AttemptStore Fault Unit :=
  if to_status = .RUNNING then
    emit hasher "attempt.started.v1" attempt_id
      [("shard_id", .str record.attempt.shard_id), ("worker_id", .str record.attempt.worker_id)]
      occurred_at s!"attempt-started:{attempt_id}"
  else returns ()

def transition (attempt_id : String) (expected_status to_status : AttemptStatus)
    (occurred_at : Datetime) (reason_code : String) : Method AttemptStore Fault AttemptSnapshot := do
  let record ← record_of attempt_id
  require (record.status = expected_status)
    (.attempt_conflict s!"expected {expected_status.value}, observed {record.status.value}")
  require (to_status ∈ ALLOWED_TRANSITIONS record.status)
    (.invalid_transition s!"cannot transition {record.status.value} to {to_status.value}")
  let earlier ← check ((occurred_at.lt? record.last.occurred_at).mapError .type_error)
  require (earlier = false) (.invalid_transition "attempt transitions must be chronological")
  let appended ← check ((AttemptTransition.make (record.transitions.length + 1)
    (some record.status) to_status occurred_at reason_code).mapError .value_error)
  assign (fun store => store.after_move attempt_id record appended)
  let snapshot ← check (record.moved appended).snapshot
  announce_start hasher attempt_id record to_status occurred_at
  returns snapshot

def attach_output (attempt_id : String) (output : AttemptOutput) (idempotency_key : String) :
    Method AttemptStore Fault AttemptSnapshot := do
  let record ← record_of attempt_id
  match record.output with
  | some attached =>
      require (attached.same output) (.immutable_attempt "attempt output cannot be replaced")
      check record.snapshot
  | none =>
      require (record.status = .RUNNING)
        (.invalid_transition "output can only be attached to a running attempt")
      put attempt_id { record with output := some output }
      let snapshot ← transition hasher attempt_id .RUNNING .OUTPUT_RECEIVED output.completed_at
        "output_received"
      emit hasher "attempt.output.received.v1" attempt_id
        [("prediction_sha256", .str output.prediction_sha256),
          ("prediction_uri", .str output.prediction_uri)]
        output.completed_at idempotency_key
      returns snapshot

def record_validation (attempt_id validation_digest : String) (passed : Bool)
    (occurred_at : Datetime) (failure_reason : String) :
    Method AttemptStore Fault AttemptSnapshot := do
  let record ← record_of attempt_id
  match record.validation_digest with
  | some recorded =>
      require (recorded = validation_digest)
        (.immutable_attempt "validation digest cannot be replaced")
      require (passed = true → record.status = .VALIDATING ∨ record.status = .ACCEPTED ∨
          record.status = .SUPERSEDED)
        (.attempt_conflict "validation result cannot change from failed to passed")
      require (passed = false → record.status = .REJECTED)
        (.attempt_conflict "validation result cannot change from passed to failed")
      check record.snapshot
  | none =>
      require (record.status = .OUTPUT_RECEIVED)
        (.invalid_transition "validation requires an output-received attempt")
      put attempt_id { record with validation_digest := some validation_digest }
      let validating ← transition hasher attempt_id .OUTPUT_RECEIVED .VALIDATING occurred_at
        "validation_started"
      if passed then returns validating
      else
        let snapshot ← transition hasher attempt_id .VALIDATING .REJECTED occurred_at failure_reason
        emit hasher "attempt.validation.failed.v1" attempt_id
          [("validation_sha256", .str validation_digest), ("reason", .str failure_reason)]
          occurred_at s!"validation-failed:{attempt_id}:{validation_digest}"
        emit hasher "attempt.rejected.v1" attempt_id [("reason", .str failure_reason)]
          occurred_at s!"attempt-rejected:{attempt_id}:{validation_digest}"
        returns snapshot

def remember (idempotency_key attempt_id : String) (result : AcceptanceResult) :
    Method AttemptStore Fault Unit :=
  assign (fun store =>
    { store with acceptance_keys := store.acceptance_keys.set idempotency_key (attempt_id, result) })

def accept (attempt_id : String) (occurred_at : Datetime) (idempotency_key : String) :
    Method AttemptStore Fault AcceptanceResult := do
  let record ← record_of attempt_id
  let store ← self
  match store.acceptance_keys.get? idempotency_key with
  | some (keyed_attempt, keyed_result) =>
      require (keyed_attempt = attempt_id)
        (.attempt_conflict "acceptance key reused for another attempt")
      returns keyed_result
  | none =>
      if record.status = .ACCEPTED then
        let winner ← check record.snapshot
        let result : AcceptanceResult := ⟨winner, none, false⟩
        remember idempotency_key attempt_id result
        returns result
      else
        require (record.status = .VALIDATING ∧ record.validation_digest.isSome)
          (.invalid_transition "only a validated hard-gate-passing attempt can win")
        match store.accepted_by_shard.get? record.attempt.shard_id with
        | some existing_id =>
            let existing ← check
              ((store.records.get? existing_id).elim (.error (.key_error existing_id)) .ok)
            let challenger ← transition hasher attempt_id .VALIDATING .SUPERSEDED occurred_at
              "first_verified_result_already_accepted"
            let winner ← check existing.snapshot
            let result : AcceptanceResult := ⟨winner, some challenger, false⟩
            remember idempotency_key attempt_id result
            returns result
        | none =>
            let winner ← transition hasher attempt_id .VALIDATING .ACCEPTED occurred_at
              "hard_gates_passed_and_arbitrated"
            assign (fun store =>
              { store with
                accepted_by_shard :=
                  store.accepted_by_shard.set record.attempt.shard_id attempt_id })
            let result : AcceptanceResult := ⟨winner, none, true⟩
            remember idempotency_key attempt_id result
            emit hasher "attempt.accepted.v1" attempt_id
              [("shard_id", .str record.attempt.shard_id),
                ("validation_sha256", optional_json record.validation_digest)]
              occurred_at s!"attempt-accepted:{record.attempt.shard_id}:{attempt_id}"
            returns result

def quarantine (attempt_id : String) (occurred_at : Datetime) (reason_code : String) :
    Method AttemptStore Fault AttemptSnapshot := do
  let record ← record_of attempt_id
  if record.status = .QUARANTINED then check record.snapshot
  else
    require (.QUARANTINED ∈ ALLOWED_TRANSITIONS record.status)
      (.invalid_transition s!"attempt in {record.status.value} cannot be quarantined")
    transition hasher attempt_id record.status .QUARANTINED occurred_at reason_code

-- The public calls; another holder of the journal may append to it in between.
inductive Call
  | create_root (arguments : RootArguments)
  | create_child (parent_attempt_id : String) (arguments : ChildArguments)
  | transition (attempt_id : String) (expected_status to_status : AttemptStatus)
      (occurred_at : Datetime) (reason_code : String)
  | attach_output (attempt_id : String) (output : AttemptOutput) (idempotency_key : String)
  | record_validation (attempt_id validation_digest : String) (passed : Bool)
      (occurred_at : Datetime) (failure_reason : String)
  | accept (attempt_id : String) (occurred_at : Datetime) (idempotency_key : String)
  | quarantine (attempt_id : String) (occurred_at : Datetime) (reason_code : String)
  | append_event (event_type aggregate_id : String) (payload : List (String × Json))
      (occurred_at : Datetime) (idempotency_key : String)

-- The store a call leaves behind, whether it returns or raises.
def step (store : AttemptStore) : Call → AttemptStore
  | .create_root arguments => (create_root hasher arguments store).2
  | .create_child parent_attempt_id arguments =>
      (create_child hasher parent_attempt_id arguments store).2
  | .transition attempt_id expected_status to_status occurred_at reason_code =>
      (transition hasher attempt_id expected_status to_status occurred_at reason_code store).2
  | .attach_output attempt_id output idempotency_key =>
      (attach_output hasher attempt_id output idempotency_key store).2
  | .record_validation attempt_id validation_digest passed occurred_at failure_reason =>
      (record_validation hasher attempt_id validation_digest passed occurred_at failure_reason
        store).2
  | .accept attempt_id occurred_at idempotency_key =>
      (accept hasher attempt_id occurred_at idempotency_key store).2
  | .quarantine attempt_id occurred_at reason_code =>
      (quarantine hasher attempt_id occurred_at reason_code store).2
  | .append_event event_type aggregate_id payload occurred_at idempotency_key =>
      (emit hasher event_type aggregate_id payload occurred_at idempotency_key store).2

end AttemptStore

end KnowledgeCompiler.Parallel
