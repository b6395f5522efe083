import KnowledgeCompiler.Lib.Method
import KnowledgeCompiler.Parallel.Journal

namespace KnowledgeCompiler.Parallel

open Lib Method

inductive HealthFault
  | fault (raised : Fault)
  | worker_registration_conflict (message : String)
deriving DecidableEq

inductive WorkerState
  | HEALTHY
  | DEGRADED
  | DRAINING
  | QUARANTINED
  | TERMINATED
deriving DecidableEq

namespace WorkerState

def value : WorkerState → String
  | HEALTHY => "HEALTHY"
  | DEGRADED => "DEGRADED"
  | DRAINING => "DRAINING"
  | QUARANTINED => "QUARANTINED"
  | TERMINATED => "TERMINATED"

-- `_STATE_RANK`
def rank : WorkerState → ℕ
  | HEALTHY => 0
  | DEGRADED => 1
  | DRAINING => 2
  | QUARANTINED => 3
  | TERMINATED => 4

-- The event that tells of a move into the state, where one does.
def event_type : WorkerState → Option String
  | DEGRADED => some "worker.semantic.degraded.v1"
  | DRAINING => some "worker.draining.v1"
  | QUARANTINED => some "worker.quarantined.v1"
  | _ => none

def retired (state : WorkerState) : Bool := state = QUARANTINED || state = TERMINATED

theorem rank_injective : Function.Injective rank := by
  intro first second
  cases first <;> cases second <;> simp [rank]

end WorkerState

structure InfrastructureObservation where
  observed_at : AwareDatetime
  ping : Bool
  process : Bool
  gpu : Bool
  ram : Bool
  disk : Bool
  model_loaded : Bool
  cuda_ready : Bool
  request_response : Bool
  heartbeat : Bool
  model_identity_matches : Bool
  checksum_matches : Bool
  memory_slope_exceeded : Bool := false
  latency_p99_spike : Bool := false
deriving DecidableEq

def InfrastructureObservation.base_healthy (observation : InfrastructureObservation) : Bool :=
  [observation.ping, observation.process, observation.gpu, observation.ram, observation.disk,
    observation.model_loaded, observation.cuda_ready, observation.request_response,
    observation.heartbeat].all id

structure SemanticObservation where
  attempt_id : String
  shard_id : String
  observed_at : AwareDatetime
  validator_passed : Bool
  source_coverage : Binary64
  critical_numeric_failure : Bool := false
  page_omission : Bool := false
  repetition : Bool := false
  schema_failure : Bool := false
  row_omission : Bool := false
  empty_output : Bool := false
  latency_outlier : Bool := false
  output_length_drift : Bool := false
  canary_reproduced : Bool := false
  canary_fixture_failed : Bool := false
  named : attempt_id ≠ "" ∧ shard_id ≠ ""
  covered : Binary64.between (.finite 1) source_coverage = true

-- A semantic score is no lower than 0 and no higher than 100.
def Score : Type := { score : Binary64 // Binary64.between (.finite 100) score = true }

instance : DecidableEq Score := inferInstanceAs (DecidableEq { _score : Binary64 // _ })

namespace Score

def perfect : Score := ⟨.finite 100, by decide +kernel⟩

theorem rounded_hundred : Binary64.rounded (100 : ℕ) = (100 : ℕ) := by decide +kernel

theorem between_clamp (score : Binary64) :
    Binary64.between (.finite 100) ((Binary64.finite 0).max ((Binary64.finite 100).min score)) =
      true := by
  have hceiling : Binary64.between (.finite 100)
      ((Binary64.finite 0).max (.finite 100)) = true := by decide
  cases score with
  | nan => exact hceiling
  | infinity negative => cases negative <;> decide
  | finite score =>
    by_cases hhigh : score < 100
    · have hmin : (Binary64.finite 100).min (.finite score) = .finite score :=
        if_pos (by simpa [Binary64.lt] using hhigh)
      rw [hmin]
      by_cases hlow : 0 < score
      · have hmax : (Binary64.finite 0).max (.finite score) = .finite score :=
          if_pos (by simpa [Binary64.lt] using hlow)
        rw [hmax]
        exact Binary64.between_finite.mpr ⟨hlow.le, hhigh.le⟩
      · have hmax : (Binary64.finite 0).max (.finite score) = .finite 0 :=
          if_neg (by simpa [Binary64.lt] using hlow)
        rw [hmax]
        decide
    · have hmin : (Binary64.finite 100).min (.finite score) = .finite 100 :=
        if_neg (by simpa [Binary64.lt] using hhigh)
      rw [hmin]
      exact hceiling

theorem hundred_small : ((100 : ℕ) : ℚ) < 2 ^ 1024 :=
  lt_of_lt_of_le (by norm_num : ((100 : ℕ) : ℚ) < 2 ^ 7)
    (pow_le_pow_right₀ (by norm_num) (by norm_num))

-- `round(max(0.0, min(100.0, score)), 6)`
def clamp (score : Binary64) : Score :=
  ⟨((Binary64.finite 0).max ((Binary64.finite 100).min score)).round 6,
    Binary64.between_round 6 rounded_hundred hundred_small (between_clamp score)⟩

end Score

structure HealthTransition where
  worker_id : String
  from_state : WorkerState
  to_state : WorkerState
  occurred_at : AwareDatetime
  reason_codes : List String
  semantic_score : Score
deriving DecidableEq

-- `_WorkerRecord`
structure WorkerRecord where
  worker_id : String
  model_revision : String
  runtime_image_digest : String
  capabilities : Finset String
  warm : Bool
  cached_models : Finset String
  estimated_available_at : Binary64
  state : WorkerState := .HEALTHY
  semantic_score : Score := .perfect
  infrastructure : List InfrastructureObservation := []
  semantics : List SemanticObservation := []
  transitions : List HealthTransition := []
  last_signal_at : Option AwareDatetime := none

namespace WorkerRecord

def transition_to (record : WorkerRecord) (state : WorkerState) (occurred_at : AwareDatetime)
    (reasons : List String) : HealthTransition where
  worker_id := record.worker_id
  from_state := record.state
  to_state := state
  occurred_at := occurred_at
  reason_codes := reasons.insertionSort (· ≤ ·)
  semantic_score := record.semantic_score

def moved (record : WorkerRecord) (transition : HealthTransition) : WorkerRecord :=
  { record with
    state := transition.to_state
    transitions := record.transitions ++ [transition] }

end WorkerRecord

structure WorkerSnapshot where
  worker_id : String
  model_revision : String
  runtime_image_digest : String
  state : WorkerState
  capabilities : Finset String
  warm : Bool
  cached_models : Finset String
  estimated_available_at : Binary64
  semantic_score : Score

-- The checks of `WorkerSnapshot`; the score's own bounds are in its type.
def WorkerRecord.snapshot (record : WorkerRecord) : Except String WorkerSnapshot := do
  require_identifier record.worker_id "worker_id"
  require_identifier record.model_revision "model_revision"
  require_identifier record.runtime_image_digest "runtime_image_digest"
  refuse_if (record.estimated_available_at.lt (.finite 0) = true)
    "estimated_available_at cannot be negative"
  .ok {
    worker_id := record.worker_id
    model_revision := record.model_revision
    runtime_image_digest := record.runtime_image_digest
    state := record.state
    capabilities := record.capabilities
    warm := record.warm
    cached_models := record.cached_models
    estimated_available_at := record.estimated_available_at
    semantic_score := record.semantic_score }

-- Times and their differences are in microseconds.
structure WorkerHealthRegistry where
  _records : Dict String WorkerRecord := .empty
  _events : Option EventJournal := none
  _window : ℕ := 20
  _stale_after : ℤ := 300000000
  _silent_after : ℤ := 1200000000
  windowed : 3 ≤ _window := by decide
  ordered : 0 < _stale_after ∧ _stale_after < _silent_after := by decide

structure Registration where
  worker_id : String
  model_revision : String
  runtime_image_digest : String
  capabilities : Finset String
  warm : Bool
  cached_models : Finset String := ∅
  estimated_available_at : Binary64 := .finite 0
  registered_at : Option Datetime := none

namespace WorkerHealthRegistry

def penalized (score : Binary64) (points : ℕ) (flag : Bool) : Binary64 :=
  score.sub (.finite (if flag then points else 0))

-- What one observation leaves of the score.
def scored (score : Binary64) (observation : SemanticObservation) : Binary64 :=
  let score := penalized score 30 observation.critical_numeric_failure
  let score := penalized score 20 (observation.page_omission || observation.empty_output)
  let score := penalized score 15 observation.repetition
  let score := penalized score 10 observation.schema_failure
  let score := penalized score 10 observation.row_omission
  let score := penalized score 5 observation.latency_outlier
  let score := penalized score 5 observation.output_length_drift
  if observation.source_coverage.lt (.finite 1) then
    score.sub ((Binary64.finite 10).min
      (((Binary64.finite 1).sub observation.source_coverage).mul (.finite 20)))
  else score

def _semantic_score (observations : List SemanticObservation) : Score :=
  .clamp (observations.foldl scored (.finite 100))

abbrev Call (α : Type) : Type := Method WorkerHealthRegistry HealthFault α

-- `self._records[worker_id]`
def record_of (worker_id : String) : Call WorkerRecord := do
  let registry ← self
  check ((registry._records.get? worker_id).elim (.error (.fault (.key_error worker_id))) .ok)

def put (record : WorkerRecord) (worker_id : String) : Call Unit :=
  assign (fun registry => { registry with _records := registry._records.set worker_id record })

def snapshot (worker_id : String) : Call WorkerSnapshot := do
  let record ← record_of worker_id
  check (record.snapshot.mapError (fun message => .fault (.value_error message)))

def register (worker : Registration) : Call WorkerSnapshot := do
  require (∀ moment ∈ worker.registered_at, moment.utcoffset.isSome = true)
    (.fault (.value_error "worker registration time must be timezone-aware"))
  let registry ← self
  match registry._records.get? worker.worker_id with
  | some existing => do
      require (existing.model_revision = worker.model_revision ∧
          existing.runtime_image_digest = worker.runtime_image_digest ∧
          existing.capabilities = worker.capabilities ∧ existing.warm = worker.warm ∧
          existing.cached_models = worker.cached_models ∧
          existing.estimated_available_at = worker.estimated_available_at)
        (.worker_registration_conflict "worker identity cannot be mutated after registration")
      snapshot worker.worker_id
  | none => do
      put {
        worker_id := worker.worker_id
        model_revision := worker.model_revision
        runtime_image_digest := worker.runtime_image_digest
        capabilities := worker.capabilities
        warm := worker.warm
        cached_models := worker.cached_models
        estimated_available_at := worker.estimated_available_at
        last_signal_at := worker.registered_at.bind Datetime.aware? } worker.worker_id
      snapshot worker.worker_id

section Moves

variable (hasher : Hasher)

def event_payload (reason_codes : List String) (score : Score) : List (String × Json) :=
  [("reason_codes", strings_json reason_codes), ("semantic_score", .float score.1.repr)]

def event_key (worker_id : String) (state : WorkerState) (count : ℕ) : String :=
  s!"worker-health:{worker_id}:{state.value}:{count}"

-- The journal once it has taken the event of a move, if there is a journal and an event.
def told (events : Option EventJournal) (record : WorkerRecord) (transition : HealthTransition) :
    Except Fault (Option EventJournal) :=
  match events, transition.to_state.event_type with
  | some journal, some event_type =>
      (journal.append hasher event_type record.worker_id
        (event_payload transition.reason_codes transition.semantic_score) transition.occurred_at.1
        (event_key record.worker_id transition.to_state (record.transitions.length + 1))).map some
  | _, _ => .ok events

def _transition (worker_id : String) (state : WorkerState) (occurred_at : AwareDatetime)
    (reasons : List String) : Call (Option HealthTransition) := do
  let record ← record_of worker_id
  if state = record.state then returns none
  else do
    require (record.state.rank ≤ state.rank)
      (.fault (.runtime_error "worker health promotion requires explicit canary restoration"))
    let transition := record.transition_to state occurred_at reasons
    put (record.moved transition) worker_id
    let registry ← self
    let events ← check ((told hasher registry._events record transition).mapError .fault)
    assign (fun registry => { registry with _events := events })
    returns (some transition)

-- What an infrastructure observation asks for, and why.
def infrastructure_demand (observation : InfrastructureObservation) :
    Option (WorkerState × List String) :=
  if ¬observation.model_identity_matches ∨ ¬observation.checksum_matches then
    some (.QUARANTINED,
      [("model_identity_mismatch", !observation.model_identity_matches),
        ("model_checksum_mismatch", !observation.checksum_matches)].filterMap
          fun (code, failed) => if failed then some code else none)
  else if ¬observation.base_healthy ∨ observation.memory_slope_exceeded ∨
      observation.latency_p99_spike then
    some (.DRAINING,
      [("infrastructure_probe_failed", !observation.base_healthy),
        ("memory_slope_exceeded", observation.memory_slope_exceeded),
        ("latency_p99_spike", observation.latency_p99_spike)].filterMap
          fun (code, failed) => if failed then some code else none)
  else none

def observed_infrastructure (record : WorkerRecord) (observation : InfrastructureObservation) :
    WorkerRecord :=
  { record with
    infrastructure := record.infrastructure ++ [observation]
    last_signal_at :=
      match record.last_signal_at with
      | some last =>
          if last.1.instant < observation.observed_at.1.instant then some observation.observed_at
          else some last
      | none => some observation.observed_at }

-- A retired worker is only observed; another is moved where the observation asks for it.
def demanded (worker_id : String) (retired : Bool) (occurred_at : AwareDatetime)
    (demand : Option (WorkerState × List String)) : Call WorkerSnapshot := do
  match retired, demand with
  | false, some (state, reasons) => do
      let _ ← _transition hasher worker_id state occurred_at reasons
      snapshot worker_id
  | _, _ => snapshot worker_id

def record_infrastructure (worker_id : String) (observation : InfrastructureObservation) :
    Call WorkerSnapshot := do
  let record ← record_of worker_id
  put (observed_infrastructure record observation) worker_id
  demanded hasher worker_id record.state.retired observation.observed_at
    (infrastructure_demand observation)

-- How many of the newest observations in a row have the failure.
def recent (failed : SemanticObservation → Bool) (window : List SemanticObservation) : ℕ :=
  (window.reverse.takeWhile failed).length

def semantic_demand (window : List SemanticObservation) (score : Score)
    (observation : SemanticObservation) : Option (WorkerState × List String) :=
  let recent_schema_failures := recent SemanticObservation.schema_failure window
  let recent_repetitions := recent SemanticObservation.repetition window
  if observation.canary_fixture_failed ∨
      observation.critical_numeric_failure ∧ observation.canary_reproduced then
    some (.QUARANTINED,
      [if observation.canary_fixture_failed then "canary_fixture_failure"
        else "critical_numeric_failure_reproduced"])
  else if 3 ≤ recent_schema_failures ∨ 2 ≤ recent_repetitions ∨ score.1.lt (.finite 50) then
    some (.DRAINING,
      [("consecutive_schema_failures", decide (3 ≤ recent_schema_failures)),
        ("consecutive_repetition", decide (2 ≤ recent_repetitions)),
        ("semantic_score_critical", score.1.lt (.finite 50))].filterMap
          fun (code, failed) => if failed then some code else none)
  else if ¬observation.validator_passed ∨ observation.empty_output ∨ observation.row_omission ∨
      score.1.lt (.finite 85) then
    some (.DEGRADED, ["semantic_quality_degraded"])
  else none

-- `record.semantics[-self._window :]`
def window_of (size : ℕ) (semantics : List SemanticObservation) : List SemanticObservation :=
  semantics.drop (semantics.length - size)

def observed_semantics (size : ℕ) (record : WorkerRecord) (observation : SemanticObservation) :
    WorkerRecord :=
  let semantics := record.semantics ++ [observation]
  { record with semantics, semantic_score := _semantic_score (window_of size semantics) }

def record_semantic (worker_id : String) (observation : SemanticObservation) :
    Call WorkerSnapshot := do
  let record ← record_of worker_id
  let registry ← self
  let observed := observed_semantics registry._window record observation
  put observed worker_id
  demanded hasher worker_id record.state.retired observation.observed_at
    (semantic_demand (window_of registry._window observed.semantics) observed.semantic_score
      observation)

-- What the silence of a worker asks for, measured from its last signal.
def liveness_demand (registry : WorkerHealthRegistry) (record : WorkerRecord)
    (now : AwareDatetime) : Option (WorkerState × List String) :=
  match record.state.retired, record.last_signal_at with
  | false, some baseline =>
      let silence := now.1.instant - baseline.1.instant
      if registry._silent_after ≤ silence then
        some (.QUARANTINED, ["infrastructure_signal_silent"])
      else if registry._stale_after ≤ silence then
        some (.DRAINING, ["infrastructure_signal_stale"])
      else none
  | _, _ => none

def sweep (now : AwareDatetime) : List String → Call (List HealthTransition)
  | [] => returns []
  | worker_id :: rest => do
      let record ← record_of worker_id
      let registry ← self
      match registry.liveness_demand record now with
      | some (state, reasons) => do
          let transition ← _transition hasher worker_id state now reasons
          let transitions ← sweep now rest
          returns (transition.toList ++ transitions)
      | none => sweep now rest

def evaluate_liveness (now : Datetime) : Call (List HealthTransition) := do
  let registry ← self
  match Datetime.aware? now with
  | none => raises (.fault (.value_error "liveness evaluation time must be timezone-aware"))
  | some now => sweep hasher now registry._records.keys

def terminate (worker_id : String) (occurred_at : Datetime) (reason : String) :
    Call (Option HealthTransition) := do
  match Datetime.aware? occurred_at with
  | none => raises (.fault (.value_error "termination time must be timezone-aware"))
  | some occurred_at => do
      require (reason ≠ "") (.fault (.value_error "termination requires a reason code"))
      let record ← record_of worker_id
      if record.state = .TERMINATED then returns none
      else _transition hasher worker_id .TERMINATED occurred_at [reason]

end Moves

end WorkerHealthRegistry

end KnowledgeCompiler.Parallel
