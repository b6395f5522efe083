import KnowledgeCompiler.Lib.Method
import KnowledgeCompiler.Parallel.Models

namespace KnowledgeCompiler.Parallel

open Lib Method

inductive CreditFault
  | value_error (message : String)
  | invalid_operation
  | credit_conflict (message : String)
  | credit_limit_exceeded (message : String)
  | key_error (key : String)
deriving DecidableEq

-- The exponent of `_QUANTUM`.
def QUANTUM : ℤ := -6

-- `_credits`
def credits : Decimal → Except CreditFault Decimal
  | .finite negative coefficient exponent =>
      if negative = true ∧ coefficient ≠ 0 then
        .error (.value_error "credit values must be finite and non-negative")
      else
        match Decimal.quantize negative coefficient exponent QUANTUM with
        | none => .error .invalid_operation
        | some quantized => .ok quantized
  | _ => .error (.value_error "credit values must be finite and non-negative")

inductive CreditEntryType
  | RESERVED
  | CONSUMED
  | RELEASED
  | COMPUTE_TELEMETRY
deriving DecidableEq

def CreditEntryType.value : CreditEntryType → String
  | RESERVED => "reserved"
  | CONSUMED => "consumed"
  | RELEASED => "released"
  | COMPUTE_TELEMETRY => "compute_telemetry"

structure CreditReservation where
  reservation_id : String
  account_id : String
  job_id : String
  reserved_credits : Decimal
  created_at : Datetime
  idempotency_key : String
deriving DecidableEq

structure CreditEntry where
  entry_id : String
  reservation_id : String
  entry_type : CreditEntryType
  amount : Decimal
  occurred_at : Datetime
  reason_code : String
  work_key : Option String
  attempt_id : Option String
  idempotency_key : String
  metadata_sha256 : String
deriving DecidableEq

structure SettlementResult where
  reservation_id : String
  work_key : String
  attempt_id : String
  user_credits_charged : Decimal
  billable : Bool
  duplicate : Bool
  reason_code : String
  entry : Option CreditEntry
deriving DecidableEq

-- `_ReservationState`
structure ReservationState where
  reservation : CreditReservation
  consumed : Decimal := .finite false 0 0
  released : Decimal := .finite false 0 0

def ReservationState.available (state : ReservationState) : Decimal :=
  (state.reservation.reserved_credits.sub state.consumed).sub state.released

-- What a call answers, and the ledger keeps under its idempotency key.
inductive Answer
  | reservation (value : CreditReservation)
  | settlement (value : SettlementResult)
  | entry (value : CreditEntry)
deriving DecidableEq

namespace Answer

-- `isinstance(existing, CreditReservation)` and its like

def is_reservation : Answer → Bool
  | reservation _ => true
  | _ => false

def is_settlement : Answer → Bool
  | settlement _ => true
  | _ => false

def is_entry : Answer → Bool
  | entry _ => true
  | _ => false

end Answer

structure CreditLedger where
  reservations : Dict String ReservationState := .empty
  keys : Dict String (String × Answer) := .empty
  charged_work : Dict (String × String) SettlementResult := .empty
  entries : List CreditEntry := []

structure ReserveArguments where
  account_id : String
  job_id : String
  amount : Decimal
  occurred_at : Datetime
  idempotency_key : String

structure SettleArguments where
  reservation_id : String
  work_key : String
  attempt_id : String
  attempt_kind : AttemptKind
  verification_state : VerificationState
  canonical_credits : Decimal
  occurred_at : Datetime
  idempotency_key : String

structure TelemetryArguments where
  reservation_id : String
  attempt_id : String
  attempt_kind : AttemptKind
  gpu_seconds : Decimal
  provider_cost : Decimal
  occurred_at : Datetime
  idempotency_key : String

structure ReleaseArguments where
  reservation_id : String
  occurred_at : Datetime
  idempotency_key : String

namespace CreditLedger

variable (hasher : Hasher)

-- `_aware`
def aware (value : Datetime) : Except CreditFault Unit :=
  refuse_if (value.utcoffset.isNone = true)
    (.value_error "credit ledger timestamps must be timezone-aware")

-- `_idempotent`
def idempotent (key identity : String) : Method CreditLedger CreditFault (Option Answer) := do
  let ledger ← self
  match ledger.keys.get? key with
  | none => returns none
  | some (existing_identity, result) =>
      require (existing_identity = identity)
        (.credit_conflict "credit idempotency key reused with different input")
      returns (some result)

-- `_entry`
def make_entry (reservation_id : String) (entry_type : CreditEntryType) (amount : Decimal)
    (occurred_at : Datetime) (reason_code : String) (work_key attempt_id : Option String)
    (idempotency_key : String) (metadata : List (String × Json)) : CreditEntry :=
  let metadata_sha256 := canonical_sha256 hasher (.obj metadata)
  { entry_id := stable_id hasher "credit_entry"
      [.str reservation_id, .str entry_type.value, optional_json work_key, optional_json attempt_id,
        .str idempotency_key, .str metadata_sha256]
    reservation_id, entry_type, amount, occurred_at, reason_code, work_key, attempt_id
    idempotency_key, metadata_sha256 }

def append_entry (entry : CreditEntry) : Method CreditLedger CreditFault Unit :=
  assign (fun ledger => { ledger with entries := ledger.entries ++ [entry] })

-- How every call begins and ends: an answer of its own kind is given again, and a
-- new one is kept under the key.
def answered_once (key identity : String) (own : Answer → Bool)
    (act : Method CreditLedger CreditFault Answer) : Method CreditLedger CreditFault Answer := do
  let existing ← idempotent key identity
  match existing.filter own with
  | some answer => returns answer
  | none =>
      let answer ← act
      assign (fun ledger => { ledger with keys := ledger.keys.set key (identity, answer) })
      returns answer

def put (reservation_id : String) (state : ReservationState) : Method CreditLedger CreditFault Unit :=
  assign (fun ledger =>
    { ledger with reservations := ledger.reservations.set reservation_id state })

def state_of (reservation_id : String) : Method CreditLedger CreditFault ReservationState := do
  let ledger ← self
  check ((ledger.reservations.get? reservation_id).elim (.error (.key_error reservation_id)) .ok)

def reserve_document (arguments : ReserveArguments) (amount : Decimal) : Json :=
  .obj
    [("operation", .str "reserve"), ("account_id", .str arguments.account_id),
      ("job_id", .str arguments.job_id), ("amount", decimal_json amount)]

def reservation_id_of (arguments : ReserveArguments) : String :=
  stable_id hasher "reservation"
    [.str arguments.account_id, .str arguments.job_id, .str arguments.idempotency_key]

def open_reservation (arguments : ReserveArguments) (amount : Decimal) :
    Method CreditLedger CreditFault Answer := do
  let reservation_id := reservation_id_of hasher arguments
  let reservation : CreditReservation :=
    { reservation_id
      account_id := arguments.account_id
      job_id := arguments.job_id
      reserved_credits := amount
      created_at := arguments.occurred_at
      idempotency_key := arguments.idempotency_key }
  put reservation_id { reservation }
  append_entry (make_entry hasher reservation_id .RESERVED amount arguments.occurred_at
    "job_credit_ceiling_reserved" none none s!"entry:{arguments.idempotency_key}"
    [("account_id", .str arguments.account_id), ("job_id", .str arguments.job_id)])
  returns (.reservation reservation)

def reserve (arguments : ReserveArguments) : Method CreditLedger CreditFault Answer := do
  let amount ← check (credits arguments.amount)
  check (aware arguments.occurred_at)
  let identity := canonical_sha256 hasher (reserve_document arguments amount)
  answered_once arguments.idempotency_key identity Answer.is_reservation
    (open_reservation hasher arguments amount)

def settle_document (arguments : SettleArguments) (canonical_credits : Decimal) : Json :=
  .obj
    [("operation", .str "settle_work"), ("reservation_id", .str arguments.reservation_id),
      ("work_key", .str arguments.work_key), ("attempt_id", .str arguments.attempt_id),
      ("attempt_kind", .str arguments.attempt_kind.value),
      ("verification_state", .str arguments.verification_state.value),
      ("canonical_credits", decimal_json canonical_credits)]

-- `Decimal("0.000000")`
def NO_CREDITS : Decimal := .finite false 0 QUANTUM

def unbilled (arguments : SettleArguments) (duplicate : Bool) (reason_code : String) :
    SettlementResult :=
  { reservation_id := arguments.reservation_id
    work_key := arguments.work_key
    attempt_id := arguments.attempt_id
    user_credits_charged := NO_CREDITS
    billable := false
    duplicate, reason_code
    entry := none }

def consumption (arguments : SettleArguments) (canonical_credits : Decimal) : CreditEntry :=
  make_entry hasher arguments.reservation_id .CONSUMED canonical_credits arguments.occurred_at
    "accepted_logical_work" (some arguments.work_key) (some arguments.attempt_id)
    s!"entry:{arguments.idempotency_key}"
    [("attempt_kind", .str arguments.attempt_kind.value),
      ("verification_state", .str arguments.verification_state.value),
      ("internal_attempt_surcharge", .str "0.000000")]

-- Accepted work that is charged for the first time.
def charge (arguments : SettleArguments) (canonical_credits : Decimal) (state : ReservationState) :
    Method CreditLedger CreditFault Answer := do
  require (canonical_credits.toRat ≤ state.available.toRat)
    (.credit_limit_exceeded "accepted work exceeds the remaining reservation")
  let entry := consumption hasher arguments canonical_credits
  put arguments.reservation_id { state with consumed := state.consumed.add canonical_credits }
  append_entry entry
  let result : SettlementResult :=
    { reservation_id := arguments.reservation_id
      work_key := arguments.work_key
      attempt_id := arguments.attempt_id
      user_credits_charged := canonical_credits
      billable := true
      duplicate := false
      reason_code := "accepted_logical_work"
      entry := some entry }
  assign (fun ledger =>
    { ledger with
      charged_work :=
        ledger.charged_work.set (arguments.reservation_id, arguments.work_key) result })
  returns (.settlement result)

def settle (arguments : SettleArguments) (canonical_credits : Decimal) :
    Method CreditLedger CreditFault Answer := do
  let state ← state_of arguments.reservation_id
  let ledger ← self
  if (ledger.charged_work.get? (arguments.reservation_id, arguments.work_key)).isSome then
    returns (.settlement (unbilled arguments true "logical_work_already_charged"))
  else if arguments.verification_state ∉ ACCEPTED_VERIFICATION_STATES then
    returns (.settlement (unbilled arguments
      (arguments.attempt_kind ∈ [.HEDGE, .STRAGGLER, .SHADOW])
      s!"{arguments.verification_state.value}_not_billable"))
  else charge hasher arguments canonical_credits state

def settle_work (arguments : SettleArguments) : Method CreditLedger CreditFault Answer := do
  let canonical_credits ← check (credits arguments.canonical_credits)
  check (aware arguments.occurred_at)
  let identity := canonical_sha256 hasher (settle_document arguments canonical_credits)
  answered_once arguments.idempotency_key identity Answer.is_settlement
    (settle hasher arguments canonical_credits)

def telemetry_document (arguments : TelemetryArguments) (gpu_seconds provider_cost : Decimal) :
    Json :=
  .obj
    [("operation", .str "compute_telemetry"), ("reservation_id", .str arguments.reservation_id),
      ("attempt_id", .str arguments.attempt_id),
      ("attempt_kind", .str arguments.attempt_kind.value),
      ("gpu_seconds", decimal_json gpu_seconds), ("provider_cost", decimal_json provider_cost)]

def measure (arguments : TelemetryArguments) (gpu_seconds provider_cost : Decimal) :
    Method CreditLedger CreditFault Answer := do
  let _ ← state_of arguments.reservation_id
  let entry := make_entry hasher arguments.reservation_id .COMPUTE_TELEMETRY NO_CREDITS
    arguments.occurred_at "duplicate_compute_recorded_not_billed" none
    (some arguments.attempt_id) s!"entry:{arguments.idempotency_key}"
    [("attempt_kind", .str arguments.attempt_kind.value),
      ("gpu_seconds", decimal_json gpu_seconds), ("provider_cost", decimal_json provider_cost),
      ("user_credits", .str "0.000000")]
  append_entry entry
  returns (.entry entry)

def record_compute_telemetry (arguments : TelemetryArguments) :
    Method CreditLedger CreditFault Answer := do
  let gpu_seconds ← check (credits arguments.gpu_seconds)
  let provider_cost ← check (credits arguments.provider_cost)
  check (aware arguments.occurred_at)
  let identity := canonical_sha256 hasher (telemetry_document arguments gpu_seconds provider_cost)
  answered_once arguments.idempotency_key identity Answer.is_entry
    (measure hasher arguments gpu_seconds provider_cost)

def release_document (arguments : ReleaseArguments) : Json :=
  .obj [("operation", .str "release_remaining"), ("reservation_id", .str arguments.reservation_id)]

def release (arguments : ReleaseArguments) : Method CreditLedger CreditFault Answer := do
  let state ← state_of arguments.reservation_id
  let amount ← check (credits state.available)
  let entry := make_entry hasher arguments.reservation_id .RELEASED amount arguments.occurred_at
    "unused_reservation_released" none none s!"entry:{arguments.idempotency_key}"
    [("consumed", decimal_json state.consumed),
      ("reserved", decimal_json state.reservation.reserved_credits)]
  put arguments.reservation_id { state with released := state.released.add amount }
  append_entry entry
  returns (.entry entry)

def release_remaining (arguments : ReleaseArguments) : Method CreditLedger CreditFault Answer := do
  check (aware arguments.occurred_at)
  let identity := canonical_sha256 hasher (release_document arguments)
  answered_once arguments.idempotency_key identity Answer.is_entry (release hasher arguments)

inductive Call
  | reserve (arguments : ReserveArguments)
  | settle_work (arguments : SettleArguments)
  | record_compute_telemetry (arguments : TelemetryArguments)
  | release_remaining (arguments : ReleaseArguments)

def perform : Call → Method CreditLedger CreditFault Answer
  | .reserve arguments => reserve hasher arguments
  | .settle_work arguments => settle_work hasher arguments
  | .record_compute_telemetry arguments => record_compute_telemetry hasher arguments
  | .release_remaining arguments => release_remaining hasher arguments

-- A new ledger after some calls, those that raised included.
def run (calls : List Call) : CreditLedger :=
  calls.foldl (fun ledger call => (perform hasher call ledger).2) {}

end CreditLedger

end KnowledgeCompiler.Parallel
