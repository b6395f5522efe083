import KnowledgeCompiler.Lib.Json.Bytes
import KnowledgeCompiler.Lib.Method
import Mathlib.Algebra.Ring.Nat

namespace KnowledgeCompiler.Service

open Lib Method

inductive PageState
  | UPLOADED
  | SECURITY_SCANNING
  | SECURITY_VERIFIED
  | PREFLIGHTING
  | PREFLIGHTED
  | NATIVE_EXTRACTING
  | OCR_QUEUED
  | OCR_RUNNING
  | NORMALIZING
  | VALIDATING
  | COMPLETED
  | UNRESOLVED
  | QUARANTINED
  | NEEDS_REVIEW
  | RETRY_SCHEDULED
  | FAILED
deriving DecidableEq

def PageState.value : PageState → String
  | .UPLOADED => "UPLOADED"
  | .SECURITY_SCANNING => "SECURITY_SCANNING"
  | .SECURITY_VERIFIED => "SECURITY_VERIFIED"
  | .PREFLIGHTING => "PREFLIGHTING"
  | .PREFLIGHTED => "PREFLIGHTED"
  | .NATIVE_EXTRACTING => "NATIVE_EXTRACTING"
  | .OCR_QUEUED => "OCR_QUEUED"
  | .OCR_RUNNING => "OCR_RUNNING"
  | .NORMALIZING => "NORMALIZING"
  | .VALIDATING => "VALIDATING"
  | .COMPLETED => "COMPLETED"
  | .UNRESOLVED => "UNRESOLVED"
  | .QUARANTINED => "QUARANTINED"
  | .NEEDS_REVIEW => "NEEDS_REVIEW"
  | .RETRY_SCHEDULED => "RETRY_SCHEDULED"
  | .FAILED => "FAILED"

def ALLOWED_PAGE_TRANSITIONS : PageState → List PageState
  | .UPLOADED => [.SECURITY_SCANNING]
  | .SECURITY_SCANNING => [.SECURITY_VERIFIED, .FAILED]
  | .SECURITY_VERIFIED => [.PREFLIGHTING]
  | .PREFLIGHTING => [.PREFLIGHTED, .FAILED]
  | .PREFLIGHTED => [.NATIVE_EXTRACTING, .OCR_QUEUED, .FAILED]
  | .NATIVE_EXTRACTING => [.NORMALIZING, .OCR_QUEUED, .FAILED]
  | .OCR_QUEUED => [.OCR_RUNNING, .FAILED]
  | .OCR_RUNNING => [.NORMALIZING, .RETRY_SCHEDULED, .FAILED]
  | .NORMALIZING => [.VALIDATING, .FAILED]
  | .VALIDATING =>
      [.COMPLETED, .UNRESOLVED, .QUARANTINED, .NEEDS_REVIEW, .RETRY_SCHEDULED, .FAILED]
  | .RETRY_SCHEDULED => [.OCR_QUEUED, .OCR_RUNNING, .FAILED]
  | .COMPLETED => []
  | .UNRESOLVED => []
  | .QUARANTINED => []
  | .NEEDS_REVIEW => []
  | .FAILED => []

def page_transition_allowed (previous current : PageState) : Bool :=
  current ∈ ALLOWED_PAGE_TRANSITIONS previous

def TERMINAL_PAGE_STATES : List PageState :=
  [.COMPLETED, .UNRESOLVED, .QUARANTINED, .NEEDS_REVIEW, .FAILED]

-- `uuid.UUID`, and `str` of one. `uuid4()` never draws a number twice: the ids
-- of the attempts are numbered in the order in which they are drawn.
abbrev UUID := ℕ

def UUID.str (id : UUID) : String :=
  let digits := (List.range 32).map (fun i => Nat.digitChar (id / 16 ^ (31 - i) % 16))
  "-".intercalate (([(0, 8), (8, 4), (12, 4), (16, 4), (20, 12)] : List (ℕ × ℕ)).map
    (fun part => String.ofList ((digits.drop part.1).take part.2)))

inductive Raised
  | value_error (message : String)
  | page_attempt_transition_error (message : String)
  -- What `json.dumps`, or the encoding of its text, raises on a value that it does not take.
  | not_encoded
deriving DecidableEq

-- A value of a payload: one that JSON has, or any other object.
inductive PayloadValue
  | json (value : Json)
  | foreign

abbrev Payload := Dict String PayloadValue

-- `json.dumps` with `allow_nan=False`
mutual
def allowed_by_dumps : Json → Bool
  | .float lexeme => lexeme ∉ ["NaN".toList, "Infinity".toList, "-Infinity".toList]
  | .arr items => allowed_items items
  | .obj members => allowed_members members
  | _ => true

def allowed_items : List Json → Bool
  | [] => true
  | item :: rest => allowed_by_dumps item && allowed_items rest

def allowed_members : List (String × Json) → Bool
  | [] => true
  | (_, value) :: rest => allowed_by_dumps value && allowed_members rest
end

def PayloadValue.encodable : PayloadValue → Option Json
  | .json value => if allowed_by_dumps value then some value else none
  | .foreign => none

def encoded_payload (payload : Payload) : Option (List UInt8) :=
  (payload.entries.mapM (fun (member : String × PayloadValue) =>
    member.2.encodable.map (fun written => (member.1, written)))).map
      (fun members => Json.utf8 (Json.dumps (.obj members)))

def _bounded_payload (value : Option Payload) : Except Raised Payload :=
  let payload := value.getD .empty
  match encoded_payload payload with
  | none => .error .not_encoded
  | some encoded =>
      if encoded.length > 16 * 1024 then
        .error (.value_error "page attempt event payload exceeds 16 KiB")
      else .ok payload

section Records

variable (Time : Type)

structure PageAttempt where
  id : UUID
  tenant_id : UUID
  page_id : UUID
  job_id : Option UUID
  analysis_task_id : Option UUID
  provider_invocation_id : Option UUID
  attempt_number : ℤ
  trigger : String
  status : PageState
  route : String
  route_profile : String
  route_policy_version : String
  max_attempts : ℤ
  quality_vector : List (String × Json)
  quality_findings : List Json
  quality_evaluation : List (String × Json)
  escalation_decision : List (String × Json)
  event_sequence : ℕ
  started_at : Time
  completed_at : Option Time
  created_at : Time
  updated_at : Time

structure PageAttemptTransitionEvent where
  tenant_id : UUID
  attempt_id : UUID
  sequence : ℕ
  previous_state : Option PageState
  current_state : PageState
  reason : String
  payload : Payload
  occurred_at : Time

-- What the session holds: the attempts, each at the place its id numbers, and the events added to it.
structure Session where
  attempts : List (PageAttempt Time) := []
  events : List (PageAttemptTransitionEvent Time) := []

-- The arguments of `create_page_attempt`.
structure Creation where
  tenant_id : UUID
  page_id : UUID
  attempt_number : ℤ
  trigger : String
  initial_state : PageState
  route : String
  route_profile : String
  route_policy_version : String
  max_attempts : ℤ
  job_id : Option UUID := none
  analysis_task_id : Option UUID := none
  quality_vector : Option (List (String × Json)) := none
  quality_findings : List Json := []
  quality_evaluation : Option (List (String × Json)) := none
  escalation_decision : Option (List (String × Json)) := none
  reason : String := "attempt_created"
  payload : Option Payload := none
  now : Option Time := none

-- The arguments of `transition_page_attempt`.
structure Transition where
  target : PageState
  reason : String
  payload : Option Payload := none
  quality_vector : Option (List (String × Json)) := none
  quality_findings : Option (List Json) := none
  quality_evaluation : Option (List (String × Json)) := none
  escalation_decision : Option (List (String × Json)) := none
  now : Option Time := none

end Records

variable {Time : Type}

namespace Session

def add_attempt (attempt : PageAttempt Time) (session : Session Time) : Session Time :=
  { session with attempts := session.attempts ++ [attempt] }

-- An attempt is one object: what is assigned to it is seen by the session.
def put (attempt : PageAttempt Time) (session : Session Time) : Session Time :=
  { session with attempts := session.attempts.set attempt.id attempt }

def add_event (event : PageAttemptTransitionEvent Time) (session : Session Time) : Session Time :=
  { session with events := session.events ++ [event] }

end Session

def PageAttempt.created (creation : Creation Time) (id : UUID) (occurred_at : Time) :
    PageAttempt Time where
  id := id
  tenant_id := creation.tenant_id
  page_id := creation.page_id
  job_id := creation.job_id
  analysis_task_id := creation.analysis_task_id
  provider_invocation_id := none
  attempt_number := creation.attempt_number
  trigger := creation.trigger
  status := creation.initial_state
  route := creation.route
  route_profile := creation.route_profile
  route_policy_version := creation.route_policy_version
  max_attempts := creation.max_attempts
  quality_vector := creation.quality_vector.getD []
  quality_findings := creation.quality_findings
  quality_evaluation := creation.quality_evaluation.getD []
  escalation_decision := creation.escalation_decision.getD []
  event_sequence := 1
  started_at := occurred_at
  completed_at := if creation.initial_state ∈ TERMINAL_PAGE_STATES then some occurred_at else none
  created_at := occurred_at
  updated_at := occurred_at

def PageAttempt.moved (attempt : PageAttempt Time) (transition : Transition Time)
    (occurred_at : Time) : PageAttempt Time :=
  { attempt with
    status := transition.target
    event_sequence := attempt.event_sequence + 1
    updated_at := occurred_at
    quality_vector := transition.quality_vector.getD attempt.quality_vector
    quality_findings := transition.quality_findings.getD attempt.quality_findings
    quality_evaluation := transition.quality_evaluation.getD attempt.quality_evaluation
    escalation_decision := transition.escalation_decision.getD attempt.escalation_decision
    completed_at :=
      if transition.target ∈ TERMINAL_PAGE_STATES then some occurred_at else attempt.completed_at }

def PageAttempt.attached (attempt : PageAttempt Time) (invocation_id : UUID) (utcnow : Time) :
    PageAttempt Time :=
  { attempt with provider_invocation_id := some invocation_id, updated_at := utcnow }

def PageAttempt.first_event (attempt : PageAttempt Time) (creation : Creation Time)
    (payload : Payload) (occurred_at : Time) : PageAttemptTransitionEvent Time where
  tenant_id := creation.tenant_id
  attempt_id := attempt.id
  sequence := 1
  previous_state := none
  current_state := creation.initial_state
  reason := creation.reason
  payload := ((payload.set "attempt_id" (.json (.str attempt.id.str))).set "attempt_number"
    (.json (.int attempt.attempt_number))).set "trigger" (.json (.str creation.trigger))
  occurred_at := occurred_at

def PageAttempt.event (attempt : PageAttempt Time) (previous : PageState)
    (transition : Transition Time) (payload : Payload) (occurred_at : Time) :
    PageAttemptTransitionEvent Time where
  tenant_id := attempt.tenant_id
  attempt_id := attempt.id
  sequence := attempt.event_sequence
  previous_state := some previous
  current_state := transition.target
  reason := transition.reason
  payload := (payload.set "attempt_id" (.json (.str attempt.id.str))).set "attempt_number"
    (.json (.int attempt.attempt_number))
  occurred_at := occurred_at

-- `utcnow` is what the clock shows when the call asks it.
def create_page_attempt (creation : Creation Time) (utcnow : Time) :
    Method (Session Time) Raised (PageAttempt Time) := do
  require (1 ≤ creation.attempt_number) (.value_error "page attempt numbers start at one")
  require (1 ≤ creation.max_attempts ∧ creation.max_attempts ≤ 5)
    (.value_error "max_attempts must be 1..5")
  let occurred_at := creation.now.getD utcnow
  let session ← self
  let attempt := PageAttempt.created creation session.attempts.length occurred_at
  assign (Session.add_attempt attempt)
  let payload ← check (_bounded_payload creation.payload)
  assign (Session.add_event (attempt.first_event creation payload occurred_at))
  return attempt

def transition_page_attempt (attempt : PageAttempt Time) (transition : Transition Time)
    (utcnow : Time) :
    Method (Session Time) Raised (Option (PageAttemptTransitionEvent Time)) := do
  let previous := attempt.status
  require (previous ∉ TERMINAL_PAGE_STATES)
    (.page_attempt_transition_error s!"terminal page attempt is immutable: {previous.value}")
  if previous = transition.target then
    return none
  else
    require (page_transition_allowed previous transition.target)
      (.page_attempt_transition_error
        s!"illegal page attempt transition: {previous.value}->{transition.target.value}")
    let occurred_at := transition.now.getD utcnow
    let moved := attempt.moved transition occurred_at
    assign (Session.put moved)
    let payload ← check (_bounded_payload transition.payload)
    let event := moved.event previous transition payload occurred_at
    assign (Session.add_event event)
    return some event

def attach_provider_invocation (attempt : PageAttempt Time) (invocation_id : UUID)
    (utcnow : Time) : Method (Session Time) Raised Unit := do
  require (attempt.status ∉ TERMINAL_PAGE_STATES)
    (.page_attempt_transition_error "terminal page attempt is immutable")
  require (attempt.provider_invocation_id = none ∨
      attempt.provider_invocation_id = some invocation_id)
    (.page_attempt_transition_error "page attempt already has a provider invocation")
  assign (Session.put (attempt.attached invocation_id utcnow))

end KnowledgeCompiler.Service
