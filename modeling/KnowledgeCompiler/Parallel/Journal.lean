import KnowledgeCompiler.Lib.Method
import KnowledgeCompiler.Parallel.Models

namespace KnowledgeCompiler.Parallel

open Lib Method

-- What a call on the stores raises.
inductive Fault
  | value_error (message : String)
  | type_error (message : String)
  | key_error (key : String)
  | runtime_error (message : String)
  | event_conflict (message : String)
  | attempt_not_found (attempt_id : String)
  | attempt_conflict (message : String)
  | invalid_transition (message : String)
  | immutable_attempt (message : String)
deriving DecidableEq

def PARALLEL_RUNTIME_EVENT_TYPES : List String :=
  ["shard.planned.v1", "shard.dispatched.v1", "attempt.started.v1", "attempt.output.received.v1",
    "attempt.validation.failed.v1", "attempt.accepted.v1", "attempt.rejected.v1",
    "attempt.hedged.v1", "worker.semantic.degraded.v1", "worker.draining.v1",
    "worker.quarantined.v1", "recovery.region.requested.v1", "recovery.completed.v1",
    "recovery.planned.v1", "recovery.started.v1", "recovery.validated.v1", "region.verified.v1",
    "region.unresolved.v1", "worker.semantic.canary_failed.v1", "impact.replay.requested.v1",
    "final.accuracy.calculated.v1", "trust.receipt.issued.v1", "drift.detected.v1",
    "rollback.triggered.v1", "quality.finding.created.v1", "recovery.plan.created.v1",
    "recovery.attempt.started.v1", "recovery.candidate.generated.v1",
    "recovery.validation.completed.v1", "recovery.candidate.accepted.v1", "recovery.exhausted.v1",
    "knowledge.objects.invalidated.v1", "knowledge.objects.regenerated.v1",
    "package.trust_receipt.created.v1", "continuity.merge.started.v1",
    "continuity.merge.completed.v1", "document.finalized.v1"]

structure DomainEvent where
  event_id : String
  event_type : String
  aggregate_id : String
  sequence : ℕ
  occurred_at : Datetime
  payload_json : List Char
  payload_sha256 : String
  idempotency_key : String

def DomainEvent.payload (event : DomainEvent) : Except Fault (List (String × Json)) :=
  match Json.loads event.payload_json with
  | some (.obj members) => .ok members
  | _ => .error (.runtime_error "domain event payload must decode to an object")

structure EventJournal where
  events : List DomainEvent := []
  keys : Dict String DomainEvent := .empty
  sequences : Dict String ℕ := .empty
  last_occurred_at : Dict String Datetime := .empty

namespace EventJournal

variable (hasher : Hasher)

def event_identity (event_type aggregate_id : String) (payload : List (String × Json)) : String :=
  canonical_sha256 hasher
    (.obj [("event_type", .str event_type), ("aggregate_id", .str aggregate_id),
      ("payload", .obj payload)])

def record (journal : EventJournal) (event_type aggregate_id : String)
    (payload : List (String × Json)) (occurred_at : Datetime) (idempotency_key : String) :
    EventJournal :=
  let digest := canonical_sha256 hasher (.obj payload)
  let sequence := (journal.sequences.get? aggregate_id).getD 0 + 1
  let event : DomainEvent :=
    { event_id := stable_id hasher "evt"
        [.str event_type, .str aggregate_id, .str idempotency_key, .str digest]
      event_type, aggregate_id, sequence, occurred_at
      payload_json := canonical_json (.obj payload)
      payload_sha256 := digest
      idempotency_key }
  { events := journal.events ++ [event]
    keys := journal.keys.set idempotency_key event
    sequences := journal.sequences.set aggregate_id sequence
    last_occurred_at := journal.last_occurred_at.set aggregate_id occurred_at }

-- The journal after an append; nothing has changed in it when one raises.
def append (journal : EventJournal) (event_type aggregate_id : String)
    (payload : List (String × Json)) (occurred_at : Datetime) (idempotency_key : String) :
    Except Fault EventJournal := do
  refuse_if (event_type ∉ PARALLEL_RUNTIME_EVENT_TYPES)
    (.value_error s!"unsupported parallel runtime event type: {event_type}")
  refuse_if (occurred_at.utcoffset.isNone = true)
    (.value_error "event occurred_at must be timezone-aware")
  match journal.keys.get? idempotency_key with
  | some existing =>
      let kept ← existing.payload
      refuse_if (event_identity hasher existing.event_type existing.aggregate_id kept ≠
          event_identity hasher event_type aggregate_id payload)
        (.event_conflict "idempotency key reused with a different event")
      .ok journal
  | none =>
      match journal.last_occurred_at.get? aggregate_id with
      | some previous_occurred_at =>
          let earlier ← (occurred_at.lt? previous_occurred_at).mapError .type_error
          refuse_if (earlier = true) (.value_error "aggregate events must be chronological")
          .ok (journal.record hasher event_type aggregate_id payload occurred_at idempotency_key)
      | none =>
          .ok (journal.record hasher event_type aggregate_id payload occurred_at idempotency_key)

-- What an append has checked where it returns, and what it has done.
theorem append_returns {hasher : Hasher} {journal next : EventJournal}
    {event_type aggregate_id idempotency_key : String} {payload : List (String × Json)}
    {occurred_at : Datetime}
    (happend : journal.append hasher event_type aggregate_id payload occurred_at idempotency_key =
      .ok next) :
    event_type ∈ PARALLEL_RUNTIME_EVENT_TYPES ∧ occurred_at.utcoffset.isNone = false ∧
      ((∃ existing, journal.keys.get? idempotency_key = some existing ∧ next = journal) ∨
        (journal.keys.get? idempotency_key = none ∧
          (∀ previous, journal.last_occurred_at.get? aggregate_id = some previous →
            occurred_at.lt? previous = .ok false) ∧
          next = journal.record hasher event_type aggregate_id payload occurred_at
            idempotency_key)) := by
  unfold append at happend
  obtain ⟨_, htype, happend⟩ := of_bind_eq_ok happend
  obtain ⟨_, haware, happend⟩ := of_bind_eq_ok happend
  refine ⟨not_not.mp (refuse_if_eq_ok_iff.mp htype),
    Bool.not_eq_true _ |>.mp (refuse_if_eq_ok_iff.mp haware), ?_⟩
  cases hfound : journal.keys.get? idempotency_key with
  | some existing =>
      rw [hfound] at happend
      obtain ⟨_, -, happend⟩ := of_bind_eq_ok happend
      obtain ⟨_, -, happend⟩ := of_bind_eq_ok happend
      exact .inl ⟨existing, rfl, (Except.ok.inj happend).symm⟩
  | none =>
      refine .inr ⟨rfl, ?_⟩
      rw [hfound] at happend
      cases hlast : journal.last_occurred_at.get? aggregate_id with
      | none =>
          simp only [hlast] at happend
          exact ⟨fun _ hsome => absurd hsome (Option.some_ne_none _).symm,
            (Except.ok.inj happend).symm⟩
      | some previous =>
          simp only [hlast] at happend
          obtain ⟨earlier, hearlier, happend⟩ := of_bind_eq_ok happend
          obtain ⟨_, hrefused, happend⟩ := of_bind_eq_ok happend
          have hnot := Bool.not_eq_true _ |>.mp (refuse_if_eq_ok_iff.mp hrefused)
          rw [hnot] at hearlier
          refine ⟨fun other hother => ?_, (Except.ok.inj happend).symm⟩
          cases hother
          exact mapError_eq_ok_iff.mp hearlier

end EventJournal

end KnowledgeCompiler.Parallel
