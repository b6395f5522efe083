import KnowledgeCompiler.Parallel.Acceptance

namespace KnowledgeCompiler.Parallel

open Lib Method

theorem AttemptTransition.exists_make_iff {sequence : ℕ} {from_status : Option AttemptStatus}
    {to_status : AttemptStatus} {occurred_at : Datetime} {reason_code : String} :
    (∃ transition, make sequence from_status to_status occurred_at reason_code = .ok transition) ↔
      1 ≤ sequence ∧ require_aware occurred_at "occurred_at" = .ok () ∧
        require_identifier reason_code "reason_code" = .ok () := by
  constructor
  · rintro ⟨transition, hmade⟩
    unfold make at hmade
    split at hmade
    · rename_i hsequence
      split at hmade
      · cases hmade
      · rename_i haware
        split at hmade
        · cases hmade
        · rename_i hreason
          exact ⟨hsequence, haware, hreason⟩
    · cases hmade
  · rintro ⟨hsequence, haware, hreason⟩
    unfold make
    rw [dif_pos hsequence]
    split
    · rename_i refused hrefused
      rw [haware] at hrefused
      cases hrefused
    · split
      · rename_i refused hrefused
        rw [hreason] at hrefused
        cases hrefused
      · exact ⟨_, rfl⟩

theorem AttemptTransition.occurred_at_of_make {sequence : ℕ} {from_status : Option AttemptStatus}
    {to_status : AttemptStatus} {occurred_at : Datetime} {reason_code : String}
    {transition : AttemptTransition}
    (hmade : make sequence from_status to_status occurred_at reason_code = .ok transition) :
    transition.occurred_at = occurred_at := by
  unfold make at hmade
  split at hmade
  · split at hmade
    · cases hmade
    · split at hmade
      · cases hmade
      · obtain rfl := Except.ok.inj hmade
        rfl
  · cases hmade

namespace MutableAttempt

def WellDigested (record : MutableAttempt) : Prop :=
  ∀ digest ∈ record.validation_digest, is_sha256 digest = true

theorem well_digested_iff {record : MutableAttempt} :
    record.WellDigested ↔ ∃ snapshot, record.snapshot = .ok snapshot := by
  constructor
  · intro hdigest
    have hdigests : ∀ digest ∈ record.validation_digest, is_sha256 digest = true := hdigest
    unfold snapshot
    rw [dif_pos hdigests]
    exact ⟨_, rfl⟩
  · rintro ⟨snapshot, hsnapshot⟩
    exact well_formed_of_snapshot hsnapshot

theorem well_digested_moved (record : MutableAttempt) (transition : AttemptTransition) :
    (record.moved transition).WellDigested ↔ record.WellDigested := Iff.rfl

theorem moved_ne {record other : MutableAttempt}
    (hlonger : record.transitions.length ≤ other.transitions.length)
    (transition : AttemptTransition) : other.moved transition ≠ record := by
  rintro rfl
  simp [moved] at hlonger

-- What the checks of a transition read of a record.
structure SameHistory (record other : MutableAttempt) : Prop where
  status : record.status = other.status
  last : record.last = other.last
  length : record.transitions.length = other.transitions.length

end MutableAttempt

namespace AttemptStore

variable (hasher : Hasher)

-- The journal after an event has been offered to it, where there is one.
def told (events : Option EventJournal) (event_type aggregate_id : String)
    (payload : List (String × Json)) (occurred_at : Datetime) (idempotency_key : String) :
    Except Fault (Option EventJournal) :=
  events.elim (.ok none) fun journal =>
    (journal.append hasher event_type aggregate_id payload occurred_at idempotency_key).map some

def Takes (events : Option EventJournal) (event_type aggregate_id : String)
    (payload : List (String × Json)) (occurred_at : Datetime) (idempotency_key : String) : Prop :=
  (told hasher events event_type aggregate_id payload occurred_at idempotency_key).isOk = true

theorem takes_iff {events : Option EventJournal} {event_type aggregate_id idempotency_key : String}
    {payload : List (String × Json)} {occurred_at : Datetime} :
    Takes hasher events event_type aggregate_id payload occurred_at idempotency_key ↔
      ∃ next, told hasher events event_type aggregate_id payload occurred_at idempotency_key =
        .ok next := by
  unfold Takes
  cases told hasher events event_type aggregate_id payload occurred_at idempotency_key with
  | ok next => simp [Except.isOk, Except.toBool]
  | error fault => simp [Except.isOk, Except.toBool]

theorem ends_emit_iff {returned : Unit → AttemptStore → Prop} {raised : Fault → AttemptStore → Prop}
    (event_type aggregate_id : String) (payload : List (String × Json)) (occurred_at : Datetime)
    (idempotency_key : String) (store : AttemptStore) :
    Ends returned raised (emit hasher event_type aggregate_id payload occurred_at idempotency_key)
        store ↔
      (∀ events, told hasher store.events event_type aggregate_id payload occurred_at
        idempotency_key = .ok events → returned () { store with events := events }) ∧
      (∀ fault, told hasher store.events event_type aggregate_id payload occurred_at
        idempotency_key = .error fault → raised fault store) := by
  simp only [emit, ends_bind, ends_self, told]
  cases hevents : store.events with
  | none =>
    have hsame : { store with events := none } = store := by rw [← hevents]
    simp [hsame]
  | some journal =>
    simp only [ends_bind, ends_check, ends_assign, Option.elim_some]
    cases journal.append hasher event_type aggregate_id payload occurred_at idempotency_key with
    | error fault => simp [Except.map]
    | ok next => simp [Except.map]

theorem require_of_holds {holds : Prop} [Decidable holds] {fault : Fault} (hholds : holds)
    (store : AttemptStore) : require holds fault store = (.ok (), store) :=
  require_eq_ok_iff.mpr ⟨hholds, rfl⟩

section Exact

variable {store : AttemptStore} {attempt_id : String} {expected_status to_status : AttemptStatus}
  {occurred_at : Datetime} {reason_code : String} {record : MutableAttempt}
  {appended : AttemptTransition}

theorem transition_of_passes
    (hpasses : store.Passes attempt_id expected_status to_status occurred_at reason_code record
      appended) :
    transition hasher attempt_id expected_status to_status occurred_at reason_code store =
      (check (record.moved appended).snapshot >>= fun snapshot =>
        announce_start hasher attempt_id record to_status occurred_at >>= fun _ =>
          returns snapshot) (store.after_move attempt_id record appended) := by
  have hfound : record_of attempt_id store = (.ok record, store) := by
    refine bind_eq_ok_iff.mpr ⟨store, store, rfl, check_eq_ok_iff.mpr ⟨?_, rfl⟩⟩
    rw [hpasses.found]
    rfl
  unfold transition
  rw [bind_of_ok hfound,
    bind_of_ok (require_of_holds hpasses.expected store),
    bind_of_ok (require_of_holds hpasses.allowed store),
    bind_of_ok (check_eq_ok_iff.mpr ⟨mapError_eq_ok_iff.mpr hpasses.chronological, rfl⟩),
    bind_of_ok (require_of_holds rfl store),
    bind_of_ok (check_eq_ok_iff.mpr ⟨mapError_eq_ok_iff.mpr hpasses.made, rfl⟩)]
  rfl

-- How a transition ends, exactly: it is refused before anything has changed, or
-- it is made, and then the snapshot and the event of a start can still raise.
theorem ends_transition_iff {returned : AttemptSnapshot → AttemptStore → Prop}
    {kept : AttemptStore → Prop} :
    Ends returned (fun _ left => kept left)
        (transition hasher attempt_id expected_status to_status occurred_at reason_code) store ↔
      (∀ record appended, store.Passes attempt_id expected_status to_status occurred_at reason_code
        record appended →
          (∀ snapshot, (record.moved appended).snapshot = .ok snapshot →
            Ends (fun _ left => returned snapshot left) (fun _ left => kept left)
              (announce_start hasher attempt_id record to_status occurred_at)
              (store.after_move attempt_id record appended)) ∧
          (∀ fault, (record.moved appended).snapshot = .error fault →
            kept (store.after_move attempt_id record appended))) ∧
      ((¬∃ record appended, store.Passes attempt_id expected_status to_status occurred_at
        reason_code record appended) → kept store) := by
  by_cases hpassed : ∃ record appended, store.Passes attempt_id expected_status to_status occurred_at
    reason_code record appended
  · obtain ⟨record, appended, hpasses⟩ := hpassed
    have hends : Ends returned (fun _ left => kept left)
        (transition hasher attempt_id expected_status to_status occurred_at reason_code) store ↔
        Ends returned (fun _ left => kept left)
          (check (record.moved appended).snapshot >>= fun snapshot =>
            announce_start hasher attempt_id record to_status occurred_at >>= fun _ =>
              returns snapshot) (store.after_move attempt_id record appended) := by
      unfold Ends
      rw [transition_of_passes hasher hpasses]
    rw [hends]
    simp only [ends_bind, ends_check]
    constructor
    · intro hmade
      refine ⟨fun found second hother => ?_, fun hnone => absurd ⟨record, appended, hpasses⟩ hnone⟩
      obtain ⟨rfl, rfl⟩ := hpasses.unique hother
      exact hmade
    · intro hall
      exact hall.1 record appended hpasses
  · have hrefused : ∀ left result, transition hasher attempt_id expected_status to_status occurred_at
        reason_code store = (result, left) → left = store ∧ ∃ fault, result = .error fault := by
      intro left result hrun
      have hends := ends_transition hasher attempt_id expected_status to_status occurred_at
        reason_code store
      unfold Ends at hends
      rw [hrun] at hends
      cases result with
      | ok snapshot =>
        obtain ⟨record, appended, events, hpasses, -⟩ := hends
        exact absurd ⟨record, appended, hpasses⟩ hpassed
      | error fault =>
        rcases hends with ⟨hsame, -⟩ | ⟨record, appended, hpasses, -⟩
        · exact ⟨hsame, fault, rfl⟩
        · exact absurd ⟨record, appended, hpasses⟩ hpassed
    cases hrun : transition hasher attempt_id expected_status to_status occurred_at reason_code
      store with
    | mk result left =>
      obtain ⟨rfl, fault, rfl⟩ := hrefused left result hrun
      unfold Ends
      rw [hrun]
      constructor
      · intro hkept
        exact ⟨fun record appended hpasses => absurd ⟨record, appended, hpasses⟩ hpassed,
          fun _ => hkept⟩
      · intro hall
        exact hall.2 hpassed

theorem record_after_move (store : AttemptStore) (attempt_id : String) (record : MutableAttempt)
    (appended : AttemptTransition) :
    (store.after_move attempt_id record appended).records.get? attempt_id =
      some (record.moved appended) :=
  (records_after_move attempt_id).trans (if_pos rfl)

@[simp] theorem events_after_move :
    (store.after_move attempt_id record appended).events = store.events := by
  unfold after_move
  dsimp only
  split <;> rfl

theorem passes_put_iff {other : MutableAttempt} (hfound : store.records.get? attempt_id = some record)
    (hhistory : other.SameHistory record) :
    Passes { store with records := store.records.set attempt_id other } attempt_id expected_status
        to_status occurred_at reason_code other appended ↔
      store.Passes attempt_id expected_status to_status occurred_at reason_code record appended := by
  constructor
  · rintro ⟨-, hexpected, hallowed, hordered, hmade⟩
    rw [hhistory.status] at hexpected hallowed hmade
    rw [hhistory.last] at hordered
    rw [hhistory.length] at hmade
    exact ⟨hfound, hexpected, hallowed, hordered, hmade⟩
  · rintro ⟨-, hexpected, hallowed, hordered, hmade⟩
    rw [← hhistory.status] at hexpected hallowed hmade
    rw [← hhistory.last] at hordered
    rw [← hhistory.length] at hmade
    exact ⟨Dict.get?_set_self _ _ _, hexpected, hallowed, hordered, hmade⟩

-- A second move at the same instant: only its reason can still be refused.
theorem passes_again_iff {next_status : AttemptStatus} {second_reason : String}
    (hpasses : store.Passes attempt_id expected_status to_status occurred_at reason_code record
      appended) (hallowed : next_status ∈ ALLOWED_TRANSITIONS to_status) :
    (∃ second, (store.after_move attempt_id record appended).Passes attempt_id to_status next_status
      occurred_at second_reason (record.moved appended) second) ↔
        require_identifier second_reason "reason_code" = .ok () := by
  have hstatus : (record.moved appended).status = to_status := hpasses.to_status_eq
  constructor
  · rintro ⟨second, hsecond⟩
    exact (AttemptTransition.exists_make_iff.mp ⟨second, hsecond.made⟩).2.2
  · intro hreason
    have haware := (AttemptTransition.exists_make_iff.mp ⟨appended, hpasses.made⟩).2.1
    obtain ⟨second, hmade⟩ := AttemptTransition.exists_make_iff.mpr
      ⟨Nat.le_add_left 1 (record.moved appended).transitions.length, haware, hreason⟩
    refine ⟨second, record_after_move store attempt_id record appended, hstatus, ?_, ?_, hmade⟩
    · rw [hstatus]
      exact hallowed
    · have hlast : (record.moved appended).last.occurred_at = occurred_at := by
        rw [← AttemptTransition.occurred_at_of_make hpasses.made]
        simp [MutableAttempt.last, MutableAttempt.moved]
      rw [hlast]
      simp [Datetime.lt?]

end Exact

-- What a raising call shall leave: nothing of the attempts has changed.
structure SameAttempts (store left : AttemptStore) : Prop where
  records : left.records = store.records
  accepted_by_shard : left.accepted_by_shard = store.accepted_by_shard

-- If the call raises, it leaves a store as asked.
def RaisesTo (kept : AttemptStore → Prop) (store : AttemptStore) : Call → Prop
  | .create_root arguments =>
      Ends (fun _ _ => True) (fun _ => kept) (create_root hasher arguments) store
  | .create_child parent_attempt_id arguments =>
      Ends (fun _ _ => True) (fun _ => kept) (create_child hasher parent_attempt_id arguments) store
  | .transition attempt_id expected_status to_status occurred_at reason_code =>
      Ends (fun _ _ => True) (fun _ => kept)
        (transition hasher attempt_id expected_status to_status occurred_at reason_code) store
  | .attach_output attempt_id output idempotency_key =>
      Ends (fun _ _ => True) (fun _ => kept) (attach_output hasher attempt_id output idempotency_key)
        store
  | .record_validation attempt_id validation_digest passed occurred_at failure_reason =>
      Ends (fun _ _ => True) (fun _ => kept)
        (record_validation hasher attempt_id validation_digest passed occurred_at failure_reason)
        store
  | .accept attempt_id occurred_at idempotency_key =>
      Ends (fun _ _ => True) (fun _ => kept) (accept hasher attempt_id occurred_at idempotency_key)
        store
  | .quarantine attempt_id occurred_at reason_code =>
      Ends (fun _ _ => True) (fun _ => kept) (quarantine hasher attempt_id occurred_at reason_code)
        store
  | .append_event event_type aggregate_id payload occurred_at idempotency_key =>
      Ends (fun _ _ => True) (fun _ => kept)
        (emit hasher event_type aggregate_id payload occurred_at idempotency_key) store

-- When a call cannot raise any more once it has written: what is checked after the
-- first write would pass in the store before it.
def Prepared (store : AttemptStore) : Call → Prop
  | .transition attempt_id expected_status to_status occurred_at reason_code =>
      ∀ record appended, store.Passes attempt_id expected_status to_status occurred_at reason_code
        record appended →
        record.WellDigested ∧
          (to_status = .RUNNING →
            Takes hasher store.events "attempt.started.v1" attempt_id
              [("shard_id", .str record.attempt.shard_id),
                ("worker_id", .str record.attempt.worker_id)]
              occurred_at s!"attempt-started:{attempt_id}")
  | .attach_output attempt_id output idempotency_key =>
      ∀ record, store.records.get? attempt_id = some record → record.output = none →
        record.status = .RUNNING →
        (∃ appended, store.Passes attempt_id .RUNNING .OUTPUT_RECEIVED output.completed_at
          "output_received" record appended) ∧
        record.WellDigested ∧
        Takes hasher store.events "attempt.output.received.v1" attempt_id
          [("prediction_sha256", .str output.prediction_sha256),
            ("prediction_uri", .str output.prediction_uri)]
          output.completed_at idempotency_key
  | .record_validation attempt_id validation_digest passed occurred_at failure_reason =>
      ∀ record, store.records.get? attempt_id = some record → record.validation_digest = none →
        record.status = .OUTPUT_RECEIVED →
        (∃ appended, store.Passes attempt_id .OUTPUT_RECEIVED .VALIDATING occurred_at
          "validation_started" record appended) ∧
        is_sha256 validation_digest = true ∧
        (passed = false →
          require_identifier failure_reason "reason_code" = .ok () ∧
          ∃ failed, told hasher store.events "attempt.validation.failed.v1" attempt_id
            [("validation_sha256", .str validation_digest), ("reason", .str failure_reason)]
            occurred_at s!"validation-failed:{attempt_id}:{validation_digest}" = .ok failed ∧
          Takes hasher failed "attempt.rejected.v1" attempt_id [("reason", .str failure_reason)]
            occurred_at s!"attempt-rejected:{attempt_id}:{validation_digest}")
  | .accept attempt_id occurred_at idempotency_key =>
      ∀ record, store.records.get? attempt_id = some record →
        store.acceptance_keys.get? idempotency_key = none → record.validation_digest.isSome →
        (∀ existing_id existing appended,
          store.accepted_by_shard.get? record.attempt.shard_id = some existing_id →
          store.records.get? existing_id = some existing →
          store.Passes attempt_id .VALIDATING .SUPERSEDED occurred_at
            "first_verified_result_already_accepted" record appended →
          record.WellDigested ∧ existing.WellDigested) ∧
        (∀ appended, store.accepted_by_shard.get? record.attempt.shard_id = none →
          store.Passes attempt_id .VALIDATING .ACCEPTED occurred_at
            "hard_gates_passed_and_arbitrated" record appended →
          record.WellDigested ∧
          Takes hasher store.events "attempt.accepted.v1" attempt_id
            [("shard_id", .str record.attempt.shard_id),
              ("validation_sha256", optional_json record.validation_digest)]
            occurred_at s!"attempt-accepted:{record.attempt.shard_id}:{attempt_id}")
  | .quarantine attempt_id occurred_at reason_code =>
      ∀ record appended, store.Passes attempt_id record.status .QUARANTINED occurred_at reason_code
        record appended → record.WellDigested
  | _ => True

section Kept

variable {store : AttemptStore} {kept : AttemptStore → Prop} (hkept : kept store)
  (hrecords : ∀ left, kept left → left.records = store.records)

include hrecords in
theorem not_kept {left : AttemptStore} {attempt_id : String} {record other : MutableAttempt}
    (hfound : store.records.get? attempt_id = some record)
    (hleft : left.records.get? attempt_id = some other) (hne : other ≠ record) : ¬kept left := by
  intro hleft_kept
  rw [hrecords left hleft_kept, hfound] at hleft
  exact hne (Option.some.inj hleft).symm

include hkept hrecords in
theorem ends_transition_kept_iff {returned : AttemptSnapshot → AttemptStore → Prop}
    {attempt_id : String} {expected_status to_status : AttemptStatus} {occurred_at : Datetime}
    {reason_code : String} :
    Ends returned (fun _ => kept)
        (transition hasher attempt_id expected_status to_status occurred_at reason_code) store ↔
      ∀ record appended, store.Passes attempt_id expected_status to_status occurred_at reason_code
        record appended → ∃ snapshot, (record.moved appended).snapshot = .ok snapshot ∧
          Ends (fun _ => returned snapshot) (fun _ => kept)
            (announce_start hasher attempt_id record to_status occurred_at)
            (store.after_move attempt_id record appended) := by
  rw [ends_transition_iff]
  constructor
  · rintro ⟨hmade, -⟩ record appended hpasses
    obtain ⟨hsnapshot, hfault⟩ := hmade record appended hpasses
    cases htaken : (record.moved appended).snapshot with
    | ok snapshot => exact ⟨snapshot, rfl, hsnapshot snapshot htaken⟩
    | error fault =>
      exact absurd (hfault fault htaken) (not_kept hrecords hpasses.found
        (record_after_move store attempt_id record appended) (MutableAttempt.moved_ne le_rfl appended))
  · intro hmade
    refine ⟨fun record appended hpasses => ?_, fun _ => hkept⟩
    obtain ⟨snapshot, hsnapshot, hends⟩ := hmade record appended hpasses
    rw [hsnapshot]
    exact ⟨fun taken htaken => Except.ok.inj htaken ▸ hends, fun fault hfault => by cases hfault⟩

-- The same once the record has been written to: the transition has to be made.
include hrecords in
theorem ends_transition_written_iff {returned : AttemptSnapshot → AttemptStore → Prop}
    {written : AttemptStore} {attempt_id : String} {expected_status to_status : AttemptStatus}
    {occurred_at : Datetime} {reason_code : String} {record other : MutableAttempt}
    (hfound : store.records.get? attempt_id = some record)
    (hwritten : written.records.get? attempt_id = some other) (hother : other ≠ record)
    (hlonger : record.transitions.length ≤ other.transitions.length) (hquiet : to_status ≠ .RUNNING) :
    Ends returned (fun _ => kept)
        (transition hasher attempt_id expected_status to_status occurred_at reason_code) written ↔
      ∃ appended, written.Passes attempt_id expected_status to_status occurred_at reason_code other
        appended ∧ ∃ snapshot, (other.moved appended).snapshot = .ok snapshot ∧
          returned snapshot (written.after_move attempt_id other appended) := by
  simp only [ends_transition_iff, announce_start, if_neg hquiet, ends_returns]
  constructor
  · rintro ⟨hmade, hrefused⟩
    have hpassed : ∃ found appended, written.Passes attempt_id expected_status to_status occurred_at
        reason_code found appended := by
      by_contra hnone
      exact not_kept hrecords hfound hwritten hother (hrefused hnone)
    obtain ⟨found, appended, hpasses⟩ := hpassed
    obtain rfl := Option.some.inj (hwritten.symm.trans hpasses.found)
    obtain ⟨hsnapshot, hfault⟩ := hmade other appended hpasses
    refine ⟨appended, hpasses, ?_⟩
    cases htaken : (other.moved appended).snapshot with
    | ok snapshot => exact ⟨snapshot, rfl, hsnapshot snapshot htaken⟩
    | error fault =>
      exact absurd (hfault fault htaken) (not_kept hrecords hfound
        (record_after_move written attempt_id other appended)
        (MutableAttempt.moved_ne hlonger appended))
  · rintro ⟨appended, hpasses, snapshot, hsnapshot, hreturned⟩
    refine ⟨fun found second hpassed => ?_, fun hnone => absurd ⟨other, appended, hpasses⟩ hnone⟩
    obtain ⟨rfl, rfl⟩ := hpasses.unique hpassed
    rw [hsnapshot]
    exact ⟨fun taken htaken => Except.ok.inj htaken ▸ hreturned, fun fault hfault => by cases hfault⟩

-- An event after a write has to be taken.
include hrecords in
theorem ends_emit_written_iff {returned : Unit → AttemptStore → Prop} {written : AttemptStore}
    {attempt_id event_type aggregate_id idempotency_key : String} {payload : List (String × Json)}
    {occurred_at : Datetime} {record other : MutableAttempt}
    (hfound : store.records.get? attempt_id = some record)
    (hwritten : written.records.get? attempt_id = some other) (hother : other ≠ record) :
    Ends returned (fun _ => kept)
        (emit hasher event_type aggregate_id payload occurred_at idempotency_key) written ↔
      ∃ events, told hasher written.events event_type aggregate_id payload occurred_at
        idempotency_key = .ok events ∧ returned () { written with events := events } := by
  rw [ends_emit_iff]
  cases told hasher written.events event_type aggregate_id payload occurred_at idempotency_key with
  | ok events => simp
  | error fault =>
    simp [not_kept hrecords hfound hwritten hother]

include hrecords in
theorem ends_emit_again_iff {returned : Unit → AttemptStore → Prop} {written : AttemptStore}
    {events : Option EventJournal} {attempt_id event_type aggregate_id idempotency_key : String}
    {payload : List (String × Json)} {occurred_at : Datetime} {record other : MutableAttempt}
    (hfound : store.records.get? attempt_id = some record)
    (hwritten : written.records.get? attempt_id = some other) (hother : other ≠ record) :
    Ends returned (fun _ => kept)
        (emit hasher event_type aggregate_id payload occurred_at idempotency_key)
        { written with events := events } ↔
      ∃ next, told hasher events event_type aggregate_id payload occurred_at idempotency_key =
        .ok next ∧ returned () { written with events := next } :=
  ends_emit_written_iff hasher hrecords hfound (by exact hwritten) hother

include hkept hrecords in
theorem transition_raises_iff (attempt_id : String) (expected_status to_status : AttemptStatus)
    (occurred_at : Datetime) (reason_code : String) :
    RaisesTo hasher kept store
        (.transition attempt_id expected_status to_status occurred_at reason_code) ↔
      Prepared hasher store
        (.transition attempt_id expected_status to_status occurred_at reason_code) := by
  simp only [RaisesTo, Prepared, ends_transition_kept_iff hasher hkept hrecords, announce_start,
    ends_ite, ends_returns, implies_true, and_true]
  refine forall_congr' fun record => forall_congr' fun appended => forall_congr' fun hpasses => ?_
  simp only [ends_emit_written_iff hasher hrecords hpasses.found
    (record_after_move store attempt_id record appended) (MutableAttempt.moved_ne le_rfl appended),
    events_after_move, and_true, exists_and_right, ← MutableAttempt.well_digested_iff,
    MutableAttempt.well_digested_moved, takes_iff]

include hkept hrecords in
theorem quarantine_raises_iff (attempt_id : String) (occurred_at : Datetime) (reason_code : String) :
    RaisesTo hasher kept store (.quarantine attempt_id occurred_at reason_code) ↔
      Prepared hasher store (.quarantine attempt_id occurred_at reason_code) := by
  simp only [RaisesTo, Prepared, quarantine, ends_bind, ends_record_of, ends_ite, ends_check,
    ends_require, ends_transition_kept_iff hasher hkept hrecords, announce_start, ends_returns,
    reduceCtorEq, false_implies, not_false_eq_true, implies_true, hkept, and_true, true_and,
    ← MutableAttempt.well_digested_iff, MutableAttempt.well_digested_moved]
  constructor
  · intro hmade record appended hpasses
    have hallowed := hpasses.allowed
    have hstanding : ¬record.status = .QUARANTINED := by
      intro hstatus
      rw [hstatus] at hallowed
      cases hallowed
    exact hmade record hpasses.found hstanding hallowed record appended hpasses
  · intro hmade record hfound _ _ found appended hpasses
    obtain rfl := Option.some.inj (hfound.symm.trans hpasses.found)
    exact hmade record appended hpasses

include hkept hrecords in
theorem attach_output_raises_iff (attempt_id : String) (output : AttemptOutput)
    (idempotency_key : String) :
    RaisesTo hasher kept store (.attach_output attempt_id output idempotency_key) ↔
      Prepared hasher store (.attach_output attempt_id output idempotency_key) := by
  simp only [RaisesTo, Prepared, attach_output, ends_bind, ends_record_of, hkept, implies_true,
    and_true]
  refine forall_congr' fun record => forall_congr' fun hfound => ?_
  cases houtput : record.output with
  | some attached => simp [hkept]
  | none =>
    simp only [ends_bind, ends_require, put, ends_assign, hkept, implies_true, and_true,
      true_implies]
    refine forall_congr' fun hrunning => ?_
    obtain ⟨other, hsame⟩ : ∃ other, other = { record with output := some output } := ⟨_, rfl⟩
    have hother : other ≠ record := by
      rintro rfl
      rw [hsame] at houtput
      cases houtput
    have hhistory : other.SameHistory record := by
      rw [hsame]
      exact ⟨rfl, rfl, rfl⟩
    have hlonger : record.transitions.length ≤ other.transitions.length := hhistory.length.ge
    have hdigest : other.WellDigested ↔ record.WellDigested := by rw [hsame]; rfl
    rw [← hsame, ends_transition_written_iff hasher hrecords hfound (Dict.get?_set_self _ _ _) hother
      hlonger (by simp)]
    simp only [ends_bind, ends_emit_written_iff hasher hrecords hfound (record_after_move
          { store with records := store.records.set attempt_id other } attempt_id other _)
        (MutableAttempt.moved_ne hlonger _), events_after_move, exists_and_right,
      ← MutableAttempt.well_digested_iff, MutableAttempt.well_digested_moved, hdigest, takes_iff,
      ends_returns, and_true, passes_put_iff hfound hhistory]

include hkept hrecords in
theorem record_validation_raises_iff (attempt_id validation_digest : String) (passed : Bool)
    (occurred_at : Datetime) (failure_reason : String) :
    RaisesTo hasher kept store
        (.record_validation attempt_id validation_digest passed occurred_at failure_reason) ↔
      Prepared hasher store
        (.record_validation attempt_id validation_digest passed occurred_at failure_reason) := by
  simp only [RaisesTo, Prepared, record_validation, ends_bind, ends_record_of, hkept, implies_true,
    and_true]
  refine forall_congr' fun record => forall_congr' fun hfound => ?_
  cases hnone : record.validation_digest with
  | some recorded => simp [hkept]
  | none =>
    simp only [ends_bind, ends_require, put, ends_assign, hkept, implies_true, and_true,
      true_implies]
    refine forall_congr' fun hreceived => ?_
    obtain ⟨other, hsame⟩ : ∃ other,
      other = { record with validation_digest := some validation_digest } := ⟨_, rfl⟩
    have hother : other ≠ record := by
      rintro rfl
      rw [hsame] at hnone
      cases hnone
    have hhistory : other.SameHistory record := by
      rw [hsame]
      exact ⟨rfl, rfl, rfl⟩
    have hlonger : record.transitions.length ≤ other.transitions.length := hhistory.length.ge
    have hdigest : other.WellDigested ↔ is_sha256 validation_digest = true := by
      simp [hsame, MutableAttempt.WellDigested]
    rw [← hsame, ends_transition_written_iff hasher hrecords hfound (Dict.get?_set_self _ _ _) hother
      hlonger (by simp)]
    simp only [ends_ite, ends_returns, implies_true, true_and, Bool.not_eq_true]
    have hsecond (appended : AttemptTransition) :
        record.transitions.length ≤ (other.moved appended).transitions.length :=
      hlonger.trans (by simp [MutableAttempt.moved])
    have hquiet : AttemptStatus.REJECTED ≠ .RUNNING := by simp
    simp only [ends_bind, ends_transition_written_iff hasher hrecords hfound (record_after_move
        { store with records := store.records.set attempt_id other } attempt_id other _)
        (MutableAttempt.moved_ne hlonger _) (hsecond _) hquiet,
      ends_emit_written_iff hasher hrecords hfound
        (record_after_move (after_move _ attempt_id other _) attempt_id _ _)
        (MutableAttempt.moved_ne (hsecond _) _),
      ends_emit_again_iff hasher hrecords hfound
        (record_after_move (after_move _ attempt_id other _) attempt_id _ _)
        (MutableAttempt.moved_ne (hsecond _) _), ends_returns, and_true, exists_and_right,
      events_after_move,
      ← MutableAttempt.well_digested_iff, MutableAttempt.well_digested_moved, hdigest, takes_iff]
    constructor
    · rintro ⟨appended, hpasses, hvalid, hfailed⟩
      refine ⟨⟨appended, (passes_put_iff hfound hhistory).mp hpasses⟩, hvalid, fun hnot => ?_⟩
      obtain ⟨hagain, -, htold⟩ := hfailed hnot
      exact ⟨(passes_again_iff hpasses (by decide)).mp hagain, htold⟩
    · rintro ⟨⟨appended, hpassed⟩, hvalid, hfailed⟩
      have hpasses := (passes_put_iff hfound hhistory).mpr hpassed
      refine ⟨appended, hpasses, hvalid, fun hnot => ?_⟩
      obtain ⟨hreason, htold⟩ := hfailed hnot
      exact ⟨(passes_again_iff hpasses (by decide)).mpr hreason, hvalid, htold⟩

include hkept hrecords in
theorem accept_raises_iff (attempt_id : String) (occurred_at : Datetime) (idempotency_key : String) :
    RaisesTo hasher kept store (.accept attempt_id occurred_at idempotency_key) ↔
      Prepared hasher store (.accept attempt_id occurred_at idempotency_key) := by
  simp only [RaisesTo, Prepared, accept, ends_bind, ends_record_of, ends_self, hkept, implies_true,
    and_true]
  refine forall_congr' fun record => forall_congr' fun hfound => ?_
  cases hkeyed : store.acceptance_keys.get? idempotency_key with
  | some keyed => simp [hkept]
  | none =>
    simp only [ends_ite, ends_bind, ends_check, ends_require, remember, ends_assign, ends_returns,
      hkept, implies_true, and_true, true_and, true_implies]
    cases hshard : store.accepted_by_shard.get? record.attempt.shard_id with
    | some existing_id =>
      simp only [ends_bind, ends_check, ends_transition_kept_iff hasher hkept hrecords,
        announce_start, reduceCtorEq, if_false, ends_assign, ends_returns]
      constructor
      · intro hmade hdigest
        refine ⟨fun _ existing appended hid hexisting hpasses => ?_, fun _ hfalse => hfalse.elim⟩
        obtain rfl := Option.some.inj hid
        have hstatus := hpasses.expected
        obtain ⟨snapshot, hsnapshot, -, hfault⟩ := (hmade (by simp [hstatus]) ⟨hstatus, hdigest⟩).1
          existing (by rw [hexisting]; rfl) record appended hpasses
        have hmoved := MutableAttempt.well_digested_iff.mpr ⟨snapshot, hsnapshot⟩
        refine ⟨(record.well_digested_moved appended).mp hmoved, ?_⟩
        rw [MutableAttempt.well_digested_iff]
        cases hwinner : existing.snapshot with
        | ok winner => exact ⟨winner, rfl⟩
        | error fault =>
          exact absurd (hfault fault hwinner) (not_kept hrecords hfound
            (record_after_move store attempt_id record appended)
            (MutableAttempt.moved_ne le_rfl appended))
      · intro hprepared _ hvalidated
        refine ⟨fun existing hexisting found appended hpasses => ?_, fun _ _ => hkept⟩
        obtain rfl := Option.some.inj (hfound.symm.trans hpasses.found)
        have hregistered : store.records.get? existing_id = some existing := by
          cases hget : store.records.get? existing_id with
          | none => simp [hget] at hexisting
          | some other => simpa [hget] using hexisting
        obtain ⟨hwell, hwinner⟩ :=
          (hprepared hvalidated.2).1 existing_id existing appended rfl hregistered hpasses
        obtain ⟨snapshot, hsnapshot⟩ := MutableAttempt.well_digested_iff.mp
          ((record.well_digested_moved appended).mpr hwell)
        obtain ⟨winner, htaken⟩ := MutableAttempt.well_digested_iff.mp hwinner
        refine ⟨snapshot, hsnapshot, fun _ _ => trivial, fun fault hfault => ?_⟩
        rw [htaken] at hfault
        cases hfault
    | none =>
      simp only [ends_bind, ends_transition_kept_iff hasher hkept hrecords,
        announce_start, reduceCtorEq, if_false, ends_assign, ends_returns, takes_iff]
      constructor
      · intro hmade hdigest
        refine ⟨fun _ _ _ hfalse => hfalse.elim, fun appended _ hpasses => ?_⟩
        have hstatus := hpasses.expected
        obtain ⟨snapshot, hsnapshot, hends⟩ :=
          hmade (by simp [hstatus]) ⟨hstatus, hdigest⟩ record appended hpasses
        obtain ⟨events, htold, -⟩ := (ends_emit_written_iff hasher hrecords hfound
          (by exact record_after_move store attempt_id record appended)
          (MutableAttempt.moved_ne le_rfl appended)).mp hends
        rw [events_after_move] at htold
        have hmoved := MutableAttempt.well_digested_iff.mpr ⟨snapshot, hsnapshot⟩
        exact ⟨(record.well_digested_moved appended).mp hmoved, events, htold⟩
      · intro hprepared _ hvalidated found appended hpasses
        obtain rfl := Option.some.inj (hfound.symm.trans hpasses.found)
        obtain ⟨hwell, events, htold⟩ := (hprepared hvalidated.2).2 appended trivial hpasses
        obtain ⟨snapshot, hsnapshot⟩ := MutableAttempt.well_digested_iff.mp
          ((record.well_digested_moved appended).mpr hwell)
        refine ⟨snapshot, hsnapshot, (ends_emit_written_iff hasher hrecords hfound
          (by exact record_after_move store attempt_id record appended)
          (MutableAttempt.moved_ne le_rfl appended)).mpr ⟨events, ?_, trivial⟩⟩
        rw [events_after_move]
        exact htold

include hkept in
theorem ends_create (attempt : ParseAttempt) (idempotency_key : String) :
    Ends (fun _ _ => True) (fun _ => kept) (create hasher attempt idempotency_key) store := by
  unfold create
  simp only [ends_bind, ends_self]
  cases store.creation_keys.get? idempotency_key with
  | some existing_id => simp [hkept]
  | none =>
    simp only [ends_bind, ends_check, ends_require, put, ends_assign]
    refine ⟨fun _ => ⟨fun transition _ => ⟨fun _ _ => trivial, fun fault hfault => ?_⟩,
      fun _ _ => hkept⟩, fun _ => hkept⟩
    -- a new record has no digest yet
    obtain ⟨digest, hdigest, -⟩ := ill_formed_of_snapshot hfault
    cases hdigest

include hkept in
theorem create_root_raises_iff (arguments : RootArguments) :
    RaisesTo hasher kept store (.create_root arguments) ↔
      Prepared hasher store (.create_root arguments) := by
  simp only [RaisesTo, Prepared, create_root, ends_bind, ends_check, hkept, implies_true, and_true,
    ends_create hasher hkept]

include hkept in
theorem create_child_raises_iff (parent_attempt_id : String) (arguments : ChildArguments) :
    RaisesTo hasher kept store (.create_child parent_attempt_id arguments) ↔
      Prepared hasher store (.create_child parent_attempt_id arguments) := by
  simp only [RaisesTo, Prepared, create_child, ends_bind, ends_require, ends_record_of, ends_check,
    hkept, implies_true, and_true, ends_create hasher hkept]

include hkept in
theorem append_event_raises_iff (event_type aggregate_id : String) (payload : List (String × Json))
    (occurred_at : Datetime) (idempotency_key : String) :
    RaisesTo hasher kept store
        (.append_event event_type aggregate_id payload occurred_at idempotency_key) ↔
      Prepared hasher store
        (.append_event event_type aggregate_id payload occurred_at idempotency_key) := by
  simp only [RaisesTo, Prepared, ends_emit_iff, hkept, implies_true, and_true]

include hkept hrecords in
theorem raises_iff_prepared (call : Call) :
    RaisesTo hasher kept store call ↔ Prepared hasher store call := by
  cases call with
  | create_root arguments =>
    exact create_root_raises_iff hasher hkept arguments
  | create_child parent_attempt_id arguments =>
    exact create_child_raises_iff hasher hkept parent_attempt_id arguments
  | transition attempt_id expected_status to_status occurred_at reason_code =>
    exact transition_raises_iff hasher hkept hrecords attempt_id expected_status to_status
      occurred_at reason_code
  | attach_output attempt_id output idempotency_key =>
    exact attach_output_raises_iff hasher hkept hrecords attempt_id output idempotency_key
  | record_validation attempt_id validation_digest passed occurred_at failure_reason =>
    exact record_validation_raises_iff hasher hkept hrecords attempt_id validation_digest passed
      occurred_at failure_reason
  | accept attempt_id occurred_at idempotency_key =>
    exact accept_raises_iff hasher hkept hrecords attempt_id occurred_at idempotency_key
  | quarantine attempt_id occurred_at reason_code =>
    exact quarantine_raises_iff hasher hkept hrecords attempt_id occurred_at reason_code
  | append_event event_type aggregate_id payload occurred_at idempotency_key =>
    exact append_event_raises_iff hasher hkept event_type aggregate_id payload occurred_at
      idempotency_key

end Kept

-- A call that raises leaves the attempts as they were exactly when nothing that is
-- checked after its first write can fail, and then it leaves the whole store so.
theorem raising_call_unchanged_iff (store : AttemptStore) (call : Call) :
    (RaisesTo hasher (SameAttempts store) store call ↔ Prepared hasher store call) ∧
      (RaisesTo hasher (fun left => left = store) store call ↔ Prepared hasher store call) := by
  have hattempts : SameAttempts store store := ⟨rfl, rfl⟩
  constructor
  · exact @raises_iff_prepared hasher store (SameAttempts store) hattempts
      (fun _ hsame => hsame.records) call
  · exact @raises_iff_prepared hasher store (fun left => left = store) rfl
      (fun _ hsame => congrArg records hsame) call

end AttemptStore

open AttemptStore

def early_at : Datetime := { dispatched_at with hour := 8, time_range := by decide }

def early_output : AttemptOutput where
  prediction_uri := "prediction-1"
  prediction_sha256 := plain_digest
  completed_at := early_at
  cost := unpaid
  located := by decide
  digested := is_sha256_plain
  aware := by decide

-- The output of a waiting attempt that was completed before its last transition:
-- the transition is refused, and the output stays.
theorem AttemptStore.Waiting.half_attached {store : AttemptStore} {attempt_id : String}
    (hwaiting : Waiting store attempt_id .RUNNING) (hasher : Hasher) (idempotency_key : String) :
    ¬RaisesTo hasher (SameAttempts store) store
      (.attach_output attempt_id early_output idempotency_key) := by
  intro hraises
  obtain ⟨record, hfound, hstatus, houtput, hlast⟩ := hwaiting
  have hprepared := (attach_output_raises_iff hasher ⟨rfl, rfl⟩ (fun _ hsame => hsame.records)
    attempt_id early_output idempotency_key).mp hraises
  obtain ⟨⟨appended, hpasses⟩, -⟩ := hprepared record hfound houtput hstatus
  have hordered := hpasses.chronological
  rw [hlast] at hordered
  have hearly : early_output.completed_at.lt? dispatched_at = .ok true := rfl
  cases hearly.symm.trans hordered

theorem refused_output_attached :
    ¬RaisesTo sha256 (SameAttempts (run sha256 none (started (plain_id sha256))))
      (run sha256 none (started (plain_id sha256)))
      (.attach_output (plain_id sha256) early_output "output-1") :=
  (waiting_started sha256).half_attached sha256 "output-1"

end KnowledgeCompiler.Parallel
