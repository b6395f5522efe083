import KnowledgeCompiler.Parallel.Attempts

namespace KnowledgeCompiler.Parallel

open Lib Method

theorem AttemptTransition.to_status_of_make {sequence : ℕ} {from_status : Option AttemptStatus}
    {to_status : AttemptStatus} {occurred_at : Datetime} {reason_code : String}
    {transition : AttemptTransition}
    (hmake : make sequence from_status to_status occurred_at reason_code = .ok transition) :
    transition.to_status = to_status := by
  unfold make at hmake
  split at hmake
  · split at hmake
    · cases hmake
    · split at hmake
      · cases hmake
      · obtain rfl := Except.ok.inj hmake
        rfl
  · cases hmake

theorem ok_of_mapError {ε δ α : Type} {f : ε → δ} {result : Except ε α} {value : α}
    (h : result.mapError f = .ok value) : result = .ok value := by
  cases result with
  | error refused => cases h
  | ok found => exact congrArg Except.ok (Except.ok.inj h)

theorem well_formed_of_snapshot {record : MutableAttempt} {snapshot : AttemptSnapshot}
    (hsnapshot : record.snapshot = .ok snapshot) :
    ∀ digest ∈ record.validation_digest, is_sha256 digest = true := by
  unfold MutableAttempt.snapshot at hsnapshot
  split at hsnapshot
  · assumption
  · cases hsnapshot

theorem ill_formed_of_snapshot {record : MutableAttempt} {fault : Fault}
    (hfault : record.snapshot = .error fault) :
    ∃ digest ∈ record.validation_digest, is_sha256 digest = false := by
  unfold MutableAttempt.snapshot at hfault
  split at hfault
  · cases hfault
  · rename_i hdigest
    simpa using hdigest

namespace AttemptStore

-- The statuses that an attempt has only after its output.
def has_output : List AttemptStatus := [.OUTPUT_RECEIVED, .VALIDATING, .ACCEPTED]

-- What the claim of the store says: one winner a shard, and nothing without its output.
structure Upheld (store : AttemptStore) : Prop where
  one_winner : ∀ first second record other, store.records.get? first = some record →
    store.records.get? second = some other → record.status = .ACCEPTED → other.status = .ACCEPTED →
    record.attempt.shard_id = other.attempt.shard_id → first = second
  winners_complete : ∀ attempt_id record, store.records.get? attempt_id = some record →
    record.status = .ACCEPTED → record.output.isSome ∧ record.validation_digest.isSome
  outputs_attached : ∀ attempt_id record, store.records.get? attempt_id = some record →
    record.output = none → record.status ≠ .VALIDATING ∧ record.status ≠ .OUTPUT_RECEIVED

-- What carries it: an accepted attempt is the one its shard is registered with.
structure Carries (store : AttemptStore) (attempt_id : String) (record : MutableAttempt) : Prop where
  registered : record.status = .ACCEPTED →
    store.accepted_by_shard.get? record.attempt.shard_id = some attempt_id
  output : record.status ∈ has_output → record.output.isSome
  digest : record.status = .ACCEPTED → record.validation_digest.isSome

def Sound (store : AttemptStore) : Prop :=
  ∀ attempt_id record, store.records.get? attempt_id = some record → store.Carries attempt_id record

theorem Sound.upheld {store : AttemptStore} (hsound : Sound store) : Upheld store := by
  constructor
  · intro first second record other hfirst hsecond hrecord hother hshard
    have hregistered := (hsound first record hfirst).registered hrecord
    rw [hshard, (hsound second other hsecond).registered hother] at hregistered
    exact (Option.some.inj hregistered).symm
  · intro attempt_id record hrecord haccepted
    have hcarries := hsound attempt_id record hrecord
    exact ⟨hcarries.output (by simp [haccepted, has_output]), hcarries.digest haccepted⟩
  · intro attempt_id record hrecord hnone
    have houtput := (hsound attempt_id record hrecord).output
    rw [hnone] at houtput
    constructor
    · intro hstatus
      simpa using houtput (by simp [hstatus, has_output])
    · intro hstatus
      simpa using houtput (by simp [hstatus, has_output])

theorem sound_start (events : Option EventJournal) : Sound { events := events } := by
  intro attempt_id record hrecord
  cases hrecord

theorem Sound.congr {store other : AttemptStore} (hsound : Sound store)
    (hrecords : other.records = store.records)
    (hshards : other.accepted_by_shard = store.accepted_by_shard) : Sound other := by
  intro attempt_id record hrecord
  rw [hrecords] at hrecord
  have hcarries := hsound attempt_id record hrecord
  constructor
  · rw [hshards]
    exact hcarries.registered
  · exact hcarries.output
  · exact hcarries.digest

theorem Sound.put {store : AttemptStore} (hsound : Sound store) {attempt_id : String}
    {record : MutableAttempt} (hcarries : store.Carries attempt_id record) :
    Sound { store with records := store.records.set attempt_id record } := by
  intro other found hfound
  rw [Dict.get?_set] at hfound
  split at hfound
  · rename_i heq
    obtain rfl := Option.some.inj hfound
    rw [heq]
    exact ⟨hcarries.registered, hcarries.output, hcarries.digest⟩
  · exact ⟨(hsound other found hfound).registered, (hsound other found hfound).output,
      (hsound other found hfound).digest⟩

-- One transition, once it has passed every check.
structure Passes (store : AttemptStore) (attempt_id : String)
    (expected_status to_status : AttemptStatus) (occurred_at : Datetime) (reason_code : String)
    (record : MutableAttempt) (appended : AttemptTransition) : Prop where
  found : store.records.get? attempt_id = some record
  expected : record.status = expected_status
  allowed : to_status ∈ ALLOWED_TRANSITIONS record.status
  chronological : occurred_at.lt? record.last.occurred_at = .ok false
  made : AttemptTransition.make (record.transitions.length + 1) (some record.status) to_status
    occurred_at reason_code = .ok appended

variable (hasher : Hasher)

@[simp] theorem ends_record_of {returned : MutableAttempt → AttemptStore → Prop}
    {raised : Fault → AttemptStore → Prop} (attempt_id : String) (store : AttemptStore) :
    Ends returned raised (record_of attempt_id) store ↔
      (∀ record, store.records.get? attempt_id = some record → returned record store) ∧
        (store.records.get? attempt_id = none → raised (.attempt_not_found attempt_id) store) := by
  simp only [record_of, ends_bind, ends_self, ends_check]
  cases store.records.get? attempt_id with
  | none => simp
  | some record => simp

theorem ends_emit (event_type aggregate_id : String) (payload : List (String × Json))
    (occurred_at : Datetime) (idempotency_key : String) (store : AttemptStore) :
    Ends (fun _ left => ∃ events, left = { store with events := events }) (fun _ left => left = store)
      (emit hasher event_type aggregate_id payload occurred_at idempotency_key) store := by
  simp only [emit, ends_bind, ends_self]
  cases hevents : store.events with
  | none =>
    simp only [ends_returns]
    exact ⟨store.events, rfl⟩
  | some journal =>
    simp only [ends_bind, ends_check, ends_assign]
    constructor
    · intro next _
      exact ⟨some next, rfl⟩
    · intro _ _
      trivial

theorem ends_announce_start (attempt_id : String) (record : MutableAttempt)
    (to_status : AttemptStatus) (occurred_at : Datetime) (store : AttemptStore) :
    Ends (fun _ left => ∃ events, left = { store with events := events })
      (fun _ left => to_status = .RUNNING ∧ left = store)
      (announce_start hasher attempt_id record to_status occurred_at) store := by
  simp only [announce_start, ends_ite, ends_returns]
  constructor
  · intro hrunning
    apply (ends_emit hasher _ _ _ _ _ store).imp
    · intro _ left hleft
      exact hleft
    · intro _ left hleft
      exact ⟨hrunning, hleft⟩
  · intro _
    exact ⟨store.events, rfl⟩

theorem Passes.unique {store : AttemptStore} {attempt_id : String}
    {expected_status to_status : AttemptStatus} {occurred_at : Datetime} {reason_code : String}
    {record other : MutableAttempt} {appended second : AttemptTransition}
    (hpasses : store.Passes attempt_id expected_status to_status occurred_at reason_code record
      appended)
    (hother : store.Passes attempt_id expected_status to_status occurred_at reason_code other
      second) : record = other ∧ appended = second := by
  obtain rfl := Option.some.inj (hpasses.found.symm.trans hother.found)
  exact ⟨rfl, Except.ok.inj (hpasses.made.symm.trans hother.made)⟩

-- What is not passed leaves the store as it was, and what is passed is a move;
-- after it only an ill-formed digest or the event of a start can raise.
theorem ends_transition (attempt_id : String) (expected_status to_status : AttemptStatus)
    (occurred_at : Datetime) (reason_code : String) (store : AttemptStore) :
    Ends
      (fun _ left => ∃ record appended events,
        store.Passes attempt_id expected_status to_status occurred_at reason_code record appended ∧
          left = { store.after_move attempt_id record appended with events := events } ∧
          ∀ digest ∈ record.validation_digest, is_sha256 digest = true)
      (fun _ left =>
        (left = store ∧ ¬∃ record appended,
          store.Passes attempt_id expected_status to_status occurred_at reason_code record appended) ∨
        ∃ record appended,
          store.Passes attempt_id expected_status to_status occurred_at reason_code record appended ∧
          left = store.after_move attempt_id record appended ∧
          (to_status = .RUNNING ∨ ∃ digest ∈ record.validation_digest, is_sha256 digest = false))
      (transition hasher attempt_id expected_status to_status occurred_at reason_code) store := by
  simp only [transition, ends_bind, ends_record_of, ends_require, ends_check, ends_assign]
  constructor
  · intro record hrecord
    have hrefused : (∀ appended, ¬store.Passes attempt_id expected_status to_status occurred_at
        reason_code record appended) → ¬∃ record appended,
          store.Passes attempt_id expected_status to_status occurred_at reason_code record
            appended := by
      rintro hnone ⟨found, appended, hpasses⟩
      obtain rfl := Option.some.inj (hrecord.symm.trans hpasses.found)
      exact hnone appended hpasses
    refine ⟨fun hexpected => ⟨fun hallowed => ⟨fun earlier hearlier => ⟨fun hchronological => ?_,
      fun hearly => ?_⟩, fun fault hfault => ?_⟩, fun hforbidden => ?_⟩, fun hobserved => ?_⟩
    · rw [hchronological] at hearlier
      have hordered := ok_of_mapError hearlier
      refine ⟨fun appended hmade => ⟨fun snapshot hsnapshot => ?_, fun fault hfault => ?_⟩,
        fun fault hfault => ?_⟩
      · apply (ends_announce_start hasher attempt_id record to_status occurred_at _).imp
        · rintro _ left ⟨events, rfl⟩
          have hdigest := well_formed_of_snapshot hsnapshot
          exact ⟨record, appended, events, ⟨hrecord, hexpected, hallowed, hordered,
            ok_of_mapError hmade⟩, rfl, hdigest⟩
        · rintro _ left ⟨hrunning, rfl⟩
          exact Or.inr ⟨record, appended, ⟨hrecord, hexpected, hallowed, hordered,
            ok_of_mapError hmade⟩, rfl, Or.inl hrunning⟩
      · have hdigest := ill_formed_of_snapshot hfault
        exact Or.inr ⟨record, appended, ⟨hrecord, hexpected, hallowed, hordered,
          ok_of_mapError hmade⟩, rfl, Or.inr hdigest⟩
      · refine Or.inl ⟨trivial, hrefused (fun appended hpasses => ?_)⟩
        rw [hpasses.made] at hfault
        cases hfault
    · refine Or.inl ⟨trivial, hrefused (fun appended hpasses => hearly ?_)⟩
      rw [hpasses.chronological] at hearlier
      exact (Except.ok.inj hearlier).symm
    · refine Or.inl ⟨trivial, hrefused (fun appended hpasses => ?_)⟩
      rw [hpasses.chronological] at hfault
      cases hfault
    · exact Or.inl ⟨trivial, hrefused (fun appended hpasses => hforbidden hpasses.allowed)⟩
    · exact Or.inl ⟨trivial, hrefused (fun appended hpasses => hobserved hpasses.expected)⟩
  · intro hnone
    refine Or.inl ⟨trivial, ?_⟩
    rintro ⟨record, appended, hpasses⟩
    rw [hpasses.found] at hnone
    cases hnone

section Moves

variable {store : AttemptStore} {attempt_id : String} {expected_status to_status : AttemptStatus}
  {occurred_at : Datetime} {reason_code : String} {record : MutableAttempt}
  {appended : AttemptTransition}

theorem Passes.to_status_eq
    (hpasses : store.Passes attempt_id expected_status to_status occurred_at reason_code record
      appended) : appended.to_status = to_status :=
  AttemptTransition.to_status_of_make hpasses.made

-- No status leads back to one with an output but those with an output.
theorem output_of_allowed {status target : AttemptStatus} (htarget : target ∈ has_output)
    (hallowed : target ∈ ALLOWED_TRANSITIONS status) :
    target = .OUTPUT_RECEIVED ∨ status ∈ has_output := by
  simp only [has_output, List.mem_cons, List.not_mem_nil, or_false] at htarget ⊢
  rcases htarget with rfl | rfl | rfl
  · exact Or.inl rfl
  · cases status <;> simp [ALLOWED_TRANSITIONS] at hallowed ⊢
  · cases status <;> simp [ALLOWED_TRANSITIONS] at hallowed ⊢

theorem records_after_move (other : String) :
    (store.after_move attempt_id record appended).records.get? other =
      if other = attempt_id then some (record.moved appended) else store.records.get? other := by
  unfold after_move
  dsimp only
  split <;> exact Dict.get?_set _ _ _ _

-- A move frees at most the mover's own registration.
theorem registered_after_move {shard_id other : String} (hne : other ≠ attempt_id)
    (hregistered : store.accepted_by_shard.get? shard_id = some other) :
    (store.after_move attempt_id record appended).accepted_by_shard.get? shard_id = some other := by
  unfold after_move
  dsimp only
  split
  · rename_i hown
    rw [Dict.get?_erase, if_neg]
    · exact hregistered
    · intro hshard
      rw [← hshard, hregistered] at hown
      exact hne (Option.some.inj hown.2.2)
  · exact hregistered

theorem Carries.of_ne (hcarries : ∀ other found, store.records.get? other = some found →
    store.Carries other found) {other : String} {found : MutableAttempt} (hne : other ≠ attempt_id)
    (hfound : store.records.get? other = some found) :
    (store.after_move attempt_id record appended).Carries other found :=
  ⟨fun haccepted => registered_after_move hne ((hcarries other found hfound).registered haccepted),
    (hcarries other found hfound).output, (hcarries other found hfound).digest⟩

-- A move that makes no winner, and puts nothing without an output among what has one.
theorem Sound.move (hsound : Sound store)
    (hpasses : store.Passes attempt_id expected_status to_status occurred_at reason_code record
      appended)
    (hwinner : to_status ≠ .ACCEPTED) (houtput : to_status = .OUTPUT_RECEIVED → record.output.isSome) :
    Sound (store.after_move attempt_id record appended) := by
  intro other found hfound
  rw [records_after_move] at hfound
  split at hfound
  · obtain rfl := Option.some.inj hfound
    have hstatus : (record.moved appended).status = to_status := hpasses.to_status_eq
    constructor
    · intro haccepted
      exact absurd (hstatus.symm.trans haccepted) hwinner
    · intro hmem
      rw [hstatus] at hmem
      cases output_of_allowed hmem hpasses.allowed with
      | inl hreceived => exact houtput hreceived
      | inr hbefore => exact (hsound attempt_id record hpasses.found).output hbefore
    · intro haccepted
      exact absurd (hstatus.symm.trans haccepted) hwinner
  · rename_i hne
    exact Carries.of_ne hsound hne hfound

end Moves

-- The calls that stay on the guarded path. A transition asked for from outside
-- makes no winner, and brings nothing to OUTPUT_RECEIVED that has no output; and
-- no attempt wins whose recorded digest is ill-formed.
def Guarded (store : AttemptStore) : Call → Prop
  | .transition attempt_id expected_status to_status occurred_at reason_code =>
      ∀ record appended, store.Passes attempt_id expected_status to_status occurred_at reason_code
        record appended →
        to_status ≠ .ACCEPTED ∧ (to_status = .OUTPUT_RECEIVED → record.output.isSome)
  | .accept attempt_id occurred_at idempotency_key =>
      ∀ record appended, store.Passes attempt_id .VALIDATING .ACCEPTED occurred_at
        "hard_gates_passed_and_arbitrated" record appended →
        store.acceptance_keys.get? idempotency_key = none →
        store.accepted_by_shard.get? record.attempt.shard_id = none →
        ∀ digest ∈ record.validation_digest, is_sha256 digest = true
  | _ => True

-- However a call ends, the store it leaves is sound.
def KeepsSound {α : Type} (method : Method AttemptStore Fault α) (store : AttemptStore) : Prop :=
  Ends (fun _ => Sound) (fun _ => Sound) method store

theorem keeps_emit {store : AttemptStore} (hsound : Sound store) (event_type aggregate_id : String)
    (payload : List (String × Json)) (occurred_at : Datetime) (idempotency_key : String) :
    KeepsSound (emit hasher event_type aggregate_id payload occurred_at idempotency_key) store := by
  apply (ends_emit hasher event_type aggregate_id payload occurred_at idempotency_key store).imp
  · rintro _ left ⟨events, rfl⟩
    exact hsound.congr rfl rfl
  · rintro _ left rfl
    exact hsound

theorem keeps_transition {store : AttemptStore} (hsound : Sound store) (attempt_id : String)
    (expected_status to_status : AttemptStatus) (occurred_at : Datetime) (reason_code : String)
    (hguarded : ∀ record appended, store.Passes attempt_id expected_status to_status occurred_at
      reason_code record appended →
        to_status ≠ .ACCEPTED ∧ (to_status = .OUTPUT_RECEIVED → record.output.isSome)) :
    KeepsSound (transition hasher attempt_id expected_status to_status occurred_at reason_code)
      store := by
  apply (ends_transition hasher attempt_id expected_status to_status occurred_at reason_code
    store).imp
  · rintro _ left ⟨record, appended, events, hpasses, rfl, -⟩
    obtain ⟨hwinner, houtput⟩ := hguarded record appended hpasses
    exact (hsound.move hpasses hwinner houtput).congr rfl rfl
  · rintro _ left (⟨rfl, -⟩ | ⟨record, appended, hpasses, rfl, -⟩)
    · exact hsound
    · obtain ⟨hwinner, houtput⟩ := hguarded record appended hpasses
      exact hsound.move hpasses hwinner houtput

theorem keeps_create {store : AttemptStore} (hsound : Sound store) (attempt : ParseAttempt)
    (idempotency_key : String) : KeepsSound (create hasher attempt idempotency_key) store := by
  unfold KeepsSound create
  simp only [ends_bind, ends_self]
  cases store.creation_keys.get? idempotency_key with
  | some existing_id =>
    simp only [ends_bind, ends_check, ends_require]
    exact ⟨fun _ _ => ⟨fun _ => ⟨fun _ _ => hsound, fun _ _ => hsound⟩, fun _ => hsound⟩,
      fun _ _ => hsound⟩
  | none =>
    simp only [ends_bind, ends_check, ends_require, put, ends_assign]
    refine ⟨fun hnew => ⟨fun transition hmade => ?_, fun _ _ => hsound⟩, fun _ => hsound⟩
    have hstatus : (MutableAttempt.created attempt transition).status = .CREATED :=
      AttemptTransition.to_status_of_make (ok_of_mapError hmade)
    have hcarries : store.Carries attempt.attempt_id
        (MutableAttempt.created attempt transition) := by
      constructor <;> simp [hstatus, has_output]
    have hcreated := hsound.put hcarries
    exact ⟨fun _ _ => hcreated.congr rfl rfl, fun _ _ => hcreated.congr rfl rfl⟩

theorem keeps_create_root {store : AttemptStore} (hsound : Sound store)
    (arguments : RootArguments) : KeepsSound (create_root hasher arguments) store := by
  unfold KeepsSound create_root
  simp only [ends_bind, ends_check]
  exact ⟨fun attempt _ => keeps_create hasher hsound attempt _, fun _ _ => hsound⟩

theorem keeps_create_child {store : AttemptStore} (hsound : Sound store)
    (parent_attempt_id : String) (arguments : ChildArguments) :
    KeepsSound (create_child hasher parent_attempt_id arguments) store := by
  unfold KeepsSound create_child
  simp only [ends_bind, ends_require, ends_record_of, ends_check]
  refine ⟨fun _ => ⟨fun parent _ => ⟨fun predates _ => ⟨fun _ => ⟨?_, ?_⟩, ?_⟩, ?_⟩, ?_⟩, ?_⟩
  · exact fun attempt _ => keeps_create hasher hsound attempt _
  · exact fun _ _ => hsound
  · exact fun _ => hsound
  · exact fun _ _ => hsound
  · exact fun _ => hsound
  · exact fun _ => hsound

theorem keeps_attach_output {store : AttemptStore} (hsound : Sound store) (attempt_id : String)
    (output : AttemptOutput) (idempotency_key : String) :
    KeepsSound (attach_output hasher attempt_id output idempotency_key) store := by
  unfold KeepsSound attach_output
  simp only [ends_bind, ends_record_of]
  refine ⟨fun record hrecord => ?_, fun _ => hsound⟩
  cases houtput : record.output with
  | some attached =>
    simp only [ends_bind, ends_require, ends_check]
    exact ⟨fun _ => ⟨fun _ _ => hsound, fun _ _ => hsound⟩, fun _ => hsound⟩
  | none =>
    simp only [ends_bind, ends_require, put, ends_assign]
    refine ⟨fun hrunning => ?_, fun _ => hsound⟩
    have hattached : Sound { store with
        records := store.records.set attempt_id { record with output := some output } } := by
      apply hsound.put
      constructor <;> simp [hrunning, has_output]
    apply (keeps_transition hasher hattached attempt_id .RUNNING .OUTPUT_RECEIVED
      output.completed_at "output_received" ?_).then
    · intro snapshot left hleft
      exact (keeps_emit hasher hleft _ _ _ _ _).bind (fun _ _ hemitted => hemitted)
    · intro found appended hpasses
      have hfound := hpasses.found
      rw [Dict.get?_set_self] at hfound
      obtain rfl := Option.some.inj hfound
      exact ⟨by simp, fun _ => rfl⟩

theorem keeps_record_validation {store : AttemptStore} (hsound : Sound store)
    (attempt_id validation_digest : String) (passed : Bool) (occurred_at : Datetime)
    (failure_reason : String) :
    KeepsSound (record_validation hasher attempt_id validation_digest passed occurred_at
      failure_reason) store := by
  unfold KeepsSound record_validation
  simp only [ends_bind, ends_record_of]
  refine ⟨fun record hrecord => ?_, fun _ => hsound⟩
  cases record.validation_digest with
  | some recorded =>
    simp only [ends_bind, ends_require, ends_check]
    exact ⟨fun _ => ⟨fun _ => ⟨fun _ => ⟨fun _ _ => hsound, fun _ _ => hsound⟩, fun _ => hsound⟩,
      fun _ => hsound⟩, fun _ => hsound⟩
  | none =>
    simp only [ends_bind, ends_require, put, ends_assign]
    refine ⟨fun hreceived => ?_, fun _ => hsound⟩
    have hdigested : Sound { store with
        records := store.records.set attempt_id
          { record with validation_digest := some validation_digest } } := by
      apply hsound.put
      have houtput := (hsound attempt_id record hrecord).output
      constructor
      · simp [hreceived]
      · exact houtput
      · simp
    apply (keeps_transition hasher hdigested attempt_id .OUTPUT_RECEIVED .VALIDATING occurred_at
      "validation_started" (fun _ _ _ => ⟨by simp, by simp⟩)).then
    intro validating left hleft
    simp only [ends_ite, ends_returns]
    refine ⟨fun _ => hleft, fun _ => ?_⟩
    apply (keeps_transition hasher hleft attempt_id .VALIDATING .REJECTED occurred_at failure_reason
      (fun _ _ _ => ⟨by simp, by simp⟩)).bind
    intro snapshot rejected hrejected
    apply (keeps_emit hasher hrejected _ _ _ _ _).bind
    intro _ failed hfailed
    exact (keeps_emit hasher hfailed _ _ _ _ _).bind (fun _ _ hemitted => hemitted)

theorem keeps_quarantine {store : AttemptStore} (hsound : Sound store) (attempt_id : String)
    (occurred_at : Datetime) (reason_code : String) :
    KeepsSound (quarantine hasher attempt_id occurred_at reason_code) store := by
  unfold KeepsSound quarantine
  simp only [ends_bind, ends_record_of, ends_ite, ends_check, ends_require]
  refine ⟨fun record _ => ⟨fun _ => ⟨fun _ _ => hsound, fun _ _ => hsound⟩, fun _ => ?_⟩,
    fun _ => hsound⟩
  refine ⟨fun _ => ?_, fun _ => hsound⟩
  exact keeps_transition hasher hsound attempt_id record.status .QUARANTINED occurred_at reason_code
    (fun _ _ _ => ⟨by simp, by simp⟩)

-- A winner is registered as soon as it is one; nothing raises in between.
theorem Sound.register {store : AttemptStore} (hsound : Sound store) {attempt_id : String}
    {record : MutableAttempt} {appended : AttemptTransition} {occurred_at : Datetime}
    {reason_code : String}
    (hpasses : store.Passes attempt_id .VALIDATING .ACCEPTED occurred_at reason_code record appended)
    (hdigest : record.validation_digest.isSome)
    (hfree : store.accepted_by_shard.get? record.attempt.shard_id = none) :
    Sound { store.after_move attempt_id record appended with
      accepted_by_shard :=
        (store.after_move attempt_id record appended).accepted_by_shard.set
          record.attempt.shard_id attempt_id } := by
  intro other found hfound
  rw [records_after_move] at hfound
  split at hfound
  · rename_i heq
    obtain rfl := Option.some.inj hfound
    have houtput := (hsound attempt_id record hpasses.found).output
    rw [heq]
    constructor
    · exact fun _ => Dict.get?_set_self _ _ _
    · exact fun _ => houtput (by simp [hpasses.expected, has_output])
    · exact fun _ => hdigest
  · rename_i hne
    have hcarries : (store.after_move attempt_id record appended).Carries other found :=
      Carries.of_ne hsound hne hfound
    constructor
    · intro haccepted
      have hshard : found.attempt.shard_id ≠ record.attempt.shard_id := by
        intro heq
        have hregistered := (hsound other found hfound).registered haccepted
        rw [heq, hfree] at hregistered
        cases hregistered
      dsimp only
      rw [Dict.get?_set_of_ne _ _ hshard]
      exact hcarries.registered haccepted
    · exact hcarries.output
    · exact hcarries.digest

theorem keeps_accept {store : AttemptStore} (hsound : Sound store) (attempt_id : String)
    (occurred_at : Datetime) (idempotency_key : String)
    (hguarded : store.Guarded (.accept attempt_id occurred_at idempotency_key)) :
    KeepsSound (accept hasher attempt_id occurred_at idempotency_key) store := by
  unfold KeepsSound accept
  simp only [ends_bind, ends_record_of, ends_self]
  refine ⟨fun record hrecord => ?_, fun _ => hsound⟩
  cases hkeyed : store.acceptance_keys.get? idempotency_key with
  | some keyed =>
    simp only [ends_bind, ends_require, ends_returns]
    exact ⟨fun _ => hsound, fun _ => hsound⟩
  | none =>
    simp only [ends_ite, ends_bind, ends_check, ends_require, remember, ends_assign, ends_returns]
    refine ⟨fun _ => ⟨fun _ _ => hsound.congr rfl rfl, fun _ _ => hsound⟩, fun _ => ?_⟩
    refine ⟨fun hvalidated => ?_, fun _ => hsound⟩
    cases hshard : store.accepted_by_shard.get? record.attempt.shard_id with
    | some existing_id =>
      simp only [ends_bind, ends_check]
      refine ⟨fun existing _ => ?_, fun _ _ => hsound⟩
      apply (keeps_transition hasher hsound attempt_id .VALIDATING .SUPERSEDED occurred_at
        "first_verified_result_already_accepted" (fun _ _ _ => ⟨by simp, by simp⟩)).then
      intro challenger left hleft
      simp only [ends_bind, ends_check, ends_assign, ends_returns]
      exact ⟨fun _ _ => hleft.congr rfl rfl, fun _ _ => hleft⟩
    | none =>
      simp only [ends_bind]
      apply (ends_transition hasher attempt_id .VALIDATING .ACCEPTED occurred_at
        "hard_gates_passed_and_arbitrated" store).imp
      · rintro winner left ⟨found, appended, events, hpasses, rfl, -⟩
        obtain rfl := Option.some.inj (hrecord.symm.trans hpasses.found)
        have hregistered := hsound.register hpasses hvalidated.2 hshard
        simp only [ends_bind, ends_assign]
        apply (keeps_emit hasher ?_ _ _ _ _ _).then
        · exact fun _ _ hemitted => hemitted
        · exact hregistered.congr rfl rfl
      · rintro fault left (⟨rfl, -⟩ | ⟨found, appended, hpasses, -, hrunning | ⟨digest, hmem, hill⟩⟩)
        · exact hsound
        · cases hrunning
        · -- the digest is well-formed, so nothing is raised once the status has changed
          obtain rfl := Option.some.inj (hrecord.symm.trans hpasses.found)
          have hvalid := hguarded record appended hpasses hkeyed hshard digest hmem
          rw [hvalid] at hill
          cases hill

theorem Sound.step {store : AttemptStore} (hsound : Sound store) {call : Call}
    (hguarded : store.Guarded call) : Sound (store.step hasher call) := by
  cases call with
  | create_root arguments => exact (keeps_create_root hasher hsound arguments).state
  | create_child parent_attempt_id arguments =>
    exact (keeps_create_child hasher hsound parent_attempt_id arguments).state
  | transition attempt_id expected_status to_status occurred_at reason_code =>
    exact (keeps_transition hasher hsound attempt_id expected_status to_status occurred_at
      reason_code hguarded).state
  | attach_output attempt_id output idempotency_key =>
    exact (keeps_attach_output hasher hsound attempt_id output idempotency_key).state
  | record_validation attempt_id validation_digest passed occurred_at failure_reason =>
    exact (keeps_record_validation hasher hsound attempt_id validation_digest passed occurred_at
      failure_reason).state
  | accept attempt_id occurred_at idempotency_key =>
    exact (keeps_accept hasher hsound attempt_id occurred_at idempotency_key hguarded).state
  | quarantine attempt_id occurred_at reason_code =>
    exact (keeps_quarantine hasher hsound attempt_id occurred_at reason_code).state
  | append_event event_type aggregate_id payload occurred_at idempotency_key =>
    exact (keeps_emit hasher hsound event_type aggregate_id payload occurred_at
      idempotency_key).state

-- A new store after some calls, those that raised included.
def run (events : Option EventJournal) (calls : List Call) : AttemptStore :=
  calls.foldl (fun store call => store.step hasher call) { events := events }

def GuardedRun (events : Option EventJournal) (calls : List Call) : Prop :=
  ∀ before call, before ++ [call] <+: calls → (run hasher events before).Guarded call

theorem run_sound (events : Option EventJournal) (calls : List Call)
    (hguarded : GuardedRun hasher events calls) : Sound (run hasher events calls) := by
  induction calls using List.reverseRecOn with
  | nil => exact sound_start events
  | append_singleton calls call ih =>
    have hbefore : Sound (run hasher events calls) :=
      ih (fun before other hin => hguarded before other (hin.trans (List.prefix_append _ _)))
    have hcall := hguarded calls call List.prefix_rfl
    have hstep : run hasher events (calls ++ [call]) = (run hasher events calls).step hasher call := by
      simp [run, List.foldl_append]
    rw [hstep]
    exact hbefore.step hasher hcall

-- A run whose calls all stay on the guarded path keeps the acceptance invariant.
theorem acceptance_upheld (events : Option EventJournal) (calls : List Call)
    (hguarded : GuardedRun hasher events calls) :
    ∀ before, before <+: calls → Upheld (run hasher events before) := by
  intro before hbefore
  have hprefix : GuardedRun hasher events before :=
    fun earlier call hin => hguarded earlier call (hin.trans hbefore)
  exact (run_sound hasher events before hprefix).upheld

section Unguarded

variable {store : AttemptStore} {attempt_id : String} {expected_status to_status : AttemptStatus}
  {occurred_at : Datetime} {reason_code : String} {record : MutableAttempt}
  {appended : AttemptTransition}

-- A transition that passes is made, whether it then returns or raises.
theorem records_of_passes
    (hpasses : store.Passes attempt_id expected_status to_status occurred_at reason_code record
      appended) (other : String) :
    (store.step hasher (.transition attempt_id expected_status to_status occurred_at
      reason_code)).records.get? other =
        if other = attempt_id then some (record.moved appended) else store.records.get? other := by
  have hends : Ends
      (fun _ left => left.records = (store.after_move attempt_id record appended).records)
      (fun _ left => left.records = (store.after_move attempt_id record appended).records)
      (transition hasher attempt_id expected_status to_status occurred_at reason_code) store := by
    apply (ends_transition hasher attempt_id expected_status to_status occurred_at reason_code
      store).imp
    · rintro _ left ⟨found, second, events, hfound, rfl, -⟩
      obtain ⟨rfl, rfl⟩ := hpasses.unique hfound
      rfl
    · rintro _ left (⟨-, hnone⟩ | ⟨found, second, hfound, rfl, -⟩)
      · exact absurd ⟨record, appended, hpasses⟩ hnone
      · obtain ⟨rfl, rfl⟩ := hpasses.unique hfound
        rfl
  rw [step, hends.state]
  exact records_after_move other

-- Asked for from outside, OUTPUT_RECEIVED needs no output.
theorem not_upheld_of_received
    (hpasses : store.Passes attempt_id expected_status .OUTPUT_RECEIVED occurred_at reason_code
      record appended) (hnone : record.output = none) :
    ¬Upheld (store.step hasher (.transition attempt_id expected_status .OUTPUT_RECEIVED occurred_at
      reason_code)) := by
  intro hupheld
  have hmoved := records_of_passes hasher hpasses attempt_id
  rw [if_pos rfl] at hmoved
  exact (hupheld.outputs_attached attempt_id _ hmoved hnone).2 hpasses.to_status_eq

-- A winner whose digest is ill-formed: the change of status stays, and the shard
-- is not told of it.
theorem unregistered_of_ill_formed {idempotency_key digest : String}
    (hpasses : store.Passes attempt_id .VALIDATING .ACCEPTED occurred_at
      "hard_gates_passed_and_arbitrated" record appended)
    (hkey : store.acceptance_keys.get? idempotency_key = none)
    (hfree : store.accepted_by_shard.get? record.attempt.shard_id = none)
    (hdigest : record.validation_digest = some digest) (hill : is_sha256 digest = false) :
    store.step hasher (.accept attempt_id occurred_at idempotency_key) =
      { store with records := store.records.set attempt_id (record.moved appended) } := by
  have hmove : store.after_move attempt_id record appended =
      { store with records := store.records.set attempt_id (record.moved appended) } := by
    unfold after_move
    rw [if_neg]
    intro hretired
    have hstatus := hpasses.expected
    rw [hretired.1] at hstatus
    cases hstatus
  have hends : Ends (fun _ left => left = store.after_move attempt_id record appended)
      (fun _ left => left = store.after_move attempt_id record appended)
      (accept hasher attempt_id occurred_at idempotency_key) store := by
    have hstatus := hpasses.expected
    have hvalidated : record.status = .VALIDATING ∧ record.validation_digest.isSome = true := by
      simp [hstatus, hdigest]
    simp only [accept, ends_bind, ends_record_of, ends_self, hkey]
    refine ⟨fun found hfound => ?_, fun hnone => ?_⟩
    · obtain rfl := Option.some.inj (hpasses.found.symm.trans hfound)
      have hstanding : ¬record.status = .ACCEPTED := by simp [hstatus]
      rw [if_neg hstanding]
      simp only [ends_bind, ends_require, hfree]
      refine ⟨fun _ => ?_, fun hnot => absurd hvalidated hnot⟩
      apply (ends_transition hasher attempt_id .VALIDATING .ACCEPTED occurred_at
        "hard_gates_passed_and_arbitrated" store).imp
      · rintro winner left ⟨found, second, events, hother, -, hvalid⟩
        obtain ⟨rfl, rfl⟩ := hpasses.unique hother
        rw [hvalid digest hdigest] at hill
        cases hill
      · rintro fault left (⟨-, hnone⟩ | ⟨found, second, hother, rfl, -⟩)
        · exact absurd ⟨record, appended, hpasses⟩ hnone
        · obtain ⟨rfl, rfl⟩ := hpasses.unique hother
          rfl
    · rw [hpasses.found] at hnone
      cases hnone
  rw [step, hends.state, hmove]

end Unguarded

theorem guardedRun_append {events : Option EventJournal} {calls : List Call} {last : Call}
    (hguarded : GuardedRun hasher events calls) (hlast : Guarded (run hasher events calls) last) :
    GuardedRun hasher events (calls ++ [last]) := by
  intro before call hin
  rcases List.prefix_concat_iff.mp hin with heq | hin
  · obtain ⟨rfl, hcall⟩ := List.append_inj' heq rfl
    obtain rfl := (List.cons.inj hcall).1
    exact hlast
  · exact hguarded before call hin

theorem guardedRun_of_forall {events : Option EventJournal} {calls : List Call}
    (hguarded : ∀ call ∈ calls, ∀ store, Guarded store call) : GuardedRun hasher events calls := by
  intro before call hin
  have hmem : call ∈ calls := hin.subset (by simp)
  exact hguarded call hmem _

end AttemptStore

def dispatched_at : Datetime where
  year := 2025
  month := 3
  day := 4
  hour := 9
  minute := 30
  second := 0
  microsecond := 0
  utcoffset := some 3600000000
  year_range := by decide
  month_range := Datetime.month_3
  day_range := by decide
  time_range := by decide
  offset_range := by decide

def plain_digest : String := String.ofList (List.replicate 64 'a')

def plain_root : RootArguments where
  idempotency_key := "dispatch-1"
  document_id := "doc-1"
  document_version_id := "ver-1"
  shard_id := "shard-1"
  page_ids := ["page-1"]
  region_ids := []
  parser_recipe := "recipe-1"
  model_revision := "model-1"
  runtime_image_digest := "image-1"
  worker_id := "worker-1"
  gpu_type := "gpu-1"
  source_sha256 := plain_digest
  preprocessing_sha256 := plain_digest
  prompt_sha256 := plain_digest
  decoding_sha256 := plain_digest
  created_at := dispatched_at

def plain_id (hasher : Hasher) : String :=
  stable_id hasher "attempt"
    [.str "root", .str "dispatch-1", .str "ver-1", .str "shard-1", .str "recipe-1",
      .str "worker-1"]

theorem require_plain_id (hasher : Hasher) (field_name : String) :
    require_identifier (plain_id hasher) field_name = .ok () := by
  have hchars : (plain_id hasher).toList =
      "attempt_".toList ++ (canonical_sha256 hasher (.obj [("namespace", .str "attempt"),
        ("parts", .arr [.str "root", .str "dispatch-1", .str "ver-1", .str "shard-1",
          .str "recipe-1", .str "worker-1"])])).toList.take 32 := by
    simp [plain_id, stable_id]
  apply refuse_if_ok
  rintro (hempty | hlong | hspace)
  · rw [hempty] at hchars
    cases hchars
  · have hlength := congrArg List.length hchars
    have htake := List.length_take_le 32 (canonical_sha256 hasher (.obj [("namespace",
      .str "attempt"), ("parts", .arr [.str "root", .str "dispatch-1", .str "ver-1",
        .str "shard-1", .str "recipe-1", .str "worker-1"])])).toList
    have hname : "attempt_".toList.length = 8 := rfl
    rw [List.length_append, hname, String.length_toList] at hlength
    omega
  · obtain ⟨c, hc, hspace⟩ := List.any_eq_true.mp hspace
    rw [hchars] at hc
    cases List.mem_append.mp hc with
    | inl hname =>
      have hplain : "attempt_".toList.all (fun c => !Text.isSpace c) = true := by decide
      have hc := List.all_eq_true.mp hplain c hname
      rw [hspace] at hc
      cases hc
    | inr hdigest =>
      obtain ⟨d, hd, rfl⟩ := hasher.hex _ c (List.mem_of_mem_take hdigest)
      have hplain : ∀ d < 16, Text.isSpace (Nat.digitChar d) = false := by decide
      rw [hplain d hd] at hspace
      cases hspace

def plain_fields (attempt_id : String) : AttemptFields :=
  { plain_root with
    attempt_id
    root_attempt_id := attempt_id
    parent_attempt_id := none
    kind := .PRIMARY }

theorem plain_fields_valid {attempt_id : String}
    (hidentifier : ∀ field_name, require_identifier attempt_id field_name = .ok ()) :
    (plain_fields attempt_id).post_init = .ok () := by
  have hdigest (field_name : String) : require_sha256 plain_digest field_name = .ok () := by
    exact refuse_if_ok (by decide)
  have hroot (message : String) : refuse_if
      (Option.isNone (none : Option String) = true ∧ attempt_id ≠ attempt_id) message = .ok () :=
    refuse_if_ok (by simp)
  have hchild (message : String) : refuse_if
      (Option.isSome (none : Option String) = true ∧ attempt_id = attempt_id) message = .ok () :=
    refuse_if_ok (by simp)
  dsimp only [AttemptFields.post_init, plain_fields, plain_root]
  rw [hidentifier, hidentifier, hdigest, hdigest, hdigest, hdigest, hroot, hchild]
  rfl

namespace AttemptStore

variable (hasher : Hasher)

-- An attempt that has gone so far without an output.
def Waiting (store : AttemptStore) (attempt_id : String) (status : AttemptStatus) : Prop :=
  ∃ record, store.records.get? attempt_id = some record ∧ record.status = status ∧
    record.output = none ∧ record.last.occurred_at = dispatched_at

def onward (attempt_id : String) (expected_status to_status : AttemptStatus) : Call :=
  .transition attempt_id expected_status to_status dispatched_at "step"

theorem Waiting.passes {store : AttemptStore} {attempt_id : String}
    {status to_status : AttemptStatus} (hwaiting : Waiting store attempt_id status)
    (hallowed : to_status ∈ ALLOWED_TRANSITIONS status) :
    ∃ record appended, store.Passes attempt_id status to_status dispatched_at "step" record
      appended ∧ record.output = none ∧ appended.occurred_at = dispatched_at := by
  obtain ⟨record, hfound, rfl, houtput, hlast⟩ := hwaiting
  have hsequence : 1 ≤ record.transitions.length + 1 := by omega
  have hmade : ∃ appended, AttemptTransition.make (record.transitions.length + 1)
      (some record.status) to_status dispatched_at "step" = .ok appended ∧
        appended.occurred_at = dispatched_at := by
    unfold AttemptTransition.make
    rw [dif_pos hsequence]
    exact ⟨_, rfl, rfl⟩
  obtain ⟨appended, hmake, htime⟩ := hmade
  refine ⟨record, appended, ⟨hfound, rfl, hallowed, ?_, hmake⟩, houtput, htime⟩
  rw [hlast]
  rfl

theorem Waiting.onward {store : AttemptStore} {attempt_id : String}
    {status to_status : AttemptStatus} (hwaiting : Waiting store attempt_id status)
    (hallowed : to_status ∈ ALLOWED_TRANSITIONS status) :
    Waiting (store.step hasher (onward attempt_id status to_status)) attempt_id to_status := by
  obtain ⟨record, appended, hpasses, houtput, htime⟩ := hwaiting.passes hallowed
  have hmoved := records_of_passes hasher hpasses attempt_id
  rw [if_pos rfl] at hmoved
  refine ⟨_, hmoved, hpasses.to_status_eq, houtput, ?_⟩
  simp [MutableAttempt.last, MutableAttempt.moved, htime]

theorem waiting_created : Waiting (run hasher none [.create_root plain_root]) (plain_id hasher)
    .CREATED := by
  have hvalid := plain_fields_valid (require_plain_id hasher)
  have hmake : ParseAttempt.make (plain_fields (plain_id hasher)) =
      .ok ⟨plain_fields (plain_id hasher), hvalid⟩ := by
    unfold ParseAttempt.make
    split
    · rename_i refused hrefused
      rw [hvalid] at hrefused
      cases hrefused
    · rfl
  have hends : Ends (fun _ left => Waiting left (plain_id hasher) .CREATED)
      (fun _ left => Waiting left (plain_id hasher) .CREATED) (create_root hasher plain_root)
      ({} : AttemptStore) := by
    have hfields : Ends (fun _ left => Waiting left (plain_id hasher) .CREATED)
        (fun _ left => Waiting left (plain_id hasher) .CREATED)
        (create hasher ⟨plain_fields (plain_id hasher), hvalid⟩ "dispatch-1")
        ({} : AttemptStore) :=
      ⟨_, Dict.get?_set_self _ _ _, rfl, rfl, rfl⟩
    unfold create_root
    rw [ends_bind]
    change Ends _ _ (check ((ParseAttempt.make (plain_fields (plain_id hasher))).mapError _)) _
    rw [hmake]
    exact hfields
  exact hends.state

-- The three calls that lead an attempt to a worker.
def started (attempt_id : String) : List Call :=
  [.create_root plain_root, onward attempt_id .CREATED .QUEUED, onward attempt_id .QUEUED .RUNNING]

theorem waiting_started : Waiting (run hasher none (started (plain_id hasher))) (plain_id hasher)
    .RUNNING :=
  ((waiting_created hasher).onward hasher (by decide)).onward hasher (by decide)

end AttemptStore

open AttemptStore

-- The next call asks for OUTPUT_RECEIVED, and there is no output.
theorem received_without_output :
    ¬Upheld (run sha256 none (started (plain_id sha256) ++
      [onward (plain_id sha256) .RUNNING .OUTPUT_RECEIVED])) := by
  have hallowed : .OUTPUT_RECEIVED ∈ ALLOWED_TRANSITIONS .RUNNING := by decide
  obtain ⟨record, appended, hpasses, hnone, -⟩ := (waiting_started sha256).passes hallowed
  have hrun : run sha256 none (started (plain_id sha256) ++
      [onward (plain_id sha256) .RUNNING .OUTPUT_RECEIVED]) =
        (run sha256 none (started (plain_id sha256))).step sha256
          (onward (plain_id sha256) .RUNNING .OUTPUT_RECEIVED) := by
    simp [run, List.foldl_append]
  rw [hrun]
  exact not_upheld_of_received sha256 hpasses hnone

def unpaid : CostRecord := {}

theorem is_sha256_plain : is_sha256 plain_digest = true := by decide

def reported_output : AttemptOutput where
  prediction_uri := "file:///predictions/page-1"
  prediction_sha256 := plain_digest
  completed_at := dispatched_at
  cost := unpaid
  located := by decide
  digested := is_sha256_plain
  aware := rfl

-- From its dispatch to its output and its validation.
def validated (attempt_id : String) : List Call :=
  started attempt_id ++
    [.attach_output attempt_id reported_output "output-1",
      .record_validation attempt_id plain_digest true dispatched_at "hard_gate_failed"]

theorem validated_digest :
    ((run sha256 none (validated (plain_id sha256))).records.get? (plain_id sha256)).map
      (·.validation_digest) = some (some plain_digest) := by
  decide +kernel

def accepted (attempt_id : String) : List Call :=
  validated attempt_id ++ [.accept attempt_id dispatched_at "accept-1"]

theorem accepted_upheld :
    Upheld (run sha256 none (accepted (plain_id sha256))) ∧
      ((run sha256 none (accepted (plain_id sha256))).records.get? (plain_id sha256)).map
        (·.status) = some .ACCEPTED := by
  refine ⟨acceptance_upheld sha256 none (accepted (plain_id sha256)) ?_ _ List.prefix_rfl, by
    decide +kernel⟩
  apply guardedRun_append
  · apply guardedRun_of_forall
    intro call hcall store
    simp only [validated, started, List.cons_append, List.nil_append, List.mem_cons,
      List.not_mem_nil, or_false] at hcall
    rcases hcall with rfl | rfl | rfl | rfl | rfl
    · trivial
    · exact fun _ _ _ => ⟨by decide, fun hreceived => by cases hreceived⟩
    · exact fun _ _ _ => ⟨by decide, fun hreceived => by cases hreceived⟩
    · trivial
    · trivial
  · intro record appended hpasses _ _ digest hdigest
    have hrecorded := validated_digest
    rw [hpasses.found] at hrecorded
    obtain rfl := Option.some.inj (hdigest.symm.trans (Option.some.inj hrecorded))
    decide

end KnowledgeCompiler.Parallel
