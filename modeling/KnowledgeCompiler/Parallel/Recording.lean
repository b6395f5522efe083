import KnowledgeCompiler.Parallel.Draining

namespace KnowledgeCompiler.Parallel

open Lib Method

namespace EventJournal

variable {hasher : Hasher} {journal next : EventJournal} {event_type aggregate_id idempotency_key : String}
  {payload : List (String × Json)} {occurred_at : Datetime}

-- The key is free and the last event of the aggregate no later, or the key is that of this event.
def Admits (hasher : Hasher) (journal : EventJournal) (event_type aggregate_id : String)
    (payload : List (String × Json)) (occurred_at : Datetime) (idempotency_key : String) : Prop :=
  match journal.keys.get? idempotency_key with
  | some existing => ∃ kept, existing.payload = .ok kept ∧
      event_identity hasher existing.event_type existing.aggregate_id kept =
        event_identity hasher event_type aggregate_id payload
  | none => ∀ previous, journal.last_occurred_at.get? aggregate_id = some previous →
      occurred_at.lt? previous = .ok false

theorem isOk_append_iff (htype : event_type ∈ PARALLEL_RUNTIME_EVENT_TYPES)
    (haware : occurred_at.utcoffset.isNone = false) :
    (journal.append hasher event_type aggregate_id payload occurred_at idempotency_key).isOk = true ↔
      journal.Admits hasher event_type aggregate_id payload occurred_at idempotency_key := by
  unfold append Admits
  rw [refuse_if_ok (not_not.mpr htype), refuse_if_ok (by simp [haware])]
  cases journal.keys.get? idempotency_key with
  | some existing =>
    cases hpayload : existing.payload with
    | error fault => simp [hpayload, bind, Except.bind, Except.isOk, Except.toBool]
    | ok kept =>
      by_cases hsame : event_identity hasher existing.event_type existing.aggregate_id kept =
          event_identity hasher event_type aggregate_id payload
      · simp [hpayload, bind, Except.bind, refuse_if, hsame, Except.isOk, Except.toBool]
      · simp [hpayload, bind, Except.bind, refuse_if, hsame, Except.isOk, Except.toBool]
  | none =>
    cases journal.last_occurred_at.get? aggregate_id with
    | none => simp [bind, Except.bind, Except.isOk, Except.toBool]
    | some previous =>
      cases hearlier : occurred_at.lt? previous with
      | error message => simp [bind, Except.bind, Except.mapError, hearlier, Except.isOk, Except.toBool]
      | ok earlier =>
        cases earlier <;>
          simp [bind, Except.bind, Except.mapError, refuse_if, hearlier, Except.isOk, Except.toBool]

-- What an append did leaves another aggregate and another key as they were.
theorem admits_after
    (happend : journal.append hasher event_type aggregate_id payload occurred_at idempotency_key =
      .ok next)
    (other_type other_id other_key : String) (other_payload : List (String × Json))
    (other_time : Datetime) (hid : other_id ≠ aggregate_id) (hkey : other_key ≠ idempotency_key) :
    next.Admits hasher other_type other_id other_payload other_time other_key ↔
      journal.Admits hasher other_type other_id other_payload other_time other_key := by
  obtain ⟨-, -, ⟨_, -, rfl⟩ | ⟨-, -, rfl⟩⟩ := append_returns happend
  · exact Iff.rfl
  · rw [Admits, Admits, record, Dict.get?_set_of_ne _ _ hkey, Dict.get?_set_of_ne _ _ hid]

end EventJournal

-- What stands before the last mark, where the mark does not come again.
theorem before_mark_injective {α : Type*} {mark : α} {first second last other : List α}
    (hlast : mark ∉ last) (hother : mark ∉ other)
    (heq : first ++ mark :: last = second ++ mark :: other) : first = second := by
  have hshorter {before after rest more : List α} (hrest : mark ∉ rest)
      (h : mark :: rest = after ++ mark :: more) : before = before ++ after := by
    cases after with
    | nil => simp
    | cons head tail =>
      rw [List.cons_append, List.cons.injEq] at h
      exact absurd (h.2 ▸ List.mem_append_right _ List.mem_cons_self) hrest
  rcases List.append_eq_append_iff.mp heq with ⟨after, hsecond, h⟩ | ⟨after, hfirst, h⟩
  · rw [hsecond]
    exact hshorter hlast h
  · rw [hfirst]
    exact (hshorter hother h).symm

namespace WorkerHealthRegistry

theorem toList_event_key (worker_id : String) (state : WorkerState) (count : ℕ) :
    (event_key worker_id state count).toList =
      ("worker-health:".toList ++ worker_id.toList ++ ':' :: state.value.toList) ++
        ':' :: Nat.toDigits 10 count := by
  have hkey : event_key worker_id state count =
      "worker-health:" ++ worker_id ++ ":" ++ state.value ++ ":" ++ count.repr := rfl
  have hmark : ":".toList = [':'] := rfl
  simp only [hkey, String.toList_append, Nat.toList_repr, hmark, List.append_assoc,
    List.cons_append, List.nil_append]

theorem event_key_ne {first second : String} (hne : first ≠ second) (state other : WorkerState)
    (count more : ℕ) : event_key first state count ≠ event_key second other more := by
  have hnumber (n : ℕ) : ':' ∉ Nat.toDigits 10 n := by
    intro hmem
    exact absurd (Nat.isDigit_of_mem_toDigits (by decide) (by decide) hmem) (by decide)
  have hstate (state : WorkerState) : ':' ∉ state.value.toList := by
    cases state <;> decide
  intro heq
  have hlists := congrArg String.toList heq
  rw [toList_event_key, toList_event_key] at hlists
  have hworkers := before_mark_injective (hstate state) (hstate other)
    (before_mark_injective (hnumber count) (hnumber more) hlists)
  exact hne (String.toList_inj.mp (List.append_cancel_left hworkers))

variable {hasher : Hasher} {registry : WorkerHealthRegistry} {worker_id : String}
  {record : WorkerRecord}

-- The journal, where there is one, has room for the event of the move.
def Taken (hasher : Hasher) (registry : WorkerHealthRegistry) (record : WorkerRecord)
    (state : WorkerState) (occurred_at : AwareDatetime) (reasons : List String) : Prop :=
  state ≠ record.state → ∀ journal ∈ registry._events, ∀ event_type ∈ state.event_type,
    journal.Admits hasher event_type record.worker_id
      (event_payload (reasons.insertionSort (· ≤ ·)) record.semantic_score) occurred_at.1
      (event_key record.worker_id state (record.transitions.length + 1))

theorem isOk_told_iff (hasher : Hasher) (events : Option EventJournal) (record : WorkerRecord)
    (transition : HealthTransition) :
    (told hasher events record transition).isOk = true ↔
      ∀ journal ∈ events, ∀ event_type ∈ transition.to_state.event_type,
        journal.Admits hasher event_type record.worker_id
          (event_payload transition.reason_codes transition.semantic_score) transition.occurred_at.1
          (event_key record.worker_id transition.to_state (record.transitions.length + 1)) := by
  have htypes : ∀ state : WorkerState, ∀ event_type ∈ state.event_type,
      event_type ∈ PARALLEL_RUNTIME_EVENT_TYPES := by
    intro state
    cases state <;> decide
  have haware : transition.occurred_at.1.utcoffset.isNone = false := by
    rw [← Option.not_isSome, transition.occurred_at.2]
    rfl
  unfold told
  cases events with
  | none => simp [Except.isOk, Except.toBool]
  | some journal =>
    cases htype : transition.to_state.event_type with
    | none => simp [Except.isOk, Except.toBool]
    | some event_type =>
      dsimp only
      rw [isOk_map, EventJournal.isOk_append_iff (htypes _ _ htype) haware]
      simp

theorem isOk_transition (hget : registry._records.get? worker_id = some record)
    (state : WorkerState) (occurred_at : AwareDatetime) (reasons : List String) :
    (_transition hasher worker_id state occurred_at reasons registry).1.isOk = true ↔
      record.state.rank ≤ state.rank ∧
        registry.Taken hasher record state occurred_at reasons := by
  rw [transition_eq hget]
  by_cases hsame : state = record.state
  · simp [hsame, Taken, Except.isOk, Except.toBool]
  rw [if_neg hsame]
  by_cases hrank : record.state.rank ≤ state.rank
  · rw [if_pos hrank]
    have htaken : registry.Taken hasher record state occurred_at reasons ↔
        (told hasher registry._events record (record.transition_to state occurred_at reasons)).isOk =
          true := by
      rw [isOk_told_iff]
      exact forall_prop_of_true hsame
    rw [htaken, and_iff_right hrank]
    cases htold : told hasher registry._events record
        (record.transition_to state occurred_at reasons) with
    | ok events => simp [htold, Except.isOk, Except.toBool]
    | error raised => simp [htold, Except.isOk, Except.toBool]
  · rw [if_neg hrank]
    simp [hrank, Except.isOk, Except.toBool]

-- A worker whose registration returned.
def Known (registry : WorkerHealthRegistry) (worker_id : String) : Prop :=
  ∃ record, registry._records.get? worker_id = some record ∧ record.snapshot.isOk = true

theorem Known.advances {later : WorkerHealthRegistry} (hknown : registry.Known worker_id)
    (hadvances : registry.Advances later) : later.Known worker_id := by
  obtain ⟨record, hget, hok⟩ := hknown
  obtain ⟨next, hnext, hfollows⟩ := hadvances.follows worker_id record hget
  exact ⟨next, hnext, hfollows.snapshot.trans hok⟩

theorem isOk_snapshot (hget : registry._records.get? worker_id = some record) :
    (snapshot worker_id registry).1.isOk = record.snapshot.isOk := by
  rw [snapshot, bind_of_ok (record_of_eq hget)]
  exact isOk_mapError _ _

theorem Known.isOk_snapshot (hknown : registry.Known worker_id) :
    (snapshot worker_id registry).1.isOk = true := by
  obtain ⟨record, hget, hok⟩ := hknown
  rw [WorkerHealthRegistry.isOk_snapshot hget, hok]

theorem isOk_demanded (hknown : registry.Known worker_id)
    (hget : registry._records.get? worker_id = some record) (retired : Bool)
    (occurred_at : AwareDatetime) (demand : Option (WorkerState × List String)) :
    (demanded hasher worker_id retired occurred_at demand registry).1.isOk = true ↔
      (retired = false → ∀ state reasons, demand = some (state, reasons) →
        record.state.rank ≤ state.rank ∧
          registry.Taken hasher record state occurred_at reasons) := by
  cases retired with
  | true => simpa [demanded] using hknown.isOk_snapshot
  | false =>
    cases demand with
    | none => simpa [demanded] using hknown.isOk_snapshot
    | some asked =>
      obtain ⟨state, reasons⟩ := asked
      have hmove := @isOk_transition hasher _ _ _ hget state occurred_at reasons
      have hadvances := @advancing_transition hasher worker_id state occurred_at reasons registry
      simp only [demanded, forall_const, Option.some.injEq, Prod.mk.injEq, and_imp,
        forall_apply_eq_imp_iff, forall_eq']
      rw [← hmove]
      cases hrun : _transition hasher worker_id state occurred_at reasons registry with
      | mk result left =>
        rw [hrun] at hadvances
        cases result with
        | error error =>
          rw [bind_of_error hrun]
          simp [Except.isOk, Except.toBool]
        | ok transition =>
          rw [bind_of_ok hrun]
          exact iff_of_true (hknown.advances hadvances).isOk_snapshot rfl

theorem rank_of_infrastructure_demand {observation : InfrastructureObservation}
    {state : WorkerState} {reasons : List String}
    (hdemand : infrastructure_demand observation = some (state, reasons)) : 2 ≤ state.rank := by
  unfold infrastructure_demand at hdemand
  split at hdemand
  · cases hdemand
    decide
  split at hdemand
  · cases hdemand
    decide
  · cases hdemand

theorem rank_of_semantic_demand {window : List SemanticObservation} {score : Score}
    {observation : SemanticObservation} {state : WorkerState} {reasons : List String}
    (hdemand : semantic_demand window score observation = some (state, reasons)) :
    state = .DEGRADED ∨ 2 ≤ state.rank := by
  unfold semantic_demand at hdemand
  dsimp only at hdemand
  split at hdemand
  · cases hdemand
    exact .inr (by decide)
  split at hdemand
  · cases hdemand
    exact .inr (by decide)
  split at hdemand
  · cases hdemand
    exact .inl rfl
  · cases hdemand

theorem rank_of_not_retired {state : WorkerState} (hstate : state.retired = false) :
    state.rank ≤ 2 := by
  cases state with
  | HEALTHY => decide
  | DEGRADED => decide
  | DRAINING => decide
  | QUARANTINED => cases hstate
  | TERMINATED => cases hstate

-- Only a draining worker is asked back, and only to be degraded.
theorem rank_le_iff_of_semantic_demand {window : List SemanticObservation} {score : Score}
    {observation : SemanticObservation} {state : WorkerState} {reasons : List String}
    (hdemand : semantic_demand window score observation = some (state, reasons))
    {current : WorkerState} (hcurrent : current.retired = false) :
    current.rank ≤ state.rank ↔ ¬(current = .DRAINING ∧ state = .DEGRADED) := by
  have hlow := rank_of_not_retired hcurrent
  rcases rank_of_semantic_demand hdemand with rfl | hhigh
  · cases current <;> simp_all [WorkerState.rank, WorkerState.retired]
  · have hne : state ≠ .DEGRADED := by
      rintro rfl
      exact absurd hhigh (by decide)
    simp only [hne, and_false, not_false_eq_true, iff_true]
    omega

-- When an operation that records something returns.

def InfrastructureMet (hasher : Hasher) (registry : WorkerHealthRegistry) (worker_id : String)
    (observation : InfrastructureObservation) : Prop :=
  ∀ record ∈ registry._records.get? worker_id, record.state.retired = false →
    ∀ state reasons, infrastructure_demand observation = some (state, reasons) →
      registry.Taken hasher record state observation.observed_at reasons

def SemanticMet (hasher : Hasher) (registry : WorkerHealthRegistry) (worker_id : String)
    (observation : SemanticObservation) : Prop :=
  ∀ record ∈ registry._records.get? worker_id, record.state.retired = false →
    let observed := observed_semantics registry._window record observation
    ∀ state reasons,
      semantic_demand (window_of registry._window observed.semantics) observed.semantic_score
        observation = some (state, reasons) →
      ¬(record.state = .DRAINING ∧ state = .DEGRADED) ∧
        registry.Taken hasher observed state observation.observed_at reasons

def LivenessMet (hasher : Hasher) (registry : WorkerHealthRegistry) (now : Datetime) : Prop :=
  ∃ aware ∈ Datetime.aware? now, ∀ worker_id record,
    registry._records.get? worker_id = some record →
    ∀ state reasons, registry.liveness_demand record aware = some (state, reasons) →
      registry.Taken hasher record state aware reasons

theorem isOk_record_infrastructure (hknown : registry.Known worker_id)
    (observation : InfrastructureObservation) :
    (record_infrastructure hasher worker_id observation registry).1.isOk = true ↔
      registry.InfrastructureMet hasher worker_id observation := by
  obtain ⟨record, hget, hok⟩ := hknown
  have hput := advances_put hget (observed_infrastructure_follows record observation)
  have hafter : Dict.get? (registry._records.set worker_id
      (observed_infrastructure record observation)) worker_id =
      some (observed_infrastructure record observation) := Dict.get?_set_self _ _ _
  rw [record_infrastructure_eq hget,
    isOk_demanded (Known.advances ⟨record, hget, hok⟩ hput) hafter]
  simp only [InfrastructureMet, hget, Option.mem_def, Option.some.injEq, forall_eq']
  refine forall_congr' fun hretired => forall_congr' fun state => forall_congr' fun reasons =>
    forall_congr' fun hdemand => ?_
  have hlow := rank_of_not_retired hretired
  have hhigh := rank_of_infrastructure_demand hdemand
  exact and_iff_right (hlow.trans hhigh)

theorem isOk_record_semantic (hknown : registry.Known worker_id)
    (observation : SemanticObservation) :
    (record_semantic hasher worker_id observation registry).1.isOk = true ↔
      registry.SemanticMet hasher worker_id observation := by
  obtain ⟨record, hget, hok⟩ := hknown
  have hput := advances_put hget (observed_semantics_follows registry._window record observation)
  have hafter : Dict.get? (registry._records.set worker_id
      (observed_semantics registry._window record observation)) worker_id =
      some (observed_semantics registry._window record observation) := Dict.get?_set_self _ _ _
  rw [record_semantic_eq hget, isOk_demanded (Known.advances ⟨record, hget, hok⟩ hput) hafter]
  simp only [SemanticMet, hget, Option.mem_def, Option.some.injEq, forall_eq']
  refine forall_congr' fun hretired => forall_congr' fun state => forall_congr' fun reasons =>
    forall_congr' fun hdemand => ?_
  exact and_congr_left' (rank_le_iff_of_semantic_demand hdemand hretired)

-- The event of one worker's move does not stand in the way of another's.
theorem taken_after {after : Option EventJournal} {other : WorkerRecord}
    {transition : HealthTransition} (htold : told hasher registry._events record transition = .ok after)
    (hne : other.worker_id ≠ record.worker_id) {left : WorkerHealthRegistry}
    (hleft : left._events = after) (state : WorkerState) (occurred_at : AwareDatetime)
    (reasons : List String) :
    left.Taken hasher other state occurred_at reasons ↔
      registry.Taken hasher other state occurred_at reasons := by
  unfold Taken
  rw [hleft]
  cases hevents : registry._events with
  | none =>
    obtain rfl : after = none := by
      simpa [told, hevents] using htold.symm
    exact Iff.rfl
  | some journal =>
    rw [hevents] at htold
    cases htype : transition.to_state.event_type with
    | none =>
      obtain rfl : after = some journal := by
        simpa [told, htype] using htold.symm
      exact Iff.rfl
    | some event_type =>
      simp only [told, htype] at htold
      obtain ⟨next, happend, hafter⟩ := of_bind_eq_ok htold
      obtain rfl := Except.ok.inj hafter
      simp only [Option.mem_def, Option.some.injEq, forall_eq']
      refine imp_congr Iff.rfl (forall_congr' fun other_type => imp_congr Iff.rfl ?_)
      exact EventJournal.admits_after happend other_type other.worker_id _ _ _ hne
        (event_key_ne hne _ _ _ _)

theorem of_liveness_demand {now : AwareDatetime} {state : WorkerState} {reasons : List String}
    (hdemand : registry.liveness_demand record now = some (state, reasons)) :
    record.state.rank ≤ state.rank := by
  unfold liveness_demand at hdemand
  split at hdemand
  · rename_i hretired _
    have hlow := rank_of_not_retired hretired
    dsimp only at hdemand
    split at hdemand
    · cases hdemand
      exact hlow.trans (by decide)
    split at hdemand
    · cases hdemand
      exact hlow
    · cases hdemand
  · cases hdemand

-- What a move of one worker leaves for the others.
theorem transition_leaves {state : WorkerState} {occurred_at : AwareDatetime}
    {reasons : List String} {made : Option HealthTransition} {left : WorkerHealthRegistry}
    (hkeyed : registry.Keyed) (hget : registry._records.get? worker_id = some record)
    (hrun : _transition hasher worker_id state occurred_at reasons registry = (.ok made, left))
    {other_id : String} (hne : other_id ≠ worker_id) :
    left._records.get? other_id = registry._records.get? other_id ∧
    (∀ other now, left.liveness_demand other now = registry.liveness_demand other now) ∧
    ∀ other, registry._records.get? other_id = some other → ∀ state occurred_at reasons,
      left.Taken hasher other state occurred_at reasons ↔
        registry.Taken hasher other state occurred_at reasons := by
  rw [transition_eq hget] at hrun
  split at hrun
  · cases hrun
    exact ⟨rfl, fun _ _ => rfl, fun _ _ _ _ _ => Iff.rfl⟩
  split at hrun
  · dsimp only at hrun
    split at hrun
    · rename_i events htold
      cases hrun
      refine ⟨Dict.get?_set_of_ne _ _ hne, fun _ _ => rfl, ?_⟩
      intro other hother later_state later_time later_reasons
      have hids : other.worker_id ≠ record.worker_id := by
        rw [hkeyed other_id other hother, hkeyed worker_id record hget]
        exact hne
      exact taken_after htold hids rfl later_state later_time later_reasons
    · cases hrun
  · cases hrun

theorem isOk_sweep (now : AwareDatetime) {workers : List String} (hnodup : workers.Nodup)
    (hkeyed : registry.Keyed)
    (hpresent : ∀ worker_id ∈ workers, ∃ record, registry._records.get? worker_id = some record) :
    (sweep hasher now workers registry).1.isOk = true ↔
      ∀ worker_id ∈ workers, ∀ record, registry._records.get? worker_id = some record →
        ∀ state reasons, registry.liveness_demand record now = some (state, reasons) →
          registry.Taken hasher record state now reasons := by
  induction workers generalizing registry with
  | nil => simp [sweep, returns, Except.isOk, Except.toBool]
  | cons worker_id rest ih =>
    obtain ⟨hnew, hrest⟩ := List.nodup_cons.mp hnodup
    obtain ⟨⟨record, hget⟩, hothers⟩ := List.forall_mem_cons.mp hpresent
    have hself : ∀ (next : WorkerHealthRegistry → Call (List HealthTransition)),
        (self >>= next) registry = next registry registry := fun _ => rfl
    rw [List.forall_mem_cons, sweep, bind_of_ok (record_of_eq hget), hself]
    simp only [hget, Option.some.injEq, forall_eq']
    cases hdemand : registry.liveness_demand record now with
    | none => simpa using ih hrest hkeyed hothers
    | some asked =>
      obtain ⟨state, reasons⟩ := asked
      simp only [Option.some.injEq, Prod.mk.injEq, and_imp, forall_apply_eq_imp_iff, forall_eq']
      have hmove := @isOk_transition hasher _ _ _ hget state now reasons
      rw [and_iff_right (of_liveness_demand hdemand)] at hmove
      cases hrun : _transition hasher worker_id state now reasons registry with
      | mk result left =>
        rw [hrun] at hmove
        cases result with
        | error error =>
          rw [bind_of_error hrun]
          have hnot : ¬registry.Taken hasher record state now reasons := by
            rw [← hmove]
            simp [Except.isOk, Except.toBool]
          simp [hnot, Except.isOk, Except.toBool]
        | ok made =>
          rw [bind_of_ok hrun]
          have hadvances := @advancing_transition hasher worker_id state now reasons registry
          rw [hrun] at hadvances
          have hleft {other_id : String} (hother : other_id ∈ rest) :=
            transition_leaves hkeyed hget hrun (fun h => hnew (h ▸ hother) : other_id ≠ worker_id)
          have hsweep := @ih left hrest (hadvances.keyed hkeyed) (by
            intro other_id hother
            rw [(hleft hother).1]
            exact hothers other_id hother)
          have hwrap (result : Call (List HealthTransition)) :
              ((result >>= fun transitions => returns (made.toList ++ transitions)) left).1.isOk =
                (result left).1.isOk := by
            cases hresult : result left with
            | mk value after =>
              cases value with
              | error error => rw [bind_of_error hresult]
              | ok value => rw [bind_of_ok hresult]; rfl
          rw [hwrap, hsweep, and_iff_right (hmove.mp rfl)]
          refine forall_congr' fun other_id => forall_congr' fun hother => ?_
          obtain ⟨hsame, hdemands, htaken⟩ := hleft hother
          rw [hsame]
          refine forall_congr' fun other => forall_congr' fun hget_other => ?_
          refine forall_congr' fun later => forall_congr' fun why => ?_
          rw [hdemands, htaken other hget_other]

theorem isOk_evaluate_liveness (hkeyed : registry.Keyed) (now : Datetime) :
    (evaluate_liveness hasher now registry).1.isOk = true ↔ registry.LivenessMet hasher now := by
  have hself : (self : Call WorkerHealthRegistry) registry = (.ok registry, registry) := rfl
  unfold LivenessMet evaluate_liveness
  rw [bind_of_ok hself]
  cases Datetime.aware? now with
  | none => simp [raises, Except.isOk, Except.toBool]
  | some aware =>
    have hsweep := @isOk_sweep hasher registry aware _ registry._records.nodup hkeyed
      (fun worker_id h => (Dict.mem_keys_iff _ _).mp h)
    simp only [Option.mem_def, Option.some.injEq, exists_eq_left']
    rw [Dict.keys, hsweep]
    refine forall_congr' fun worker_id => ?_
    refine ⟨fun h record hget => h ((Dict.mem_keys_iff _ _).mpr ⟨record, hget⟩) record hget,
      fun h _ => h⟩

theorem known_of_snapshot (hsnapshot : (snapshot worker_id registry).1.isOk = true) :
    (snapshot worker_id registry).2.Known worker_id := by
  cases hget : registry._records.get? worker_id with
  | none =>
    rw [snapshot, bind_of_error (record_of_missing hget)] at hsnapshot
    cases hsnapshot
  | some record =>
    have hleft : (snapshot worker_id registry).2 = registry := by
      rw [snapshot, bind_of_ok (record_of_eq hget)]
      rfl
    rw [hleft]
    exact ⟨record, hget, (isOk_snapshot hget).symm.trans hsnapshot⟩

theorem known_of_register {worker : Registration}
    (hregister : (register worker registry).1.isOk = true) :
    (register worker registry).2.Known worker.worker_id := by
  have hself (next : WorkerHealthRegistry → Call WorkerSnapshot) :
      (self >>= next) registry = next registry registry := rfl
  by_cases haware : ∀ moment ∈ worker.registered_at, moment.utcoffset.isSome = true
  · rw [register, require, if_pos haware, returns_bind, hself] at hregister ⊢
    cases hget : registry._records.get? worker.worker_id with
    | none =>
      rw [hget] at hregister
      exact known_of_snapshot hregister
    | some existing =>
      rw [hget] at hregister
      dsimp only at hregister ⊢
      rw [require] at hregister ⊢
      split at hregister
      · rename_i hsame
        rw [if_pos hsame]
        exact known_of_snapshot hregister
      · cases hregister
  · rw [register, require, if_neg haware] at hregister
    cases hregister

-- Health is never regained, and an operation that records something on a registered worker
-- returns exactly when no draining worker is asked to be degraded and the journal takes the events.
theorem drain_safe (start : WorkerHealthRegistry) (hstart : start._records = .empty)
    (calls : List HealthCall) :
    (∀ earlier, earlier <+: calls → ∀ worker_id record,
      (start.run hasher earlier)._records.get? worker_id = some record →
      ∃ later, (start.run hasher calls)._records.get? worker_id = some later ∧
        record.state.rank ≤ later.state.rank) ∧
    (∀ worker_id,
      (∃ earlier worker, earlier ++ [.register worker] <+: calls ∧ worker.worker_id = worker_id ∧
        (register worker (start.run hasher earlier)).1.isOk = true) →
      (∀ observation,
        (record_semantic hasher worker_id observation (start.run hasher calls)).1.isOk = true ↔
          (start.run hasher calls).SemanticMet hasher worker_id observation) ∧
      ∀ observation,
        (record_infrastructure hasher worker_id observation (start.run hasher calls)).1.isOk =
            true ↔
          (start.run hasher calls).InfrastructureMet hasher worker_id observation) ∧
    ∀ now, (evaluate_liveness hasher now (start.run hasher calls)).1.isOk = true ↔
      (start.run hasher calls).LivenessMet hasher now := by
  have hkeyed : (start.run hasher calls).Keyed := by
    refine (advances_run start calls).keyed ?_
    intro worker_id record hget
    rw [hstart] at hget
    cases hget
  refine ⟨?_, ?_, isOk_evaluate_liveness hkeyed⟩
  · rintro earlier ⟨rest, rfl⟩ worker_id record hget
    have hadvances := @advances_run hasher (start.run hasher earlier) rest
    rw [← run_append] at hadvances
    obtain ⟨later, hlater, hfollows⟩ := hadvances.follows worker_id record hget
    exact ⟨later, hlater, hfollows.rank⟩
  · rintro worker_id ⟨earlier, worker, ⟨rest, rfl⟩, rfl, hregister⟩
    have hknown : (start.run hasher (earlier ++ [.register worker] ++ rest)).Known
        worker.worker_id := by
      have hadvances := @advances_run hasher
        (start.run hasher (earlier ++ [.register worker])) rest
      rw [← run_append] at hadvances
      refine Known.advances ?_ hadvances
      rw [run_append]
      exact known_of_register hregister
    exact ⟨isOk_record_semantic hknown, isOk_record_infrastructure hknown⟩

section Spike

-- A worker that drains after a latency spike, and then reports a row it left out.
def spike_at : AwareDatetime :=
  ⟨{  year := 2023
      month := 4
      day := 5
      hour := 6
      minute := 7
      second := 8
      microsecond := 0
      utcoffset := some 10800000000
      year_range := by decide
      month_range := Datetime.month_4
      day_range := by decide
      time_range := by decide
      offset_range := by decide }, rfl⟩

def spiking_worker : Registration where
  worker_id := "worker-1"
  model_revision := "model-7"
  runtime_image_digest := "image-3"
  capabilities := {"vision"}
  warm := true

def spike : InfrastructureObservation where
  observed_at := spike_at
  ping := true
  process := true
  gpu := true
  ram := true
  disk := true
  model_loaded := true
  cuda_ready := true
  request_response := true
  heartbeat := true
  model_identity_matches := true
  checksum_matches := true
  latency_p99_spike := true

def row_left_out : SemanticObservation where
  attempt_id := "attempt-1"
  shard_id := "shard-1"
  observed_at := spike_at
  validator_passed := false
  source_coverage := .finite 1
  row_omission := true
  named := by decide
  covered := by decide +kernel

theorem spike_is_known :
    (register spiking_worker ({} : WorkerHealthRegistry)).1.isOk = true := by
  decide

theorem draining_worker_raises :
    let calls : List HealthCall := [.register spiking_worker, .record_infrastructure "worker-1" spike]
    let registry := run sha256 {} calls
    (registry._records.get? "worker-1").map WorkerRecord.state = some .DRAINING ∧
    (match (record_semantic sha256 "worker-1" row_left_out registry).1 with
      | .ok _ => none
      | .error raised => some raised) =
      some (.fault (.runtime_error
        "worker health promotion requires explicit canary restoration")) := by
  decide +kernel

theorem spike_run_safe :
    let calls : List HealthCall := [.register spiking_worker, .record_infrastructure "worker-1" spike]
    ¬(run sha256 {} calls).SemanticMet sha256 "worker-1" row_left_out := by
  intro calls hmet
  have hknown := (@drain_safe sha256 {} rfl calls).2.1 "worker-1"
    ⟨[], spiking_worker, ⟨[.record_infrastructure "worker-1" spike], rfl⟩, rfl, spike_is_known⟩
  have hraises : (record_semantic sha256 "worker-1" row_left_out (run sha256 {} calls)).1.isOk =
      false := by
    decide +kernel
  exact absurd ((hknown.1 row_left_out).mpr hmet) (by simp [hraises])

end Spike

end WorkerHealthRegistry

end KnowledgeCompiler.Parallel
