import KnowledgeCompiler.Parallel.Continuity
import Mathlib.Logic.Function.Basic
import Mathlib.Logic.Relation

namespace KnowledgeCompiler.Parallel

open Lib Method

namespace EventJournal

variable {hasher : Hasher} {journal next : EventJournal}

-- Every event is kept under its own key.
def Indexed (journal : EventJournal) : Prop :=
  journal.keys.entries = journal.events.map fun event => (event.idempotency_key, event)

-- One event under the key, and it is the one meant.
structure Tells (journal : EventJournal) (event_type aggregate_id : String)
    (payload : List (String × Json)) (idempotency_key : String) : Prop where
  once : journal.events.countP (·.idempotency_key = idempotency_key) = 1
  told : ∃ event ∈ journal.events, event.idempotency_key = idempotency_key ∧
    event.event_type = event_type ∧ event.aggregate_id = aggregate_id ∧
      event.payload_json = canonical_json (.obj payload)

-- The journal has no other event under the key, nor a later one of the aggregate.
structure Takes (journal : EventJournal) (event_type aggregate_id : String)
    (payload : List (String × Json)) (occurred_at : Datetime) (idempotency_key : String) : Prop where
  aware : occurred_at.utcoffset.isSome = true
  unclaimed : ∀ existing, journal.keys.get? idempotency_key = some existing →
    existing.event_type = event_type ∧ existing.aggregate_id = aggregate_id ∧
      existing.payload_json = canonical_json (.obj payload)
  chronological : journal.keys.get? idempotency_key = none →
    ∀ previous, journal.last_occurred_at.get? aggregate_id = some previous →
      occurred_at.lt? previous = .ok false

section Append

variable {event_type aggregate_id idempotency_key : String} {payload : List (String × Json)}
  {occurred_at : Datetime}

-- An append finds its key in the journal or writes one event.
theorem append_cases
    (happend : journal.append hasher event_type aggregate_id payload occurred_at idempotency_key =
      .ok next) :
    (∃ existing, journal.keys.get? idempotency_key = some existing ∧ next = journal) ∨
      (journal.keys.get? idempotency_key = none ∧
        next = journal.record hasher event_type aggregate_id payload occurred_at idempotency_key) := by
  obtain ⟨-, -, hkept | ⟨hnone, -, hrecord⟩⟩ := append_returns happend
  · exact .inl hkept
  · exact .inr ⟨hnone, hrecord⟩

theorem Indexed.get?_eq_some_iff (hindexed : journal.Indexed) (key : String) (event : DomainEvent) :
    journal.keys.get? key = some event ↔ event ∈ journal.events ∧ event.idempotency_key = key := by
  rw [← Dict.mem_entries_iff, hindexed, List.mem_map]
  constructor
  · rintro ⟨found, hfound, heq⟩
    obtain ⟨rfl, rfl⟩ := Prod.mk.inj heq
    exact ⟨hfound, rfl⟩
  · rintro ⟨hevent, rfl⟩
    exact ⟨event, hevent, rfl⟩

theorem Indexed.nodup (hindexed : journal.Indexed) :
    (journal.events.map DomainEvent.idempotency_key).Nodup := by
  have hkeys := journal.keys.nodup
  rwa [hindexed, List.map_map] at hkeys

theorem Indexed.append (hindexed : journal.Indexed)
    (happend : journal.append hasher event_type aggregate_id payload occurred_at idempotency_key =
      .ok next) : next.Indexed := by
  rcases append_cases happend with ⟨_, -, rfl⟩ | ⟨hnone, rfl⟩
  · exact hindexed
  · unfold Indexed at hindexed ⊢
    simp only [record, List.map_append, List.map_cons, List.map_nil, ← hindexed]
    exact Dict.setEntries_of_not_mem _ _ _ ((journal.keys.get?_eq_none_iff _).mp hnone)

theorem countP_eq_one (hindexed : journal.Indexed) {event : DomainEvent}
    (hevent : event ∈ journal.events) (hkey : event.idempotency_key = idempotency_key) :
    journal.events.countP (·.idempotency_key = idempotency_key) = 1 := by
  have hcount := hindexed.nodup.count (a := idempotency_key)
  rw [if_pos (List.mem_map.mpr ⟨event, hevent, hkey⟩), List.count, List.countP_map] at hcount
  rw [← hcount]
  exact List.countP_congr fun other _ => by simp

-- What the journal tells, it tells after any other append.
theorem Tells.append {told_type told_id told_key : String} {told_payload : List (String × Json)}
    (htells : journal.Tells told_type told_id told_payload told_key) (hindexed : journal.Indexed)
    (happend : journal.append hasher event_type aggregate_id payload occurred_at idempotency_key =
      .ok next) : next.Tells told_type told_id told_payload told_key := by
  obtain ⟨event, hevent, hkey, hcontent⟩ := htells.told
  have hkept : event ∈ next.events := by
    rcases append_cases happend with ⟨_, -, rfl⟩ | ⟨-, rfl⟩
    · exact hevent
    · exact List.mem_append_left _ hevent
  exact ⟨countP_eq_one (hindexed.append happend) hkept hkey, event, hkept, hkey, hcontent⟩

-- An event that the journal takes is there after the append.
theorem Takes.append (htakes : journal.Takes event_type aggregate_id payload occurred_at idempotency_key)
    (htype : event_type ∈ PARALLEL_RUNTIME_EVENT_TYPES) (hpayload : (Json.obj payload).Printable) :
    ∃ next, journal.append hasher event_type aggregate_id payload occurred_at idempotency_key =
      .ok next := by
  have hnone : occurred_at.utcoffset.isNone = false := by
    have haware := htakes.aware
    cases hoffset : occurred_at.utcoffset with
    | none => rw [hoffset] at haware; cases haware
    | some offset => rfl
  unfold EventJournal.append
  rw [refuse_if_ok (not_not.mpr htype), refuse_if_ok (by simp [hnone])]
  cases hfound : journal.keys.get? idempotency_key with
  | some existing =>
    obtain ⟨rfl, rfl, hcontent⟩ := htakes.unclaimed existing hfound
    have hread : Json.loads existing.payload_json = some (Json.sortKeys (.obj payload)) := by
      rw [hcontent]
      exact Json.loads_text _ (Json.printable_sortKeys _ hpayload)
    have hsorted := Json.sortKeys_sortKeys (.obj payload)
    generalize hsort : Json.sortKeys (.obj payload) = sorted at hread hsorted
    cases sorted with
    | obj members =>
      have hidentity : event_identity hasher existing.event_type existing.aggregate_id members =
          event_identity hasher existing.event_type existing.aggregate_id payload := by
        unfold event_identity canonical_sha256 canonical_json Json.dumps
        simp only [Json.sortKeys, Json.sortMembers] at hsort hsorted ⊢
        rw [hsort, hsorted]
      refine ⟨journal, ?_⟩
      simp only [DomainEvent.payload, hread]
      change (refuse_if _ _ >>= fun _ => Except.ok journal) = _
      rw [refuse_if_ok (not_not.mpr hidentity)]
      rfl
    | _ => simp [Json.sortKeys] at hsort
  | none =>
    cases hlast : journal.last_occurred_at.get? aggregate_id with
    | none => exact ⟨_, rfl⟩
    | some previous =>
      simp only [htakes.chronological hfound previous hlast]
      exact ⟨_, rfl⟩

-- An event under a key the journal does not have.
theorem takes_of_vacant (haware : occurred_at.utcoffset.isSome = true)
    (hvacant : journal.keys.get? idempotency_key = none)
    (hchronological : ∀ previous, journal.last_occurred_at.get? aggregate_id = some previous →
      occurred_at.lt? previous = .ok false) :
    journal.Takes event_type aggregate_id payload occurred_at idempotency_key := by
  refine ⟨haware, ?_, fun _ => hchronological⟩
  intro existing hexisting
  rw [hvacant] at hexisting
  cases hexisting

theorem Takes.append_vacant
    (htakes : journal.Takes event_type aggregate_id payload occurred_at idempotency_key)
    (htype : event_type ∈ PARALLEL_RUNTIME_EVENT_TYPES) (hpayload : (Json.obj payload).Printable)
    (hvacant : journal.keys.get? idempotency_key = none) :
    journal.append hasher event_type aggregate_id payload occurred_at idempotency_key =
      .ok (journal.record hasher event_type aggregate_id payload occurred_at idempotency_key) := by
  obtain ⟨next, happend⟩ := @Takes.append hasher _ _ _ _ _ _ htakes htype hpayload
  rcases append_cases happend with ⟨existing, hkept, -⟩ | ⟨-, hnext⟩
  · rw [hvacant] at hkept
    cases hkept
  · exact hnext ▸ happend

theorem Takes.tells (htakes : journal.Takes event_type aggregate_id payload occurred_at idempotency_key)
    (hindexed : journal.Indexed)
    (happend : journal.append hasher event_type aggregate_id payload occurred_at idempotency_key =
      .ok next) : next.Tells event_type aggregate_id payload idempotency_key := by
  have hnext := hindexed.append happend
  rcases append_cases happend with ⟨existing, hfound, rfl⟩ | ⟨-, rfl⟩
  · obtain ⟨hevent, hkey⟩ := (hindexed.get?_eq_some_iff _ _).mp hfound
    exact ⟨countP_eq_one hindexed hevent hkey, existing, hevent, hkey, htakes.unclaimed existing hfound⟩
  · exact ⟨countP_eq_one hnext (List.mem_append_right _ List.mem_cons_self) rfl, _,
      List.mem_append_right _ List.mem_cons_self, rfl, rfl, rfl, rfl⟩

-- A second event of the same aggregate and time, under another key.
theorem Takes.after {other_type other_key : String} {other_payload : List (String × Json)}
    (htakes : journal.Takes other_type aggregate_id other_payload occurred_at other_key)
    (hkey : other_key ≠ idempotency_key)
    (happend : journal.append hasher event_type aggregate_id payload occurred_at idempotency_key =
      .ok next) : next.Takes other_type aggregate_id other_payload occurred_at other_key := by
  rcases append_cases happend with ⟨_, -, rfl⟩ | ⟨-, rfl⟩
  · exact htakes
  · have hkeys : (journal.record hasher event_type aggregate_id payload occurred_at
        idempotency_key).keys.get? other_key = journal.keys.get? other_key :=
      Dict.get?_set_of_ne _ _ hkey
    refine ⟨htakes.aware, fun existing hfound => htakes.unclaimed existing (hkeys ▸ hfound), ?_⟩
    intro _ previous hprevious
    rw [record, Dict.get?_set_self] at hprevious
    cases hprevious
    simp [Datetime.lt?]

end Append

-- A journal that some appends lead to.
def Leads (hasher : Hasher) : EventJournal → EventJournal → Prop :=
  Relation.ReflTransGen fun journal next => ∃ event_type aggregate_id payload occurred_at key,
    journal.append hasher event_type aggregate_id payload occurred_at key = .ok next

theorem leads_append {event_type aggregate_id idempotency_key : String}
    {payload : List (String × Json)} {occurred_at : Datetime}
    (happend : journal.append hasher event_type aggregate_id payload occurred_at idempotency_key =
      .ok next) : Leads hasher journal next :=
  Relation.ReflTransGen.single ⟨_, _, _, _, _, happend⟩

theorem Leads.keeps (hleads : Leads hasher journal next) (hindexed : journal.Indexed) :
    next.Indexed ∧ ∀ event_type aggregate_id payload key,
      journal.Tells event_type aggregate_id payload key →
        next.Tells event_type aggregate_id payload key := by
  induction hleads with
  | refl => exact ⟨hindexed, fun _ _ _ _ htells => htells⟩
  | tail _ hstep ih =>
    obtain ⟨_, _, _, _, _, happend⟩ := hstep
    exact ⟨ih.1.append happend, fun _ _ _ _ htells => (ih.2 _ _ _ _ htells).append ih.1 happend⟩

end EventJournal

namespace Finalizer

variable {hasher : Hasher} {journal : EventJournal}
  {results : Dict String (String × FinalizationResult)}

-- What a call is asked for that is not refused for its units or its merge hash.
def Checked (arguments : FinalizeArguments) : Prop :=
  (arguments.units ≠ [] ∧ (arguments.units.map FinalizationUnit.unit_id).Nodup) ∧
    is_sha256 arguments.merge_sha256 = true

def result_for (hasher : Hasher) (arguments : FinalizeArguments) : FinalizationResult :=
  finalized arguments.units hasher arguments.document_version_id arguments.merge_sha256

def remembering (hasher : Hasher) (arguments : FinalizeArguments)
    (results : Dict String (String × FinalizationResult)) :
    Dict String (String × FinalizationResult) :=
  results.set arguments.idempotency_key (input_digest hasher arguments, result_for hasher arguments)

-- `self._events.append(event_type="document.finalized.v1", ...)`
def appended (hasher : Hasher) (arguments : FinalizeArguments) (journal : EventJournal) :
    Except Fault EventJournal :=
  journal.append hasher "document.finalized.v1" arguments.document_version_id
    (result_for hasher arguments).finalized_payload arguments.occurred_at
    (finalized_key arguments.idempotency_key)

inductive Finalizes (hasher : Hasher) (arguments : FinalizeArguments) (journal : EventJournal)
    (results : Dict String (String × FinalizationResult)) : FinalizationResult → Finalizer → Prop
  | replayed (digest : String) (result : FinalizationResult)
      (hkept : results.get? arguments.idempotency_key = some (digest, result)) :
      Finalizes hasher arguments journal results result ⟨some journal, results⟩
  | withheld (hnew : results.get? arguments.idempotency_key = none)
      (hwithheld : (result_for hasher arguments).publishable = false) :
      Finalizes hasher arguments journal results (result_for hasher arguments)
        ⟨some journal, remembering hasher arguments results⟩
  | announced (next : EventJournal) (hnew : results.get? arguments.idempotency_key = none)
      (hchecked : Checked arguments) (hpublishable : (result_for hasher arguments).publishable = true)
      (happend : appended hasher arguments journal = .ok next) :
      Finalizes hasher arguments journal results (result_for hasher arguments)
        ⟨some next, remembering hasher arguments results⟩

-- A call that raises leaves everything as it was, unless its event was refused.
inductive Raises (hasher : Hasher) (arguments : FinalizeArguments) (journal : EventJournal)
    (results : Dict String (String × FinalizationResult)) : Finalizer → Prop
  | refused : Raises hasher arguments journal results ⟨some journal, results⟩
  | untold (raised : Fault) (hnew : results.get? arguments.idempotency_key = none)
      (hchecked : Checked arguments) (hpublishable : (result_for hasher arguments).publishable = true)
      (happend : appended hasher arguments journal = .error raised) :
      Raises hasher arguments journal results ⟨some journal, remembering hasher arguments results⟩

theorem is_sha256_of_ok {value field_name : String} {done : Unit}
    (hok : require_sha256 value field_name = .ok done) : is_sha256 value = true := by
  unfold require_sha256 refuse_if at hok
  split at hok
  · cases hok
  · rename_i hnot
    simpa using hnot

theorem ends_finalize_journal (arguments : FinalizeArguments) (journal : EventJournal)
    (results : Dict String (String × FinalizationResult)) :
    Ends (Finalizes hasher arguments journal results)
      (fun _ => Raises hasher arguments journal results) (finalize hasher arguments)
      ⟨some journal, results⟩ := by
  unfold finalize
  rw [ends_bind, ends_require]
  refine ⟨fun hunits => ?_, fun _ => Raises.refused⟩
  rw [ends_bind, ends_check]
  refine ⟨fun _ hsha => ?_, fun _ _ => Raises.refused⟩
  have hchecked : Checked arguments := ⟨hunits, is_sha256_of_ok (mapError_eq_ok_iff.mp hsha)⟩
  rw [ends_bind, ends_self]
  cases hget : results.get? arguments.idempotency_key with
  | some kept =>
    obtain ⟨existing_digest, result⟩ := kept
    simp only [ends_bind, ends_require, ends_returns]
    exact ⟨fun _ => Finalizes.replayed existing_digest result hget, fun _ => Raises.refused⟩
  | none =>
    simp only [ends_bind, ends_assign]
    unfold announce
    rw [ends_ite]
    constructor
    · intro hpublishable
      simp only [emit, ends_bind, ends_self, ends_check, ends_assign]
      constructor
      · intro next happend
        exact Finalizes.announced next hget hchecked hpublishable (mapError_eq_ok_iff.mp happend)
      · intro raised hraised
        obtain ⟨fault, hfault⟩ := exists_of_mapError_eq_error hraised
        exact Raises.untold fault hget hchecked hpublishable hfault
    · intro hnot
      exact Finalizes.withheld hget (Bool.not_eq_true _ ▸ hnot)

section Retry

variable {arguments : FinalizeArguments}

theorem finalize_new (hnew : results.get? arguments.idempotency_key = none)
    (hchecked : Checked arguments) (hpublishable : (result_for hasher arguments).publishable = true)
    {outcome : Except DocumentFault FinalizationResult × Finalizer}
    (hok : ∀ next, appended hasher arguments journal = .ok next →
      (.ok (result_for hasher arguments), ⟨some next, remembering hasher arguments results⟩) = outcome)
    (herror : ∀ raised, appended hasher arguments journal = .error raised →
      (.error (.fault raised), ⟨some journal, remembering hasher arguments results⟩) = outcome) :
    finalize hasher arguments ⟨some journal, results⟩ = outcome := by
  have hsha : require_sha256 arguments.merge_sha256 "merge_sha256" = .ok () :=
    refuse_if_ok (by simp [hchecked.2])
  apply eq_outcome_of_ends
  unfold finalize
  rw [ends_bind, ends_require, hsha]
  refine ⟨fun _ => ?_, fun hnot => absurd hchecked.1 hnot⟩
  rw [ends_bind, ends_check]
  refine ⟨fun _ _ => ?_, fun _ hraised => by cases hraised⟩
  rw [ends_bind, ends_self]
  simp only [hnew, ends_bind, ends_assign]
  unfold announce
  rw [ends_ite]
  refine ⟨fun _ => ?_, fun hnot => absurd hpublishable hnot⟩
  simp only [emit, ends_bind, ends_self, ends_check, ends_assign]
  refine ⟨fun next happend => hok next (mapError_eq_ok_iff.mp happend), fun raised hraised => ?_⟩
  obtain ⟨fault, hfault⟩ := exists_of_mapError_eq_error hraised
  have hsame : raised = .fault fault := by
    change (appended hasher arguments journal).mapError .fault = .error raised at hraised
    change appended hasher arguments journal = .error fault at hfault
    rw [hfault] at hraised
    exact (Except.error.inj hraised).symm
  rw [hsame]
  exact herror fault hfault

theorem finalize_announced {next : EventJournal}
    (hnew : results.get? arguments.idempotency_key = none) (hchecked : Checked arguments)
    (hpublishable : (result_for hasher arguments).publishable = true)
    (happend : appended hasher arguments journal = .ok next) :
    finalize hasher arguments ⟨some journal, results⟩ =
      (.ok (result_for hasher arguments), ⟨some next, remembering hasher arguments results⟩) := by
  refine finalize_new hnew hchecked hpublishable (fun found hfound => ?_) (fun raised hraised => ?_)
  · rw [happend] at hfound
    rw [Except.ok.inj hfound]
  · rw [happend] at hraised
    cases hraised

-- The refused event has no second chance: its result is remembered.
theorem finalize_untold {raised : Fault} (hnew : results.get? arguments.idempotency_key = none)
    (hchecked : Checked arguments) (hpublishable : (result_for hasher arguments).publishable = true)
    (happend : appended hasher arguments journal = .error raised) :
    finalize hasher arguments ⟨some journal, results⟩ =
      (.error (.fault raised), ⟨some journal, remembering hasher arguments results⟩) := by
  refine finalize_new hnew hchecked hpublishable (fun next hnext => ?_) (fun fault hfault => ?_)
  · rw [happend] at hnext
    cases hnext
  · rw [happend] at hfault
    rw [Except.error.inj hfault]

theorem finalize_replayed {result : FinalizationResult}
    (hkept : results.get? arguments.idempotency_key = some (input_digest hasher arguments, result))
    (hchecked : Checked arguments) :
    finalize hasher arguments ⟨some journal, results⟩ = (.ok result, ⟨some journal, results⟩) := by
  have hsha : require_sha256 arguments.merge_sha256 "merge_sha256" = .ok () :=
    refuse_if_ok (by simp [hchecked.2])
  apply eq_outcome_of_ends
  unfold finalize
  rw [ends_bind, ends_require, hsha]
  refine ⟨fun _ => ?_, fun hnot => absurd hchecked.1 hnot⟩
  rw [ends_bind, ends_check]
  refine ⟨fun _ _ => ?_, fun _ hraised => by cases hraised⟩
  rw [ends_bind, ends_self]
  simp [hkept]

end Retry

end Finalizer

namespace ContinuityMerger

variable {hasher : Hasher} {casefold : String → String}

-- `self._events.append(event_type="continuity.merge.started.v1", ...)`
def begun (hasher : Hasher) (arguments : MergeArguments) (journal : EventJournal) :
    Except Fault EventJournal :=
  journal.append hasher "continuity.merge.started.v1" arguments.document_version_id
    (started_payload hasher arguments) arguments.occurred_at (started_key arguments.idempotency_key)

-- `self._events.append(event_type="continuity.merge.completed.v1", ...)`
def ended (hasher : Hasher) (arguments : MergeArguments) (result : ContinuityMergeResult)
    (journal : EventJournal) : Except Fault EventJournal :=
  journal.append hasher "continuity.merge.completed.v1" arguments.document_version_id
    (completed_payload result) arguments.occurred_at (completed_key arguments.idempotency_key)

def remembering (hasher : Hasher) (arguments : MergeArguments) (result : ContinuityMergeResult)
    (results : Dict String (String × ContinuityMergeResult)) :
    Dict String (String × ContinuityMergeResult) :=
  results.set arguments.idempotency_key (input_digest hasher arguments, result)

inductive Merges (hasher : Hasher) (casefold : String → String) (arguments : MergeArguments)
    (journal : EventJournal) (results : Dict String (String × ContinuityMergeResult)) :
    ContinuityMergeResult → ContinuityMerger → Prop
  | replayed (result : ContinuityMergeResult)
      (hkept : results.get? arguments.idempotency_key = some (input_digest hasher arguments, result)) :
      Merges hasher casefold arguments journal results result ⟨some journal, results⟩
  | completed (started next : EventJournal) (result : ContinuityMergeResult)
      (hnew : results.get? arguments.idempotency_key = none)
      (hmerged : merged hasher casefold arguments = .ok result)
      (hbegun : begun hasher arguments journal = .ok started)
      (hended : ended hasher arguments result started = .ok next) :
      Merges hasher casefold arguments journal results result
        ⟨some next, remembering hasher arguments result results⟩

inductive Raises (hasher : Hasher) (casefold : String → String) (arguments : MergeArguments)
    (journal : EventJournal) (results : Dict String (String × ContinuityMergeResult)) :
    ContinuityMerger → Prop
  | refused : Raises hasher casefold arguments journal results ⟨some journal, results⟩
  | stopped (started : EventJournal) (hbegun : begun hasher arguments journal = .ok started) :
      Raises hasher casefold arguments journal results ⟨some started, results⟩
  | untold (started : EventJournal) (result : ContinuityMergeResult) (raised : Fault)
      (hnew : results.get? arguments.idempotency_key = none)
      (hmerged : merged hasher casefold arguments = .ok result)
      (hbegun : begun hasher arguments journal = .ok started)
      (hended : ended hasher arguments result started = .error raised) :
      Raises hasher casefold arguments journal results
        ⟨some started, remembering hasher arguments result results⟩

theorem ends_merge_journal (arguments : MergeArguments) (journal : EventJournal)
    (results : Dict String (String × ContinuityMergeResult)) :
    Ends (Merges hasher casefold arguments journal results)
      (fun _ => Raises hasher casefold arguments journal results) (merge hasher casefold arguments)
      ⟨some journal, results⟩ := by
  unfold merge
  rw [ends_bind, ends_self]
  cases hget : results.get? arguments.idempotency_key with
  | some kept =>
    obtain ⟨existing_digest, result⟩ := kept
    simp only [ends_bind, ends_require, ends_returns]
    refine ⟨fun hsame => Merges.replayed result ?_, fun _ => Raises.refused⟩
    rw [hget, hsame]
  | none =>
    simp only [emit, ends_bind, ends_self, ends_check, ends_assign, ends_returns]
    constructor
    · intro started hstart
      have hbegun : begun hasher arguments journal = .ok started := mapError_eq_ok_iff.mp hstart
      refine ⟨fun result hmerged => ⟨?_, ?_⟩, fun _ _ => Raises.stopped started hbegun⟩
      · intro next hend
        exact Merges.completed started next result hget hmerged hbegun (mapError_eq_ok_iff.mp hend)
      · intro raised hraised
        obtain ⟨fault, hfault⟩ := exists_of_mapError_eq_error hraised
        exact Raises.untold started result fault hget hmerged hbegun hfault
    · intro _ _
      exact Raises.refused

theorem merge_completed {arguments : MergeArguments} {journal started next : EventJournal}
    {results : Dict String (String × ContinuityMergeResult)} {result : ContinuityMergeResult}
    (hnew : results.get? arguments.idempotency_key = none)
    (hmerged : merged hasher casefold arguments = .ok result)
    (hbegun : begun hasher arguments journal = .ok started)
    (hended : ended hasher arguments result started = .ok next) :
    merge hasher casefold arguments ⟨some journal, results⟩ =
      (.ok result, ⟨some next, remembering hasher arguments result results⟩) := by
  have hstart : (begun hasher arguments journal).mapError DocumentFault.fault = .ok started :=
    mapError_eq_ok_iff.mpr hbegun
  have hend : (ended hasher arguments result started).mapError DocumentFault.fault = .ok next :=
    mapError_eq_ok_iff.mpr hended
  unfold begun at hstart
  unfold ended at hend
  apply eq_outcome_of_ends
  unfold merge
  rw [ends_bind, ends_self]
  simp only [hnew, emit, ends_bind, ends_self, ends_check, ends_assign, ends_returns, hstart, hmerged]
  refine ⟨?_, fun _ hraised => by cases hraised⟩
  intro _ hsame
  cases hsame
  refine ⟨?_, fun _ hraised => by cases hraised⟩
  intro _ hsame
  cases hsame
  simp only [hend]
  refine ⟨?_, fun _ hraised => by cases hraised⟩
  intro _ hsame
  cases hsame
  rfl

end ContinuityMerger

-- Finalizers and mergers, each with its own results, that share one journal.
structure Runtime where
  journal : EventJournal := {}
  finalizers : ℕ → Dict String (String × FinalizationResult) := fun _ => .empty
  mergers : ℕ → Dict String (String × ContinuityMergeResult) := fun _ => .empty

namespace Runtime

inductive Call
  | finalize (place : ℕ) (arguments : FinalizeArguments)
  | merge (place : ℕ) (arguments : MergeArguments)
  | append_event (event_type aggregate_id : String) (payload : List (String × Json))
      (occurred_at : Datetime) (idempotency_key : String)

inductive Answer
  | finalization (result : FinalizationResult)
  | merge (result : ContinuityMergeResult)
  | appended

variable (hasher : Hasher) (casefold : String → String)

def perform (runtime : Runtime) : Call → Except DocumentFault Answer × Runtime
  | .finalize place arguments =>
      let ended := Finalizer.finalize hasher arguments
        ⟨some runtime.journal, runtime.finalizers place⟩
      (ended.1.map .finalization,
        { runtime with
          journal := ended.2.events.getD runtime.journal
          finalizers := Function.update runtime.finalizers place ended.2.results })
  | .merge place arguments =>
      let ended := ContinuityMerger.merge hasher casefold arguments
        ⟨some runtime.journal, runtime.mergers place⟩
      (ended.1.map .merge,
        { runtime with
          journal := ended.2.events.getD runtime.journal
          mergers := Function.update runtime.mergers place ended.2.results })
  | .append_event event_type aggregate_id payload occurred_at idempotency_key =>
      match runtime.journal.append hasher event_type aggregate_id payload occurred_at
          idempotency_key with
      | .ok journal => (.ok .appended, { runtime with journal })
      | .error raised => (.error (.fault raised), runtime)

def run (calls : List Call) : Runtime :=
  calls.foldl (fun runtime call => (perform hasher casefold runtime call).2) {}

-- The journal takes the events of a call that is answered for the first time.
def Fair (runtime : Runtime) : Call → Prop
  | .finalize place arguments =>
      (runtime.finalizers place).get? arguments.idempotency_key = none →
        Finalizer.Checked arguments →
          (∀ unit ∈ arguments.units, unit.required = true →
            unit.state ∈ ACCEPTED_VERIFICATION_STATES) →
            runtime.journal.Takes "document.finalized.v1" arguments.document_version_id
              (Finalizer.result_for hasher arguments).finalized_payload arguments.occurred_at
              (finalized_key arguments.idempotency_key)
  | .merge place arguments =>
      (runtime.mergers place).get? arguments.idempotency_key = none →
        ∀ result, ContinuityMerger.merged hasher casefold arguments = .ok result →
          (ContinuityMerger.begun hasher arguments runtime.journal).isOk = true →
            runtime.journal.Takes "continuity.merge.started.v1" arguments.document_version_id
              (ContinuityMerger.started_payload hasher arguments) arguments.occurred_at
              (ContinuityMerger.started_key arguments.idempotency_key) ∧
            runtime.journal.Takes "continuity.merge.completed.v1" arguments.document_version_id
              (ContinuityMerger.completed_payload result) arguments.occurred_at
              (ContinuityMerger.completed_key arguments.idempotency_key)
  | .append_event .. => True

def FairRun (calls : List Call) : Prop :=
  ∀ before call, before ++ [call] <+: calls → Fair hasher casefold (run hasher casefold before) call

-- What a result that was returned is told by.
def TellsFinalization (journal : EventJournal) (key : String) (result : FinalizationResult) : Prop :=
  journal.Tells "document.finalized.v1" result.document_version_id result.finalized_payload
    (finalized_key key)

def TellsMerge (journal : EventJournal) (key digest : String) (result : ContinuityMergeResult) : Prop :=
  ∃ asked : MergeArguments, ContinuityMerger.input_digest hasher asked = digest ∧
    journal.Tells "continuity.merge.started.v1" asked.document_version_id
      (ContinuityMerger.started_payload hasher asked) (ContinuityMerger.started_key key) ∧
    journal.Tells "continuity.merge.completed.v1" asked.document_version_id
      (ContinuityMerger.completed_payload result) (ContinuityMerger.completed_key key)

def Told (journal : EventJournal) : Call → Except DocumentFault Answer → Prop
  | .finalize _ arguments, .ok (.finalization result) =>
      result.publishable = true → TellsFinalization journal arguments.idempotency_key result
  | .merge _ arguments, .ok (.merge result) =>
      TellsMerge hasher journal arguments.idempotency_key
        (ContinuityMerger.input_digest hasher arguments) result
  | _, _ => True

-- Everything that is remembered has been told.
structure Agreed (runtime : Runtime) : Prop where
  indexed : runtime.journal.Indexed
  finalized : ∀ place key digest result,
    (runtime.finalizers place).get? key = some (digest, result) → result.publishable = true →
      TellsFinalization runtime.journal key result
  merged : ∀ place key digest result,
    (runtime.mergers place).get? key = some (digest, result) →
      TellsMerge hasher runtime.journal key digest result

section Steps

variable {hasher : Hasher} {casefold : String → String} {runtime : Runtime}

theorem started_key_ne (first second : String) :
    ContinuityMerger.completed_key first ≠ ContinuityMerger.started_key second := by
  have hcompleted : (ContinuityMerger.completed_key first).toList =
      "merge-completed:".toList ++ first.toList := String.toList_append
  have hstarted : (ContinuityMerger.started_key second).toList =
      "merge-started:".toList ++ second.toList := String.toList_append
  intro h
  have hlists := congrArg String.toList h
  rw [hcompleted, hstarted] at hlists
  simp at hlists

theorem printable_finalized (result : FinalizationResult) :
    (Json.obj result.finalized_payload).Printable :=
  ⟨by simp [FinalizationResult.finalized_payload], trivial, trivial, trivial, trivial⟩

theorem printable_completed (result : ContinuityMergeResult) :
    (Json.obj (ContinuityMerger.completed_payload result)).Printable :=
  ⟨by simp [ContinuityMerger.completed_payload], trivial, trivial, printable_strings _, trivial⟩

theorem get?_update_set {α : Type} (kept : ℕ → Dict String α) (place other : ℕ) (key asked : String)
    (value : α) :
    (Function.update kept place ((kept place).set key value) other).get? asked =
      if other = place ∧ asked = key then some value else (kept other).get? asked := by
  by_cases hplace : other = place
  · subst hplace
    rw [Function.update_self, Dict.get?_set]
    simp
  · rw [Function.update_of_ne hplace]
    simp [hplace]

theorem Agreed.leads {journal : EventJournal} (hagreed : Agreed hasher runtime)
    (hleads : EventJournal.Leads hasher runtime.journal journal) :
    Agreed hasher { runtime with journal } := by
  obtain ⟨hindexed, hkeeps⟩ := hleads.keeps hagreed.indexed
  constructor
  · exact hindexed
  · intro place key digest result hget hpublishable
    exact hkeeps _ _ _ _ (hagreed.finalized place key digest result hget hpublishable)
  · intro place key digest result hget
    obtain ⟨asked, hasked, hstarted, hcompleted⟩ := hagreed.merged place key digest result hget
    exact ⟨asked, hasked, hkeeps _ _ _ _ hstarted, hkeeps _ _ _ _ hcompleted⟩

theorem Agreed.remember_finalization (hagreed : Agreed hasher runtime) (place : ℕ)
    (key digest : String) (result : FinalizationResult)
    (htold : result.publishable = true → TellsFinalization runtime.journal key result) :
    Agreed hasher { runtime with
      finalizers := Function.update runtime.finalizers place
        ((runtime.finalizers place).set key (digest, result)) } := by
  refine ⟨hagreed.indexed, ?_, hagreed.merged⟩
  intro other asked kept_digest kept hget hpublishable
  simp only [get?_update_set] at hget
  split at hget
  · rename_i hkey
    cases hget
    exact hkey.2 ▸ htold hpublishable
  · exact hagreed.finalized other asked kept_digest kept hget hpublishable

theorem Agreed.remember_merge (hagreed : Agreed hasher runtime) (place : ℕ) (key digest : String)
    (result : ContinuityMergeResult) (htold : TellsMerge hasher runtime.journal key digest result) :
    Agreed hasher { runtime with
      mergers := Function.update runtime.mergers place
        ((runtime.mergers place).set key (digest, result)) } := by
  refine ⟨hagreed.indexed, hagreed.finalized, ?_⟩
  intro other asked kept_digest kept hget
  simp only [get?_update_set] at hget
  split at hget
  · rename_i hkey
    cases hget
    exact hkey.2 ▸ htold
  · exact hagreed.merged other asked kept_digest kept hget

-- What one call keeps and tells.
structure Upheld (hasher : Hasher) (runtime : Runtime) (call : Call)
    (after : Except DocumentFault Answer × Runtime) : Prop where
  agreed : Agreed hasher after.2
  told : Told hasher after.2.journal call after.1
  leads : EventJournal.Leads hasher runtime.journal after.2.journal

theorem takes_of_fair {place : ℕ} {arguments : FinalizeArguments}
    (hfair : Fair hasher casefold runtime (.finalize place arguments))
    (hnew : (runtime.finalizers place).get? arguments.idempotency_key = none)
    (hchecked : Finalizer.Checked arguments)
    (hpublishable : (Finalizer.result_for hasher arguments).publishable = true) :
    runtime.journal.Takes "document.finalized.v1" arguments.document_version_id
      (Finalizer.result_for hasher arguments).finalized_payload arguments.occurred_at
      (finalized_key arguments.idempotency_key) :=
  hfair hnew hchecked
    ((finalized_splits hasher arguments.document_version_id arguments.merge_sha256
      hchecked.1.2).publishable.mp hpublishable)

theorem perform_finalize {place : ℕ} {arguments : FinalizeArguments}
    {outcome : Except DocumentFault FinalizationResult} {left : Finalizer}
    (hrun : Finalizer.finalize hasher arguments ⟨some runtime.journal, runtime.finalizers place⟩ =
      (outcome, left)) :
    perform hasher casefold runtime (.finalize place arguments) =
      (outcome.map .finalization,
        { runtime with
          journal := left.events.getD runtime.journal
          finalizers := Function.update runtime.finalizers place left.results }) := by
  simp only [perform, hrun]

theorem perform_merge {place : ℕ} {arguments : MergeArguments}
    {outcome : Except DocumentFault ContinuityMergeResult} {left : ContinuityMerger}
    (hrun : ContinuityMerger.merge hasher casefold arguments
      ⟨some runtime.journal, runtime.mergers place⟩ = (outcome, left)) :
    perform hasher casefold runtime (.merge place arguments) =
      (outcome.map .merge,
        { runtime with
          journal := left.events.getD runtime.journal
          mergers := Function.update runtime.mergers place left.results }) := by
  simp only [perform, hrun]

theorem Agreed.finalize (hagreed : Agreed hasher runtime) {place : ℕ} {arguments : FinalizeArguments}
    (hfair : Fair hasher casefold runtime (.finalize place arguments)) :
    Upheld hasher runtime (.finalize place arguments)
      (perform hasher casefold runtime (.finalize place arguments)) := by
  have hends := @Finalizer.ends_finalize_journal hasher arguments runtime.journal
    (runtime.finalizers place)
  unfold Ends at hends
  cases hrun : Finalizer.finalize hasher arguments ⟨some runtime.journal, runtime.finalizers place⟩ with
  | mk outcome left =>
    rw [hrun] at hends
    rw [perform_finalize hrun]
    cases outcome with
    | ok result =>
      cases hends with
      | replayed digest _ hkept =>
        refine ⟨?_, ?_, Relation.ReflTransGen.refl⟩
        · simpa using hagreed
        · exact hagreed.finalized place _ digest result hkept
      | withheld hnew hwithheld =>
        refine ⟨?_, ?_, Relation.ReflTransGen.refl⟩
        · exact hagreed.remember_finalization place _ _ _
            fun htrue => absurd htrue (by simp [hwithheld])
        · intro htrue
          rw [hwithheld] at htrue
          cases htrue
      | announced next hnew hchecked hpublishable happend =>
        have htakes := takes_of_fair hfair hnew hchecked hpublishable
        have hleads := EventJournal.leads_append happend
        have htells := htakes.tells hagreed.indexed happend
        exact ⟨(hagreed.leads hleads).remember_finalization place _ _ _ fun _ => htells,
          fun _ => htells, hleads⟩
    | error raised =>
      cases hends with
      | refused =>
        refine ⟨?_, trivial, Relation.ReflTransGen.refl⟩
        simpa using hagreed
      | untold raised hnew hchecked hpublishable happend =>
        have htakes := takes_of_fair hfair hnew hchecked hpublishable
        obtain ⟨next, hnext⟩ : ∃ next, Finalizer.appended hasher arguments runtime.journal = .ok next :=
          htakes.append (by decide) (printable_finalized _)
        rw [hnext] at happend
        cases happend

theorem Agreed.merge (hagreed : Agreed hasher runtime) {place : ℕ} {arguments : MergeArguments}
    (hfair : Fair hasher casefold runtime (.merge place arguments)) :
    Upheld hasher runtime (.merge place arguments)
      (perform hasher casefold runtime (.merge place arguments)) := by
  have hends := @ContinuityMerger.ends_merge_journal hasher casefold arguments runtime.journal
    (runtime.mergers place)
  unfold Ends at hends
  cases hrun : ContinuityMerger.merge hasher casefold arguments
      ⟨some runtime.journal, runtime.mergers place⟩ with
  | mk outcome left =>
    rw [hrun] at hends
    rw [perform_merge hrun]
    cases outcome with
    | ok result =>
      cases hends with
      | replayed _ hkept =>
        refine ⟨?_, ?_, Relation.ReflTransGen.refl⟩
        · simpa using hagreed
        · exact hagreed.merged place _ _ result hkept
      | completed started next _ hnew hmerged hbegun hended =>
        obtain ⟨hstarts, hcompletes⟩ := hfair hnew result hmerged (by rw [hbegun]; rfl)
        have hbefore := EventJournal.leads_append hbegun
        have hindexed := hagreed.indexed.append hbegun
        have hstarted := (hstarts.tells hagreed.indexed hbegun).append hindexed hended
        have hcompleted := (hcompletes.after (started_key_ne _ _) hbegun).tells hindexed hended
        have hleads := hbefore.trans (EventJournal.leads_append hended)
        exact ⟨(hagreed.leads hleads).remember_merge place _ _ _
          ⟨arguments, rfl, hstarted, hcompleted⟩, ⟨arguments, rfl, hstarted, hcompleted⟩, hleads⟩
    | error raised =>
      cases hends with
      | refused =>
        refine ⟨?_, trivial, Relation.ReflTransGen.refl⟩
        simpa using hagreed
      | stopped started hbegun =>
        have hleads := EventJournal.leads_append hbegun
        refine ⟨?_, trivial, hleads⟩
        simpa using hagreed.leads hleads
      | untold started result raised hnew hmerged hbegun hended =>
        obtain ⟨-, hcompletes⟩ := hfair hnew result hmerged (by rw [hbegun]; rfl)
        obtain ⟨next, hnext⟩ : ∃ next, ContinuityMerger.ended hasher arguments result started =
            .ok next :=
          (hcompletes.after (started_key_ne _ _) hbegun).append (by decide) (printable_completed _)
        rw [hnext] at hended
        cases hended

theorem Agreed.perform (hagreed : Agreed hasher runtime) {call : Call}
    (hfair : Fair hasher casefold runtime call) :
    Upheld hasher runtime call (perform hasher casefold runtime call) := by
  cases call with
  | finalize place arguments => exact hagreed.finalize hfair
  | merge place arguments => exact hagreed.merge hfair
  | append_event event_type aggregate_id payload occurred_at idempotency_key =>
    cases happend : runtime.journal.append hasher event_type aggregate_id payload occurred_at
        idempotency_key with
    | ok journal =>
      have hperform : Runtime.perform hasher casefold runtime (.append_event event_type aggregate_id
          payload occurred_at idempotency_key) = (.ok .appended, { runtime with journal }) := by
        simp only [Runtime.perform, happend]
      have hleads := EventJournal.leads_append happend
      rw [hperform]
      exact ⟨hagreed.leads hleads, trivial, hleads⟩
    | error raised =>
      have hperform : Runtime.perform hasher casefold runtime (.append_event event_type aggregate_id
          payload occurred_at idempotency_key) = (.error (.fault raised), runtime) := by
        simp only [Runtime.perform, happend]
      rw [hperform]
      exact ⟨hagreed, trivial, Relation.ReflTransGen.refl⟩

end Steps

section Runs

variable {hasher : Hasher} {casefold : String → String}

theorem run_append_singleton (calls : List Call) (call : Call) :
    run hasher casefold (calls ++ [call]) =
      (perform hasher casefold (run hasher casefold calls) call).2 := by
  simp [run, List.foldl_append]

theorem FairRun.begun {calls before : List Call} (hfair : FairRun hasher casefold calls)
    (hbefore : before <+: calls) : FairRun hasher casefold before :=
  fun earlier call hcall => hfair earlier call (hcall.trans hbefore)

theorem fairRun_nil : FairRun hasher casefold [] := by
  intro before call hbefore
  simp at hbefore

theorem FairRun.concat {calls : List Call} {call : Call} (hfair : FairRun hasher casefold calls)
    (hcall : Fair hasher casefold (run hasher casefold calls) call) :
    FairRun hasher casefold (calls ++ [call]) := by
  intro before next hbefore
  rcases List.prefix_concat_iff.mp hbefore with hsame | hearlier
  · obtain ⟨rfl, hlast⟩ := List.append_inj' hsame rfl
    cases hlast
    exact hcall
  · exact hfair before next hearlier

theorem agreed_run {calls : List Call} (hfair : FairRun hasher casefold calls) :
    Agreed hasher (run hasher casefold calls) := by
  induction calls using List.reverseRecOn with
  | nil =>
    constructor
    · rfl
    · intro place key digest result hget
      cases hget
    · intro place key digest result hget
      cases hget
  | append_singleton calls call ih =>
    rw [run_append_singleton]
    have hbefore := ih (hfair.begun (List.prefix_append _ _))
    exact (hbefore.perform (hfair calls call List.prefix_rfl)).agreed

theorem leads_run {before after : List Call} (hfair : FairRun hasher casefold (before ++ after)) :
    EventJournal.Leads hasher (run hasher casefold before).journal
      (run hasher casefold (before ++ after)).journal := by
  induction after using List.reverseRecOn with
  | nil =>
    rw [List.append_nil]
    exact Relation.ReflTransGen.refl
  | append_singleton after call ih =>
    rw [← List.append_assoc] at hfair ⊢
    have hbefore := hfair.begun (List.prefix_append _ [call])
    have hstep := (agreed_run hbefore).perform (hfair _ call List.prefix_rfl)
    rw [run_append_singleton]
    exact (ih hbefore).trans hstep.leads

theorem Told.leads {journal next : EventJournal} {call : Call}
    {outcome : Except DocumentFault Answer} (htold : Told hasher journal call outcome)
    (hindexed : journal.Indexed) (hleads : EventJournal.Leads hasher journal next) :
    Told hasher next call outcome := by
  have hkeeps := (hleads.keeps hindexed).2
  unfold Told at htold ⊢
  split
  · exact fun hpublishable => hkeeps _ _ _ _ (htold hpublishable)
  · obtain ⟨asked, hasked, hstarted, hcompleted⟩ := htold
    exact ⟨asked, hasked, hkeeps _ _ _ _ hstarted, hkeeps _ _ _ _ hcompleted⟩
  · trivial

-- In a run whose new answers are all taken by the journal, what a call has
-- returned is told from then on.
theorem journal_agrees (hasher : Hasher) (casefold : String → String) (calls : List Call)
    (hfair : FairRun hasher casefold calls) (before after : List Call) (call : Call)
    (hcalls : calls = before ++ call :: after) :
    Told hasher (run hasher casefold calls).journal call
      (perform hasher casefold (run hasher casefold before) call).1 := by
  have hsplit : calls = before ++ [call] ++ after := by simp [hcalls]
  have hbefore : before ++ [call] <+: calls := ⟨after, hsplit.symm⟩
  have hfirst := agreed_run (hfair.begun ((List.prefix_append _ _).trans hbefore))
  have hstep := hfirst.perform (hfair before call hbefore)
  have hindexed := (agreed_run (hfair.begun hbefore)).indexed
  have hleads := leads_run (hsplit ▸ hfair)
  rw [run_append_singleton] at hindexed hleads
  rw [hsplit]
  exact hstep.told.leads hindexed hleads

end Runs

section Late

open Finalizer

variable (hasher : Hasher) (casefold : String → String)

theorem checked_reading : Checked reading := by
  refine ⟨by decide, ?_⟩
  change is_sha256 a_digest = true
  decide

theorem reading_publishable : (result_for hasher reading).publishable = true := rfl

-- The journal of the document is a day ahead of what is finalized.
def planned_late : Call :=
  .append_event "shard.planned.v1" "docv-1" []
    { read_at with day := 4, day_range := by decide } "plan-1"

def blank_page : ShardOutput where
  shard_id := "shard-1"
  primary_page_ids := ["page-1"]
  context_page_ids := []
  blocks := []
  named := by decide
  separate := by decide
  within := by decide

def joining : MergeArguments where
  document_version_id := "docv-1"
  outputs := [blank_page]
  edges := []
  expected_page_ids := ["page-1"]
  occurred_at := read_at
  idempotency_key := "merge-1"

theorem merged_joining : ∃ result, ContinuityMerger.merged hasher casefold joining = .ok result :=
  ⟨_, rfl⟩

variable {result : ContinuityMergeResult}

def merge_begun : EventJournal :=
  EventJournal.record hasher {} "continuity.merge.started.v1" "docv-1"
    (ContinuityMerger.started_payload hasher joining) read_at (ContinuityMerger.started_key "merge-1")

def merge_told (result : ContinuityMergeResult) : EventJournal :=
  EventJournal.record hasher (merge_begun hasher) "continuity.merge.completed.v1" "docv-1"
    (ContinuityMerger.completed_payload result) read_at (ContinuityMerger.completed_key "merge-1")

theorem read_in_order {journal : EventJournal}
    (hlast : journal.last_occurred_at.get? "docv-1" = some read_at) :
    ∀ previous, journal.last_occurred_at.get? "docv-1" = some previous →
      read_at.lt? previous = .ok false := by
  intro previous hprevious
  rw [hlast] at hprevious
  cases hprevious
  rfl

theorem merge_begun_vacant :
    (merge_begun hasher).keys.get? (ContinuityMerger.completed_key "merge-1") = none := by
  simp only [merge_begun, EventJournal.record, Dict.get?_set]
  rw [if_neg (by decide)]
  rfl

theorem merge_told_vacant (result : ContinuityMergeResult) :
    (merge_told hasher result).keys.get? (finalized_key "finalize-1") = none := by
  simp only [merge_told, merge_begun, EventJournal.record, Dict.get?_set]
  rw [if_neg (by decide), if_neg (by decide)]
  rfl

theorem merge_joining (hmerged : ContinuityMerger.merged hasher casefold joining = .ok result) :
    ContinuityMerger.merge hasher casefold joining ⟨some {}, .empty⟩ =
    (.ok result, ⟨some (merge_told hasher result),
      ContinuityMerger.remembering hasher joining result .empty⟩) := by
  have htakes : (merge_begun hasher).Takes "continuity.merge.completed.v1" "docv-1"
      (ContinuityMerger.completed_payload result) read_at
      (ContinuityMerger.completed_key "merge-1") :=
    EventJournal.takes_of_vacant rfl (merge_begun_vacant hasher)
      (read_in_order (Dict.get?_set_self _ _ _))
  exact ContinuityMerger.merge_completed rfl hmerged rfl
    (htakes.append_vacant (by decide) (printable_completed _) (merge_begun_vacant hasher))

theorem merge_told_takes (result : ContinuityMergeResult) :
    (merge_told hasher result).Takes "document.finalized.v1" "docv-1"
      (result_for hasher reading).finalized_payload read_at (finalized_key "finalize-1") :=
  EventJournal.takes_of_vacant rfl (merge_told_vacant hasher result)
    (read_in_order (Dict.get?_set_self _ _ _))

theorem run_joining (hmerged : ContinuityMerger.merged hasher casefold joining = .ok result) :
    run hasher casefold [.merge 0 joining] =
      { journal := merge_told hasher result
        mergers := Function.update (fun _ => .empty) 0
          (ContinuityMerger.remembering hasher joining result .empty) } := by
  change (perform hasher casefold {} (.merge 0 joining)).2 = _
  rw [perform_merge (merge_joining hasher casefold hmerged)]
  rfl

theorem perform_reading (hmerged : ContinuityMerger.merged hasher casefold joining = .ok result)
    {next : EventJournal} (happend : appended hasher reading (merge_told hasher result) = .ok next) :
    perform hasher casefold (run hasher casefold [.merge 0 joining]) (.finalize 0 reading) =
      (.ok (.finalization (result_for hasher reading)),
        { journal := next
          finalizers := Function.update (fun _ => .empty) 0 (remembering hasher reading .empty)
          mergers := Function.update (fun _ => .empty) 0
            (ContinuityMerger.remembering hasher joining result .empty) }) := by
  have hrun := @finalize_announced hasher (merge_told hasher result) .empty reading next rfl
    checked_reading (reading_publishable hasher) happend
  rw [run_joining hasher casefold hmerged, perform_finalize hrun]
  rfl

-- The first finalization is kept for the second one.
theorem kept_reading : ((run hasher casefold [.merge 0 joining, .finalize 0 reading]).finalizers 0).get?
    reading.idempotency_key = some (input_digest hasher reading, result_for hasher reading) := by
  obtain ⟨result, hmerged⟩ := merged_joining hasher casefold
  obtain ⟨next, happend⟩ : ∃ next, appended hasher reading (merge_told hasher result) = .ok next :=
    (merge_told_takes hasher result).append (by decide) (printable_finalized _)
  have hrun := @run_append_singleton hasher casefold [.merge 0 joining] (.finalize 0 reading)
  rw [perform_reading hasher casefold hmerged happend] at hrun
  rw [show [Call.merge 0 joining, .finalize 0 reading] = [.merge 0 joining] ++ [.finalize 0 reading]
    from rfl, hrun]
  simp only [Function.update_self]
  exact Dict.get?_set_self _ _ _

theorem perform_rereading :
    (perform hasher casefold (run hasher casefold [.merge 0 joining, .finalize 0 reading])
      (.finalize 0 reading)).1 = .ok (.finalization (result_for hasher reading)) := by
  have hrun := @finalize_replayed hasher
    (run hasher casefold [.merge 0 joining, .finalize 0 reading]).journal _ reading _
    (kept_reading hasher casefold) checked_reading
  rw [perform_finalize hrun]
  rfl

-- A merge, a finalization, the same finalization again and one more event.
def shared_calls : List Call :=
  [.merge 0 joining, .finalize 0 reading, .finalize 0 reading, planned_late]

theorem fair_shared : FairRun hasher casefold shared_calls := by
  obtain ⟨result, hmerged⟩ := merged_joining hasher casefold
  have hjoining : FairRun hasher casefold [.merge 0 joining] := by
    refine FairRun.concat fairRun_nil ?_
    intro _ _ _ _
    constructor
    · exact EventJournal.takes_of_vacant rfl rfl (fun previous hprevious => by cases hprevious)
    · exact EventJournal.takes_of_vacant rfl rfl (fun previous hprevious => by cases hprevious)
  have hreading : FairRun hasher casefold [.merge 0 joining, .finalize 0 reading] := by
    refine hjoining.concat ?_
    intro _ _ _
    rw [run_joining hasher casefold hmerged]
    exact merge_told_takes hasher result
  have hrereading : FairRun hasher casefold
      [.merge 0 joining, .finalize 0 reading, .finalize 0 reading] := by
    refine hreading.concat ?_
    intro hnew
    rw [kept_reading] at hnew
    cases hnew
  exact hrereading.concat trivial

theorem shared_calls_told : ∃ result,
    (perform sha256 id {} (.merge 0 joining)).1 = .ok (.merge result) ∧
      TellsMerge sha256 (run sha256 id shared_calls).journal "merge-1"
        (ContinuityMerger.input_digest sha256 joining) result ∧
      (perform sha256 id (run sha256 id [.merge 0 joining, .finalize 0 reading])
        (.finalize 0 reading)).1 = .ok (.finalization (result_for sha256 reading)) ∧
      TellsFinalization (run sha256 id shared_calls).journal "finalize-1"
        (result_for sha256 reading) := by
  obtain ⟨result, hmerged⟩ := merged_joining sha256 id
  have hjoined : (perform sha256 id {} (.merge 0 joining)).1 = .ok (.merge result) := by
    rw [perform_merge (merge_joining sha256 id hmerged)]
    rfl
  have hread := perform_rereading sha256 id
  have hmerge := journal_agrees sha256 id shared_calls (fair_shared sha256 id) []
    [.finalize 0 reading, .finalize 0 reading, planned_late] (.merge 0 joining) rfl
  -- A name for the run before the second finalization, so that it is not computed.
  obtain ⟨before, hbefore⟩ : ∃ before, before = [Call.merge 0 joining, .finalize 0 reading] := ⟨_, rfl⟩
  have hfinalize := journal_agrees sha256 id shared_calls (fair_shared sha256 id) before
    [planned_late] (.finalize 0 reading) (by rw [hbefore]; rfl)
  rw [show run sha256 id [] = {} from rfl, hjoined] at hmerge
  rw [hbefore, hread] at hfinalize
  exact ⟨result, hjoined, hmerge, hread, hfinalize (reading_publishable sha256)⟩

def late : EventJournal :=
  EventJournal.record hasher {} "shard.planned.v1" "docv-1" []
    { read_at with day := 4, day_range := by decide } "plan-1"

theorem run_planned_late : run hasher casefold [planned_late] = { journal := late hasher } := rfl

theorem late_refuses : appended hasher reading (late hasher) =
    .error (.value_error "aggregate events must be chronological") := rfl

theorem run_refused :
    run hasher casefold [planned_late, .finalize 0 reading] =
      { journal := late hasher
        finalizers := Function.update (fun _ => .empty) 0 (remembering hasher reading .empty) } := by
  have hrun := @finalize_untold hasher (late hasher) .empty reading _ rfl checked_reading
    (reading_publishable hasher) (late_refuses hasher)
  change (perform hasher casefold (run hasher casefold [planned_late]) (.finalize 0 reading)).2 = _
  rw [run_planned_late, perform_finalize hrun]
  rfl

theorem perform_retry :
    perform hasher casefold (run hasher casefold [planned_late, .finalize 0 reading])
        (.finalize 0 reading) =
      (.ok (.finalization (result_for hasher reading)),
        run hasher casefold [planned_late, .finalize 0 reading]) := by
  have hkept : (remembering hasher reading .empty).get? reading.idempotency_key =
      some (input_digest hasher reading, result_for hasher reading) := Dict.get?_set_self _ _ _
  rw [run_refused]
  generalize remembering hasher reading .empty = results at hkept
  let none_yet : ℕ → Dict String (String × FinalizationResult) := fun _ => .empty
  have hplace : Function.update none_yet 0 results 0 = results := Function.update_self 0 results none_yet
  have hrun := @finalize_replayed hasher (late hasher) results reading _ hkept checked_reading
  rw [← hplace] at hrun
  rw [perform_finalize hrun, hplace, Function.update_idem]
  rfl

-- The refused finalization is asked again, and returned with nothing in the journal.
theorem retried_finalization_untold :
    (perform sha256 id (run sha256 id [planned_late, .finalize 0 reading]) (.finalize 0 reading)).1 =
        .ok (.finalization (result_for sha256 reading)) ∧
      (result_for sha256 reading).publishable = true ∧
        ∀ event ∈ (run sha256 id [planned_late, .finalize 0 reading, .finalize 0 reading]).journal.events,
          event.event_type ≠ "document.finalized.v1" := by
  have hretry := perform_retry sha256 id
  have hrun := @run_append_singleton sha256 id [planned_late, .finalize 0 reading] (.finalize 0 reading)
  rw [hretry, run_refused] at hrun
  refine ⟨by rw [hretry], reading_publishable sha256, ?_⟩
  intro event hevent
  rw [List.cons_append, List.cons_append, List.nil_append] at hrun
  rw [hrun] at hevent
  rw [List.mem_singleton.mp hevent]
  decide

end Late

end Runtime

end KnowledgeCompiler.Parallel
