import KnowledgeCompiler.Parallel.Health

namespace KnowledgeCompiler.Parallel

open Lib Method

namespace WorkerHealthRegistry

variable {hasher : Hasher} {registry : WorkerHealthRegistry} {worker_id : String}
  {record : WorkerRecord}

theorem record_of_eq (hget : registry._records.get? worker_id = some record) :
    record_of worker_id registry = (.ok record, registry) := by
  change (check _ registry : _ × _) = _
  rw [hget]
  rfl

theorem record_of_missing (hget : registry._records.get? worker_id = none) :
    record_of worker_id registry = (.error (.fault (.key_error worker_id)), registry) := by
  change (check _ registry : _ × _) = _
  rw [hget]
  rfl

-- Everything a move does.
theorem transition_eq (hget : registry._records.get? worker_id = some record) (state : WorkerState)
    (occurred_at : AwareDatetime) (reasons : List String) :
    _transition hasher worker_id state occurred_at reasons registry =
      if state = record.state then (.ok none, registry)
      else if record.state.rank ≤ state.rank then
        let transition := record.transition_to state occurred_at reasons
        let _records := registry._records.set worker_id (record.moved transition)
        match told hasher registry._events record transition with
        | .ok _events => (.ok (some transition), { registry with _records, _events })
        | .error raised => (.error (.fault raised), { registry with _records })
      else
        (.error (.fault (.runtime_error
          "worker health promotion requires explicit canary restoration")), registry) := by
  rw [_transition, bind_of_ok (record_of_eq hget)]
  by_cases hsame : state = record.state
  · rw [if_pos hsame, if_pos hsame]
    rfl
  rw [if_neg hsame, if_neg hsame]
  by_cases hrank : record.state.rank ≤ state.rank
  · rw [if_pos hrank, require, if_pos hrank]
    change (check (Except.mapError _ (told hasher registry._events record _)) >>= _) _ = _
    dsimp only
    cases told hasher registry._events record
        (record.transition_to state occurred_at reasons) with
    | ok events => rfl
    | error raised => rfl
  · rw [if_neg hrank, require, if_neg hrank]
    rfl

end WorkerHealthRegistry

-- The same worker, no nearer to health.
structure WorkerRecord.Follows (later earlier : WorkerRecord) : Prop where
  worker_id : later.worker_id = earlier.worker_id
  model_revision : later.model_revision = earlier.model_revision
  runtime_image_digest : later.runtime_image_digest = earlier.runtime_image_digest
  estimated_available_at : later.estimated_available_at = earlier.estimated_available_at
  rank : earlier.state.rank ≤ later.state.rank

namespace WorkerRecord.Follows

variable {first second third : WorkerRecord}

theorem refl (record : WorkerRecord) : record.Follows record := ⟨rfl, rfl, rfl, rfl, le_rfl⟩

theorem trans (hthird : third.Follows second) (hsecond : second.Follows first) :
    third.Follows first where
  worker_id := hthird.worker_id.trans hsecond.worker_id
  model_revision := hthird.model_revision.trans hsecond.model_revision
  runtime_image_digest := hthird.runtime_image_digest.trans hsecond.runtime_image_digest
  estimated_available_at := hthird.estimated_available_at.trans hsecond.estimated_available_at
  rank := hsecond.rank.trans hthird.rank

theorem moved {record : WorkerRecord} {state : WorkerState}
    (hrank : record.state.rank ≤ state.rank) (occurred_at : AwareDatetime) (reasons : List String) :
    (record.moved (record.transition_to state occurred_at reasons)).Follows record :=
  ⟨rfl, rfl, rfl, rfl, hrank⟩

-- The snapshot's checks look at what never changes.
theorem snapshot (hfollows : second.Follows first) :
    second.snapshot.isOk = first.snapshot.isOk := by
  unfold WorkerRecord.snapshot
  rw [hfollows.worker_id, hfollows.model_revision, hfollows.runtime_image_digest,
    hfollows.estimated_available_at]
  exact isOk_bind_congr fun _ => isOk_bind_congr fun _ => isOk_bind_congr fun _ =>
    isOk_bind_congr fun _ => rfl

end WorkerRecord.Follows

namespace WorkerHealthRegistry

def Keyed (registry : WorkerHealthRegistry) : Prop :=
  ∀ worker_id record, registry._records.get? worker_id = some record → record.worker_id = worker_id

structure Advances (earlier later : WorkerHealthRegistry) : Prop where
  follows : ∀ worker_id record, earlier._records.get? worker_id = some record →
    ∃ next, later._records.get? worker_id = some next ∧ next.Follows record
  keyed : earlier.Keyed → later.Keyed

namespace Advances

variable {first second third : WorkerHealthRegistry}

theorem refl (registry : WorkerHealthRegistry) : registry.Advances registry :=
  ⟨fun _ record hget => ⟨record, hget, .refl record⟩, id⟩

theorem trans (hfirst : first.Advances second) (hsecond : second.Advances third) :
    first.Advances third where
  follows := by
    intro worker_id record hget
    obtain ⟨next, hnext, hfollows⟩ := hfirst.follows worker_id record hget
    obtain ⟨last, hlast, hfollows'⟩ := hsecond.follows worker_id next hnext
    exact ⟨last, hlast, hfollows'.trans hfollows⟩
  keyed := fun h => hsecond.keyed (hfirst.keyed h)

theorem of_records (hrecords : second._records = first._records) : first.Advances second where
  follows := fun _ record hget => ⟨record, by rw [hrecords]; exact hget, .refl record⟩
  keyed := by
    intro hkeyed worker_id record hget
    exact hkeyed worker_id record (by rw [← hrecords]; exact hget)

-- A record is put for its own worker, new or in the place of one it follows.
theorem of_set {worker_id : String} {record : WorkerRecord}
    (hrecords : second._records = first._records.set worker_id record)
    (hfollows : ∀ existing ∈ first._records.get? worker_id, record.Follows existing)
    (hnew : first._records.get? worker_id = none → record.worker_id = worker_id) :
    first.Advances second where
  follows := by
    intro other existing hget
    rw [hrecords]
    by_cases hother : other = worker_id
    · subst hother
      exact ⟨record, Dict.get?_set_self _ _ _, hfollows existing hget⟩
    · exact ⟨existing, by rw [Dict.get?_set_of_ne _ _ hother]; exact hget, .refl existing⟩
  keyed := by
    intro hkeyed other found hget
    rw [hrecords, Dict.get?_set] at hget
    split at hget
    · rename_i hother
      obtain rfl := Option.some.inj hget
      rw [hother]
      cases hexisting : first._records.get? worker_id with
      | none => exact hnew hexisting
      | some existing =>
        exact (hfollows existing hexisting).worker_id.trans (hkeyed worker_id existing hexisting)
    · exact hkeyed other found hget

end Advances

def Advancing {α : Type} (method : Call α) : Prop :=
  ∀ registry, Advances registry (method registry).2

namespace Advancing

variable {α β : Type} {method : Call α}

theorem bind (hmethod : Advancing method) {next : α → Call β}
    (hnext : ∀ value, Advancing (next value)) : Advancing (method >>= next) := by
  intro registry
  have hfirst := hmethod registry
  cases hrun : method registry with
  | mk result left =>
    rw [hrun] at hfirst
    cases result with
    | error error =>
      rw [bind_of_error hrun]
      exact hfirst
    | ok value =>
      rw [bind_of_ok hrun]
      exact hfirst.trans (hnext value left)

theorem returns (value : α) : Advancing (returns value) := fun registry => .refl registry

theorem raises (error : HealthFault) : Advancing (raises error : Call α) :=
  fun registry => .refl registry

theorem check (result : Except HealthFault α) : Advancing (check result) :=
  fun registry => .refl registry

theorem require (holds : Prop) [Decidable holds] (error : HealthFault) :
    Advancing (require holds error) := by
  unfold Method.require
  split
  · exact .returns ()
  · exact .raises error

theorem self : Advancing self := fun registry => .refl registry

theorem record_of (worker_id : String) : Advancing (record_of worker_id) :=
  self.bind fun _ => .check _

theorem snapshot (worker_id : String) : Advancing (snapshot worker_id) :=
  (Advancing.record_of worker_id).bind fun _ => .check _

end Advancing

variable {hasher : Hasher} {registry : WorkerHealthRegistry} {worker_id : String}
  {record : WorkerRecord}

theorem advancing_transition (worker_id : String) (state : WorkerState)
    (occurred_at : AwareDatetime) (reasons : List String) :
    Advancing (_transition hasher worker_id state occurred_at reasons) := by
  intro registry
  cases hget : registry._records.get? worker_id with
  | none =>
    rw [_transition, bind_of_error (record_of_missing hget)]
    exact .refl registry
  | some record =>
    rw [transition_eq hget]
    split
    · exact .refl registry
    split
    · rename_i hrank
      have hset (events : Option EventJournal) : Advances registry { registry with
          _records := registry._records.set worker_id
            (record.moved (record.transition_to state occurred_at reasons))
          _events := events } := by
        refine .of_set rfl ?_ (fun hnone => absurd hget (by simp [hnone]))
        intro existing hexisting
        obtain rfl := Option.some.inj (hget.symm.trans hexisting)
        exact .moved hrank occurred_at reasons
      dsimp only
      split
      · exact hset _
      · exact hset registry._events
    · exact .refl registry

theorem advancing_demanded (worker_id : String) (retired : Bool) (occurred_at : AwareDatetime)
    (demand : Option (WorkerState × List String)) :
    Advancing (demanded hasher worker_id retired occurred_at demand) := by
  unfold demanded
  split
  · exact (advancing_transition worker_id _ occurred_at _).bind fun _ => .snapshot worker_id
  · exact .snapshot worker_id

-- An observation is recorded before anything is asked of it.
theorem advances_put (hget : registry._records.get? worker_id = some record)
    {observed : WorkerRecord} (hobserved : observed.Follows record) :
    Advances registry { registry with _records := registry._records.set worker_id observed } := by
  refine .of_set rfl ?_ (fun hnone => absurd hget (by simp [hnone]))
  intro existing hexisting
  obtain rfl := Option.some.inj (hget.symm.trans hexisting)
  exact hobserved

theorem record_infrastructure_eq (hget : registry._records.get? worker_id = some record)
    (observation : InfrastructureObservation) :
    record_infrastructure hasher worker_id observation registry =
      demanded hasher worker_id record.state.retired observation.observed_at
        (infrastructure_demand observation)
        { registry with
          _records := registry._records.set worker_id
            (observed_infrastructure record observation) } := by
  rw [record_infrastructure, bind_of_ok (record_of_eq hget)]
  rfl

theorem record_semantic_eq (hget : registry._records.get? worker_id = some record)
    (observation : SemanticObservation) :
    record_semantic hasher worker_id observation registry =
      let observed := observed_semantics registry._window record observation
      demanded hasher worker_id record.state.retired observation.observed_at
        (semantic_demand (window_of registry._window observed.semantics) observed.semantic_score
          observation)
        { registry with _records := registry._records.set worker_id observed } := by
  rw [record_semantic, bind_of_ok (record_of_eq hget)]
  rfl

theorem observed_infrastructure_follows (record : WorkerRecord)
    (observation : InfrastructureObservation) :
    (observed_infrastructure record observation).Follows record :=
  ⟨rfl, rfl, rfl, rfl, le_rfl⟩

theorem observed_semantics_follows (size : ℕ) (record : WorkerRecord)
    (observation : SemanticObservation) :
    (observed_semantics size record observation).Follows record :=
  ⟨rfl, rfl, rfl, rfl, le_rfl⟩

theorem advancing_record_infrastructure (worker_id : String)
    (observation : InfrastructureObservation) :
    Advancing (record_infrastructure hasher worker_id observation) := by
  intro registry
  cases hget : registry._records.get? worker_id with
  | none =>
    rw [record_infrastructure, bind_of_error (record_of_missing hget)]
    exact .refl registry
  | some record =>
    rw [record_infrastructure_eq hget]
    exact (advances_put hget (observed_infrastructure_follows record observation)).trans
      (advancing_demanded worker_id _ _ _ _)

theorem advancing_record_semantic (worker_id : String) (observation : SemanticObservation) :
    Advancing (record_semantic hasher worker_id observation) := by
  intro registry
  cases hget : registry._records.get? worker_id with
  | none =>
    rw [record_semantic, bind_of_error (record_of_missing hget)]
    exact .refl registry
  | some record =>
    rw [record_semantic_eq hget]
    exact (advances_put hget (observed_semantics_follows _ record observation)).trans
      (advancing_demanded worker_id _ _ _ _)

theorem advancing_sweep (now : AwareDatetime) (workers : List String) :
    Advancing (sweep hasher now workers) := by
  induction workers with
  | nil => exact .returns []
  | cons worker_id rest ih =>
    refine (Advancing.record_of worker_id).bind fun record => Advancing.self.bind fun registry => ?_
    split
    · exact (advancing_transition worker_id _ now _).bind fun _ => ih.bind fun _ => .returns _
    · exact ih

theorem advancing_evaluate_liveness (now : Datetime) :
    Advancing (evaluate_liveness hasher now) := by
  refine Advancing.self.bind fun registry => ?_
  split
  · exact .raises _
  · exact advancing_sweep _ _

theorem advancing_terminate (worker_id : String) (occurred_at : Datetime) (reason : String) :
    Advancing (terminate hasher worker_id occurred_at reason) := by
  unfold terminate
  split
  · exact .raises _
  · refine (Advancing.require _ _).bind fun _ => (Advancing.record_of worker_id).bind fun record => ?_
    split
    · exact .returns none
    · exact advancing_transition worker_id _ _ _

theorem advancing_register (worker : Registration) : Advancing (register worker) := by
  refine (Advancing.require _ _).bind fun _ => ?_
  intro registry
  cases hget : registry._records.get? worker.worker_id with
  | some existing =>
    have hrest := ((Advancing.require (existing.model_revision = worker.model_revision ∧
      existing.runtime_image_digest = worker.runtime_image_digest ∧
      existing.capabilities = worker.capabilities ∧ existing.warm = worker.warm ∧
      existing.cached_models = worker.cached_models ∧
      existing.estimated_available_at = worker.estimated_available_at)
      (.worker_registration_conflict "worker identity cannot be mutated after registration")).bind
        fun _ => .snapshot worker.worker_id) registry
    rw [bind_of_ok (rfl : self registry = (.ok registry, registry)), hget]
    exact hrest
  | none =>
    rw [bind_of_ok (rfl : self registry = (.ok registry, registry)), hget]
    refine Advances.trans ?_ (Advancing.snapshot worker.worker_id _)
    exact .of_set rfl (fun existing hexisting => absurd hexisting (by simp [hget])) fun _ => rfl

end WorkerHealthRegistry

-- The calls of a run; `append` is another holder's, on the journal they share.
inductive HealthCall
  | register (worker : Registration)
  | record_semantic (worker_id : String) (observation : SemanticObservation)
  | record_infrastructure (worker_id : String) (observation : InfrastructureObservation)
  | evaluate_liveness (now : Datetime)
  | terminate (worker_id : String) (occurred_at : Datetime) (reason : String)
  | append (event_type aggregate_id : String) (payload : List (String × Json))
      (occurred_at : Datetime) (idempotency_key : String)

namespace WorkerHealthRegistry

section Runs

variable (hasher : Hasher)

def append (event_type aggregate_id : String) (payload : List (String × Json))
    (occurred_at : Datetime) (idempotency_key : String) : Call Unit := do
  let registry ← self
  match registry._events with
  | some journal => do
      let next ← check ((journal.append hasher event_type aggregate_id payload occurred_at
        idempotency_key).mapError .fault)
      assign (fun registry => { registry with _events := some next })
  | none => returns ()

-- The registry after a call, which may have raised.
def after (registry : WorkerHealthRegistry) : HealthCall → WorkerHealthRegistry
  | .register worker => (register worker registry).2
  | .record_semantic worker_id observation =>
      (record_semantic hasher worker_id observation registry).2
  | .record_infrastructure worker_id observation =>
      (record_infrastructure hasher worker_id observation registry).2
  | .evaluate_liveness now => (evaluate_liveness hasher now registry).2
  | .terminate worker_id occurred_at reason =>
      (terminate hasher worker_id occurred_at reason registry).2
  | .append event_type aggregate_id payload occurred_at idempotency_key =>
      (append hasher event_type aggregate_id payload occurred_at idempotency_key registry).2

def run (start : WorkerHealthRegistry) (calls : List HealthCall) : WorkerHealthRegistry :=
  calls.foldl (after hasher) start

end Runs

variable {hasher : Hasher} {registry start : WorkerHealthRegistry} {worker_id : String}

theorem advances_after (registry : WorkerHealthRegistry) (call : HealthCall) :
    registry.Advances (registry.after hasher call) := by
  cases call with
  | register worker => exact advancing_register worker registry
  | record_semantic worker_id observation =>
    exact advancing_record_semantic worker_id observation registry
  | record_infrastructure worker_id observation =>
    exact advancing_record_infrastructure worker_id observation registry
  | evaluate_liveness now => exact advancing_evaluate_liveness now registry
  | terminate worker_id occurred_at reason =>
    exact advancing_terminate worker_id occurred_at reason registry
  | append event_type aggregate_id payload occurred_at idempotency_key =>
    have hadvancing : Advancing (append hasher event_type aggregate_id payload occurred_at
        idempotency_key) := by
      refine Advancing.self.bind fun _ => ?_
      split
      · exact (Advancing.check _).bind fun _ registry => .of_records rfl
      · exact .returns ()
    exact hadvancing registry

theorem advances_run (start : WorkerHealthRegistry) (calls : List HealthCall) :
    start.Advances (start.run hasher calls) := by
  induction calls generalizing start with
  | nil => exact .refl start
  | cons call rest ih => exact (advances_after start call).trans (ih (start.after hasher call))

theorem run_append (start : WorkerHealthRegistry) (earlier later : List HealthCall) :
    start.run hasher (earlier ++ later) = (start.run hasher earlier).run hasher later :=
  List.foldl_append

end WorkerHealthRegistry

end KnowledgeCompiler.Parallel
