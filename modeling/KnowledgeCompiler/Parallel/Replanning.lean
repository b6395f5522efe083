import KnowledgeCompiler.Parallel.Recovery

namespace KnowledgeCompiler.Parallel

open Lib Method

namespace RecoveryPlanner

section Quiet

variable {α β : Type}

-- The method changes the planner's journal at most, and what it raises comes from there.
def Quiet (method : Call α) : Prop :=
  ∀ planner, (∃ events, (method planner).2 = { planner with _events := events }) ∧
    ∀ raised, (method planner).1 = .error raised → ∃ fault, raised = .fault fault

theorem Quiet.bind {method : Call α} (hmethod : Quiet method) {next : α → Call β}
    (hnext : ∀ value, Quiet (next value)) : Quiet (method >>= next) := by
  intro planner
  obtain ⟨⟨events, hevents⟩, hraised⟩ := hmethod planner
  cases hrun : method planner with
  | mk result left =>
    rw [hrun] at hevents hraised
    obtain rfl : left = { planner with _events := events } := hevents
    cases result with
    | error error =>
      rw [bind_of_error hrun]
      exact ⟨⟨events, rfl⟩, fun raised heq => hraised raised (by cases heq; rfl)⟩
    | ok value =>
      rw [bind_of_ok hrun]
      exact hnext value _

theorem Quiet.returns (value : α) : Quiet (returns value) := by
  intro planner
  exact ⟨⟨planner._events, rfl⟩, fun raised heq => by cases heq⟩

theorem Quiet.check {result : Except RecoveryFault α}
    (hresult : ∀ raised, result = .error raised → ∃ fault, raised = .fault fault) :
    Quiet (check result) :=
  fun planner => ⟨⟨planner._events, rfl⟩, hresult⟩

variable {hasher : Hasher}

theorem quiet_emit (event_type aggregate_id : String) (payload : List (String × Json))
    (occurred_at : Datetime) (idempotency_key : String) :
    Quiet (emit hasher event_type aggregate_id payload occurred_at idempotency_key) := by
  have hself : Quiet self := fun planner => ⟨⟨planner._events, rfl⟩, fun _ heq => by cases heq⟩
  refine hself.bind fun planner => ?_
  split
  · exact .returns ()
  · rename_i journal _
    refine Quiet.bind (.check fun raised hraised => ?_) fun next planner =>
      ⟨⟨some next, rfl⟩, fun _ heq => by cases heq⟩
    cases happend : journal.append hasher event_type aggregate_id payload occurred_at
        idempotency_key with
    | error fault =>
      rw [happend] at hraised
      exact ⟨fault, (Except.error.inj hraised).symm⟩
    | ok next =>
      rw [happend] at hraised
      cases hraised

theorem quiet_announce (task : RecoveryTask) : Quiet (announce hasher task) :=
  (quiet_emit _ _ _ _ _).bind fun _ => (quiet_emit _ _ _ _ _).bind fun _ => quiet_emit _ _ _ _ _

theorem quiet_report (candidate : RecoveryCandidate) (decision : RecoveryDecision)
    (completed_at : Datetime) : Quiet (report hasher candidate decision completed_at) :=
  (quiet_emit _ _ _ _ _).bind fun _ => (quiet_emit _ _ _ _ _).bind fun _ => quiet_emit _ _ _ _ _

end Quiet

variable {hasher : Hasher} {planner : RecoveryPlanner} {arguments : PlanArguments}
  {task : RecoveryTask}

def registered (planner : RecoveryPlanner) (task : RecoveryTask) : RecoveryPlanner :=
  { planner with
    _tasks_by_key := planner._tasks_by_key.set task.idempotency_key task
    _tasks_by_id := planner._tasks_by_id.set task.task_id task }

-- The task that a call with these arguments would make, its key being unused.
def new_task (hasher : Hasher) (planner : RecoveryPlanner) (arguments : PlanArguments) :
    Option RecoveryTask :=
  match prepared hasher arguments, planner._tasks_by_key.get? arguments.idempotency_key with
  | .ok (scope, variant, identity), none => (task_of hasher arguments scope variant identity).toOption
  | _, _ => none

theorem task_of_eq {scope : RecoveryScope} {variant : PreprocessingVariant} {identity : String}
    (htask : task_of hasher arguments scope variant identity = .ok task) :
    task.base_attempt_id = arguments.base_attempt_id ∧
    task.base_prediction_sha256 = arguments.base_prediction_sha256 ∧
    task.scope = scope ∧ task.variant = variant ∧
    task.parser_recipe = arguments.parser_recipe ∧
    task.idempotency_key = arguments.idempotency_key := by
  unfold task_of at htask
  split at htask
  · split at htask
    · cases htask
    · cases htask
      exact ⟨rfl, rfl, rfl, rfl, rfl, rfl⟩
  · cases htask

theorem prepared_of {scope : RecoveryScope}
    (hscope : minimum_valid_scope arguments.failure_codes arguments.scopes = .ok scope)
    (hbased : is_sha256 arguments.base_prediction_sha256 = true) :
    prepared hasher arguments = .ok (scope, choose_variant arguments.failure_codes scope,
      identity hasher arguments.base_attempt_id arguments.base_prediction_sha256 scope
        (choose_variant arguments.failure_codes scope) arguments.parser_recipe) := by
  rw [prepared, hscope, require_sha256, refuse_if_ok (by simp [hbased])]
  rfl

theorem prepared_eq {scope : RecoveryScope} {variant : PreprocessingVariant} {identity : String}
    (hprepared : prepared hasher arguments = .ok (scope, variant, identity)) :
    identity = RecoveryPlanner.identity hasher arguments.base_attempt_id
      arguments.base_prediction_sha256 scope variant arguments.parser_recipe := by
  unfold prepared at hprepared
  obtain ⟨found, -, hprepared⟩ := of_bind_eq_ok hprepared
  obtain ⟨-, -, hprepared⟩ := of_bind_eq_ok hprepared
  cases hprepared
  rfl

theorem plan_eq {scope : RecoveryScope} {variant : PreprocessingVariant} {identity : String}
    (hprepared : prepared hasher arguments = .ok (scope, variant, identity)) :
    plan hasher arguments planner =
      match planner._tasks_by_key.get? arguments.idempotency_key with
      | some existing =>
          if identity_of hasher existing = identity then (.ok existing, planner)
          else (.error (.recovery_conflict
            "recovery idempotency key reused with different recovery input"), planner)
      | none =>
          match task_of hasher arguments scope variant identity with
          | .error raised => (.error raised, planner)
          | .ok task => (announce hasher task >>= fun _ => returns task) (planner.registered task) := by
  unfold plan
  rw [hprepared, check_ok, returns_bind]
  change andThen self _ planner = _
  simp only [andThen, self]
  cases planner._tasks_by_key.get? arguments.idempotency_key with
  | some existing =>
    dsimp only
    by_cases hsame : identity_of hasher existing = identity
    · rw [if_pos hsame, require, if_pos hsame]
      rfl
    · rw [if_neg hsame, require, if_neg hsame]
      rfl
  | none =>
    dsimp only
    cases task_of hasher arguments scope variant identity with
    | error raised => rfl
    | ok task => rfl

-- Everything a plan call does.
theorem plan_cases (hasher : Hasher) (planner : RecoveryPlanner) (arguments : PlanArguments) :
    (∃ existing, planner._tasks_by_key.get? arguments.idempotency_key = some existing ∧
      plan hasher arguments planner = (.ok existing, planner)) ∨
    (∃ raised, new_task hasher planner arguments = none ∧
      plan hasher arguments planner = (.error raised, planner)) ∨
    ∃ task events, new_task hasher planner arguments = some task ∧
      (plan hasher arguments planner).2 = { planner.registered task with _events := events } ∧
      ∀ found, (plan hasher arguments planner).1 = .ok found → found = task := by
  cases hprepared : prepared hasher arguments with
  | error raised =>
    refine .inr (.inl ⟨raised, by rw [new_task, hprepared], ?_⟩)
    rw [plan, hprepared]
    rfl
  | ok made =>
    obtain ⟨scope, variant, identity⟩ := made
    rw [plan_eq hprepared, new_task, hprepared]
    cases hkey : planner._tasks_by_key.get? arguments.idempotency_key with
    | some existing =>
      dsimp only
      split
      · exact .inl ⟨existing, rfl, rfl⟩
      · exact .inr (.inl ⟨_, rfl, rfl⟩)
    | none =>
      dsimp only
      cases htask : task_of hasher arguments scope variant identity with
      | error raised => exact .inr (.inl ⟨raised, rfl, rfl⟩)
      | ok task =>
        obtain ⟨⟨events, hevents⟩, -⟩ := (quiet_announce task).bind
          (fun _ => Quiet.returns task) (planner.registered task)
        refine .inr (.inr ⟨task, events, rfl, hevents, ?_⟩)
        intro found hfound
        dsimp only at hfound
        cases hrun : announce hasher task (planner.registered task) with
        | mk result left =>
          cases result with
          | error raised =>
            rw [bind_of_error hrun] at hfound
            cases hfound
          | ok value =>
            rw [bind_of_ok hrun] at hfound
            exact (Except.ok.inj hfound).symm

theorem new_task_eq (hnew : new_task hasher planner arguments = some task) :
    planner._tasks_by_key.get? task.idempotency_key = none ∧
    task.idempotency_key = arguments.idempotency_key ∧
    ∃ scope variant, prepared hasher arguments = .ok (scope, variant, identity_of hasher task) := by
  unfold new_task at hnew
  split at hnew
  · rename_i scope variant identity hprepared hkey
    obtain ⟨hbase, hprediction, hscope, hvariant, hrecipe, hused⟩ :=
      task_of_eq (eq_ok_of_toOption hnew)
    refine ⟨hused ▸ hkey, hused, scope, variant, ?_⟩
    rw [hprepared, prepared_eq hprepared, identity_of, hbase, hprediction, hscope, hvariant, hrecipe]
  · cases hnew

def unknown_task : RecoveryFault :=
  .recovery_conflict "recovery candidate references an unknown task"

theorem accept_unknown {candidate : RecoveryCandidate} (completed_at : Datetime)
    (hunknown : ¬∃ registered ∈ planner._tasks_by_id.get? candidate.task.task_id,
      registered.same candidate.task) :
    accept hasher candidate completed_at planner = (.error unknown_task, planner) := by
  rw [accept, bind_of_ok (rfl : self planner = (.ok planner, planner)), require, if_neg hunknown]
  rfl

-- Everything an accept call does.
theorem accept_cases (hasher : Hasher) (planner : RecoveryPlanner) (candidate : RecoveryCandidate)
    (completed_at : Datetime) :
    (∃ raised events,
      accept hasher candidate completed_at planner =
        (.error raised, { planner with _events := events }) ∧
      (planner._tasks_by_id.get? candidate.task.task_id = some candidate.task →
        raised ≠ unknown_task)) ∨
    (∃ digest decision,
      planner._decisions.get? candidate.task.task_id = some (digest, decision) ∧
      accept hasher candidate completed_at planner = (.ok decision, planner)) ∨
    ∃ digest events, planner._decisions.get? candidate.task.task_id = none ∧
      accept hasher candidate completed_at planner =
        (.ok (decision_of hasher candidate), { planner with
          _decisions := planner._decisions.set candidate.task.task_id
            (digest, decision_of hasher candidate)
          _events := events }) := by
  by_cases hknown : ∃ registered ∈ planner._tasks_by_id.get? candidate.task.task_id,
      registered.same candidate.task
  · rw [accept, bind_of_ok (rfl : self planner = (.ok planner, planner)), require, if_pos hknown,
      returns_bind]
    dsimp only
    cases hdecided : planner._decisions.get? candidate.task.task_id with
    | some decided =>
      obtain ⟨digest, decision⟩ := decided
      dsimp only
      by_cases hsame : digest = canonical_sha256 hasher candidate.json
      · rw [require, if_pos hsame]
        exact .inr (.inl ⟨digest, decision, rfl, rfl⟩)
      · rw [require, if_neg hsame]
        exact .inl ⟨_, planner._events, rfl, fun _ => by decide⟩
    | none =>
      dsimp only
      obtain ⟨⟨events, hevents⟩, hraised⟩ :=
        @quiet_report hasher candidate (decision_of hasher candidate) completed_at planner
      cases hrun : report hasher candidate (decision_of hasher candidate) completed_at planner with
      | mk result left =>
        rw [hrun] at hevents hraised
        obtain rfl : left = { planner with _events := events } := hevents
        cases result with
        | error raised =>
          rw [bind_of_error hrun]
          obtain ⟨fault, rfl⟩ := hraised raised rfl
          exact .inl ⟨_, events, rfl, fun _ h => by cases h⟩
        | ok value =>
          rw [bind_of_ok hrun]
          exact .inr (.inr ⟨_, events, rfl, rfl⟩)
  · refine .inl ⟨_, planner._events, accept_unknown completed_at hknown, fun hregistered => ?_⟩
    exact absurd ⟨_, hregistered, candidate.task.same_refl⟩ hknown

-- What is planned under a key, and what is recorded about a task, stays.
structure Keeps (earlier later : RecoveryPlanner) : Prop where
  planned : ∀ key task, earlier._tasks_by_key.get? key = some task →
    later._tasks_by_key.get? key = some task
  decided : ∀ task_id decided, earlier._decisions.get? task_id = some decided →
    later._decisions.get? task_id = some decided

theorem Keeps.refl (planner : RecoveryPlanner) : planner.Keeps planner :=
  ⟨fun _ _ => id, fun _ _ => id⟩

theorem Keeps.trans {first second third : RecoveryPlanner} (hfirst : first.Keeps second)
    (hsecond : second.Keeps third) : first.Keeps third where
  planned := fun key task hget => hsecond.planned key task (hfirst.planned key task hget)
  decided := fun task_id decided hget => hsecond.decided task_id decided (hfirst.decided _ _ hget)

-- A task is found under its key, and a call that repeats its own plan finds it there.
structure Sound (hasher : Hasher) (planner : RecoveryPlanner) : Prop where
  keyed : ∀ key task, planner._tasks_by_key.get? key = some task → task.idempotency_key = key ∧
    ∃ arguments scope variant, arguments.idempotency_key = key ∧
      prepared hasher arguments = .ok (scope, variant, identity_of hasher task)
  named : ∀ task_id task, planner._tasks_by_id.get? task_id = some task → task.task_id = task_id ∧
    planner._tasks_by_key.get? task.idempotency_key = some task

theorem keeps_registered (hnew : new_task hasher planner arguments = some task) :
    planner.Keeps (planner.registered task) where
  planned := by
    intro key earlier hget
    have hne : key ≠ task.idempotency_key := by
      rintro rfl
      rw [(new_task_eq hnew).1] at hget
      cases hget
    exact (Dict.get?_set_of_ne _ _ hne).trans hget
  decided := fun _ _ => id

theorem sound_registered (hnew : new_task hasher planner arguments = some task)
    (hsound : planner.Sound hasher) : (planner.registered task).Sound hasher where
  keyed := by
    intro key found hget
    change (planner._tasks_by_key.set task.idempotency_key task).get? key = some found at hget
    rw [Dict.get?_set] at hget
    split at hget
    · rename_i hkey
      obtain rfl := Option.some.inj hget
      obtain ⟨-, hused, scope, variant, hprepared⟩ := new_task_eq hnew
      exact ⟨hkey.symm, arguments, scope, variant, hused.symm.trans hkey.symm, hprepared⟩
    · exact hsound.keyed key found hget
  named := by
    intro task_id found hget
    change (planner._tasks_by_id.set task.task_id task).get? task_id = some found at hget
    rw [Dict.get?_set] at hget
    split at hget
    · rename_i hid
      obtain rfl := Option.some.inj hget
      exact ⟨hid.symm, Dict.get?_set_self _ _ _⟩
    · obtain ⟨hid, hkey⟩ := hsound.named task_id found hget
      exact ⟨hid, (keeps_registered hnew).planned _ _ hkey⟩

-- A plan call returns the task once more, and changes nothing.
def Planned (hasher : Hasher) (planner : RecoveryPlanner) (task : RecoveryTask) : Prop :=
  ∃ arguments, plan hasher arguments planner = (.ok task, planner)

theorem planned_iff (hsound : planner.Sound hasher) :
    planner.Planned hasher task ↔ planner._tasks_by_key.get? task.idempotency_key = some task := by
  constructor
  · rintro ⟨arguments, hplan⟩
    obtain ⟨existing, hkey, heq⟩ | ⟨raised, -, heq⟩ | ⟨made, events, hnew, hleft, hfound⟩ :=
      plan_cases hasher planner arguments
    · rw [hplan] at heq
      cases heq
      rw [(hsound.keyed _ _ hkey).1]
      exact hkey
    · rw [hplan] at heq
      cases heq
    · rw [hplan] at hleft hfound
      obtain rfl := hfound task rfl
      have hkeys := congrArg (fun left => left._tasks_by_key.get? task.idempotency_key) hleft
      exact hkeys.trans (Dict.get?_set_self _ _ _)
  · intro hkey
    obtain ⟨-, arguments, scope, variant, hused, hprepared⟩ := hsound.keyed _ _ hkey
    refine ⟨arguments, ?_⟩
    rw [plan_eq hprepared, hused, hkey]
    exact if_pos rfl

-- A candidate for the task is judged against the task.
def Judges (hasher : Hasher) (planner : RecoveryPlanner) (task : RecoveryTask) : Prop :=
  planner._tasks_by_id.get? task.task_id = some task ∧
  ∀ candidate completed_at, candidate.task = task →
    (accept hasher candidate completed_at planner).1 ≠ .error unknown_task

theorem judges_iff : planner.Judges hasher task ↔
    planner._tasks_by_id.get? task.task_id = some task := by
  refine ⟨And.left, fun hget => ⟨hget, ?_⟩⟩
  rintro candidate completed_at rfl hunknown
  obtain ⟨raised, events, heq, hraised⟩ | ⟨digest, decision, -, heq⟩ | ⟨digest, events, -, heq⟩ :=
    accept_cases hasher planner candidate completed_at
  · rw [heq] at hunknown
    exact hraised hget (Except.error.inj hunknown)
  · rw [heq] at hunknown
    cases hunknown
  · rw [heq] at hunknown
    cases hunknown

def JudgesAll (hasher : Hasher) (planner : RecoveryPlanner) : Prop :=
  ∀ task, planner.Planned hasher task → planner.Judges hasher task

theorem judgesAll_iff (hsound : planner.Sound hasher) : planner.JudgesAll hasher ↔
    ∀ key task, planner._tasks_by_key.get? key = some task →
      planner._tasks_by_id.get? task.task_id = some task := by
  constructor
  · intro hjudges key task hget
    have hkey := (hsound.keyed key task hget).1
    exact (hjudges task ((planned_iff hsound).mpr (hkey ▸ hget))).1
  · intro hall task hplanned
    exact judges_iff.mpr (hall _ task ((planned_iff hsound).mp hplanned))

-- The new task takes the place of the one that its id named.
theorem judgesAll_registered_iff (hnew : new_task hasher planner arguments = some task)
    (hsound : planner.Sound hasher) (hjudges : planner.JudgesAll hasher) :
    (planner.registered task).JudgesAll hasher ↔
      planner._tasks_by_id.get? task.task_id = none := by
  rw [judgesAll_iff (sound_registered hnew hsound)]
  rw [judgesAll_iff hsound] at hjudges
  have hunused := (new_task_eq hnew).1
  constructor
  · intro hall
    by_contra hnone
    obtain ⟨earlier, hearlier⟩ := Option.ne_none_iff_exists'.mp hnone
    obtain ⟨hid, hkey⟩ := hsound.named _ _ hearlier
    have hkept := hall _ earlier ((keeps_registered hnew).planned _ _ hkey)
    have htaken : (planner.registered task)._tasks_by_id.get? earlier.task_id = some task := by
      rw [hid]
      exact Dict.get?_set_self _ _ _
    obtain rfl : task = earlier := Option.some.inj (htaken.symm.trans hkept)
    rw [hunused] at hkey
    cases hkey
  · intro hnone key found hget
    change (planner._tasks_by_key.set task.idempotency_key task).get? key = some found at hget
    rw [Dict.get?_set] at hget
    split at hget
    · obtain rfl := Option.some.inj hget
      exact Dict.get?_set_self _ _ _
    · have hfound := hjudges key found hget
      have hne : found.task_id ≠ task.task_id := by
        intro heq
        rw [heq, hnone] at hfound
        cases hfound
      exact (Dict.get?_set_of_ne _ _ hne).trans hfound

end RecoveryPlanner

-- The calls of a run; `append` is another holder's, on the journal they share.
inductive RecoveryCall
  | plan (arguments : RecoveryPlanner.PlanArguments)
  | accept (candidate : RecoveryCandidate) (completed_at : Datetime)
  | append (event_type aggregate_id : String) (payload : List (String × Json))
      (occurred_at : Datetime) (idempotency_key : String)

namespace RecoveryPlanner

section Runs

variable (hasher : Hasher)

-- The planner after a call, which may have raised.
def after (planner : RecoveryPlanner) : RecoveryCall → RecoveryPlanner
  | .plan arguments => (plan hasher arguments planner).2
  | .accept candidate completed_at => (accept hasher candidate completed_at planner).2
  | .append event_type aggregate_id payload occurred_at idempotency_key =>
      (emit hasher event_type aggregate_id payload occurred_at idempotency_key planner).2

def run (journal : Option EventJournal) (calls : List RecoveryCall) : RecoveryPlanner :=
  calls.foldl (after hasher) { _events := journal }

end Runs

variable {hasher : Hasher} {journal : Option EventJournal} {planner : RecoveryPlanner}
  {task : RecoveryTask}

theorem run_concat (calls : List RecoveryCall) (call : RecoveryCall) :
    run hasher journal (calls ++ [call]) = (run hasher journal calls).after hasher call := by
  rw [run, List.foldl_append]
  rfl

-- The task that the call makes, if it makes one.
def made (hasher : Hasher) (planner : RecoveryPlanner) : RecoveryCall → Option RecoveryTask
  | .plan arguments => new_task hasher planner arguments
  | _ => none

-- A call registers what it makes, and touches no other task.
theorem after_eq (planner : RecoveryPlanner) (call : RecoveryCall) :
    ∃ decisions events, planner.after hasher call =
      { (made hasher planner call).elim planner planner.registered with
        _decisions := decisions
        _events := events } ∧
      ∀ task_id decided, planner._decisions.get? task_id = some decided →
        decisions.get? task_id = some decided := by
  cases call with
  | plan arguments =>
    obtain ⟨existing, hkey, heq⟩ | ⟨raised, hnew, heq⟩ | ⟨task, events, hnew, hleft, -⟩ :=
      plan_cases hasher planner arguments
    · have hnone : new_task hasher planner arguments = none := by
        rw [new_task, hkey]
        split <;> simp_all
      refine ⟨planner._decisions, planner._events, ?_, fun _ _ => id⟩
      rw [after, heq, made, hnone]
      rfl
    · refine ⟨planner._decisions, planner._events, ?_, fun _ _ => id⟩
      rw [after, heq, made, hnew]
      rfl
    · refine ⟨planner._decisions, events, ?_, fun _ _ => id⟩
      rw [after, hleft, made, hnew]
      rfl
  | accept candidate completed_at =>
    obtain ⟨raised, events, heq, -⟩ | ⟨digest, decision, -, heq⟩ | ⟨digest, events, hnone, heq⟩ :=
      accept_cases hasher planner candidate completed_at
    · exact ⟨planner._decisions, events, by rw [after, heq]; rfl, fun _ _ => id⟩
    · exact ⟨planner._decisions, planner._events, by rw [after, heq]; rfl, fun _ _ => id⟩
    · refine ⟨_, events, by rw [after, heq]; rfl, ?_⟩
      intro task_id decided hget
      have hne : task_id ≠ candidate.task.task_id := by
        rintro rfl
        rw [hnone] at hget
        cases hget
      exact (Dict.get?_set_of_ne _ _ hne).trans hget
  | append event_type aggregate_id payload occurred_at idempotency_key =>
    obtain ⟨⟨events, heq⟩, -⟩ := @quiet_emit hasher event_type aggregate_id payload
      occurred_at idempotency_key planner
    exact ⟨planner._decisions, events, by rw [after, heq]; rfl, fun _ _ => id⟩

theorem new_task_of_made {call : RecoveryCall} (hmade : made hasher planner call = some task) :
    ∃ arguments, call = .plan arguments ∧ new_task hasher planner arguments = some task := by
  cases call with
  | plan arguments => exact ⟨arguments, rfl, hmade⟩
  | accept candidate completed_at => cases hmade
  | append event_type aggregate_id payload occurred_at idempotency_key => cases hmade

theorem keeps_after (planner : RecoveryPlanner) (call : RecoveryCall) :
    planner.Keeps (planner.after hasher call) := by
  obtain ⟨decisions, events, heq, hdecided⟩ := @after_eq hasher planner call
  refine ⟨?_, by rw [heq]; exact hdecided⟩
  intro key earlier hget
  rw [heq]
  cases hmade : made hasher planner call with
  | none => exact hget
  | some task =>
    obtain ⟨arguments, -, hnew⟩ := new_task_of_made hmade
    exact (keeps_registered hnew).planned key earlier hget

theorem sound_after (call : RecoveryCall) (hsound : planner.Sound hasher) :
    (planner.after hasher call).Sound hasher := by
  obtain ⟨decisions, events, heq, -⟩ := @after_eq hasher planner call
  rw [heq]
  cases hmade : made hasher planner call with
  | none => exact ⟨hsound.keyed, hsound.named⟩
  | some task =>
    obtain ⟨arguments, -, hnew⟩ := new_task_of_made hmade
    obtain ⟨hkeyed, hnamed⟩ := sound_registered hnew hsound
    exact ⟨hkeyed, hnamed⟩

theorem judgesAll_after_iff (call : RecoveryCall) (hsound : planner.Sound hasher)
    (hjudges : planner.JudgesAll hasher) :
    (planner.after hasher call).JudgesAll hasher ↔
      ∀ arguments task, call = .plan arguments → new_task hasher planner arguments = some task →
        planner._tasks_by_id.get? task.task_id = none := by
  have hafter := sound_after call hsound
  obtain ⟨decisions, events, heq, -⟩ := @after_eq hasher planner call
  rw [judgesAll_iff hafter, heq]
  cases hmade : made hasher planner call with
  | none =>
    refine iff_of_true ((judgesAll_iff hsound).mp hjudges) ?_
    rintro arguments task rfl hnew
    cases hmade.symm.trans hnew
  | some task =>
    obtain ⟨arguments, rfl, hnew⟩ := new_task_of_made hmade
    have hiff := judgesAll_registered_iff hnew hsound hjudges
    rw [judgesAll_iff (sound_registered hnew hsound)] at hiff
    refine hiff.trans ⟨?_, fun hall => hall arguments task rfl hnew⟩
    rintro hnone _ other ⟨rfl⟩ hother
    obtain rfl : task = other := Option.some.inj (hnew.symm.trans hother)
    exact hnone

theorem sound_run (calls : List RecoveryCall) : (run hasher journal calls).Sound hasher := by
  induction calls using List.reverseRecOn with
  | nil => exact ⟨fun _ _ h => (by cases h), fun _ _ h => (by cases h)⟩
  | append_singleton calls call ih =>
    rw [run_concat]
    exact sound_after call ih

theorem keeps_run {earlier calls : List RecoveryCall} (hearlier : earlier <+: calls) :
    (run hasher journal earlier).Keeps (run hasher journal calls) := by
  obtain ⟨rest, rfl⟩ := hearlier
  induction rest using List.reverseRecOn with
  | nil => rw [List.append_nil]; exact .refl _
  | append_singleton rest call ih =>
    rw [← List.append_assoc, run_concat]
    exact ih.trans (keeps_after _ call)

theorem planned_of_returned {arguments : PlanArguments}
    (hreturned : (plan hasher arguments planner).1 = .ok task) (hsound : planner.Sound hasher) :
    ((plan hasher arguments planner).2).Planned hasher task := by
  have hafter := sound_after (.plan arguments) hsound
  obtain ⟨existing, hkey, heq⟩ | ⟨raised, -, heq⟩ | ⟨made, events, hnew, hleft, hfound⟩ :=
    plan_cases hasher planner arguments
  · rw [heq] at hreturned
    obtain rfl := Except.ok.inj hreturned
    rw [heq]
    exact ⟨arguments, heq⟩
  · rw [heq] at hreturned
    cases hreturned
  · obtain rfl := hfound task hreturned
    refine (planned_iff hafter).mpr ?_
    rw [after, hleft]
    exact Dict.get?_set_self _ _ _

-- A task that `plan` has returned it returns again to the end of the run, and every such task is
-- judged as itself throughout exactly when no plan under an unused key works out a registered id.
-- What is recorded about a task stays as it is in any case.
theorem tasks_judged_iff (calls : List RecoveryCall) :
    (∀ earlier arguments task, earlier ++ [.plan arguments] <+: calls →
      (plan hasher arguments (run hasher journal earlier)).1 = .ok task →
      (run hasher journal calls).Planned hasher task) ∧
    ((∀ earlier, earlier <+: calls → ∀ task, (run hasher journal earlier).Planned hasher task →
        (run hasher journal earlier).Judges hasher task) ↔
      ∀ earlier arguments task, earlier ++ [.plan arguments] <+: calls →
        new_task hasher (run hasher journal earlier) arguments = some task →
        (run hasher journal earlier)._tasks_by_id.get? task.task_id = none) ∧
    ∀ earlier, earlier <+: calls → ∀ task_id decided,
      (run hasher journal earlier)._decisions.get? task_id = some decided →
      (run hasher journal calls)._decisions.get? task_id = some decided := by
  refine ⟨?_, ?_, fun earlier hearlier => (keeps_run hearlier).decided⟩
  · intro earlier arguments task hcall hreturned
    have hplanned := planned_of_returned hreturned (sound_run earlier)
    have hstep := @run_concat hasher journal earlier (.plan arguments)
    rw [after] at hstep
    rw [← hstep, planned_iff (sound_run _)] at hplanned
    exact (planned_iff (sound_run calls)).mpr ((keeps_run hcall).planned _ _ hplanned)
  · change (∀ earlier, earlier <+: calls → (run hasher journal earlier).JudgesAll hasher) ↔ _
    induction calls using List.reverseRecOn with
    | nil =>
      refine iff_of_true ?_ (by simp)
      intro earlier hearlier
      obtain rfl := List.prefix_nil.mp hearlier
      exact (judgesAll_iff (sound_run [])).mpr fun _ _ h => by cases h
    | append_singleton calls call ih =>
      simp only [List.prefix_concat_iff, forall_eq_or_imp, List.append_singleton_inj, run_concat]
      constructor
      · rintro ⟨hlast, hearlier⟩ earlier arguments task (⟨rfl, hcall⟩ | hcall)
        · exact (judgesAll_after_iff call (sound_run earlier) (hearlier earlier List.prefix_rfl)).mp
            hlast arguments task hcall.symm
        · exact ih.mp hearlier earlier arguments task hcall
      · intro hunclaimed
        have hearlier := ih.mpr fun earlier arguments task hcall =>
          hunclaimed earlier arguments task (.inr hcall)
        refine ⟨?_, hearlier⟩
        refine (judgesAll_after_iff call (sound_run calls) (hearlier calls List.prefix_rfl)).mpr ?_
        intro arguments task hcall
        exact hunclaimed calls arguments task (.inl ⟨rfl, hcall.symm⟩)

-- A task registered under the id of another takes its place.
theorem replaced_unknown {first second : RecoveryTask} (hid : first.task_id = second.task_id)
    (hkey : second.idempotency_key ≠ first.idempotency_key) :
    ¬∃ found ∈ (planner.registered second)._tasks_by_id.get? first.task_id, found.same first := by
  rintro ⟨found, hfound, hsame⟩
  rw [hid] at hfound
  obtain rfl := Option.some.inj ((Dict.get?_set_self _ _ _).symm.trans hfound)
  exact hkey hsame.2.2.2.2.2.2.2

section Replanned

-- One recovery planned under two keys.
def cut_row : RecoveryScope where
  level := .ROW
  scope_id := "row-3"
  source_refs := ["page-1"]
  located := by decide

def planned_at : Datetime where
  year := 2022
  month := 10
  day := 11
  hour := 12
  minute := 13
  second := 14
  microsecond := 15
  utcoffset := some 18000000000
  year_range := by decide
  month_range := by decide
  day_range := by decide
  time_range := by decide
  offset_range := by decide

def row_recovery (idempotency_key : String) : PlanArguments where
  base_attempt_id := "attempt-1"
  base_prediction_sha256 := "aaaaaaaaaaaaaaaaaaaaaaaaaaaaaaaaaaaaaaaaaaaaaaaaaaaaaaaaaaaaaaaa"
  scopes := [cut_row]
  failure_codes := {"row_omission"}
  parser_recipe := "recipe-1"
  created_at := planned_at
  idempotency_key

def repaired (task : RecoveryTask) : RecoveryCandidate where
  task
  repair_attempt_id := "attempt-2"
  prediction_sha256 := "bbbbbbbbbbbbbbbbbbbbbbbbbbbbbbbbbbbbbbbbbbbbbbbbbbbbbbbbbbbbbbbb"
  diff_sha256 := "cccccccccccccccccccccccccccccccccccccccccccccccccccccccccccccccc"
  validation := {
    passed := true
    hard_failure_count := 0
    results := []
    findings := []
    digest := "dddddddddddddddddddddddddddddddddddddddddddddddddddddddddddddddd" }
  source_evidence := []
  base_independent_family := "family-1"
  repair_independent_family := "family-2"
  hashed := by decide +kernel
  families := by decide

def row_identity (hasher : Hasher) : String :=
  identity hasher "attempt-1" (row_recovery "").base_prediction_sha256 cut_row .OVERLAPPING_TILE
    "recipe-1"

def row_task (hasher : Hasher) (idempotency_key : String) : RecoveryTask where
  task_id := stable_id hasher "recovery" [.str "attempt-1", .str "row-3", .str "overlapping_tile",
    .str (row_identity hasher)]
  base_attempt_id := "attempt-1"
  base_prediction_sha256 := (row_recovery "").base_prediction_sha256
  scope := cut_row
  variant := .OVERLAPPING_TILE
  parser_recipe := "recipe-1"
  created_at := ⟨planned_at, rfl⟩
  idempotency_key
  based := by decide +kernel

theorem prepared_row_recovery (idempotency_key : String) :
    prepared hasher (row_recovery idempotency_key) =
      .ok (cut_row, .OVERLAPPING_TILE, row_identity hasher) := by
  have hrank : (({"row_omission"} : Finset String).sup fun code =>
      ((MINIMUM_SCOPE.lookup code).map RegionLevel.order).getD 0) = 1 := by decide
  have hscope : minimum_valid_scope {"row_omission"} [cut_row] = .ok cut_row := by
    unfold minimum_valid_scope
    rw [hrank]
    rfl
  have hvariant : choose_variant {"row_omission"} cut_row = .OVERLAPPING_TILE := by decide
  have hprepared := @prepared_of hasher (row_recovery idempotency_key) cut_row hscope
    (row_task hasher "").based
  rw [show choose_variant (row_recovery idempotency_key).failure_codes cut_row = _ from hvariant]
    at hprepared
  exact hprepared

theorem plan_row_recovery {idempotency_key : String}
    (hunused : planner._tasks_by_key.get? idempotency_key = none) (hevents : planner._events = none) :
    plan hasher (row_recovery idempotency_key) planner =
      (.ok (row_task hasher idempotency_key), planner.registered (row_task hasher idempotency_key)) := by
  have htask : task_of hasher (row_recovery idempotency_key) cut_row .OVERLAPPING_TILE
      (row_identity hasher) = .ok (row_task hasher idempotency_key) :=
    dif_pos (row_task hasher idempotency_key).based
  rw [plan_eq (prepared_row_recovery idempotency_key)]
  change (match planner._tasks_by_key.get? idempotency_key with | some _ => _ | none => _) = _
  rw [hunused, htask]
  cases planner
  cases hevents
  rfl

theorem replanned_task_unknown :
    ∃ task, (plan sha256 (row_recovery "key-1") {}).1 = .ok task ∧
      (accept sha256 (repaired task) planned_at
        (run sha256 none [.plan (row_recovery "key-1"), .plan (row_recovery "key-2")])).1 =
      .error unknown_task := by
  have hfirst := @plan_row_recovery sha256 {} "key-1" rfl rfl
  have hsecond := @plan_row_recovery sha256 (registered {} (row_task sha256 "key-1")) "key-2" rfl rfl
  have hrun : run sha256 none [.plan (row_recovery "key-1"), .plan (row_recovery "key-2")] =
      (registered {} (row_task sha256 "key-1")).registered (row_task sha256 "key-2") := by
    change (plan sha256 _ (plan sha256 _ {}).2).2 = _
    rw [hfirst, hsecond]
  refine ⟨row_task sha256 "key-1", by rw [hfirst], ?_⟩
  rw [hrun]
  have hunknown := @replaced_unknown (registered {} (row_task sha256 "key-1"))
    (row_task sha256 "key-1") (row_task sha256 "key-2") rfl (by decide)
  exact congrArg Prod.fst (@accept_unknown sha256 _ (repaired _) planned_at hunknown)

end Replanned

end RecoveryPlanner

end KnowledgeCompiler.Parallel
