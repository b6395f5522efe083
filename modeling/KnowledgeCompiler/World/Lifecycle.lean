import KnowledgeCompiler.World.Registry

namespace KnowledgeCompiler.World

open Lib Recompilation

inductive Call
  | stage (world_state_id compiler_version : String) (built_at : Moment)
      (change_set_id : Option String)
  | publish (world_state_id : String) (manifest : PublicationManifest)
      (receipt : ValidationReceipt) (artifacts : Dict String String) (activated_at : Moment)
      (plan : Option RecompilationPlan)
  | rollback (target_id : String) (at_moment : Moment)

namespace WorldStateRegistry

variable (registry : WorldStateRegistry)

def active_count : Nat := registry.states.values.countP (fun state => state.status = .ACTIVE)

def status_of (id : String) : Option WorldStateStatus :=
  (registry.states.get? id).map WorldState.status

-- The events a call hands out, or why it is refused.
def respond : Call → Except String (List (List (String × Option String))) × WorldStateRegistry
  | .stage world_state_id compiler_version built_at change_set_id =>
      let (result, after) := registry.stage world_state_id compiler_version built_at change_set_id
      (result.map (fun _ => []), after)
  | .publish world_state_id manifest receipt artifacts activated_at plan =>
      let (result, after) :=
        registry.publish world_state_id manifest receipt artifacts activated_at plan
      (result.map PublishResult.outbox, after)
  | .rollback target_id at_moment =>
      let (result, after) := registry.rollback target_id at_moment
      (result.map PublishResult.outbox, after)

-- The gates of `publish`.
def Passes (world_state_id : String) (manifest : PublicationManifest)
    (receipt : ValidationReceipt) (artifacts : Dict String String)
    (plan : Option RecompilationPlan) : Prop :=
  registry.status_of world_state_id = some .CANDIDATE ∧ manifest.verify artifacts = [] ∧
    (plan.isSome = true → receipt.equivalence.isSome = true) ∧ receipt.passed = true

def Publishes (id : String) : Call → Prop
  | .publish world_state_id manifest receipt artifacts _ plan =>
      world_state_id = id ∧ registry.Passes world_state_id manifest receipt artifacts plan
  | _ => False

-- What one state of the registry must satisfy.
structure Settled : Prop where
  at_most_one : registry.active_count ≤ 1
  one_iff : registry.active_count = 1 ↔ registry.current_id.isSome = true
  current : ∀ id, registry.current_id = some id →
    ∃ state, registry.current = some state ∧ registry.states.get? id = some state ∧
      state.status = .ACTIVE ∧ registry.history.getLast? = some id

end WorldStateRegistry

structure Session where
  registry : WorldStateRegistry
  outbox : List (List (String × Option String)) := []

namespace Session

def handle (session : Session) (call : Call) : Session :=
  let (result, after) := session.registry.respond call
  { registry := after
    outbox := session.outbox ++ result.toOption.getD [] }

def Refuses (session : Session) (call : Call) : Prop :=
  ∃ message, (session.registry.respond call).1 = .error message

end Session

-- The session of a new registry after some calls.
def session (workspace_id : String) (calls : List Call) : Session :=
  calls.foldl Session.handle { registry := { workspace_id } }

section Runs

variable (workspace_id : String)

-- Among the calls, a publish whose checks passed put the state in place.
def Admitted (calls : List Call) (id : String) : Prop :=
  ∃ earlier manifest receipt artifacts activated_at plan,
    earlier ++ [Call.publish id manifest receipt artifacts activated_at plan] <+: calls ∧
    ¬(session workspace_id earlier).Refuses
      (.publish id manifest receipt artifacts activated_at plan) ∧
    receipt.passed = true ∧
    (plan.isSome = true → ∃ report, receipt.equivalence = some report ∧ report.equivalent = true)

def Call.candidate : Call → Option String
  | .publish world_state_id _ _ _ _ _ => some world_state_id
  | _ => none

-- A refused call may mark its candidate, and nothing else.
def RefusalKeeps (before : Session) (call : Call) : Prop :=
  let after := before.handle call
  after.registry.current_id = before.registry.current_id ∧
  after.registry.history = before.registry.history ∧ after.outbox = before.outbox ∧
  ∀ id, call.candidate ≠ some id → after.registry.status_of id = before.registry.status_of id

structure Upheld (calls : List Call) : Prop where
  settled : ∀ before, before <+: calls → (session workspace_id before).registry.Settled
  admitted : ∀ before, before <+: calls → ∀ id,
    (session workspace_id before).registry.status_of id = some .ACTIVE →
    Admitted workspace_id before id
  rejected : ∀ before later, before ++ later <+: calls → ∀ id,
    (session workspace_id before).registry.status_of id = some .REJECTED →
    (session workspace_id (before ++ later)).registry.status_of id ≠ some .ACTIVE
  refused : ∀ before call, before ++ [call] <+: calls →
    (session workspace_id before).Refuses call → RefusalKeeps (session workspace_id before) call

end Runs

section Steps

variable {registry : WorldStateRegistry}

theorem status_of_set (id other : String) (state : WorldState) :
    WorldStateRegistry.status_of { registry with states := registry.states.set id state } other =
      if other = id then some state.status else registry.status_of other := by
  unfold WorldStateRegistry.status_of
  rw [Dict.get?_set]
  split <;> rfl

theorem status_of_set_status (id other : String) (status : WorldStateStatus) :
    (registry.set_status id status).status_of other =
      if other = id then (registry.status_of id).map (fun _ => status)
      else registry.status_of other := by
  unfold WorldStateRegistry.set_status
  cases hget : registry.states.get? id with
  | none =>
      by_cases he : other = id
      · simp [he, WorldStateRegistry.status_of, hget]
      · simp [he]
  | some state =>
      simp only [status_of_set]
      by_cases he : other = id
      · simp [he, WorldStateRegistry.status_of, hget]
      · simp [he]

@[simp] theorem set_status_current_id (id : String) (status : WorldStateStatus) :
    (registry.set_status id status).current_id = registry.current_id := by
  unfold WorldStateRegistry.set_status
  split <;> rfl

@[simp] theorem set_status_history (id : String) (status : WorldStateStatus) :
    (registry.set_status id status).history = registry.history := by
  unfold WorldStateRegistry.set_status
  split <;> rfl

-- A truthy current id is what the retirement acts on.
theorem status_of_retire_current (status : WorldStateStatus) (other : String) :
    (registry.retire_current status).status_of other =
      if registry.current_id = some other ∧ other ≠ "" then
        (registry.status_of other).map (fun _ => status)
      else registry.status_of other := by
  unfold WorldStateRegistry.retire_current
  cases hcurrent : registry.current_id with
  | none => simp
  | some previous_id =>
      by_cases hempty : previous_id = ""
      · simp only [hempty, if_true, Option.some.injEq]
        rw [if_neg]
        rintro ⟨rfl, hne⟩
        exact hne rfl
      · simp only [hempty, if_false, status_of_set_status, Option.some.injEq]
        by_cases he : other = previous_id
        · simp [he, hempty]
        · simp [he, Ne.symm he]

-- The state `id` takes the place of the current one.
structure Moved (before : WorldStateRegistry) (id : String) (status : WorldStateStatus)
    (after : WorldStateRegistry) : Prop where
  current : after.current_id = some id
  history : after.history = before.history ++ [id]
  states : ∀ other, after.status_of other =
    if other = id then some .ACTIVE
    else if before.current_id = some other ∧ other ≠ "" then
      (before.status_of other).map (fun _ => status)
    else before.status_of other

-- What one call can do.
inductive Responded (before : WorldStateRegistry) :
    Call → Except String (List (List (String × Option String))) → WorldStateRegistry → Prop
  | refused (call : Call) (message : String) (hfails : ∀ id, ¬before.Publishes id call) :
      Responded before call (.error message) before
  | rejected (id : String) (manifest : PublicationManifest) (receipt : ValidationReceipt)
      (artifacts : Dict String String) (activated_at : Moment) (plan : Option RecompilationPlan)
      (message : String) (hcandidate : before.status_of id = some .CANDIDATE)
      (hfails : ¬before.Passes id manifest receipt artifacts plan) :
      Responded before (.publish id manifest receipt artifacts activated_at plan) (.error message)
        (before.set_status id .REJECTED)
  | staged (id compiler_version : String) (built_at : Moment) (change_set_id : Option String)
      (candidate : WorldState) (hnew : before.status_of id = none)
      (hstatus : candidate.status = .CANDIDATE) :
      Responded before (.stage id compiler_version built_at change_set_id) (.ok [])
        { before with states := before.states.set id candidate }
  | published (id : String) (manifest : PublicationManifest) (receipt : ValidationReceipt)
      (artifacts : Dict String String) (activated_at : Moment) (plan : Option RecompilationPlan)
      (events : List (List (String × Option String))) (after : WorldStateRegistry)
      (hpasses : before.Passes id manifest receipt artifacts plan)
      (hmoved : Moved before id .SUPERSEDED after) :
      Responded before (.publish id manifest receipt artifacts activated_at plan) (.ok events) after
  | rolled_back (id : String) (at_moment : Moment)
      (events : List (List (String × Option String))) (after : WorldStateRegistry)
      (hhistory : id ∈ before.history) (hother : before.current_id ≠ some id)
      (hmoved : Moved before id .ROLLED_BACK after) :
      Responded before (.rollback id at_moment) (.ok events) after

theorem moved_of_retired (registry : WorldStateRegistry) (id : String)
    (status : WorldStateStatus) (state : WorldState) (hstatus : state.status = .ACTIVE) :
    Moved registry id status
      { registry.retire_current status with
        states := (registry.retire_current status).states.set id state
        current_id := some id
        history := registry.history ++ [id] } := by
  refine ⟨rfl, rfl, fun other => ?_⟩
  have hset := @status_of_set (registry.retire_current status) id other state
  rw [status_of_retire_current, hstatus] at hset
  exact hset

theorem publish_responded (registry : WorldStateRegistry) (id : String)
    (manifest : PublicationManifest) (receipt : ValidationReceipt)
    (artifacts : Dict String String) (activated_at : Moment) (plan : Option RecompilationPlan) :
    let response := registry.respond (.publish id manifest receipt artifacts activated_at plan)
    Responded registry (.publish id manifest receipt artifacts activated_at plan) response.1
      response.2 := by
  simp only [WorldStateRegistry.respond, WorldStateRegistry.publish]
  cases hget : registry.states.get? id with
  | none =>
      refine .refused _ _ (fun _ h => ?_)
      simp [WorldStateRegistry.Publishes, WorldStateRegistry.Passes, WorldStateRegistry.status_of,
        hget] at h
  | some candidate =>
      by_cases hcandidate : candidate.status = .CANDIDATE
      · have hstatus : registry.status_of id = some .CANDIDATE := by
          simp [WorldStateRegistry.status_of, hget, hcandidate]
        simp only [hcandidate, ne_eq, not_true_eq_false, if_false]
        by_cases hverify : manifest.verify artifacts = []
        · simp only [hverify, not_true_eq_false, if_false]
          by_cases hcovered : plan.isSome = true → receipt.equivalence.isSome = true
          · have hnot : (plan.isSome && receipt.equivalence.isNone) = false := by
              cases hplan : plan.isSome with
              | false => rfl
              | true => simp [Option.isNone_eq_false_iff.mpr (hcovered hplan)]
            simp only [hnot, Bool.false_eq_true, if_false]
            by_cases hpassed : receipt.passed = true
            · simp only [hpassed, Bool.true_eq_false, if_false]
              exact .published id manifest receipt artifacts activated_at plan _ _
                ⟨hstatus, hverify, hcovered, hpassed⟩ (moved_of_retired registry id .SUPERSEDED _ rfl)
            · simp only [Bool.not_eq_true _ ▸ hpassed, if_true]
              exact .rejected id manifest receipt artifacts activated_at plan _ hstatus
                (fun h => hpassed h.2.2.2)
          · have hmissing : (plan.isSome && receipt.equivalence.isNone) = true := by
              simpa using hcovered
            simp only [hmissing, if_true]
            exact .rejected id manifest receipt artifacts activated_at plan _ hstatus
              (fun h => hcovered h.2.2.1)
        · simp only [hverify, not_false_eq_true, if_true]
          exact .rejected id manifest receipt artifacts activated_at plan _ hstatus
            (fun h => hverify h.2.1)
      · simp only [ne_eq, hcandidate, not_false_eq_true, if_true]
        refine .refused _ _ (fun _ h => ?_)
        simp [WorldStateRegistry.Publishes, WorldStateRegistry.Passes, WorldStateRegistry.status_of,
          hget, hcandidate] at h

theorem responded (registry : WorldStateRegistry) (call : Call) :
    Responded registry call (registry.respond call).1 (registry.respond call).2 := by
  cases call with
  | stage id compiler_version built_at change_set_id =>
      simp only [WorldStateRegistry.respond, WorldStateRegistry.stage]
      by_cases hthere : (registry.states.get? id).isSome = true
      · simp only [hthere, if_true]
        exact .refused _ _ (fun _ h => h)
      · simp only [hthere, Bool.false_eq_true, if_false]
        refine .staged id compiler_version built_at change_set_id _ ?_ rfl
        simpa [WorldStateRegistry.status_of] using hthere
  | publish id manifest receipt artifacts activated_at plan =>
      exact publish_responded registry id manifest receipt artifacts activated_at plan
  | rollback id at_moment =>
      simp only [WorldStateRegistry.respond, WorldStateRegistry.rollback]
      cases hget : registry.states.get? id with
      | none => exact .refused _ _ (fun _ h => h)
      | some target =>
          by_cases hhistory : id ∈ registry.history
          · simp only [hhistory, not_true_eq_false, if_false]
            by_cases hcurrent : registry.current_id = some id
            · simp only [hcurrent, if_true]
              exact .refused _ _ (fun _ h => h)
            · simp only [hcurrent, if_false]
              exact .rolled_back id at_moment _ _ hhistory hcurrent
                (moved_of_retired registry id .ROLLED_BACK _ rfl)
          · simp only [hhistory, not_false_eq_true, if_true]
            exact .refused _ _ (fun _ h => h)

end Steps

-- Carried from call to call while no state without a name goes live.
structure Ordered (registry : WorldStateRegistry) : Prop where
  last : registry.current_id = registry.history.getLast?
  active : ∀ id, registry.status_of id = some .ACTIVE ↔ registry.current_id = some id
  past : ∀ id ∈ registry.history, registry.status_of id = some .ACTIVE ∨
    registry.status_of id = some .SUPERSEDED ∨ registry.status_of id = some .ROLLED_BACK
  named : "" ∉ registry.history

section Invariant

variable {registry after : WorldStateRegistry} {call : Call}
  {result : Except String (List (List (String × Option String)))}

theorem Ordered.start (workspace_id : String) : Ordered { workspace_id } := by
  refine ⟨rfl, fun id => ?_, by simp, by simp⟩
  simp [WorldStateRegistry.status_of]

theorem Ordered.settled (hinv : Ordered registry) : registry.Settled := by
  have hcount : registry.active_count ≤ 1 := by
    refine @Dict.countP_values_le_one _ _ _ registry.states (registry.current_id.getD "") _ ?_
    intro id state hget hactive
    have hstatus : registry.status_of id = some .ACTIVE := by
      simpa [WorldStateRegistry.status_of, hget] using hactive
    simp [(hinv.active id).mp hstatus]
  have hcurrent : ∀ id, registry.current_id = some id → ∃ state,
      registry.states.get? id = some state ∧ state.status = .ACTIVE := fun id hid =>
    Option.map_eq_some_iff.mp ((hinv.active id).mpr hid)
  refine ⟨hcount, ⟨fun hone => ?_, fun hsome => ?_⟩, fun id hid => ?_⟩
  · obtain ⟨state, hmem, hactive⟩ := List.countP_pos_iff.mp (Nat.lt_of_lt_of_eq Nat.one_pos hone.symm)
    obtain ⟨⟨id, _⟩, hentry, rfl⟩ := List.mem_map.mp hmem
    have hget := (registry.states.mem_entries_iff id _).mp hentry
    have hstatus : registry.status_of id = some .ACTIVE := by
      simpa [WorldStateRegistry.status_of, hget] using hactive
    simp [(hinv.active id).mp hstatus]
  · obtain ⟨id, hid⟩ := Option.isSome_iff_exists.mp hsome
    obtain ⟨state, hget, hactive⟩ := hcurrent id hid
    refine Nat.le_antisymm hcount (List.countP_pos_iff.mpr ⟨state, ?_, by simp [hactive]⟩)
    exact List.mem_map.mpr ⟨(id, state), (registry.states.mem_entries_iff id state).mpr hget, rfl⟩
  · obtain ⟨state, hget, hactive⟩ := hcurrent id hid
    have hin : id ∈ registry.history := List.mem_of_getLast? (hinv.last ▸ hid)
    have hne : id ≠ "" := fun h => hinv.named (h ▸ hin)
    refine ⟨state, ?_, hget, hactive, hinv.last ▸ hid⟩
    simp [WorldStateRegistry.current, truthy, hid, hne, hget]

theorem Ordered.moved {id : String} {status : WorldStateStatus} (hinv : Ordered registry)
    (hmoved : Moved registry id status after) (hne : id ≠ "")
    (hstatus : status = .SUPERSEDED ∨ status = .ROLLED_BACK) : Ordered after := by
  have hpast : ∀ other ∈ registry.history, after.status_of other = some .ACTIVE ∨
      after.status_of other = some .SUPERSEDED ∨ after.status_of other = some .ROLLED_BACK := by
    intro other ho
    rw [hmoved.states other]
    split
    · exact Or.inl rfl
    · split
      · rcases hinv.past other ho with h | h | h <;> rcases hstatus with rfl | rfl <;> simp [h]
      · exact hinv.past other ho
  refine ⟨?_, fun other => ?_, fun other ho => ?_, ?_⟩
  · rw [hmoved.current, hmoved.history, List.getLast?_concat]
  · rw [hmoved.states other, hmoved.current, Option.some.injEq]
    by_cases he : other = id
    · simp [he]
    · rw [if_neg he]
      simp only [Ne.symm he, iff_false]
      by_cases hcurrent : registry.current_id = some other ∧ other ≠ ""
      · rw [if_pos hcurrent]
        intro h
        obtain ⟨_, _, rfl⟩ := Option.map_eq_some_iff.mp h
        rcases hstatus with h | h <;> cases h
      · rw [if_neg hcurrent, hinv.active other]
        intro h
        have hin : other ∈ registry.history := List.mem_of_getLast? (hinv.last ▸ h)
        exact hcurrent ⟨h, fun hempty => hinv.named (hempty ▸ hin)⟩
  · rw [hmoved.history] at ho
    rcases List.mem_append.mp ho with ho | ho
    · exact hpast other ho
    · obtain rfl := List.mem_singleton.mp ho
      exact Or.inl (by rw [hmoved.states, if_pos rfl])
  · rw [hmoved.history]
    intro h
    rcases List.mem_append.mp h with h | h
    · exact hinv.named h
    · exact hne (List.mem_singleton.mp h).symm

theorem Ordered.fresh (hinv : Ordered registry) {id : String} {state : Option WorldStateStatus}
    (hbefore : registry.status_of id = none ∨ registry.status_of id = some .CANDIDATE)
    (hstate : state ≠ some .ACTIVE)
    (hcurrent : after.current_id = registry.current_id) (hhistory : after.history = registry.history)
    (hstates : ∀ other, after.status_of other = if other = id then state else registry.status_of other) :
    Ordered after := by
  have hout : id ∉ registry.history := fun hin => by
    rcases hinv.past id hin with h | h | h <;> rcases hbefore with hb | hb <;> simp [h] at hb
  have hnot : registry.current_id ≠ some id := fun h => by
    have := (hinv.active id).mpr h
    rcases hbefore with hb | hb <;> simp [this] at hb
  refine ⟨by rw [hcurrent, hhistory]; exact hinv.last, fun other => ?_, fun other ho => ?_,
    hhistory ▸ hinv.named⟩
  · rw [hstates, hcurrent]
    split
    · rename_i he
      exact iff_of_false hstate (he ▸ hnot)
    · exact hinv.active other
  · rw [hhistory] at ho
    rw [hstates, if_neg (fun he => hout (by rw [← he]; exact ho))]
    exact hinv.past other ho

theorem Ordered.responded (hinv : Ordered registry) (hnamed : ¬registry.Publishes "" call)
    (hresponse : Responded registry call result after) : Ordered after := by
  cases hresponse with
  | refused => exact hinv
  | rejected id _ _ _ _ _ _ hcandidate =>
      have hne : some WorldStateStatus.REJECTED ≠ some .ACTIVE := by simp
      refine hinv.fresh (Or.inr hcandidate) hne (by simp) (by simp) (fun other => ?_)
      rw [status_of_set_status, hcandidate]
      rfl
  | staged id _ _ _ candidate hnew hstatus =>
      have hne : some WorldStateStatus.CANDIDATE ≠ some .ACTIVE := by simp
      refine hinv.fresh (Or.inl hnew) hne ?_ ?_ (fun other => ?_)
      · rfl
      · rfl
      · rw [status_of_set, hstatus]
  | published id manifest receipt artifacts activated_at plan events after hpasses hmoved =>
      apply hinv.moved hmoved (fun he => hnamed ?_) (Or.inl rfl)
      subst he
      exact ⟨rfl, hpasses⟩
  | rolled_back id at_moment events after hhistory _ hmoved =>
      exact hinv.moved hmoved (fun he => hinv.named (he ▸ hhistory)) (Or.inr rfl)

-- No call gives a rejected state another status.
theorem Ordered.stays_rejected (hinv : Ordered registry)
    (hresponse : Responded registry call result after) {id : String}
    (hrejected : registry.status_of id = some .REJECTED) :
    after.status_of id = some .REJECTED := by
  have hnot : registry.current_id ≠ some id := fun h => by
    have := (hinv.active id).mpr h
    simp [hrejected] at this
  have hkept : ∀ other status, Moved registry other status after →
      registry.status_of other ≠ some .REJECTED → after.status_of id = some .REJECTED := by
    intro other status hmoved hother
    have hne : id ≠ other := fun he => hother (he ▸ hrejected)
    rw [hmoved.states, if_neg hne, if_neg (fun h => hnot h.1), hrejected]
  cases hresponse with
  | refused => exact hrejected
  | rejected other =>
      rw [status_of_set_status]
      split
      · rename_i he
        simp [← he, hrejected]
      · exact hrejected
  | staged other _ _ _ candidate hnew =>
      rw [status_of_set, if_neg (fun he => ?_), hrejected]
      rw [← he, hrejected] at hnew
      cases hnew
  | published other _ _ _ _ _ _ _ hpasses hmoved =>
      exact hkept other _ hmoved (by simp [hpasses.1])
  | rolled_back other _ _ _ hhistory _ hmoved =>
      refine hkept other _ hmoved (fun h => ?_)
      rcases hinv.past other hhistory with hp | hp | hp <;> simp [h] at hp

theorem Responded.refusal {message : String} (hresponse : Responded registry call result after)
    (hresult : result = .error message) :
    after.current_id = registry.current_id ∧ after.history = registry.history ∧
      ∀ id, call.candidate ≠ some id → after.status_of id = registry.status_of id := by
  cases hresponse with
  | refused => exact ⟨rfl, rfl, fun _ _ => rfl⟩
  | rejected other =>
      refine ⟨by simp, by simp, fun id hne => ?_⟩
      rw [status_of_set_status, if_neg (fun he => hne (by rw [he]; rfl))]
  | staged => cases hresult
  | published => cases hresult
  | rolled_back => cases hresult

end Invariant

section Runs

variable (workspace_id : String)

theorem session_append (calls : List Call) (call : Call) :
    session workspace_id (calls ++ [call]) = (session workspace_id calls).handle call := by
  simp [session, List.foldl_append]

theorem handle_responded (before : Session) (call : Call) :
    Responded before.registry call (before.registry.respond call).1
      (before.handle call).registry :=
  responded before.registry call

variable {workspace_id}

theorem Admitted.mono {calls more : List Call} {id : String} (h : Admitted workspace_id calls id)
    ( hprefix : calls <+: more) : Admitted workspace_id more id := by
  obtain ⟨earlier, manifest, receipt, artifacts, activated_at, plan, hin, hrest⟩ := h
  exact ⟨earlier, manifest, receipt, artifacts, activated_at, plan, hin.trans hprefix, hrest⟩

theorem admitted_of_passes {calls : List Call} {id : String} {manifest : PublicationManifest}
    {receipt : ValidationReceipt} {artifacts : Dict String String} {activated_at : Moment}
    {plan : Option RecompilationPlan}
    (hpasses : (session workspace_id calls).registry.Passes id manifest receipt artifacts plan)
    (haccepted : ¬(session workspace_id calls).Refuses
      (.publish id manifest receipt artifacts activated_at plan)) :
    Admitted workspace_id
      (calls ++ [.publish id manifest receipt artifacts activated_at plan]) id := by
  refine ⟨calls, manifest, receipt, artifacts, activated_at, plan, List.prefix_rfl, haccepted,
    hpasses.2.2.2, fun hplan => ?_⟩
  obtain ⟨report, hreport⟩ := Option.isSome_iff_exists.mp (hpasses.2.2.1 hplan)
  have hpassed := hpasses.2.2.2
  simp only [ValidationReceipt.passed, hreport, Option.all_some, Bool.and_eq_true] at hpassed
  exact ⟨report, hreport, hpassed.2⟩

theorem run_ordered (calls : List Call)
    (hnamed : ∀ before call, before ++ [call] <+: calls →
      ¬(session workspace_id before).registry.Publishes "" call) :
    Ordered (session workspace_id calls).registry ∧
      ∀ id ∈ (session workspace_id calls).registry.history, Admitted workspace_id calls id := by
  induction calls using List.reverseRecOn with
  | nil => exact ⟨Ordered.start workspace_id, by simp [session]⟩
  | append_singleton calls call ih =>
      have hprefix : calls <+: calls ++ [call] := List.prefix_append _ _
      obtain ⟨hinv, hadmitted⟩ := ih (fun before other h => hnamed before other (h.trans hprefix))
      have hresponse := handle_responded (session workspace_id calls) call
      rw [session_append]
      refine ⟨hinv.responded (hnamed calls call List.prefix_rfl) hresponse, ?_⟩
      have hold : ∀ id ∈ (session workspace_id calls).registry.history,
          Admitted workspace_id (calls ++ [call]) id := fun id hid => (hadmitted id hid).mono hprefix
      generalize hresult : ((session workspace_id calls).registry.respond call).1 = result at hresponse
      generalize ((session workspace_id calls).handle call).registry = after at hresponse ⊢
      cases hresponse with
      | refused => exact hold
      | rejected => simpa using hold
      | staged => exact hold
      | published id manifest receipt artifacts activated_at plan events _ hpasses hmoved =>
          intro other ho
          rw [hmoved.history] at ho
          rcases List.mem_append.mp ho with ho | ho
          · exact hold other ho
          · obtain rfl := List.mem_singleton.mp ho
            refine admitted_of_passes hpasses ?_
            rintro ⟨message, hmessage⟩
            exact absurd (hresult.symm.trans hmessage) (by simp)
      | rolled_back id _ _ _ hhistory _ hmoved =>
          intro other ho
          rw [hmoved.history] at ho
          rcases List.mem_append.mp ho with ho | ho
          · exact hold other ho
          · obtain rfl := List.mem_singleton.mp ho
            exact hold other hhistory

theorem refusal_keeps (before : Session) (call : Call) (hrefused : before.Refuses call) :
    RefusalKeeps before call := by
  obtain ⟨message, hmessage⟩ := hrefused
  obtain ⟨hcurrent, hhistory, hstates⟩ := (handle_responded before call).refusal hmessage
  refine ⟨hcurrent, hhistory, ?_, hstates⟩
  simp [Session.handle, hmessage, Except.toOption]

-- A current id that is the empty string is no longer seen, nor retired.
theorem upheld_iff (workspace_id : String) (calls : List Call) :
    Upheld workspace_id calls ↔ ∀ before call, before ++ [call] <+: calls →
      ¬(session workspace_id before).registry.Publishes "" call := by
  constructor
  · intro hupheld before call hin hpublishes
    have hsettled := hupheld.settled (before ++ [call]) hin
    rw [session_append] at hsettled
    have hresponse := handle_responded (session workspace_id before) call
    generalize ((session workspace_id before).registry.respond call).1 = result at hresponse
    generalize ((session workspace_id before).handle call).registry = after at hresponse hsettled
    cases hresponse with
    | refused _ _ hfails => exact hfails "" hpublishes
    | rejected id _ _ _ _ _ _ _ hfails => exact hfails hpublishes.2
    | staged => exact hpublishes
    | published id _ _ _ _ _ _ _ _ hmoved =>
        obtain rfl := hpublishes.1
        obtain ⟨state, hcurrent, _⟩ := hsettled.current "" hmoved.current
        simp [WorldStateRegistry.current, hmoved.current, truthy] at hcurrent
    | rolled_back => exact hpublishes
  · intro hnamed
    have hreached : ∀ before, before <+: calls →
        Ordered (session workspace_id before).registry ∧
          ∀ id ∈ (session workspace_id before).registry.history,
            Admitted workspace_id before id := fun before hbefore =>
      run_ordered before (fun earlier call h => hnamed earlier call (h.trans hbefore))
    refine ⟨fun before hbefore => (hreached before hbefore).1.settled, ?_, ?_, ?_⟩
    · intro before hbefore id hactive
      obtain ⟨hinv, hadmitted⟩ := hreached before hbefore
      have hcurrent := (hinv.active id).mp hactive
      exact hadmitted id (List.mem_of_getLast? (hinv.last ▸ hcurrent))
    · intro before later hlater id hrejected
      have hstays : ∀ later, before ++ later <+: calls →
          (session workspace_id (before ++ later)).registry.status_of id = some .REJECTED := by
        intro later
        induction later using List.reverseRecOn with
        | nil => exact fun _ => by rwa [List.append_nil]
        | append_singleton later call ih =>
            intro hin
            rw [← List.append_assoc] at hin ⊢
            have hbefore := (List.prefix_append (before ++ later) [call]).trans hin
            rw [session_append]
            exact (hreached _ hbefore).1.stays_rejected (handle_responded _ call) (ih hbefore)
      rw [hstays later hlater]
      simp
    · exact fun before call _ hrefused => refusal_keeps _ call hrefused

end Runs

def checked (receipt_id : String) : ValidationReceipt where
  receipt_id := receipt_id
  checksums_verified := true
  permission_checked := true
  integrity_passed := true

def no_artifacts (world_state_id : String) : PublicationManifest where
  world_state_id := world_state_id
  compiler_version := "1"
  artifact_hashes := .empty
  manifest_hash := ""

def staged_and_published (world_state_id : String) (moment : Moment) : List Call :=
  [.stage world_state_id "1" moment none,
    .publish world_state_id (no_artifacts world_state_id) (checked "receipt") .empty moment none]

-- The second publish finds no truthy current id, and retires nothing.
theorem unnamed_world_stays_active :
    (session "workspace"
        (staged_and_published "" 0 ++ staged_and_published "WS-2" 1)).registry.active_count = 2 ∧
      ¬Upheld "workspace" (staged_and_published "" 0 ++ staged_and_published "WS-2" 1) := by
  have hcount : (session "workspace"
      (staged_and_published "" 0 ++ staged_and_published "WS-2" 1)).registry.active_count = 2 := by
    decide
  refine ⟨hcount, fun hupheld => ?_⟩
  have hone := (hupheld.settled _ List.prefix_rfl).at_most_one
  rw [hcount] at hone
  omega

end KnowledgeCompiler.World
