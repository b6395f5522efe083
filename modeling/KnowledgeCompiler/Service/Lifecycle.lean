import KnowledgeCompiler.Service.PageAttempts
import Mathlib.Data.List.Chain

namespace KnowledgeCompiler.Service

open Lib Method

variable {Time : Type}

inductive Call (Time : Type)
  | create (creation : Creation Time) (utcnow : Time)
  | transition (id : UUID) (transition : Transition Time) (utcnow : Time)
  | attach (id : UUID) (invocation_id : UUID) (utcnow : Time)

namespace Session

def log (session : Session Time) (id : UUID) : List (PageAttemptTransitionEvent Time) :=
  session.events.filter (fun event => event.attempt_id = id)

-- What a call leaves, whether it returns or raises. Only an attempt of the session can be passed to one.
def perform (session : Session Time) : Call Time → Session Time
  | .create creation utcnow => (create_page_attempt creation utcnow session).2
  | .transition id transition utcnow =>
      match session.attempts[id]? with
      | none => session
      | some attempt => (transition_page_attempt attempt transition utcnow session).2
  | .attach id invocation_id utcnow =>
      match session.attempts[id]? with
      | none => session
      | some attempt => (attach_provider_invocation attempt invocation_id utcnow session).2

def run (calls : List (Call Time)) : Session Time := calls.foldl perform {}

end Session

-- The second event of two follows the first.
def Follows (earlier later : PageAttemptTransitionEvent Time) : Prop :=
  later.previous_state = some earlier.current_state ∧
    page_transition_allowed earlier.current_state later.current_state = true

-- An attempt and the events logged for it.
structure Attested (attempt : PageAttempt Time) (log : List (PageAttemptTransitionEvent Time)) :
    Prop where
  counted : attempt.event_sequence = log.length
  numbered : log.map PageAttemptTransitionEvent.sequence = List.range' 1 log.length
  latest : log.getLast?.map PageAttemptTransitionEvent.current_state = some attempt.status
  begun : log.head?.bind PageAttemptTransitionEvent.previous_state = none
  chained : log.IsChain Follows
  completed : attempt.completed_at.isSome = true ↔ attempt.status ∈ TERMINAL_PAGE_STATES

def Session.Evidenced (session : Session Time) : Prop :=
  ∀ id attempt, session.attempts[id]? = some attempt → Attested attempt (session.log id)

-- Every attempt in a terminal state is as it was, and so are its events.
def Frozen (session left : Session Time) : Prop :=
  ∀ id attempt, session.attempts[id]? = some attempt → attempt.status ∈ TERMINAL_PAGE_STATES →
    left.attempts[id]? = some attempt ∧ left.log id = session.log id

-- The evidence after every call of the run, and no change from a terminal state on.
def Lifecycle (calls : List (Call Time)) : Prop :=
  (∀ before after, calls = before ++ after → (Session.run before).Evidenced) ∧
    ∀ before middle after, calls = before ++ middle ++ after →
      Frozen (Session.run before) (Session.run (before ++ middle))

def Creation.Numbered (creation : Creation Time) : Prop :=
  1 ≤ creation.attempt_number ∧ 1 ≤ creation.max_attempts ∧ creation.max_attempts ≤ 5

-- The guards of a transition that come before its first assignment.
def PageAttempt.Opens (attempt : PageAttempt Time) (target : PageState) : Prop :=
  attempt.status ∉ TERMINAL_PAGE_STATES ∧ page_transition_allowed attempt.status target = true

-- A call that gets as far as its payload has one that is encoded within the bound.
def Encodes (session : Session Time) : Call Time → Prop
  | .create creation _ => creation.Numbered → (_bounded_payload creation.payload).isOk = true
  | .transition id transition _ =>
      ∀ attempt, session.attempts[id]? = some attempt → attempt.Opens transition.target →
        (_bounded_payload transition.payload).isOk = true
  | .attach _ _ _ => True

theorem allowed_ne {previous current : PageState}
    (hallowed : page_transition_allowed previous current = true) : previous ≠ current := by
  rintro rfl
  cases previous <;> exact absurd hallowed (by decide)

-- What a call can leave of a session, and whether its payload had a part in it.
inductive Leaves (session : Session Time) : Call Time → Session Time → Prop
  | refused (call : Call Time) (hencodes : Encodes session call) : Leaves session call session
  | created {creation : Creation Time} {payload : Payload} (utcnow : Time)
      (hpayload : _bounded_payload creation.payload = .ok payload) :
      Leaves session (.create creation utcnow)
        ((session.add_attempt
            (.created creation session.attempts.length (creation.now.getD utcnow))).add_event
          ((PageAttempt.created creation session.attempts.length
            (creation.now.getD utcnow)).first_event creation payload (creation.now.getD utcnow)))
  | unlogged {creation : Creation Time} (utcnow : Time)
      (hencodes : ¬Encodes session (.create creation utcnow)) :
      Leaves session (.create creation utcnow)
        (session.add_attempt
          (.created creation session.attempts.length (creation.now.getD utcnow)))
  | moved {id : UUID} {attempt : PageAttempt Time} {transition : Transition Time}
      {payload : Payload} (utcnow : Time) (hheld : session.attempts[id]? = some attempt)
      (hopens : attempt.Opens transition.target)
      (hpayload : _bounded_payload transition.payload = .ok payload) :
      Leaves session (.transition id transition utcnow)
        ((session.put (attempt.moved transition (transition.now.getD utcnow))).add_event
          ((attempt.moved transition (transition.now.getD utcnow)).event attempt.status transition
            payload (transition.now.getD utcnow)))
  | untold {id : UUID} {attempt : PageAttempt Time} {transition : Transition Time} (utcnow : Time)
      (hheld : session.attempts[id]? = some attempt) (hopens : attempt.Opens transition.target)
      (hencodes : ¬Encodes session (.transition id transition utcnow)) :
      Leaves session (.transition id transition utcnow)
        (session.put (attempt.moved transition (transition.now.getD utcnow)))
  | attached {id : UUID} {attempt : PageAttempt Time} (invocation_id : UUID) (utcnow : Time)
      (hheld : session.attempts[id]? = some attempt)
      (hopen : attempt.status ∉ TERMINAL_PAGE_STATES) :
      Leaves session (.attach id invocation_id utcnow)
        (session.put (attempt.attached invocation_id utcnow))

section Calls

variable (session : Session Time)

theorem create_leaves (creation : Creation Time) (utcnow : Time) :
    Leaves session (.create creation utcnow) (create_page_attempt creation utcnow session).2 := by
  apply @Ends.state _ _ _ (Leaves session (.create creation utcnow))
  unfold create_page_attempt
  simp only [ends_bind, ends_require, ends_self, ends_assign, ends_check, ends_pure]
  refine ⟨fun hnumber => ⟨fun hmax => ⟨?_, ?_⟩, ?_⟩, ?_⟩
  · intro payload hpayload
    exact .created utcnow hpayload
  · intro error hraised
    refine .unlogged utcnow fun hencodes => ?_
    have hok := hencodes ⟨hnumber, hmax⟩
    rw [hraised] at hok
    cases hok
  · intro hmax
    exact .refused _ fun hnumbered => absurd hnumbered.2 hmax
  · intro hnumber
    exact .refused _ fun hnumbered => absurd hnumbered.1 hnumber

theorem transition_leaves {id : UUID} {attempt : PageAttempt Time} (transition : Transition Time)
    (utcnow : Time) (hheld : session.attempts[id]? = some attempt) :
    Leaves session (.transition id transition utcnow)
      (transition_page_attempt attempt transition utcnow session).2 := by
  have hrefused (hclosed : ¬attempt.Opens transition.target) :
      Leaves session (.transition id transition utcnow) session := by
    refine .refused _ fun other hother hopens => absurd hopens ?_
    rwa [← Option.some.inj (hheld.symm.trans hother)]
  apply @Ends.state _ _ _ (Leaves session (.transition id transition utcnow))
  unfold transition_page_attempt
  simp only [ends_bind, ends_require, ends_ite, ends_assign, ends_check, ends_pure]
  refine ⟨fun hterminal => ⟨?_, fun _ => ⟨fun hallowed => ⟨?_, ?_⟩, ?_⟩⟩, ?_⟩
  · intro hsame
    exact hrefused fun hopens => absurd hsame (allowed_ne hopens.2)
  · intro payload hpayload
    exact .moved utcnow hheld ⟨hterminal, hallowed⟩ hpayload
  · intro error hraised
    refine .untold utcnow hheld ⟨hterminal, hallowed⟩ fun hencodes => ?_
    have hok := hencodes attempt hheld ⟨hterminal, hallowed⟩
    rw [hraised] at hok
    cases hok
  · intro hallowed
    exact hrefused fun hopens => absurd hopens.2 hallowed
  · intro hterminal
    exact hrefused fun hopens => absurd hopens.1 hterminal

theorem attach_leaves {id : UUID} {attempt : PageAttempt Time} (invocation_id : UUID)
    (utcnow : Time) (hheld : session.attempts[id]? = some attempt) :
    Leaves session (.attach id invocation_id utcnow)
      (attach_provider_invocation attempt invocation_id utcnow session).2 := by
  apply @Ends.state _ _ _ (Leaves session (.attach id invocation_id utcnow))
  unfold attach_provider_invocation
  simp only [ends_bind, ends_require, ends_assign]
  refine ⟨fun hopen => ⟨fun _ => ?_, fun _ => ?_⟩, fun _ => ?_⟩
  · exact .attached invocation_id utcnow hheld hopen
  · exact .refused _ trivial
  · exact .refused _ trivial

theorem perform_leaves (call : Call Time) : Leaves session call (session.perform call) := by
  cases call with
  | create creation utcnow => exact create_leaves session creation utcnow
  | transition id transition utcnow =>
      simp only [Session.perform]
      split
      · rename_i hnone
        exact .refused _ (by simp [Encodes, hnone])
      · rename_i attempt hheld
        exact transition_leaves session transition utcnow hheld
  | attach id invocation_id utcnow =>
      simp only [Session.perform]
      split
      · exact .refused _ trivial
      · rename_i attempt hheld
        exact attach_leaves session invocation_id utcnow hheld

end Calls

-- The attempts stand at the places of their ids, and every event is of one of them.
structure Session.Ordered (session : Session Time) : Prop where
  placed : ∀ (id : UUID) (attempt : PageAttempt Time), session.attempts[id]? = some attempt →
    attempt.id = id
  owned : ∀ event ∈ session.events, event.attempt_id < session.attempts.length

section Records

variable {session : Session Time}

theorem lt_of_held {id : UUID} {attempt : PageAttempt Time}
    (hheld : session.attempts[id]? = some attempt) : id < session.attempts.length :=
  (List.getElem?_eq_some_iff.mp hheld).1

theorem moved_id (attempt : PageAttempt Time) (transition : Transition Time) (occurred_at : Time) :
    (attempt.moved transition occurred_at).id = attempt.id := rfl

@[simp] theorem attempts_add_event (event : PageAttemptTransitionEvent Time) :
    (session.add_event event).attempts = session.attempts := rfl

@[simp] theorem log_add_attempt (attempt : PageAttempt Time) (id : UUID) :
    (session.add_attempt attempt).log id = session.log id := rfl

@[simp] theorem log_put (attempt : PageAttempt Time) (id : UUID) :
    (session.put attempt).log id = session.log id := rfl

theorem log_add_event {event : PageAttemptTransitionEvent Time} {id : UUID}
    (hid : event.attempt_id = id) : (session.add_event event).log id = session.log id ++ [event] := by
  unfold Session.log Session.add_event
  rw [List.filter_append, List.filter_cons_of_pos (by simpa using hid), List.filter_nil]

theorem log_add_event_of_ne {event : PageAttemptTransitionEvent Time} {id : UUID}
    (hid : event.attempt_id ≠ id) : (session.add_event event).log id = session.log id := by
  unfold Session.log Session.add_event
  rw [List.filter_append, List.filter_cons_of_neg (by simpa using hid), List.filter_nil,
    List.append_nil]

theorem get?_add_attempt (attempt : PageAttempt Time) (id : UUID) :
    (session.add_attempt attempt).attempts[id]? =
      if id = session.attempts.length then some attempt else session.attempts[id]? := by
  change (session.attempts ++ [attempt])[id]? = _
  rw [List.getElem?_append]
  split
  · rename_i hlt
    rw [if_neg hlt.ne]
  · rename_i hge
    by_cases hid : id = session.attempts.length
    · subst hid
      simp
    · have hbeyond : session.attempts.length ≤ id := not_lt.mp hge
      rw [if_neg hid, List.getElem?_eq_none hbeyond, List.getElem?_eq_none]
      rw [List.length_singleton]
      exact Nat.le_sub_of_add_le' (Nat.lt_of_le_of_ne hbeyond (Ne.symm hid))

theorem get?_put {id : UUID} {attempt : PageAttempt Time} (changed : PageAttempt Time)
    (hheld : session.attempts[id]? = some attempt) (hid : changed.id = id) (other : UUID) :
    (session.put changed).attempts[other]? =
      if other = id then some changed else session.attempts[other]? := by
  change (session.attempts.set changed.id changed)[other]? = _
  have hlt := lt_of_held hheld
  subst hid
  rw [List.getElem?_set]
  split
  · rename_i hother
    simp [← hother]
  · rename_i hother
    rw [if_neg (Ne.symm hother)]

end Records

namespace Session.Ordered

variable {session left : Session Time} {call : Call Time}

theorem log_length (hordered : session.Ordered) : session.log session.attempts.length = [] := by
  unfold log
  rw [List.filter_eq_nil_iff]
  intro event hevent
  simpa using (hordered.owned event hevent).ne

theorem add_attempt (hordered : session.Ordered) {attempt : PageAttempt Time}
    (hid : attempt.id = session.attempts.length) : (session.add_attempt attempt).Ordered where
  placed id found hfound := by
    rw [get?_add_attempt] at hfound
    split at hfound
    · rename_i hlast
      cases hfound
      exact hid.trans hlast.symm
    · exact hordered.placed id found hfound
  owned event hevent := by
    have hlt := hordered.owned event hevent
    rw [Session.add_attempt, List.length_append]
    exact Nat.lt_add_right _ hlt

theorem put (hordered : session.Ordered) {id : UUID} {attempt changed : PageAttempt Time}
    (hheld : session.attempts[id]? = some attempt) (hid : changed.id = attempt.id) :
    (session.put changed).Ordered where
  placed other found hfound := by
    have hplaced := hid.trans (hordered.placed id attempt hheld)
    rw [get?_put changed hheld hplaced] at hfound
    split at hfound
    · rename_i hother
      cases hfound
      exact hplaced.trans hother.symm
    · exact hordered.placed other found hfound
  owned event hevent := by
    simpa [Session.put] using hordered.owned event hevent

theorem add_event (hordered : session.Ordered) {event : PageAttemptTransitionEvent Time}
    (hlt : event.attempt_id < session.attempts.length) : (session.add_event event).Ordered where
  placed := hordered.placed
  owned found hfound := by
    rcases List.mem_append.mp hfound with hold | hnew
    · exact hordered.owned found hold
    · rw [List.mem_singleton.mp hnew]
      exact hlt

theorem leaves (hordered : session.Ordered) (hleaves : Leaves session call left) : left.Ordered := by
  cases hleaves with
  | refused call hencodes => exact hordered
  | created utcnow hpayload =>
      refine (hordered.add_attempt rfl).add_event ?_
      simp [PageAttempt.first_event, PageAttempt.created, Session.add_attempt]
  | unlogged utcnow hencodes => exact hordered.add_attempt rfl
  | moved utcnow hheld hopens hpayload =>
      refine .add_event (hordered.put hheld (moved_id _ _ _)) ?_
      have hlt := lt_of_held hheld
      rw [← hordered.placed _ _ hheld] at hlt
      simpa [PageAttempt.event, PageAttempt.moved, Session.put] using hlt
  | untold utcnow hheld hopens hencodes => exact hordered.put hheld rfl
  | attached invocation_id utcnow hheld hopen => exact hordered.put hheld rfl

end Session.Ordered

theorem ordered_run (calls : List (Call Time)) : (Session.run calls).Ordered := by
  induction calls using List.reverseRecOn with
  | nil => exact ⟨by simp [Session.run], by simp [Session.run]⟩
  | append_singleton calls call ih =>
      rw [Session.run, List.foldl_append]
      exact ih.leaves (perform_leaves _ call)

section Frozen

variable {session left : Session Time} {call : Call Time}

theorem Frozen.refl (session : Session Time) : Frozen session session :=
  fun _ _ hheld _ => ⟨hheld, rfl⟩

theorem Frozen.trans {last : Session Time} (hfirst : Frozen session left)
    (hsecond : Frozen left last) : Frozen session last := by
  intro id attempt hheld hterminal
  obtain ⟨hkept, hlog⟩ := hfirst id attempt hheld hterminal
  obtain ⟨hlast, hlog'⟩ := hsecond id attempt hkept hterminal
  exact ⟨hlast, hlog'.trans hlog⟩

theorem frozen_add_attempt (attempt : PageAttempt Time) :
    Frozen session (session.add_attempt attempt) := by
  intro id found hheld _
  rw [get?_add_attempt, if_neg (lt_of_held hheld).ne]
  exact ⟨hheld, rfl⟩

theorem frozen_put (hordered : session.Ordered) {id : UUID} {attempt changed : PageAttempt Time}
    (hheld : session.attempts[id]? = some attempt) (hid : changed.id = attempt.id)
    (hopen : attempt.status ∉ TERMINAL_PAGE_STATES) : Frozen session (session.put changed) := by
  intro other found hfound hterminal
  rw [get?_put changed hheld (hid.trans (hordered.placed id attempt hheld)), if_neg]
  · exact ⟨hfound, rfl⟩
  · rintro rfl
    rw [Option.some.inj (hheld.symm.trans hfound)] at hopen
    exact hopen hterminal

theorem Frozen.add_event (hfrozen : Frozen session left)
    {event : PageAttemptTransitionEvent Time}
    (hopen : ∀ attempt, session.attempts[event.attempt_id]? = some attempt →
      attempt.status ∉ TERMINAL_PAGE_STATES) : Frozen session (left.add_event event) := by
  intro id attempt hheld hterminal
  obtain ⟨hkept, hlog⟩ := hfrozen id attempt hheld hterminal
  rw [log_add_event_of_ne]
  · exact ⟨hkept, hlog⟩
  · rintro rfl
    exact hopen attempt hheld hterminal

theorem frozen_leaves (hordered : session.Ordered) (hleaves : Leaves session call left) :
    Frozen session left := by
  cases hleaves with
  | refused call hencodes => exact .refl session
  | created utcnow hpayload =>
      refine (frozen_add_attempt _).add_event fun attempt hheld => ?_
      exact absurd (lt_of_held hheld) (lt_irrefl session.attempts.length)
  | unlogged utcnow hencodes => exact frozen_add_attempt _
  | moved utcnow hheld hopens hpayload =>
      refine .add_event (frozen_put hordered hheld (moved_id _ _ _) hopens.1) fun found hfound => ?_
      simp only [PageAttempt.event, PageAttempt.moved, hordered.placed _ _ hheld] at hfound
      rw [← Option.some.inj (hheld.symm.trans hfound)]
      exact hopens.1
  | untold utcnow hheld hopens hencodes => exact frozen_put hordered hheld rfl hopens.1
  | attached invocation_id utcnow hheld hopen => exact frozen_put hordered hheld rfl hopen

theorem run_append (before after : List (Call Time)) :
    Session.run (before ++ after) = after.foldl Session.perform (Session.run before) :=
  List.foldl_append

theorem frozen_run (before after : List (Call Time)) :
    Frozen (Session.run before) (Session.run (before ++ after)) := by
  induction after using List.reverseRecOn with
  | nil =>
      rw [List.append_nil]
      exact .refl _
  | append_singleton after call ih =>
      rw [← List.append_assoc, run_append (before ++ after)]
      exact ih.trans (frozen_leaves (ordered_run _) (perform_leaves _ call))

end Frozen

section Evidence

theorem attested_created (creation : Creation Time) (id : UUID) (payload : Payload)
    (occurred_at : Time) :
    Attested (.created creation id occurred_at)
      [(PageAttempt.created creation id occurred_at).first_event creation payload occurred_at] where
  counted := rfl
  numbered := rfl
  latest := rfl
  begun := rfl
  chained := .singleton _
  completed := by
    unfold PageAttempt.created
    split <;> simp [*]

namespace Attested

variable {attempt : PageAttempt Time} {log : List (PageAttemptTransitionEvent Time)}

theorem ne_nil (hattested : Attested attempt log) : log ≠ [] := by
  rintro rfl
  cases hattested.latest

theorem moved (hattested : Attested attempt log) {transition : Transition Time}
    (hopens : attempt.Opens transition.target) (payload : Payload) (occurred_at : Time) :
    Attested (attempt.moved transition occurred_at)
      (log ++ [(attempt.moved transition occurred_at).event attempt.status transition payload
        occurred_at]) where
  counted := by
    rw [List.length_append, ← hattested.counted]
    rfl
  numbered := by
    rw [List.map_append, hattested.numbered, List.length_append, List.length_singleton,
      List.range'_1_concat, ← hattested.counted, Nat.add_comm 1]
    rfl
  latest := by
    rw [List.getLast?_concat]
    rfl
  begun := by
    rw [List.head?_append_of_ne_nil log hattested.ne_nil]
    exact hattested.begun
  chained := by
    refine List.isChain_append.mpr ⟨hattested.chained, .singleton _, ?_⟩
    rintro last hlast event ⟨⟩
    have hlatest := hattested.latest
    rw [Option.mem_def.mp hlast] at hlatest
    have hstatus : last.current_state = attempt.status := Option.some.inj hlatest
    refine ⟨congrArg some hstatus.symm, ?_⟩
    rw [hstatus]
    exact hopens.2
  completed := by
    have hrunning := mt hattested.completed.mp hopens.1
    unfold PageAttempt.moved
    by_cases htarget : transition.target ∈ TERMINAL_PAGE_STATES
    · simp [htarget]
    · simp [htarget, hrunning]

-- The evidence is about the state of an attempt and nothing else of it.
theorem of_same_state (hattested : Attested attempt log) {changed : PageAttempt Time}
    (hsequence : changed.event_sequence = attempt.event_sequence)
    (hstatus : changed.status = attempt.status)
    (hcompleted : changed.completed_at = attempt.completed_at) : Attested changed log where
  counted := hsequence.trans hattested.counted
  numbered := hattested.numbered
  latest := hstatus ▸ hattested.latest
  begun := hattested.begun
  chained := hattested.chained
  completed := by
    rw [hcompleted, hstatus]
    exact hattested.completed

end Attested

variable {session left : Session Time} {call : Call Time}

theorem evidenced_created (hordered : session.Ordered) (hevidenced : session.Evidenced)
    (creation : Creation Time) (payload : Payload) (occurred_at : Time) :
    ((session.add_attempt (.created creation session.attempts.length occurred_at)).add_event
      ((PageAttempt.created creation session.attempts.length occurred_at).first_event creation
        payload occurred_at)).Evidenced := by
  intro id attempt hheld
  rw [attempts_add_event, get?_add_attempt] at hheld
  split at hheld
  · rename_i hid
    cases hheld
    subst hid
    have hid : ((PageAttempt.created creation session.attempts.length occurred_at).first_event
        creation payload occurred_at).attempt_id = session.attempts.length := rfl
    rw [log_add_event hid, log_add_attempt, hordered.log_length]
    exact attested_created creation _ payload occurred_at
  · rename_i hid
    rw [log_add_event_of_ne (Ne.symm hid), log_add_attempt]
    exact hevidenced id attempt hheld

theorem not_evidenced_unlogged (hordered : session.Ordered) (creation : Creation Time)
    (occurred_at : Time) :
    ¬(session.add_attempt (.created creation session.attempts.length occurred_at)).Evidenced := by
  intro hevidenced
  have hattested := hevidenced session.attempts.length _ (by rw [get?_add_attempt, if_pos rfl])
  have hcounted := hattested.counted
  rw [log_add_attempt, hordered.log_length] at hcounted
  cases hcounted

theorem evidenced_moved (hordered : session.Ordered) (hevidenced : session.Evidenced) {id : UUID}
    {attempt : PageAttempt Time} (hheld : session.attempts[id]? = some attempt)
    {transition : Transition Time} (hopens : attempt.Opens transition.target) (payload : Payload)
    (occurred_at : Time) :
    ((session.put (attempt.moved transition occurred_at)).add_event
      ((attempt.moved transition occurred_at).event attempt.status transition payload
        occurred_at)).Evidenced := by
  have hid := hordered.placed id attempt hheld
  intro other found hfound
  rw [attempts_add_event, get?_put _ hheld ((moved_id _ _ _).trans hid)] at hfound
  split at hfound
  · rename_i hother
    cases hfound
    subst hother
    rw [log_add_event hid, log_put]
    exact (hevidenced _ attempt hheld).moved hopens payload occurred_at
  · rename_i hother
    rw [log_add_event_of_ne fun hsame => hother (hsame.symm.trans hid), log_put]
    exact hevidenced other found hfound

theorem not_evidenced_untold (hordered : session.Ordered) (hevidenced : session.Evidenced)
    {id : UUID} {attempt : PageAttempt Time} (hheld : session.attempts[id]? = some attempt)
    (transition : Transition Time) (occurred_at : Time) :
    ¬(session.put (attempt.moved transition occurred_at)).Evidenced := by
  intro hbroken
  have hid := hordered.placed id attempt hheld
  have hattested := hbroken id _ (by rw [get?_put _ hheld ((moved_id _ _ _).trans hid), if_pos rfl])
  have hcounted := (hevidenced id attempt hheld).counted
  exact Nat.succ_ne_self _ (hattested.counted.trans hcounted.symm)

theorem evidenced_attached (hordered : session.Ordered) (hevidenced : session.Evidenced)
    {id : UUID} {attempt : PageAttempt Time} (hheld : session.attempts[id]? = some attempt)
    (invocation_id : UUID) (utcnow : Time) :
    (session.put (attempt.attached invocation_id utcnow)).Evidenced := by
  intro other found hfound
  rw [get?_put (attempt.attached invocation_id utcnow) hheld (hordered.placed id attempt hheld)]
    at hfound
  rw [log_put]
  split at hfound
  · rename_i hother
    cases hfound
    subst hother
    exact (hevidenced _ attempt hheld).of_same_state rfl rfl rfl
  · exact hevidenced other found hfound

-- One call keeps the evidence exactly when its payload is encoded.
theorem evidenced_leaves_iff (hordered : session.Ordered) (hevidenced : session.Evidenced)
    (hleaves : Leaves session call left) : left.Evidenced ↔ Encodes session call := by
  cases hleaves with
  | refused call hencodes => exact iff_of_true hevidenced hencodes
  | created utcnow hpayload =>
      refine iff_of_true (evidenced_created hordered hevidenced _ _ _) fun _ => ?_
      rw [hpayload]
      rfl
  | unlogged utcnow hencodes =>
      exact iff_of_false (not_evidenced_unlogged hordered _ _) hencodes
  | moved utcnow hheld hopens hpayload =>
      refine iff_of_true (evidenced_moved hordered hevidenced hheld hopens _ _) fun _ _ _ => ?_
      rw [hpayload]
      rfl
  | untold utcnow hheld hopens hencodes =>
      exact iff_of_false (not_evidenced_untold hordered hevidenced hheld _ _) hencodes
  | attached invocation_id utcnow hheld hopen =>
      exact iff_of_true (evidenced_attached hordered hevidenced hheld _ _) trivial

end Evidence

section Runs

theorem evidenced_nil : (Session.run ([] : List (Call Time))).Evidenced := by
  intro id attempt hheld
  cases hheld

theorem run_concat (calls : List (Call Time)) (call : Call Time) :
    Session.run (calls ++ [call]) = (Session.run calls).perform call := run_append calls [call]

theorem evidenced_run (calls : List (Call Time))
    (hencodes : ∀ before call after, calls = before ++ call :: after →
      Encodes (Session.run before) call) : (Session.run calls).Evidenced := by
  induction calls using List.reverseRecOn with
  | nil => exact evidenced_nil
  | append_singleton calls call ih =>
      rw [run_concat]
      refine (evidenced_leaves_iff (ordered_run calls) (ih ?_) (perform_leaves _ call)).mpr
        (hencodes calls call [] rfl)
      rintro before earlier after rfl
      exact hencodes before earlier (after ++ [call]) (by simp)

theorem lifecycle_evidenced_iff (calls : List (Call Time)) :
    Lifecycle calls ↔ ∀ before call after, calls = before ++ call :: after →
      Encodes (Session.run before) call := by
  constructor
  · rintro ⟨hevidenced, -⟩ before call after rfl
    have hbefore := hevidenced before (call :: after) rfl
    have hafter := hevidenced (before ++ [call]) after (by simp)
    rw [run_concat] at hafter
    exact (evidenced_leaves_iff (ordered_run before) hbefore (perform_leaves _ call)).mp hafter
  · intro hencodes
    refine ⟨?_, fun before middle after _ => frozen_run before middle⟩
    rintro before after rfl
    refine evidenced_run before ?_
    rintro earlier call later rfl
    exact hencodes earlier call (later ++ after) (by simp)

end Runs

section Oversized

def upload : Creation ℕ where
  tenant_id := 1
  page_id := 2
  attempt_number := 1
  trigger := "analysis"
  initial_state := .UPLOADED
  route := "native"
  route_profile := "default"
  route_policy_version := "v4"
  max_attempts := 1

-- The payload of the transition holds a value that JSON does not have.
def scan : Transition ℕ where
  target := .SECURITY_SCANNING
  reason := "scan"
  payload := some (Dict.empty.set "deadline" .foreign)

theorem refused_payload_moves_status :
    ¬Lifecycle [Call.create upload 10, .transition 0 scan 20] := by
  rintro ⟨hevidenced, -⟩
  have hattested := hevidenced [Call.create upload 10, .transition 0 scan 20] [] rfl 0
    ((PageAttempt.created upload 0 10).moved scan 20) rfl
  cases hattested.counted

end Oversized

end KnowledgeCompiler.Service
