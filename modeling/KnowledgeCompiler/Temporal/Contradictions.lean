import KnowledgeCompiler.Lib.Method
import KnowledgeCompiler.Lib.Lists
import KnowledgeCompiler.Temporal.Timeline
import Mathlib.Algebra.Order.Ring.Int

namespace KnowledgeCompiler.Temporal

open Lib

namespace TemporalFact

-- `datetime.min.replace(tzinfo=...)`, by the offset of the zone.
def earliest (utcoffset : Option ℤ) (offset_range : ∀ offset ∈ utcoffset, offset.natAbs < 86400000000) :
    Datetime where
  year := 1
  month := 1
  day := 1
  hour := 0
  minute := 0
  second := 0
  microsecond := 0
  utcoffset := utcoffset
  year_range := by decide
  month_range := Datetime.month_1
  day_range := by decide
  time_range := Datetime.midnight
  offset_range := offset_range

def _open_start (fact : TemporalFact) : Datetime :=
  match fact.valid_to with
  | some valid_to => earliest valid_to.utcoffset valid_to.offset_range
  | none => earliest none (by simp)

def start (fact : TemporalFact) : Datetime := fact.valid_from.getD fact._open_start

-- A window that begins there begins before the other one's end.
def clears (begins : Datetime) (ends : Option Datetime) : Except String Bool :=
  match ends with
  | none => .ok true
  | some ends => begins.lt? ends

def _windows_overlap (left right : TemporalFact) : Except String Bool := do
  if !left.validity_known || !right.validity_known then
    return false
  let left_clears_right ← clears right.start left.valid_to
  let right_clears_left ← clears left.start right.valid_to
  return left_clears_right && right_clears_left

-- What the loop asks of a pair.
def contradicts (pair : TemporalFact × TemporalFact) : Except String Bool :=
  if pair.1.logical_id ≠ pair.2.logical_id then .ok false
  else if pair.1.value = pair.2.value then .ok false
  else if pair.1.superseded_at.isSome || pair.2.superseded_at.isSome then .ok false
  else _windows_overlap pair.1 pair.2

end TemporalFact

namespace TemporalTimeline

variable (timeline : TemporalTimeline) (logical_id : Option String)

def candidates : List TemporalFact :=
  timeline.facts.filter fun fact => logical_id.all (fact.logical_id = ·)

def contradicting_pairs : Except String (List (TemporalFact × TemporalFact)) :=
  select TemporalFact.contradicts (pairs (timeline.candidates logical_id))

def contradictions : Except String (List (String × String × String)) :=
  (timeline.contradicting_pairs logical_id).map
    (·.map fun pair => (pair.1.logical_id, pair.1.value, pair.2.value))

end TemporalTimeline

namespace TemporalFact

-- Two facts that speak of one thing differently, both in force.
structure AtIssue (left right : TemporalFact) : Prop where
  same_subject : left.logical_id = right.logical_id
  values_differ : left.value ≠ right.value
  left_stands : left.superseded_at = none
  right_stands : right.superseded_at = none
  left_known : left.validity_known = true
  right_known : right.validity_known = true

structure Contradicting (left right : TemporalFact) : Prop extends AtIssue left right where
  instant : ∃ moment, left.valid_at moment = .ok true ∧ right.valid_at moment = .ok true

-- The window ends where it begins, strictly within the other one.
def Standstill (inner outer : TemporalFact) : Prop :=
  ∃ begins ends, inner.valid_from = some begins ∧ inner.valid_to = some ends ∧
    begins.instant = ends.instant ∧ outer.start.instant < begins.instant ∧
    ∀ finish ∈ outer.valid_to, begins.instant < finish.instant

-- What stands for the start of an open window comes before the end of any window with a moment.
def Reaches (begun other : TemporalFact) : Prop :=
  begun.valid_from = none → (∃ moment, other.valid_at moment = .ok true) →
    ∀ ends ∈ other.valid_to, begun._open_start.instant < ends.instant

structure Decided (left right : TemporalFact) : Prop where
  one_clock : left.start.utcoffset.isNone = right.start.utcoffset.isNone
  left_moves : ¬Standstill left right
  right_moves : ¬Standstill right left
  left_reaches : Reaches left right
  right_reaches : Reaches right left

section Overlap

variable {fact left right : TemporalFact}

theorem bound_of_known (hknown : fact.validity_known = true) :
    fact.valid_from ≠ none ∨ fact.valid_to ≠ none := by
  simp only [validity_known, Bool.and_eq_true, Bool.or_eq_true, Option.isSome_iff_ne_none] at hknown
  exact hknown.2

theorem lt?_eq_ok_iff {first second : Datetime} {answer : Bool} :
    first.lt? second = .ok answer ↔
      first.utcoffset.isNone = second.utcoffset.isNone ∧ answer = decide (first.instant < second.instant) := by
  unfold Datetime.lt?
  split
  · rename_i hclock
    simp [hclock, eq_comm]
  · rename_i hclock
    simp [hclock]

-- Both bounds of a window are read on one clock.
theorem clock_of_valid_to {ends : Datetime} (hends : fact.valid_to = some ends) :
    ends.utcoffset.isNone = fact.start.utcoffset.isNone := by
  unfold start
  cases hfrom : fact.valid_from with
  | none => simp [_open_start, hends, earliest]
  | some begins => exact lt?_answers (fact.valid_in_order begins ends hfrom hends)

theorem in_order {begins ends : Datetime} (hfrom : fact.valid_from = some begins)
    (hends : fact.valid_to = some ends) : begins.instant ≤ ends.instant := by
  have horder := (lt?_eq_ok_iff.mp (fact.valid_in_order begins ends hfrom hends)).2
  simpa using horder.symm

theorem earliest_le (moment : Datetime) :
    (earliest moment.utcoffset moment.offset_range).instant ≤ moment.instant := by
  have hday := moment.day_range.1
  simp only [Datetime.instant, earliest]
  have hfirst : Datetime.daysBeforeYear 1 = 0 := rfl
  simp only [hfirst, Nat.sub_self, List.range_zero, List.map_nil, List.sum_nil]
  omega

theorem open_start_le {ends : Datetime} (hends : fact.valid_to = some ends) :
    fact._open_start.instant ≤ ends.instant := by
  simp only [_open_start, hends]
  exact earliest_le ends

theorem start_eq {begins : Datetime} (hfrom : fact.valid_from = some begins) : fact.start = begins := by
  simp [start, hfrom]

theorem start_of_open (hfrom : fact.valid_from = none) : fact.start = fact._open_start := by
  simp [start, hfrom]

theorem both_iff {ε : Type} {first second : Except ε Bool} :
    (do let a ← first; let b ← second; pure (a && b)) = .ok true ↔
      first = .ok true ∧ second = .ok true := by
  cases first with
  | error error => simp [bind, Except.bind]
  | ok a => cases second <;> simp [bind, Except.bind, pure, Except.pure]

theorem not_before_iff (moment begins : Datetime) :
    (moment.lt? begins).map not = .ok true ↔
      begins.utcoffset.isNone = moment.utcoffset.isNone ∧ begins.instant ≤ moment.instant := by
  cases hlt : moment.lt? begins with
  | error message =>
      simp only [Except.map, reduceCtorEq, false_iff]
      rintro ⟨hclock, _⟩
      obtain ⟨answer, hanswer⟩ := exists_lt? hclock.symm
      rw [hanswer] at hlt
      cases hlt
  | ok answer =>
      obtain ⟨hclock, rfl⟩ := lt?_eq_ok_iff.mp hlt
      simp [Except.map, hclock]

def begun (moment : Datetime) : Option Datetime → Except String Bool
  | none => .ok true
  | some begins => (moment.lt? begins).map not

def not_ended (moment : Datetime) : Option Datetime → Except String Bool
  | none => .ok true
  | some ends => moment.lt? ends

theorem valid_at_eq (moment : Datetime) :
    fact.valid_at moment =
      (do let a ← begun moment fact.valid_from; let b ← not_ended moment fact.valid_to; pure (a && b)) := by
  unfold valid_at within
  cases fact.valid_from <;> cases fact.valid_to <;> rfl

theorem valid_at_iff (moment : Datetime) :
    fact.valid_at moment = .ok true ↔
      (∀ begins ∈ fact.valid_from, begins.utcoffset.isNone = moment.utcoffset.isNone ∧
        begins.instant ≤ moment.instant) ∧
      (∀ ends ∈ fact.valid_to, moment.utcoffset.isNone = ends.utcoffset.isNone ∧
        moment.instant < ends.instant) := by
  rw [valid_at_eq, both_iff]
  refine and_congr ?_ ?_
  · cases hfrom : fact.valid_from with
    | none => simp [begun]
    | some begins => simpa [begun] using not_before_iff moment begins
  · cases hto : fact.valid_to with
    | none => simp [not_ended]
    | some ends => simp [not_ended, lt?_eq_ok_iff]

theorem valid_at_clock {moment : Datetime} (hknown : fact.validity_known = true)
    (hvalid : fact.valid_at moment = .ok true) :
    moment.utcoffset.isNone = fact.start.utcoffset.isNone := by
  obtain ⟨hfrom, hto⟩ := (valid_at_iff moment).mp hvalid
  cases hbegins : fact.valid_from with
  | some begins =>
      rw [start_eq hbegins]
      exact (hfrom begins hbegins).1.symm
  | none =>
      obtain ⟨ends, hends⟩ := Option.ne_none_iff_exists'.mp
        ((bound_of_known hknown).resolve_left (absurd hbegins))
      exact (hto ends hends).1.trans (clock_of_valid_to hends)

-- On one clock a window holds the moments from its start on, if it has one, to before its end.
theorem valid_at_of_clock {moment : Datetime}
    (hclock : moment.utcoffset.isNone = fact.start.utcoffset.isNone)
    (hbegun : ∀ begins ∈ fact.valid_from, begins.instant ≤ moment.instant)
    (hgoing : ∀ ends ∈ fact.valid_to, moment.instant < ends.instant) :
    fact.valid_at moment = .ok true := by
  refine (valid_at_iff moment).mpr ⟨fun begins hbegins => ⟨?_, hbegun begins hbegins⟩,
    fun ends hends => ⟨?_, hgoing ends hends⟩⟩
  · rw [hclock, start_eq hbegins]
  · rw [hclock, clock_of_valid_to hends]

def Clear (begins : Datetime) (ends : Option Datetime) : Prop :=
  ∀ finish ∈ ends, begins.instant < finish.instant

instance (begins : Datetime) (ends : Option Datetime) : Decidable (Clear begins ends) :=
  inferInstanceAs (Decidable (∀ finish ∈ ends, begins.instant < finish.instant))

theorem clears_of_clock {begins : Datetime} {ends : Option Datetime}
    (hclock : ∀ finish ∈ ends, begins.utcoffset.isNone = finish.utcoffset.isNone) :
    clears begins ends = .ok (decide (Clear begins ends)) := by
  cases ends with
  | none => simp [clears, Clear]
  | some finish => exact lt?_eq_ok_iff.mpr ⟨hclock finish rfl, by simp [Clear]⟩

theorem overlap_of_clock (hclock : left.start.utcoffset.isNone = right.start.utcoffset.isNone)
    (hleft : left.validity_known = true) (hright : right.validity_known = true) :
    _windows_overlap left right =
      .ok (decide (Clear right.start left.valid_to ∧ Clear left.start right.valid_to)) := by
  have hfirst := @clears_of_clock right.start left.valid_to fun finish hfinish =>
    hclock.symm.trans (clock_of_valid_to hfinish).symm
  have hsecond := @clears_of_clock left.start right.valid_to fun finish hfinish =>
    hclock.trans (clock_of_valid_to hfinish).symm
  simp [_windows_overlap, hleft, hright, hfirst, hsecond, bind, Except.bind, pure, Except.pure]

-- Across two clocks the answer, if there is one, is yes.
theorem overlap_across_clocks
    (hclock : ¬left.start.utcoffset.isNone = right.start.utcoffset.isNone)
    (hleft : left.validity_known = true) (hright : right.validity_known = true) {answer : Bool}
    (hanswer : _windows_overlap left right = .ok answer) : answer = true := by
  have hopen {first second : TemporalFact} {passed : Bool}
      (hstarts : ¬first.start.utcoffset.isNone = second.start.utcoffset.isNone)
      (hclears : clears first.start second.valid_to = .ok passed) : passed = true := by
    cases hends : second.valid_to with
    | none =>
        rw [hends] at hclears
        cases hclears
        rfl
    | some ends =>
        rw [hends] at hclears
        exact absurd ((lt?_answers hclears).trans (clock_of_valid_to hends)) hstarts
  simp only [_windows_overlap, hleft, hright, Bool.not_true, Bool.or_self, Bool.false_eq_true,
    if_false] at hanswer
  obtain ⟨first, hfirst, hrest⟩ := Method.of_bind_eq_ok hanswer
  obtain ⟨second, hsecond, hpure⟩ := Method.of_bind_eq_ok hrest
  cases hpure
  rw [hopen (fun hsame => hclock hsame.symm) hfirst, hopen hclock hsecond]
  rfl

def SharesMoment (left right : TemporalFact) : Prop :=
  ∃ moment, left.valid_at moment = .ok true ∧ right.valid_at moment = .ok true

theorem SharesMoment.symm (hshares : SharesMoment left right) : SharesMoment right left := by
  obtain ⟨moment, hleft, hright⟩ := hshares
  exact ⟨moment, hright, hleft⟩

-- A start that is not before the end it is clear of stands still within the other window.
theorem moves_on {begins ends : Datetime} (hfrom : left.valid_from = some begins)
    (hto : left.valid_to = some ends) (hmoves : ¬Standstill left right)
    (hleft : Clear right.start left.valid_to) (hright : Clear left.start right.valid_to) :
    begins.instant < ends.instant := by
  rcases (in_order hfrom hto).lt_or_eq with hlt | heq
  · exact hlt
  · refine absurd ⟨begins, ends, hfrom, hto, heq, ?_, ?_⟩ hmoves
    · rw [heq]
      exact hleft ends hto
    · intro finish hfinish
      rw [← start_eq hfrom]
      exact hright finish hfinish

-- The later start is a moment of both windows, the earlier of two stand-ins likewise.
theorem shares_of_clear (hclock : left.start.utcoffset.isNone = right.start.utcoffset.isNone)
    (hmoves : ¬Standstill left right)
    (hlate : ∀ begins ∈ right.valid_from, begins.instant ≤ left.start.instant)
    (hopen : left.valid_from = none → left.start.instant ≤ right.start.instant)
    (hleft : Clear right.start left.valid_to) (hright : Clear left.start right.valid_to) :
    SharesMoment left right := by
  refine ⟨left.start, valid_at_of_clock rfl ?_ ?_, valid_at_of_clock hclock hlate hright⟩
  · intro begins hbegins
    rw [start_eq hbegins]
  · intro ends hends
    cases hfrom : left.valid_from with
    | none => exact (hopen hfrom).trans_lt (hleft ends hends)
    | some begins =>
        rw [start_eq hfrom]
        exact moves_on hfrom hends hmoves hleft hright

theorem shares_of_overlap (hdecided : Decided left right) (hleft : Clear right.start left.valid_to)
    (hright : Clear left.start right.valid_to) : SharesMoment left right := by
  have hclock := hdecided.one_clock
  cases hlf : left.valid_from with
  | none =>
      cases hrf : right.valid_from with
      | none =>
          rcases le_total left.start.instant right.start.instant with hle | hle
          · exact shares_of_clear hclock hdecided.left_moves (by simp [hrf]) (fun _ => hle) hleft hright
          · exact (shares_of_clear hclock.symm hdecided.right_moves (by simp [hlf]) (fun _ => hle) hright
              hleft).symm
      | some begins =>
          exact (shares_of_clear hclock.symm hdecided.right_moves (by simp [hlf]) (by simp [hrf]) hright
            hleft).symm
  | some begins =>
      cases hrf : right.valid_from with
      | none =>
          exact shares_of_clear hclock hdecided.left_moves (by simp [hrf]) (by simp [hlf]) hleft hright
      | some starts =>
          rcases le_total starts.instant begins.instant with hle | hle
          · refine shares_of_clear hclock hdecided.left_moves ?_ (by simp [hlf]) hleft hright
            rw [start_eq hlf]
            simpa [hrf] using hle
          · refine (shares_of_clear hclock.symm hdecided.right_moves ?_ (by simp [hrf]) hright hleft).symm
            rw [start_eq hrf]
            simpa [hlf] using hle

-- Where a moment is shared, the stand-in is the only start that may come too late.
theorem clear_of_shares (hreaches : Reaches left right) (hshares : SharesMoment left right) :
    Clear left.start right.valid_to := by
  intro ends hends
  obtain ⟨moment, hleft, hright⟩ := hshares
  have hbefore := (((valid_at_iff moment).mp hright).2 ends hends).2
  cases hfrom : left.valid_from with
  | none =>
      rw [start_of_open hfrom]
      exact hreaches hfrom ⟨moment, hright⟩ ends hends
  | some begins =>
      rw [start_eq hfrom]
      exact (((valid_at_iff moment).mp hleft).1 begins hfrom).2.trans_lt hbefore

theorem not_shares_of_standstill (hstill : Standstill left right) : ¬SharesMoment left right := by
  obtain ⟨begins, ends, hfrom, hto, heq, _, _⟩ := hstill
  rintro ⟨moment, hleft, _⟩
  obtain ⟨hbegun, hgoing⟩ := (valid_at_iff moment).mp hleft
  have hfirst := (hbegun begins hfrom).2
  have hlast := (hgoing ends hto).2
  omega

theorem clear_of_standstill (hstill : Standstill left right) :
    Clear right.start left.valid_to ∧ Clear left.start right.valid_to := by
  obtain ⟨begins, ends, hfrom, hto, heq, hafter, hbefore⟩ := hstill
  refine ⟨?_, fun finish hfinish => ?_⟩
  · intro finish hfinish
    cases hto.symm.trans hfinish
    omega
  · rw [start_eq hfrom]
    exact hbefore finish hfinish

-- A window that is over before the stand-in lies within the open one all the same.
theorem reaches_of_overlap (hclock : left.start.utcoffset.isNone = right.start.utcoffset.isNone)
    (hright : right.validity_known = true)
    (hclear : SharesMoment left right → Clear left.start right.valid_to) : Reaches left right := by
  intro hfrom hoccurs ends hends
  rw [← start_of_open hfrom]
  by_contra hlate
  obtain ⟨moment, hmoment⟩ := hoccurs
  have hbefore := (((valid_at_iff moment).mp hmoment).2 ends hends).2
  have hshares : SharesMoment left right := by
    refine ⟨moment, valid_at_of_clock ?_ (by simp [hfrom]) ?_, hmoment⟩
    · rw [valid_at_clock hright hmoment, hclock]
    · intro finish hfinish
      have hstart := open_start_le hfinish
      rw [start_of_open hfrom] at hlate
      omega
  exact hlate (hclear hshares ends hends)

theorem overlap_exact_iff (hleft : left.validity_known = true) (hright : right.validity_known = true)
    [Decidable (SharesMoment left right)] :
    _windows_overlap left right = .ok (decide (SharesMoment left right)) ↔ Decided left right := by
  by_cases hclock : left.start.utcoffset.isNone = right.start.utcoffset.isNone
  · rw [overlap_of_clock hclock hleft hright, Except.ok.injEq, decide_eq_decide]
    constructor
    · intro hiff
      refine ⟨hclock, ?_, ?_, ?_, ?_⟩
      · intro hstill
        exact not_shares_of_standstill hstill (hiff.mp (clear_of_standstill hstill))
      · intro hstill
        exact not_shares_of_standstill hstill (hiff.mp (clear_of_standstill hstill).symm).symm
      · exact reaches_of_overlap hclock hright fun hshares => (hiff.mpr hshares).2
      · exact reaches_of_overlap hclock.symm hleft fun hshares => (hiff.mpr hshares.symm).1
    · intro hdecided
      constructor
      · rintro ⟨hfirst, hsecond⟩
        exact shares_of_overlap hdecided hfirst hsecond
      · intro hshares
        exact ⟨clear_of_shares hdecided.right_reaches hshares.symm,
          clear_of_shares hdecided.left_reaches hshares⟩
  · constructor
    · intro hanswer
      have hshares := of_decide_eq_true (overlap_across_clocks hclock hleft hright hanswer)
      obtain ⟨moment, hfirst, hsecond⟩ := hshares
      exact absurd ((valid_at_clock hleft hfirst).symm.trans (valid_at_clock hright hsecond)) hclock
    · intro hdecided
      exact absurd hdecided.one_clock hclock

theorem contradicts_exact_iff [Decidable (Contradicting left right)] :
    contradicts (left, right) = .ok (decide (Contradicting left right)) ↔
      (AtIssue left right → Decided left right) := by
  have hnot (hissue : ¬AtIssue left right) : ¬Contradicting left right :=
    fun hcontradicting => hissue hcontradicting.toAtIssue
  by_cases hissue : AtIssue left right
  · have hshared : Contradicting left right ↔ SharesMoment left right :=
      ⟨fun hcontradicting => hcontradicting.instant, fun hshares => ⟨hissue, hshares⟩⟩
    have hanswer : contradicts (left, right) = _windows_overlap left right := by
      simp [contradicts, hissue.same_subject, hissue.values_differ, hissue.left_stands,
        hissue.right_stands]
    have : Decidable (SharesMoment left right) := decidable_of_iff _ hshared
    rw [hanswer, decide_eq_decide.mpr hshared, overlap_exact_iff hissue.left_known hissue.right_known]
    exact ⟨fun hdecided _ => hdecided, fun hdecided => hdecided hissue⟩
  · have hanswer : contradicts (left, right) = .ok false := by
      unfold contradicts
      split
      · rfl
      split
      · rfl
      split
      · rfl
      rename_i hsubject hvalue hstands
      simp only [Bool.or_eq_true, not_or, Option.not_isSome_iff_eq_none, not_not] at hsubject hstands
      have hunknown : (!left.validity_known || !right.validity_known) = true := by
        by_contra hknown
        simp only [Bool.or_eq_true, Bool.not_eq_true', not_or, Bool.not_eq_false] at hknown
        exact hissue ⟨hsubject, hvalue, hstands.1, hstands.2, hknown.1, hknown.2⟩
      simp [_windows_overlap, hunknown]
      rfl
    simp [hanswer, hnot hissue, hissue]

end Overlap

end TemporalFact

namespace TemporalTimeline

open TemporalFact

open Classical in
-- The pairs that contradict each other are reported, and no others.
def ReportsContradictions (timeline : TemporalTimeline) (logical_id : Option String) : Prop :=
  timeline.contradicting_pairs logical_id =
    .ok ((pairs (timeline.candidates logical_id)).filter fun pair => Contradicting pair.1 pair.2)

theorem reports_contradictions_iff (timeline : TemporalTimeline) (logical_id : Option String) :
    timeline.ReportsContradictions logical_id ↔
      ∀ pair ∈ pairs (timeline.candidates logical_id),
        AtIssue pair.1 pair.2 → Decided pair.1 pair.2 := by
  classical
  apply select_exact_iff.trans
  exact forall₂_congr fun pair _ => contradicts_exact_iff

open Classical in
-- What `contradictions` returns is then the subject and the two values of each pair.
theorem ReportsContradictions.contradictions {timeline : TemporalTimeline} {logical_id : Option String}
    (hreports : timeline.ReportsContradictions logical_id) : timeline.contradictions logical_id =
      .ok (((pairs (timeline.candidates logical_id)).filter fun pair => Contradicting pair.1 pair.2).map
        fun pair => (pair.1.logical_id, pair.1.value, pair.2.value)) := by
  rw [TemporalTimeline.contradictions, hreports]
  rfl

-- Midnight of a day of January 2024.
def january (day : ℕ) (hday : 1 ≤ day ∧ day ≤ 31) : Datetime where
  year := 2024
  month := 1
  day := day
  hour := 0
  minute := 0
  second := 0
  microsecond := 0
  utcoffset := some 0
  year_range := Datetime.year_2024
  month_range := Datetime.month_1
  day_range := hday
  time_range := Datetime.midnight
  offset_range := Datetime.offset_none

def limit_fact (value : String) (begins ends : Datetime) (horder : ends.lt? begins = .ok false) :
    TemporalFact where
  logical_id := "limit"
  value := value
  valid_from := some begins
  valid_to := some ends
  temporal_source := .EXPLICIT
  valid_in_order := by
    rintro _ _ ⟨⟩ ⟨⟩
    exact horder
  known_in_order := inOrder_none
  dated := by simp

-- The one limit was in force from the fifth to the fifth, the other from the first to the tenth.
def withdrawn_at_once : TemporalTimeline where
  facts := [
    limit_fact "5" (january 5 (by decide)) (january 5 (by decide)) (by decide),
    limit_fact "9" (january 1 Datetime.day_1) (january 10 (by decide)) (by decide)]

theorem empty_window_reported : ¬withdrawn_at_once.ReportsContradictions none := by
  classical
  intro hreports
  have hpair := select_exact_iff.mp hreports _ (List.mem_cons_self ..)
  have hanswer : contradicts (
      limit_fact "5" (january 5 (by decide)) (january 5 (by decide)) (by decide),
      limit_fact "9" (january 1 Datetime.day_1) (january 10 (by decide)) (by decide)) = .ok true := by
    decide
  have hcontradicting := of_decide_eq_true (Except.ok.inj (hpair.symm.trans hanswer))
  refine not_shares_of_standstill ⟨_, _, rfl, rfl, rfl, ?_, ?_⟩ hcontradicting.instant
  · decide
  · decide

end TemporalTimeline

end KnowledgeCompiler.Temporal
