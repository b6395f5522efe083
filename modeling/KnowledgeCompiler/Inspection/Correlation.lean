import KnowledgeCompiler.Lib.Binary64.Order
import KnowledgeCompiler.Lib.Datetime
import KnowledgeCompiler.Lib.Dict
import KnowledgeCompiler.Lib.Method
import Mathlib.Data.Finset.Max

namespace KnowledgeCompiler.Inspection

open Lib

inductive SourceScope
  | PAGE
  | DOCUMENT
  | WORKSPACE
  | TENANT
  | PROVIDER
deriving DecidableEq

def _scope_rank : SourceScope → ℕ
  | .PAGE => 0
  | .DOCUMENT => 1
  | .WORKSPACE => 2
  | .TENANT => 3
  | .PROVIDER => 4

structure FailureEvent where
  failure_id : String
  source_scope : SourceScope
  signature : String
  first_seen_at : Option Datetime := none
deriving DecidableEq

-- `max` and `min`: the first item that no later one replaces.
def extreme (replaces : Datetime → Datetime → Except String Bool) :
    Datetime → List Datetime → Except String Datetime
  | best, [] => .ok best
  | best, item :: rest => do
      let replaced ← replaces item best
      extreme replaces (if replaced then item else best) rest

def latest : Datetime → List Datetime → Except String Datetime :=
  extreme fun item best => best.lt? item

def initial : Datetime → List Datetime → Except String Datetime :=
  extreme fun item best => item.lt? best

-- `timedelta.total_seconds`, of so many microseconds.
def total_seconds (micros : ℤ) : Binary64 := .of (micros / 1000000)

def widest : List FailureEvent → Except String SourceScope
  | [] => .error "max() iterable argument is empty"
  | first :: rest => .ok (rest.foldl
      (fun best event =>
        if _scope_rank best < _scope_rank event.source_scope then event.source_scope else best)
      first.source_scope)

structure Correlation where
  window_seconds : Binary64 := .of 120
  minimum_distinct_workers : ℤ := 3
  workers : Dict String String := .empty

namespace Correlation

variable (options : Correlation)

def worker (event : FailureEvent) : String :=
  (options.workers.get? event.failure_id).getD event.failure_id

def distinct (group : List FailureEvent) : Finset String := (group.map options.worker).toFinset

def simultaneous : List Datetime → Except String Bool
  | first :: second :: rest => do
      let last ← latest first (second :: rest)
      let begins ← initial first (second :: rest)
      return (total_seconds (last.instant - begins.instant)).le options.window_seconds
  | _ => .ok false

def stamps (group : List FailureEvent) : List Datetime := group.filterMap (·.first_seen_at)

def scope_of (group : List FailureEvent) : Except String SourceScope := do
  let widest ← widest group
  let simultaneous ← options.simultaneous (stamps group)
  if options.minimum_distinct_workers ≤ (options.distinct group).card && simultaneous then
    return .PROVIDER
  return widest

def by_signature (events : List FailureEvent) (signature : String) : List FailureEvent :=
  events.filter (·.signature = signature)

def correlate_failures (events : List FailureEvent) : Except String (List (String × SourceScope)) :=
  (fromkeys (events.map (·.signature))).mapM fun signature =>
    (options.scope_of (by_signature events signature)).map (signature, ·)

def in_window (begins : ℤ) (stamp : Datetime) : Bool :=
  begins ≤ stamp.instant && (total_seconds (stamp.instant - begins)).le options.window_seconds

-- Some window of the length holds stamped events of enough workers.
def Incident (group : List FailureEvent) : Prop :=
  ∃ begins, options.minimum_distinct_workers ≤
    (options.distinct (group.filter fun event =>
      event.first_seen_at.any (options.in_window begins))).card

-- The verdict on every signature is `PROVIDER` when its events make an incident, and only then.
def Correlates (events : List FailureEvent) : Prop :=
  ∃ verdict, options.correlate_failures events = .ok verdict ∧
    List.Forall₂ (fun signature entry => entry.1 = signature ∧
        (entry.2 = .PROVIDER ↔ options.Incident (by_signature events signature)))
      (fromkeys (events.map (·.signature))) verdict

-- There are two stamps at least, and all lie within one length of each other.
def Simultaneous (stamps : List Datetime) : Prop :=
  2 ≤ stamps.length ∧ ∀ begins ∈ stamps, ∀ ends ∈ stamps, begins.instant ≤ ends.instant →
    (total_seconds (ends.instant - begins.instant)).le options.window_seconds = true

def OneClock (stamps : List Datetime) : Prop :=
  ∀ first ∈ stamps, ∀ second ∈ stamps, first.utcoffset.isNone = second.utcoffset.isNone

def Claimed (group : List FailureEvent) : Prop :=
  ∃ event ∈ group, event.source_scope = .PROVIDER

-- The group's overall spread decides it rightly.
structure Readable (group : List FailureEvent) : Prop where
  one_clock : OneClock (stamps group)
  claimed : Claimed group → options.Incident group
  stamped : ¬Claimed group → options.Simultaneous (stamps group) →
    options.minimum_distinct_workers ≤ (options.distinct group).card →
      options.minimum_distinct_workers ≤
        (options.distinct (group.filter (·.first_seen_at.isSome))).card
  no_stray : ¬Claimed group → ¬options.Simultaneous (stamps group) → ¬options.Incident group

section Extremes

variable {replaces : Datetime → Datetime → Except String Bool} {key : Datetime → ℤ}

theorem extreme_of_clock
    (hreplaces : ∀ item best : Datetime, item.utcoffset.isNone = best.utcoffset.isNone →
      replaces item best = .ok (decide (key best < key item)))
    (rest : List Datetime) (best : Datetime)
    (hclock : ∀ item ∈ rest, item.utcoffset.isNone = best.utcoffset.isNone) :
    ∃ found ∈ best :: rest, extreme replaces best rest = .ok found ∧
      ∀ item ∈ best :: rest, key item ≤ key found := by
  induction rest generalizing best with
  | nil => exact ⟨best, List.mem_cons_self .., rfl, by simp⟩
  | cons item rest ih =>
      obtain ⟨hitem, hrest⟩ := List.forall_mem_cons.mp hclock
      rw [extreme, hreplaces item best hitem]
      obtain ⟨next, hnext⟩ : ∃ next, next = if decide (key best < key item) then item else best := ⟨_, rfl⟩
      have hsame : next.utcoffset.isNone = best.utcoffset.isNone := by
        rw [hnext]
        split
        · exact hitem
        · rfl
      have hkeys : key best ≤ key next ∧ key item ≤ key next := by
        rw [hnext]
        split
        · rename_i hlt
          simp only [decide_eq_true_eq] at hlt
          omega
        · rename_i hlt
          simp only [decide_eq_true_eq] at hlt
          omega
      obtain ⟨found, hmem, hfound, hall⟩ := ih next fun other hother => (hrest other hother).trans hsame.symm
      obtain ⟨hstart, hothers⟩ := List.forall_mem_cons.mp hall
      refine ⟨found, ?_, ?_, ?_⟩
      · rcases List.mem_cons.mp hmem with rfl | hlater
        · rw [hnext]
          split <;> simp
        · simp [hlater]
      · rw [hnext] at hfound
        exact hfound
      · simp only [List.forall_mem_cons]
        exact ⟨hkeys.1.trans hstart, hkeys.2.trans hstart, hothers⟩

theorem clock_of_extreme
    (hreplaces : ∀ (item best : Datetime) (answer : Bool), replaces item best = .ok answer →
      item.utcoffset.isNone = best.utcoffset.isNone)
    (rest : List Datetime) (best : Datetime) {found : Datetime}
    (hfound : extreme replaces best rest = .ok found) :
    ∀ item ∈ rest, item.utcoffset.isNone = best.utcoffset.isNone := by
  induction rest generalizing best with
  | nil => simp
  | cons item rest ih =>
      rw [extreme] at hfound
      obtain ⟨replaced, hreplaced, hrest⟩ := Method.of_bind_eq_ok hfound
      have hitem := hreplaces item best replaced hreplaced
      refine List.forall_mem_cons.mpr ⟨hitem, fun other hother => ?_⟩
      have hother := ih _ hrest other hother
      split at hother
      · exact hother.trans hitem
      · exact hother

end Extremes

theorem lt?_of_clock {first second : Datetime} (hclock : first.utcoffset.isNone = second.utcoffset.isNone) :
    first.lt? second = .ok (decide (first.instant < second.instant)) := if_pos hclock

theorem clock_of_lt? {first second : Datetime} {answer : Bool} (hanswer : first.lt? second = .ok answer) :
    first.utcoffset.isNone = second.utcoffset.isNone := by
  unfold Datetime.lt? at hanswer
  split at hanswer
  · assumption
  · cases hanswer

variable {options}

theorem simultaneous_iff {stamps : List Datetime} (hclock : OneClock stamps) :
    ∃ answer, options.simultaneous stamps = .ok answer ∧
      (answer = true ↔ options.Simultaneous stamps) := by
  match stamps with
  | [] => exact ⟨false, rfl, by simp [Simultaneous]⟩
  | [_] => exact ⟨false, rfl, by simp [Simultaneous]⟩
  | first :: second :: rest =>
      have hfirst : ∀ item ∈ second :: rest, item.utcoffset.isNone = first.utcoffset.isNone :=
        fun item hitem => hclock item (List.mem_cons_of_mem _ hitem) first (List.mem_cons_self ..)
      obtain ⟨last, hlast, hlatest, hmost⟩ := @extreme_of_clock (fun item best => best.lt? item) Datetime.instant
        (fun item best hsame => lt?_of_clock hsame.symm) (second :: rest) first hfirst
      obtain ⟨begins, hbegins, hinitial, hleast⟩ := @extreme_of_clock (fun item best => item.lt? best)
        (fun item => -item.instant)
        (fun item best hsame => (lt?_of_clock hsame).trans (by simp)) (second :: rest) first hfirst
      refine ⟨(total_seconds (last.instant - begins.instant)).le options.window_seconds, ?_, ?_⟩
      · rw [simultaneous, latest, initial, hlatest, hinitial]
        rfl
      · constructor
        · intro hwithin
          refine ⟨by simp, fun early hearly late hlate horder => ?_⟩
          have hafter := hmost late hlate
          have hbefore := hleast early hearly
          simp only [neg_le_neg_iff] at hbefore
          refine Binary64.le_of_mono ?_ ?_ hwithin
          · have hspan : (0 : ℚ) ≤ (late.instant - early.instant : ℤ) := by exact_mod_cast sub_nonneg.mpr horder
            exact div_nonneg hspan (by norm_num)
          · have hspan : late.instant - early.instant ≤ last.instant - begins.instant := by omega
            exact div_le_div_of_nonneg_right (by exact_mod_cast hspan) (by norm_num)
        · rintro ⟨_, hall⟩
          have hbefore := hleast last hlast
          exact hall begins hbegins last hlast (by simpa using hbefore)

theorem clock_of_simultaneous {stamps : List Datetime} {answer : Bool}
    (hanswer : options.simultaneous stamps = .ok answer) : OneClock stamps := by
  match stamps with
  | [] => simp [OneClock]
  | [_] => simp [OneClock]
  | first :: second :: rest =>
      rw [simultaneous] at hanswer
      obtain ⟨last, hlast, _⟩ := Method.of_bind_eq_ok hanswer
      have hfirst := clock_of_extreme
        (fun item best _ hitem => (clock_of_lt? hitem).symm) (second :: rest) first hlast
      have hall : ∀ item ∈ first :: second :: rest, item.utcoffset.isNone = first.utcoffset.isNone :=
        List.forall_mem_cons.mpr ⟨rfl, hfirst⟩
      intro item hitem other hother
      exact (hall item hitem).trans (hall other hother).symm

theorem widest_claims {group : List FailureEvent} {scope : SourceScope} (hwidest : widest group = .ok scope) :
    scope = .PROVIDER ↔ Claimed group := by
  have hfold (rest : List FailureEvent) (best : SourceScope) :
      rest.foldl (fun best event =>
        if _scope_rank best < _scope_rank event.source_scope then event.source_scope else best) best =
          .PROVIDER ↔ best = .PROVIDER ∨ Claimed rest := by
    induction rest generalizing best with
    | nil => simp [Claimed]
    | cons event rest ih =>
        have hstep : (if _scope_rank best < _scope_rank event.source_scope then event.source_scope
            else best) = .PROVIDER ↔ best = .PROVIDER ∨ event.source_scope = .PROVIDER := by
          cases best <;> cases event.source_scope <;> decide
        rw [List.foldl_cons, ih, hstep, or_assoc]
        simp [Claimed]
  cases group with
  | nil => cases hwidest
  | cons first rest =>
      cases hwidest
      rw [hfold]
      simp [Claimed]

theorem scope_of_iff {group : List FailureEvent} {first : FailureEvent} (hfirst : first ∈ group)
    (hclock : OneClock (stamps group)) :
    ∃ scope, options.scope_of group = .ok scope ∧
      (scope = .PROVIDER ↔
        options.minimum_distinct_workers ≤ (options.distinct group).card ∧
          options.Simultaneous (stamps group) ∨ Claimed group) := by
  obtain ⟨scope, hwidest⟩ : ∃ scope, widest group = .ok scope := by
    cases group with
    | nil => cases hfirst
    | cons event rest => exact ⟨_, rfl⟩
  obtain ⟨answer, hanswer, hnear⟩ := @simultaneous_iff options _ hclock
  rw [scope_of, hwidest, hanswer, ← hnear, ← widest_claims hwidest]
  by_cases henough : options.minimum_distinct_workers ≤ (options.distinct group).card
  · cases answer with
    | true => exact ⟨.PROVIDER, by simp [henough, bind, Except.bind, pure, Except.pure], by simp [henough]⟩
    | false => exact ⟨scope, by simp [bind, Except.bind, pure, Except.pure], by simp⟩
  · exact ⟨scope, by simp [henough, bind, Except.bind, pure, Except.pure], by simp [henough]⟩

theorem clock_of_scope {group : List FailureEvent} {scope : SourceScope}
    (hscope : options.scope_of group = .ok scope) : OneClock (stamps group) := by
  obtain ⟨_, _, hrest⟩ := Method.of_bind_eq_ok hscope
  obtain ⟨_, hnear, _⟩ := Method.of_bind_eq_ok hrest
  exact clock_of_simultaneous hnear

theorem distinct_mono {group more : List FailureEvent} (hsub : group ⊆ more) :
    (options.distinct group).card ≤ (options.distinct more).card := by
  refine Finset.card_le_card fun worker hworker => ?_
  simp only [distinct, List.mem_toFinset, List.mem_map] at hworker ⊢
  obtain ⟨event, hevent, hname⟩ := hworker
  exact ⟨event, hsub hevent, hname⟩

theorem stamped_of_incident {group : List FailureEvent} (hincident : options.Incident group) :
    options.minimum_distinct_workers ≤
      (options.distinct (group.filter (·.first_seen_at.isSome))).card := by
  obtain ⟨begins, hbegins⟩ := hincident
  refine hbegins.trans (Int.ofNat_le.mpr (distinct_mono fun event hevent => ?_))
  simp only [List.mem_filter, Option.any_eq_true] at hevent ⊢
  obtain ⟨hmem, stamp, hstamp, _⟩ := hevent
  exact ⟨hmem, by simp [hstamp]⟩

-- The window that begins with the first of them holds all that are near each other.
theorem incident_of_simultaneous {group : List FailureEvent} (hnear : options.Simultaneous (stamps group))
    (henough : options.minimum_distinct_workers ≤
      (options.distinct (group.filter (·.first_seen_at.isSome))).card) : options.Incident group := by
  obtain ⟨hlength, hall⟩ := hnear
  obtain ⟨begins, hbegins, hleast⟩ := Finset.exists_min_image (stamps group).toFinset Datetime.instant
    (by simpa [← List.length_pos_iff_ne_nil] using Nat.lt_of_lt_of_le Nat.zero_lt_two hlength)
  simp only [List.mem_toFinset] at hbegins hleast
  refine ⟨begins.instant, henough.trans (Int.ofNat_le.mpr (distinct_mono fun event hevent => ?_))⟩
  simp only [List.mem_filter, Option.any_eq_true, Option.isSome_iff_exists] at hevent ⊢
  obtain ⟨hmem, stamp, hstamp⟩ := hevent
  have hin : stamp ∈ stamps group := List.mem_filterMap.mpr ⟨event, hmem, hstamp⟩
  refine ⟨hmem, stamp, hstamp, ?_⟩
  simp only [in_window, Bool.and_eq_true, decide_eq_true_eq]
  exact ⟨hleast stamp hin, hall begins hbegins stamp hin (hleast stamp hin)⟩

-- On one clock the verdict and the incident agree exactly when the group is readable.
theorem agree_iff_readable {group : List FailureEvent} (hclock : OneClock (stamps group)) :
    ((options.minimum_distinct_workers ≤ (options.distinct group).card ∧
        options.Simultaneous (stamps group) ∨ Claimed group) ↔ options.Incident group) ↔
      options.Readable group := by
  have hstamped : options.Incident group → options.minimum_distinct_workers ≤ (options.distinct group).card :=
    fun hincident => (stamped_of_incident hincident).trans
      (Int.ofNat_le.mpr (distinct_mono (List.filter_subset_self _)))
  by_cases hclaimed : Claimed group
  · constructor
    · intro hagree
      exact ⟨hclock, fun _ => hagree.mp (.inr hclaimed), absurd hclaimed, absurd hclaimed⟩
    · intro hreadable
      exact ⟨fun _ => hreadable.claimed hclaimed, fun _ => .inr hclaimed⟩
  · simp only [hclaimed, or_false]
    by_cases hnear : options.Simultaneous (stamps group)
    · constructor
      · intro hagree
        refine ⟨hclock, fun hclaims => absurd hclaims hclaimed, fun _ _ henough => ?_,
          fun _ hfar => absurd hnear hfar⟩
        exact stamped_of_incident (hagree.mp ⟨henough, hnear⟩)
      · intro hreadable
        constructor
        · rintro ⟨henough, _⟩
          exact incident_of_simultaneous hnear (hreadable.stamped hclaimed hnear henough)
        · intro hincident
          exact ⟨hstamped hincident, hnear⟩
    · constructor
      · intro hagree
        refine ⟨hclock, fun hclaims => absurd hclaims hclaimed, fun _ hclose => absurd hclose hnear, ?_⟩
        intro _ _ hincident
        exact hnear (hagree.mpr hincident).2
      · intro hreadable
        constructor
        · rintro ⟨_, hclose⟩
          exact absurd hclose hnear
        · intro hincident
          exact absurd hincident (hreadable.no_stray hclaimed hnear)

theorem readable_of_scope {group : List FailureEvent} {scope : SourceScope}
    (hscope : options.scope_of group = .ok scope)
    (hagrees : scope = .PROVIDER ↔ options.Incident group) : options.Readable group := by
  have hclock := clock_of_scope hscope
  obtain ⟨first, hfirst⟩ : ∃ first, first ∈ group := by
    cases group with
    | nil => cases hscope
    | cons event rest => exact ⟨event, List.mem_cons_self ..⟩
  obtain ⟨found, hfound, hprovider⟩ := @scope_of_iff options group first hfirst hclock
  cases hscope.symm.trans hfound
  exact (agree_iff_readable hclock).mp (hprovider.symm.trans hagrees)

theorem correlates_iff (events : List FailureEvent) :
    options.Correlates events ↔
      ∀ signature ∈ events.map (·.signature), options.Readable (by_signature events signature) := by
  constructor
  · rintro ⟨verdict, hverdict, hagrees⟩ signature hsignature
    have hread : List.Forall₂ (fun signature _ => options.Readable (by_signature events signature) ∧
        True) (fromkeys (events.map (·.signature))) verdict := by
      refine List.Forall₂.mp (fun signature entry hstep hagree => ⟨?_, trivial⟩)
        (Method.mapM_eq_ok_iff.mp hverdict) hagrees
      cases hscope : options.scope_of (by_signature events signature) with
      | error error =>
          rw [hscope] at hstep
          cases hstep
      | ok scope =>
          rw [hscope] at hstep
          cases hstep
          exact readable_of_scope hscope hagree.2
    exact ((List.forall₂_and_left _ _).mp hread).1 signature (mem_fromkeys.mpr hsignature)
  · intro hreadable
    refine Method.exists_mapM_eq_ok fun signature hsignature => ?_
    rw [mem_fromkeys] at hsignature
    have hgroup := hreadable signature hsignature
    obtain ⟨event, hevent, hname⟩ := List.mem_map.mp hsignature
    obtain ⟨scope, hscope, hprovider⟩ := @scope_of_iff options (by_signature events signature) event
      (by simp [by_signature, hevent, hname]) hgroup.one_clock
    refine ⟨(signature, scope), by rw [hscope]; rfl, rfl, ?_⟩
    exact hprovider.trans ((agree_iff_readable hgroup.one_clock).mpr hgroup)

-- So many seconds into an hour of the day.
def seen_at (day : ℕ) (hday : 1 ≤ day ∧ day ≤ 31) (second : ℕ) (hsecond : second < 60) : Datetime where
  year := 2026
  month := 3
  day := day
  hour := 9
  minute := 0
  second := second
  microsecond := 0
  utcoffset := some 0
  year_range := Datetime.year_2026
  month_range := Datetime.month_3
  day_range := hday
  time_range := by simpa using hsecond
  offset_range := Datetime.offset_none

def timeout (failure_id : String) (seen : Datetime) : FailureEvent where
  failure_id := failure_id
  source_scope := .PAGE
  signature := "timeout"
  first_seen_at := some seen

-- Three workers stop within half a minute; one of them had timed out the day before.
def provider_stop : List FailureEvent := [
  timeout "a" (seen_at 1 Datetime.day_1 0 (by decide)),
  timeout "a" (seen_at 2 (by decide) 0 (by decide)),
  timeout "b" (seen_at 2 (by decide) 10 (by decide)),
  timeout "c" (seen_at 2 (by decide) 20 (by decide))]

theorem stray_event_hides_incident : ¬({} : Correlation).Correlates provider_stop := by
  rintro ⟨verdict, hverdict, hagrees⟩
  have hpage : ({} : Correlation).correlate_failures provider_stop = .ok [("timeout", .PAGE)] := by
    decide +kernel
  cases hverdict.symm.trans hpage
  have hsignatures : fromkeys (provider_stop.map (·.signature)) = ["timeout"] := by decide
  rw [hsignatures] at hagrees
  have hagrees := (List.forall₂_cons.mp hagrees).1.2
  have hincident : ({} : Correlation).Incident (by_signature provider_stop "timeout") :=
    ⟨(seen_at 2 (by decide) 0 (by decide)).instant, by decide +kernel⟩
  cases hagrees.mpr hincident

end Correlation

end KnowledgeCompiler.Inspection
