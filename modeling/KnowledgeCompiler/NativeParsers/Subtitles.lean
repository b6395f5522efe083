import KnowledgeCompiler.Lib.Method
import KnowledgeCompiler.Lib.Text
import Mathlib.Data.List.Chain
import Mathlib.Data.List.Induction

namespace KnowledgeCompiler.NativeParsers

open Lib

-- The proofs are what `_parse_time` gives and `_cue` checks.
structure Cue where
  first_index : Nat
  last_index : Nat
  identifier : Option (List Char)
  start_ms : Int
  end_ms : Int
  raw_text : List Char
  normalized_text : List Char
  speaker : Option (List Char)
  start_nonneg : 0 ≤ start_ms
  ordered : start_ms ≤ end_ms

structure Segment where
  cues : List Cue
  boundary_reason : String
  cues_ne : cues ≠ []

namespace Segment

def start_ms (segment : Segment) : Int := (segment.cues.head segment.cues_ne).start_ms

def end_ms (segment : Segment) : Int := (segment.cues.getLast segment.cues_ne).end_ms

end Segment

section Merging

def repeats (previous cue : Cue) : Bool :=
  previous.normalized_text = cue.normalized_text && previous.speaker = cue.speaker &&
    cue.start_ms ≤ previous.end_ms + 1000

def merge (previous cue : Cue) : Cue where
  first_index := previous.first_index
  last_index := cue.last_index
  identifier := previous.identifier
  start_ms := previous.start_ms
  end_ms := max previous.end_ms cue.end_ms
  raw_text := previous.raw_text
  normalized_text := previous.normalized_text
  speaker := previous.speaker
  start_nonneg := previous.start_nonneg
  ordered := previous.ordered.trans (le_max_left _ _)

def merge_step (merged : List Cue) (cue : Cue) : List Cue :=
  match merged.getLast? with
  | none => merged ++ [cue]
  | some previous =>
      if repeats previous cue then merged.dropLast ++ [merge previous cue] else merged ++ [cue]

def _merge_repeated_cues (cues : List Cue) : List Cue := cues.foldl merge_step []

end Merging

section Segmenting

def sentence_ends : List Char := ['.', '!', '?', '\u3002', '\uff01', '\uff1f']

def _is_topic_boundary (previous following : Cue) : Bool :=
  let gap_ms := max 0 (following.start_ms - previous.end_ms)
  let speaker_changed := previous.speaker.isSome && following.speaker.isSome &&
    previous.speaker ≠ following.speaker
  let sentence_ended := (Text.rstrip previous.normalized_text).getLast?.any (· ∈ sentence_ends)
  2500 ≤ gap_ms || speaker_changed || sentence_ended

def split_reason (first previous cue : Cue) : Option String :=
  let duration_with_cue := cue.end_ms - first.start_ms
  let current_duration := previous.end_ms - first.start_ms
  let gap_ms := max 0 (cue.start_ms - previous.end_ms)
  if 90000 < duration_with_cue then some "maximum_duration"
  else if 60000 ≤ current_duration ∧ _is_topic_boundary previous cue = true then
    some "topic_boundary"
  else if 30000 ≤ current_duration ∧ 5000 ≤ gap_ms then some "long_pause"
  else none

structure Scan where
  segments : List Segment
  current : List Cue
  next_boundary_reason : String

def segment_step (scan : Scan) (cue : Cue) : Scan :=
  if hne : scan.current = [] then { scan with current := [cue] }
  else
    match split_reason (scan.current.head hne) (scan.current.getLast hne) cue with
    | none => { scan with current := scan.current ++ [cue] }
    | some reason =>
        ⟨scan.segments ++ [⟨scan.current, scan.next_boundary_reason, hne⟩], [cue], reason⟩

def close (scan : Scan) : List Segment :=
  if hne : scan.current = [] then scan.segments
  else scan.segments ++ [⟨scan.current, scan.next_boundary_reason, hne⟩]

def joins (previous last : Segment) : Prop :=
  last.end_ms - last.start_ms < 30000 ∧ last.end_ms - previous.start_ms ≤ 90000

instance (previous last : Segment) : Decidable (joins previous last) :=
  inferInstanceAs (Decidable (_ ∧ _))

def join (previous last : Segment) : Segment where
  cues := previous.cues ++ last.cues
  boundary_reason := previous.boundary_reason
  cues_ne := List.append_ne_nil_of_left_ne_nil previous.cues_ne _

-- The last two segments are one when the last is short.
def join_last (segments : List Segment) : List Segment :=
  match segments.reverse with
  | last :: previous :: before =>
      if joins previous last then before.reverse ++ [join previous last] else segments
  | _ => segments

def _segment_cues (cues : List Cue) : List Segment :=
  join_last (close (cues.foldl segment_step ⟨[], [], "document_start"⟩))

end Segmenting

-- What `SourceRef` checks of a time range.
def time_range (start_ms end_ms : Int) : Except String (Int × Int) :=
  if start_ms < 0 ∨ end_ms < 0 then .error "Input should be greater than or equal to 0"
  else if end_ms < start_ms then .error "timeStartMs must not exceed timeEndMs"
  else .ok (start_ms, end_ms)

structure Keeps (run : List Cue) (merged : Cue) : Prop where
  run_ne : run ≠ []
  text : ∀ cue ∈ run, cue.normalized_text = merged.normalized_text ∧ cue.speaker = merged.speaker
  time : ∀ cue ∈ run, merged.start_ms ≤ cue.start_ms ∧ cue.end_ms ≤ merged.end_ms

-- The cue that a cue and the ones behind it make, when each repeats what there is before it.
def joined (first : Cue) (rest : List Cue) : Option Cue :=
  rest.foldlM (fun previous cue => if repeats previous cue then some (merge previous cue) else none)
    first

-- Cues that make one merged cue.
structure Run where
  first : Cue
  rest : List Cue
  cue : Cue
  joined_eq : joined first rest = some cue

def Run.cues (run : Run) : List Cue := run.first :: run.rest

-- The cues in runs of repetitions: none begins with a repetition of what the one before it makes.
structure Runs (cues : List Cue) (runs : List Run) : Prop where
  flatten : (runs.map Run.cues).flatten = cues
  apart : runs.IsChain fun run next => repeats run.cue next.first = false

namespace Segment

def first (segment : Segment) : Cue := segment.cues.head segment.cues_ne

def last (segment : Segment) : Cue := segment.cues.getLast segment.cues_ne

end Segment

-- The cues in parts: the split rule leaves each of them whole and cuts each off the next.
structure Parts (cues : List Cue) (parts : List Segment) : Prop where
  flatten : (parts.map Segment.cues).flatten = cues
  whole : ∀ part ∈ parts, part.cues.IsChain fun previous cue =>
    split_reason part.first previous cue = none
  cut : parts.IsChain fun part next => split_reason part.first part.last next.first ≠ none

-- No cue starts before the first of its run, and none of its part before the first of the part
-- or ends after the last one.
def InOrder (cues : List Cue) : Prop :=
  ∀ runs parts, Runs cues runs → Parts (runs.map Run.cue) parts →
    (∀ run ∈ runs, ∀ cue ∈ run.rest, run.first.start_ms ≤ cue.start_ms) ∧
      ∀ part ∈ join_last parts, ∀ cue ∈ part.cues,
        part.first.start_ms ≤ cue.start_ms ∧ cue.end_ms ≤ part.last.end_ms

section Repetitions

theorem joined_append (first cue : Cue) (rest : List Cue) :
    joined first (rest ++ [cue]) = (joined first rest).bind fun previous =>
      if repeats previous cue then some (merge previous cue) else none := by
  simp only [joined, List.foldlM_append, List.foldlM_cons, List.foldlM_nil, bind_pure]
  rfl

-- A run that does not repeat the last merged cue is merged into a cue of its own.
theorem foldl_merge_run (merged : List Cue) (first : Cue) (rest : List Cue) (cue : Cue)
    (hapart : ∀ last ∈ merged.getLast?, repeats last first = false)
    (hjoined : joined first rest = some cue) :
    (first :: rest).foldl merge_step merged = merged ++ [cue] := by
  induction rest using List.reverseRecOn generalizing cue with
  | nil =>
    cases hjoined
    rw [List.foldl_cons, List.foldl_nil, merge_step]
    split
    · rfl
    · rename_i last hlast
      rw [hapart last hlast, if_neg Bool.false_ne_true]
  | append_singleton rest other ih =>
    rw [joined_append, Option.bind_eq_some_iff] at hjoined
    obtain ⟨previous, hprevious, hmerged⟩ := hjoined
    rw [← List.cons_append, List.foldl_append, ih previous hprevious, List.foldl_cons, List.foldl_nil,
      merge_step, List.getLast?_concat]
    split at hmerged
    · rename_i hrepeats
      cases hmerged
      rw [List.dropLast_concat]
      exact if_pos hrepeats
    · cases hmerged

theorem Runs.merged (cues : List Cue) (runs : List Run) (hruns : Runs cues runs) :
    _merge_repeated_cues cues = runs.map Run.cue := by
  induction runs using List.reverseRecOn generalizing cues with
  | nil =>
    rw [← hruns.flatten]
    rfl
  | append_singleton before run ih =>
    obtain ⟨hbefore, -, hlink⟩ := List.isChain_append.mp hruns.apart
    have hmerged := ih _ ⟨rfl, hbefore⟩
    rw [← hruns.flatten, List.map_append, List.flatten_append, _merge_repeated_cues, List.foldl_append]
    rw [_merge_repeated_cues] at hmerged
    rw [hmerged, List.map_append, List.map_singleton, List.flatten_singleton]
    refine foldl_merge_run _ run.first run.rest run.cue (fun last hlast => ?_) run.joined_eq
    rw [List.getLast?_map] at hlast
    obtain ⟨earlier, hearlier, rfl⟩ := Option.mem_map.mp hlast
    exact hlink earlier hearlier run rfl

structure Joined (first : Cue) (rest : List Cue) (merged : Cue) : Prop where
  start : merged.start_ms = first.start_ms
  latest : first.end_ms ≤ merged.end_ms ∧ ∀ cue ∈ rest, cue.end_ms ≤ merged.end_ms
  text : merged.normalized_text = first.normalized_text ∧ merged.speaker = first.speaker
  same : ∀ cue ∈ rest, cue.normalized_text = first.normalized_text ∧ cue.speaker = first.speaker

theorem joined_spec (first : Cue) (rest : List Cue) (merged : Cue)
    (hjoined : joined first rest = some merged) : Joined first rest merged := by
  induction rest using List.reverseRecOn generalizing merged with
  | nil =>
    cases hjoined
    exact ⟨rfl, ⟨le_refl _, nofun⟩, ⟨rfl, rfl⟩, nofun⟩
  | append_singleton rest cue ih =>
    rw [joined_append, Option.bind_eq_some_iff] at hjoined
    obtain ⟨previous, hprevious, hmerged⟩ := hjoined
    obtain ⟨hstart, ⟨hfirst, hlatest⟩, ⟨htext, hspeaker⟩, hsame⟩ := ih previous hprevious
    split at hmerged
    · rename_i hrepeats
      cases hmerged
      simp only [repeats, Bool.and_eq_true, decide_eq_true_eq] at hrepeats
      obtain ⟨⟨htext', hspeaker'⟩, -⟩ := hrepeats
      refine ⟨hstart, ⟨hfirst.trans (le_max_left _ _), fun other hother => ?_⟩,
        ⟨htext, hspeaker⟩, fun other hother => ?_⟩
      · rcases List.mem_append.mp hother with hother | hother
        · exact (hlatest other hother).trans (le_max_left _ _)
        · cases List.mem_singleton.mp hother
          exact le_max_right _ _
      · rcases List.mem_append.mp hother with hother | hother
        · exact hsame other hother
        · cases List.mem_singleton.mp hother
          exact ⟨htext'.symm.trans htext, hspeaker'.symm.trans hspeaker⟩
    · cases hmerged

theorem Run.joined (run : Run) : Joined run.first run.rest run.cue :=
  joined_spec run.first run.rest run.cue run.joined_eq

theorem Run.text (run : Run) (cue : Cue) (hcue : cue ∈ run.cues) :
    cue.normalized_text = run.cue.normalized_text ∧ cue.speaker = run.cue.speaker := by
  rcases List.mem_cons.mp hcue with rfl | hcue
  · exact ⟨run.joined.text.1.symm, run.joined.text.2.symm⟩
  · obtain ⟨htext, hspeaker⟩ := run.joined.same cue hcue
    exact ⟨htext.trans run.joined.text.1.symm, hspeaker.trans run.joined.text.2.symm⟩

theorem Run.latest (run : Run) (cue : Cue) (hcue : cue ∈ run.cues) : cue.end_ms ≤ run.cue.end_ms := by
  rcases List.mem_cons.mp hcue with rfl | hcue
  · exact run.joined.latest.1
  · exact run.joined.latest.2 cue hcue

section Apart

variable {run next : Run} {group : List Cue} (hapart : repeats run.cue next.first = false)

include hapart

end Apart

end Repetitions

section Division

section Growing

variable {cues : List Cue} {before : List Segment} {part : Segment} {cue : Cue}
  (hparts : Parts cues (before ++ [part]))

include hparts

-- A cue that the split rule does not cut off belongs to the last part.
theorem Parts.extend (hnone : split_reason part.first part.last cue = none) :
    Parts (cues ++ [cue]) (before ++ [⟨part.cues ++ [cue], "", by simp⟩]) := by
  obtain ⟨hflatten, hwhole, hcut⟩ := hparts
  have hfirst : Segment.first ⟨part.cues ++ [cue], "", by simp⟩ = part.first := by
    simp only [Segment.first, List.head_append_of_ne_nil part.cues_ne]
  refine ⟨?_, ?_, ?_⟩
  · rw [← hflatten]
    simp
  · intro other hother
    rcases List.mem_append.mp hother with hbefore | hother
    · exact hwhole other (List.mem_append_left _ hbefore)
    cases List.mem_singleton.mp hother
    rw [hfirst]
    refine List.isChain_append.mpr ⟨hwhole part (by simp), List.isChain_singleton _,
      fun last hlast next hnext => ?_⟩
    cases Option.mem_some_iff.mp hnext
    obtain rfl := Option.some.inj ((List.getLast?_eq_some_getLast part.cues_ne).symm.trans hlast)
    exact hnone
  · rw [List.isChain_append] at hcut ⊢
    refine ⟨hcut.1, List.isChain_singleton _, fun earlier hearlier next hnext => ?_⟩
    cases Option.mem_some_iff.mp hnext
    rw [hfirst]
    exact hcut.2.2 earlier hearlier part rfl

theorem Parts.begin (hsome : split_reason part.first part.last cue ≠ none) :
    Parts (cues ++ [cue]) (before ++ [part] ++ [⟨[cue], "", List.cons_ne_nil _ _⟩]) := by
  obtain ⟨hflatten, hwhole, hcut⟩ := hparts
  refine ⟨?_, ?_, ?_⟩
  · rw [← hflatten, List.map_append, List.flatten_append]
    rfl
  · intro other hother
    rcases List.mem_append.mp hother with hbefore | hother
    · exact hwhole other hbefore
    · cases List.mem_singleton.mp hother
      exact List.isChain_singleton cue
  · refine List.isChain_append.mpr ⟨hcut, List.isChain_singleton _,
      fun earlier hearlier next hnext => ?_⟩
    rw [List.getLast?_concat] at hearlier
    cases Option.mem_some_iff.mp hearlier
    cases Option.mem_some_iff.mp hnext
    exact hsome

end Growing

theorem exists_parts (cues : List Cue) : ∃ parts, Parts cues parts := by
  induction cues using List.reverseRecOn with
  | nil => exact ⟨[], rfl, nofun, List.isChain_nil⟩
  | append_singleton cues cue ih =>
    obtain ⟨parts, hparts⟩ := ih
    rcases List.eq_nil_or_concat parts with rfl | ⟨before, part, rfl⟩
    · refine ⟨[⟨[cue], "", List.cons_ne_nil _ _⟩], ?_, ?_, List.isChain_singleton _⟩
      · rw [← hparts.flatten]
        rfl
      · intro part hpart
        cases List.mem_singleton.mp hpart
        exact List.isChain_singleton cue
    rw [List.concat_eq_append] at hparts
    by_cases hnone : split_reason part.first part.last cue = none
    · exact ⟨_, hparts.extend hnone⟩
    · exact ⟨_, hparts.begin hnone⟩

theorem segment_step_cut (scan : Scan) (cue : Cue)
    (hcut : ∀ hne : scan.current ≠ [],
      split_reason (scan.current.head hne) (scan.current.getLast hne) cue ≠ none) :
    ∃ reason, segment_step scan cue = ⟨close scan, [cue], reason⟩ := by
  unfold segment_step close
  split
  · exact ⟨_, rfl⟩
  · rename_i hne
    split
    · rename_i hnone
      exact absurd hnone (hcut hne)
    · exact ⟨_, rfl⟩

theorem foldl_whole (segments : List Segment) (reason : String) (current rest : List Cue)
    (hne : current ≠ []) (hwhole : (current ++ rest).IsChain fun previous cue =>
      split_reason (current.head hne) previous cue = none) :
    rest.foldl segment_step ⟨segments, current, reason⟩ = ⟨segments, current ++ rest, reason⟩ := by
  induction rest generalizing current with
  | nil => rw [List.foldl_nil, List.append_nil]
  | cons cue rest ih =>
    have hlink := (List.isChain_append.mp hwhole).2.2 _ (List.getLast?_eq_some_getLast hne) cue rfl
    have hstep : segment_step ⟨segments, current, reason⟩ cue =
        ⟨segments, current ++ [cue], reason⟩ := by
      rw [segment_step, dif_neg hne]
      dsimp only
      rw [hlink]
    rw [List.append_cons] at hwhole ⊢
    rw [List.foldl_cons, hstep]
    refine ih (current ++ [cue]) (by simp) ?_
    rwa [List.head_append_of_ne_nil hne]

theorem foldl_part (scan : Scan) (part : Segment)
    (hwhole : part.cues.IsChain fun previous cue => split_reason part.first previous cue = none)
    (hcut : ∀ hne : scan.current ≠ [],
      split_reason (scan.current.head hne) (scan.current.getLast hne) part.first ≠ none) :
    ∃ reason, part.cues.foldl segment_step scan = ⟨close scan, part.cues, reason⟩ := by
  obtain ⟨cues, name, hne⟩ := part
  cases cues with
  | nil => exact absurd rfl hne
  | cons first rest =>
    obtain ⟨reason, hstep⟩ := segment_step_cut scan first hcut
    refine ⟨reason, ?_⟩
    rw [List.foldl_cons, hstep]
    exact foldl_whole _ reason [first] rest (List.cons_ne_nil _ _) hwhole

-- What the scan has in hand behind some parts is the last of them.
structure Scanned (parts : List Segment) (scan : Scan) : Prop where
  segments : (close scan).map Segment.cues = parts.map Segment.cues
  current : scan.current = (parts.getLast?.map Segment.cues).getD []

theorem scanned_parts (cues : List Cue) (parts : List Segment) (hparts : Parts cues parts) :
    Scanned parts (cues.foldl segment_step ⟨[], [], "document_start"⟩) := by
  induction parts using List.reverseRecOn generalizing cues with
  | nil =>
    rw [← hparts.flatten]
    exact ⟨rfl, rfl⟩
  | append_singleton before part ih =>
    obtain ⟨hbefore, -, hlink⟩ := List.isChain_append.mp hparts.cut
    have hscanned := ih _ ⟨rfl, fun other hother => hparts.whole other (List.mem_append_left _ hother),
      hbefore⟩
    rw [← hparts.flatten, List.map_append, List.flatten_append, List.foldl_append, List.map_singleton,
      List.flatten_singleton]
    generalize (before.map Segment.cues).flatten.foldl segment_step ⟨[], [], "document_start"⟩ = scan
      at hscanned ⊢
    obtain ⟨hsegments, hcurrent⟩ := hscanned
    obtain ⟨reason, hfold⟩ := foldl_part scan part (hparts.whole part (by simp)) (by
      intro hne
      cases hlast : before.getLast? with
      | none =>
        rw [hlast] at hcurrent
        exact absurd hcurrent hne
      | some earlier =>
        have hcues : scan.current = earlier.cues := by rw [hcurrent, hlast]; rfl
        simp only [hcues]
        exact hlink earlier hlast part rfl)
    rw [hfold]
    refine ⟨?_, by simp⟩
    rw [close, dif_neg part.cues_ne, List.map_append, hsegments, List.map_append]
    rfl

theorem Segment.same_range (first second : Segment) (hcues : first.cues = second.cues) :
    first.start_ms = second.start_ms ∧ first.end_ms = second.end_ms := by
  unfold start_ms end_ms
  simp only [hcues, and_self]

-- The last join looks at the cues alone.
theorem join_last_congr (segments parts : List Segment)
    (hcues : segments.map Segment.cues = parts.map Segment.cues) :
    (join_last segments).map Segment.cues = (join_last parts).map Segment.cues := by
  have hreverse : segments.reverse.map Segment.cues = parts.reverse.map Segment.cues := by
    rw [List.map_reverse, List.map_reverse, hcues]
  unfold join_last
  generalize segments.reverse = left at hreverse ⊢
  generalize parts.reverse = right at hreverse ⊢
  rcases left with _ | ⟨last, _ | ⟨previous, before⟩⟩
  · rw [List.map_nil, eq_comm, List.map_eq_nil_iff] at hreverse
    rw [hreverse]
    exact hcues
  · obtain ⟨last', rest', rfl, -, hrest⟩ := List.map_eq_cons_iff.mp hreverse.symm
    rw [List.map_nil, List.map_eq_nil_iff] at hrest
    rw [hrest]
    exact hcues
  · obtain ⟨last', rest', rfl, hlast, hrest⟩ := List.map_eq_cons_iff.mp hreverse.symm
    obtain ⟨previous', before', rfl, hprevious, hbefore⟩ := List.map_eq_cons_iff.mp hrest
    have hjoins : joins previous last ↔ joins previous' last' := by
      rw [joins, joins, (Segment.same_range last' last hlast).1, (Segment.same_range last' last hlast).2,
        (Segment.same_range previous' previous hprevious).1]
    simp only [hjoins]
    split
    · simp only [List.map_append, List.map_reverse, hbefore, List.map_singleton, join, hlast, hprevious]
    · exact hcues

theorem Parts.segments (cues : List Cue) (parts : List Segment) (hparts : Parts cues parts) :
    (_segment_cues cues).map Segment.cues = (join_last parts).map Segment.cues :=
  join_last_congr _ _ (scanned_parts cues parts hparts).segments

end Division

section Segmentation

end Segmentation

end KnowledgeCompiler.NativeParsers
