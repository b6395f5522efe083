import KnowledgeCompiler.Lib.Datetime
import KnowledgeCompiler.Lib.Dict

namespace KnowledgeCompiler.Temporal

open Lib

inductive TemporalSource
  | EXPLICIT
  | INFERRED
  | UNKNOWN
deriving DecidableEq

inductive TemporalPolicy
  | EXCLUDE_UNKNOWN
  | INCLUDE_UNKNOWN
deriving DecidableEq

-- `second < first` is answered, with no, where both are there.
def InOrder (first second : Option Datetime) : Prop :=
  ∀ start finish, first = some start → second = some finish → finish.lt? start = .ok false

theorem inOrder_none : InOrder none none := by
  rintro _ _ h
  cases h

structure TemporalFact where
  logical_id : String
  value : String
  valid_from : Option Datetime := none
  valid_to : Option Datetime := none
  recorded_at : Option Datetime := none
  superseded_at : Option Datetime := none
  temporal_source : TemporalSource := .UNKNOWN
  evidence_id : Option String := none
  valid_in_order : InOrder valid_from valid_to
  known_in_order : InOrder recorded_at superseded_at
  dated : temporal_source = .EXPLICIT → valid_from ≠ none ∨ valid_to ≠ none

namespace TemporalFact

-- `later < earlier` of two optional moments.
def precedes (later earlier : Option Datetime) : Except String Bool :=
  match earlier, later with
  | some earlier, some later => later.lt? earlier
  | _, _ => .ok false

theorem inOrder_of_precedes {first second : Option Datetime}
    (h : precedes second first = .ok false) : InOrder first second := by
  rintro start finish rfl rfl
  exact h

-- `TemporalFact(...)`
def make (logical_id value : String) (valid_from valid_to recorded_at superseded_at : Option Datetime)
    (temporal_source : TemporalSource) (evidence_id : Option String) : Except String TemporalFact :=
  match hvalid : precedes valid_to valid_from with
  | .error message => .error message
  | .ok true => .error (logical_id ++ ": valid_to precedes valid_from")
  | .ok false =>
      match hknown : precedes superseded_at recorded_at with
      | .error message => .error message
      | .ok true => .error (logical_id ++ ": superseded_at precedes recorded_at")
      | .ok false =>
          if hdated : temporal_source = .EXPLICIT → valid_from ≠ none ∨ valid_to ≠ none then
            .ok
              { logical_id, value, valid_from, valid_to, recorded_at, superseded_at, temporal_source
                evidence_id
                valid_in_order := inOrder_of_precedes hvalid
                known_in_order := inOrder_of_precedes hknown
                dated := hdated }
          else
            .error (logical_id ++ ": temporal_source is explicit but no date was given. " ++
              "A fact the document dated must carry that date; a fact it did not " ++
              "is unknown, and §8.1 forbids storing an invented one as fact.")

variable (fact : TemporalFact)

def validity_known : Bool :=
  fact.temporal_source ≠ .UNKNOWN && (fact.valid_from.isSome || fact.valid_to.isSome)

-- From the one moment on, before the other.
def within (begins ends : Option Datetime) (moment : Datetime) : Except String Bool := do
  let begun ← match begins with
    | none => pure true
    | some begins => (moment.lt? begins).map not
  let not_ended ← match ends with
    | none => pure true
    | some ends => moment.lt? ends
  pure (begun && not_ended)

def valid_at (moment : Datetime) : Except String Bool :=
  within fact.valid_from fact.valid_to moment

def known_at (moment : Datetime) : Except String Bool :=
  within fact.recorded_at fact.superseded_at moment

end TemporalFact

structure AsOfAnswer where
  facts : List TemporalFact
  valid_at : Option Datetime
  known_at : Option Datetime
  policy : TemporalPolicy
  included_unknown : List String
  excluded_unknown : List String

structure TemporalTimeline where
  facts : List TemporalFact

def TemporalTimeline.add (timeline : TemporalTimeline) (fact : TemporalFact) : TemporalTimeline where
  facts := timeline.facts ++ [fact]

structure AsOf where
  valid_at : Option Datetime := none
  known_at : Option Datetime := none
  logical_id : Option String := none
  policy : TemporalPolicy := .EXCLUDE_UNKNOWN

-- What the loop of a query has gathered so far.
structure Gathered where
  selected : List TemporalFact := []
  included_unknown : List String := []
  excluded_unknown : List String := []

namespace AsOf

variable (query : AsOf)

def known (fact : TemporalFact) : Except String Bool :=
  match query.known_at with
  | none => .ok true
  | some known_at => fact.known_at known_at

def gather (gathered : Gathered) (fact : TemporalFact) : Except String Gathered := do
  if query.logical_id.any (fact.logical_id ≠ ·) then
    return gathered
  if !(← query.known fact) then
    return gathered
  match query.valid_at with
  | none => return { gathered with selected := gathered.selected ++ [fact] }
  | some valid_at =>
      if !fact.validity_known then
        if query.policy = .EXCLUDE_UNKNOWN then
          return { gathered with excluded_unknown := gathered.excluded_unknown ++ [fact.logical_id] }
        else
          return { gathered with
            selected := gathered.selected ++ [fact]
            included_unknown := gathered.included_unknown ++ [fact.logical_id] }
      else if ← fact.valid_at valid_at then
        return { gathered with selected := gathered.selected ++ [fact] }
      else
        return gathered

end AsOf

def TemporalTimeline.as_of (timeline : TemporalTimeline) (query : AsOf) : Except String AsOfAnswer := do
  let gathered ← timeline.facts.foldlM query.gather {}
  return {
    facts := gathered.selected
    valid_at := query.valid_at
    known_at := query.known_at
    policy := query.policy
    included_unknown := fromkeys gathered.included_unknown
    excluded_unknown := fromkeys gathered.excluded_unknown }

-- The items with later ones put in, in whatever order and place.
inductive Added {α : Type*} (late : α → Prop) : List α → List α → Prop
  | nil : Added late [] []
  | keep (item : α) {items more : List α} (hrest : Added late items more) :
      Added late (item :: items) (item :: more)
  | add (item : α) (hlate : late item) {items more : List α} (hrest : Added late items more) :
      Added late items (item :: more)

-- Recorded strictly after the moment.
def RecordedAfter (moment : Datetime) (fact : TemporalFact) : Prop :=
  ∃ recorded_at, fact.recorded_at = some recorded_at ∧ moment.lt? recorded_at = .ok true

section Stable

theorem lt?_answers {first second : Datetime} {answer : Bool} (h : first.lt? second = .ok answer) :
    first.utcoffset.isNone = second.utcoffset.isNone := by
  unfold Datetime.lt? at h
  split at h
  · assumption
  · cases h

theorem exists_lt? {first second : Datetime}
    (h : first.utcoffset.isNone = second.utcoffset.isNone) : ∃ answer, first.lt? second = .ok answer :=
  ⟨_, if_pos h⟩

-- What was recorded later was not known, whatever has become of it since.
theorem known_at_of_recordedAfter {moment : Datetime} {fact : TemporalFact}
    (hlate : RecordedAfter moment fact) : fact.known_at moment = .ok false := by
  obtain ⟨recorded_at, hrecorded, hlt⟩ := hlate
  unfold TemporalFact.known_at TemporalFact.within
  rw [hrecorded]
  simp only [hlt]
  cases hsuperseded : fact.superseded_at with
  | none => rfl
  | some superseded_at =>
      have horder := fact.known_in_order recorded_at superseded_at hrecorded hsuperseded
      obtain ⟨answer, hanswer⟩ := exists_lt? ((lt?_answers hlt).trans (lt?_answers horder).symm)
      simp only [hanswer]
      rfl

theorem gather_of_recordedAfter {query : AsOf} {moment : Datetime}
    (hquery : query.known_at = some moment) {fact : TemporalFact}
    (hlate : RecordedAfter moment fact) (gathered : Gathered) :
    query.gather gathered fact = .ok gathered := by
  have hknown : query.known fact = .ok false := by
    rw [AsOf.known, hquery]
    exact known_at_of_recordedAfter hlate
  unfold AsOf.gather
  split
  · rfl
  · rw [hknown]
    rfl

theorem foldlM_gather_added {query : AsOf} {moment : Datetime}
    (hquery : query.known_at = some moment) {facts more : List TemporalFact}
    (hadded : Added (RecordedAfter moment) facts more) (gathered : Gathered) :
    more.foldlM query.gather gathered = facts.foldlM query.gather gathered := by
  induction hadded generalizing gathered with
  | nil => rfl
  | keep fact hrest ih =>
      rw [List.foldlM_cons, List.foldlM_cons]
      exact congrArg _ (funext ih)
  | add fact hlate hrest ih =>
      rw [List.foldlM_cons, gather_of_recordedAfter hquery hlate]
      exact ih gathered

theorem as_of_added {query : AsOf} {moment : Datetime} (hquery : query.known_at = some moment)
    {facts more : List TemporalFact} (hadded : Added (RecordedAfter moment) facts more) :
    TemporalTimeline.as_of ⟨more⟩ query = TemporalTimeline.as_of ⟨facts⟩ query := by
  rw [TemporalTimeline.as_of, TemporalTimeline.as_of, foldlM_gather_added hquery hadded]

end Stable

end KnowledgeCompiler.Temporal
