import KnowledgeCompiler.Lib.Datetime
import KnowledgeCompiler.Lib.Dict
import KnowledgeCompiler.Lib.Method
import Mathlib.Data.List.Lex
import Mathlib.Data.List.Sort
import Mathlib.Data.Prod.Lex
import Mathlib.Data.String.Basic

namespace KnowledgeCompiler.Answers

open Lib

inductive AuthorityClass
  | DRAFT
  | INFORMAL
  | DEPARTMENTAL
  | OFFICIAL
  | CONTRACTUAL
  | REGULATORY
deriving DecidableEq, Repr

-- `int(authority)`
def AuthorityClass.value : AuthorityClass → Int
  | .DRAFT => 0
  | .INFORMAL => 1
  | .DEPARTMENTAL => 2
  | .OFFICIAL => 3
  | .CONTRACTUAL => 4
  | .REGULATORY => 5

inductive SourceStatus
  | WITHDRAWN
  | SUPERSEDED
  | AMENDED
  | ACTIVE
deriving DecidableEq, Repr

def SourceStatus.value : SourceStatus → Int
  | .WITHDRAWN => 0
  | .SUPERSEDED => 1
  | .AMENDED => 2
  | .ACTIVE => 3

inductive ResolutionStatus
  | RESOLVED
  | CONFLICTED
  | NO_CANDIDATE
deriving DecidableEq, Repr

inductive RuleOutcome
  | PREFER
  | EXCLUDE
deriving DecidableEq, Repr

structure ClaimContext where
  subject : String
  as_of : Datetime
  object_id : Option String := none
  customer_id : Option String := none
  region : Option String := none
  contract_id : Option String := none
  permissions : List String := []

structure ScopedClaim where
  claim_id : String
  subject : String
  value : String
  authority : AuthorityClass
  source_status : SourceStatus := .ACTIVE
  scope : Dict String String := .empty
  valid_from : Option Datetime := none
  valid_to : Option Datetime := none
  recorded_at : Option Datetime := none
  required_permission : Option String := none
  evidence_id : Option String := none

-- `first == second` on datetimes; a naive one equals no aware one.
def same_moment (first second : Datetime) : Bool :=
  first.utcoffset.isNone = second.utcoffset.isNone && first.instant = second.instant

def same_moments : Option Datetime → Option Datetime → Bool
  | none, none => true
  | some first, some second => same_moment first second
  | _, _ => false

-- Dictionaries are equal whatever the order of their keys.
def same_scope (first second : Dict String String) : Bool :=
  first.keys.length = second.keys.length &&
    first.keys.all (fun key => first.get? key = second.get? key)

namespace ScopedClaim

variable (claim : ScopedClaim) (context : ClaimContext)

-- `claim == other`, field by field
def same (other : ScopedClaim) : Bool :=
  claim.claim_id = other.claim_id && claim.subject = other.subject && claim.value = other.value &&
    claim.authority = other.authority && claim.source_status = other.source_status &&
    same_scope claim.scope other.scope && same_moments claim.valid_from other.valid_from &&
    same_moments claim.valid_to other.valid_to &&
    same_moments claim.recorded_at other.recorded_at &&
    claim.required_permission = other.required_permission && claim.evidence_id = other.evidence_id

def visible_to : Bool :=
  match claim.required_permission with
  | none => true
  | some permission => permission ∈ context.permissions

def temporally_valid (moment : Datetime) : Except String Bool := do
  let begun ← match claim.valid_from with
    | none => pure true
    | some valid_from => (moment.lt? valid_from).map not
  let not_ended ← match claim.valid_to with
    | none => pure true
    | some valid_to => moment.lt? valid_to
  pure (begun && not_ended)

def available (dimension : String) : Option String :=
  if dimension = "customer_id" then context.customer_id
  else if dimension = "region" then context.region
  else if dimension = "contract_id" then context.contract_id
  else if dimension = "object_id" then context.object_id
  else none

def scope_match : Int :=
  if claim.scope.entries.all (fun entry => available context entry.1 = some entry.2) then
    claim.scope.entries.length
  else -1

def specificity : Int := claim.scope.entries.length

end ScopedClaim

structure ResolutionRule where
  subject_type : String
  condition : ScopedClaim → ClaimContext → Except String Bool
  precedence : Int := 0
  outcome : RuleOutcome := .PREFER
  evidence_requirement : String := "EXPLICIT"

def ResolutionRule.applies_to (rule : ResolutionRule) (claim : ScopedClaim)
    (context : ClaimContext) : Except String Bool :=
  if rule.subject_type ≠ claim.subject then pure false
  else if rule.evidence_requirement = "EXPLICIT" ∧ claim.evidence_id = none then pure false
  else rule.condition claim context

structure Resolution where
  status : ResolutionStatus
  claim : Option ScopedClaim
  candidates : List ScopedClaim := []
  required_review : Bool := false
  reason : String := ""
  permission_filtered : Nat := 0

-- A claim with the tuple that places it.
abbrev Scored := List Int × ScopedClaim

section Ranking

-- `int(moment.timestamp())`, which asks the host for the zone of a naive moment.
variable (timestamp : Datetime → Except String Int)
variable (context : ClaimContext) (rules : List ResolutionRule)

def _rank_tuple (claim : ScopedClaim) (override : Int) : Except String (List Int) := do
  let temporal ← claim.temporally_valid context.as_of
  let recency ← match claim.recorded_at with
    | none => pure 0
    | some recorded_at => timestamp recorded_at
  pure [if claim.visible_to context then 1 else 0, if temporal then 1 else 0,
    claim.scope_match context, override, claim.authority.value, claim.specificity,
    claim.source_status.value, recency]

def applicable (claim : ScopedClaim) : Except String Bool :=
  if claim.visible_to context = false then pure false
  else do
    let temporal ← claim.temporally_valid context.as_of
    pure (temporal && 0 ≤ claim.scope_match context)

-- The loop over the rules; an excluding one ends it.
def override_of (claim : ScopedClaim) : List ResolutionRule → Int → Except String Int
  | [], override => pure override
  | rule :: rest, override => do
      if ← rule.applies_to claim context then
        match rule.outcome with
        | .EXCLUDE => pure (-1)
        | .PREFER => override_of claim rest (max override rule.precedence)
      else override_of claim rest override

def score (claim : ScopedClaim) : Except String (Option Scored) := do
  let override ← override_of context claim rules 0
  if override < 0 then pure none
  else
    let tuple ← _rank_tuple timestamp context claim override
    pure (some (tuple, claim))

-- The items a raising test accepts.
def keep {α : Type} (test : α → Except String Bool) (items : List α) : Except String (List α) := do
  let kept ← items.mapM (fun item => do pure (if ← test item then some item else none))
  pure kept.reduceOption

-- `key=lambda pair: (pair[0], pair[1].claim_id)`
def sort_key (pair : Scored) : List Int ×ₗ String := toLex (pair.1, pair.2.claim_id)

-- `scored.sort(key=..., reverse=True)` keeps the order of equal keys.
def sorted_best_first (scored : List Scored) : List Scored :=
  scored.insertionSort (fun first second => sort_key second ≤ sort_key first)

def rank_claims (claims : List ScopedClaim) : Except String (List Scored) := do
  let candidates ← keep (applicable context) claims
  let scored ← candidates.mapM (score timestamp context rules)
  pure (sorted_best_first scored.reduceOption)

def _ELEMENTS : List String :=
  ["permission_visible", "temporal_valid", "scope_match", "explicit_override", "authority_rank",
    "specificity", "source_status", "recency"]

def _explain (best : List Int) (claim : ScopedClaim) : List Scored → String
  | _ :: (runner_up, _) :: _ =>
      let elements := _ELEMENTS.zip (best.zip runner_up)
      match elements.find? (fun element => element.2.1 ≠ element.2.2) with
      | some (name, first, second) =>
          s!"{claim.claim_id} wins on {name} ({first} against {second})"
      | none => s!"{claim.claim_id} ties on every element and agrees with the rest"
  | _ => s!"{claim.claim_id} is the only applicable claim"

def resolve_authority (claims : List ScopedClaim) : Except String Resolution := do
  let hidden := claims.countP (fun claim => claim.visible_to context = false)
  let ranked ← rank_claims timestamp context rules claims
  match ranked with
  | [] =>
      pure
        { status := .NO_CANDIDATE
          claim := none
          reason := "no claim is visible, temporally valid and in scope for this question"
          permission_filtered := hidden }
  | (best_tuple, best) :: _ =>
      let tied := (ranked.filter (fun pair => pair.1 = best_tuple)).map Prod.snd
      if 1 < (fromkeys (tied.map ScopedClaim.value)).length then
        pure
          { status := .CONFLICTED
            claim := none
            candidates := tied
            required_review := true
            reason := s!"{tied.length} claims are equal on every ranking element and " ++
              "disagree; choosing between them would be a guess presented as an answer"
            permission_filtered := hidden }
      else
        pure
          { status := .RESOLVED
            claim := some best
            candidates := ranked.map Prod.snd
            reason := _explain best_tuple best ranked
            permission_filtered := hidden }

end Ranking

end KnowledgeCompiler.Answers
