import KnowledgeCompiler.Answers.Authority
import KnowledgeCompiler.Lib.Text
import KnowledgeCompiler.World.Registry
import Mathlib.Data.Finset.Sort

namespace KnowledgeCompiler.Answers

open Lib World

inductive QueryIntent
  | CURRENT
  | AS_OF_VALID
  | AS_KNOWN
  | AUTHORITY
  | APPLICABILITY
  | CONFLICT
  | HISTORY
  | PROVENANCE
  | IMPACT
  | SEARCH
deriving DecidableEq, Repr

def _INTENT_RULES : List (QueryIntent × List String) :=
  [(.PROVENANCE,
      ["출처", "근거", "어느 문서", "어떤 문서", "provenance", "which document", "what document",
        "where did this come", "citation", "sourced from"]),
    (.HISTORY,
      ["연혁", "변천", "이력", "history", "over time", "used to be", "how has", "evolution"]),
    (.IMPACT,
      ["영향", "파급", "impact", "affect", "affected", "consequence", "downstream"]),
    (.AS_KNOWN, ["알고 있었", "시점에 알", "as known", "did we know", "believed at"]),
    (.AS_OF_VALID,
      ["as of", "기준일", "기준으로", "시점 기준", "유효했던", "유효한지", "valid at", "valid on",
        "was valid"]),
    (.APPLICABILITY,
      ["적용", "해당", "apply", "applies", "applicable", "covers", "in scope", "out of scope"]),
    (.AUTHORITY,
      ["권한", "우선", "authority", "authoritative", "who decides", "governs", "governing",
        "prevail", "precedence", "outrank", "final say"]),
    (.CONFLICT,
      ["충돌", "모순", "상충", "conflict", "contradict", "disagree", "inconsistent", "discrepancy"]),
    (.CURRENT,
      ["현재", "최신", "지금", "current", "currently", "today", "latest", "up to date"])]

-- `keyword in text`
def occurs (keyword text : String) : Bool := text.toList.tails.any (keyword.toList.isPrefixOf ·)

def classify_intent (casefold : String → String) (query : String) : QueryIntent :=
  let normalized := casefold query
  match _INTENT_RULES.find? (fun rule => rule.2.any (fun keyword => occurs keyword normalized)) with
  | some rule => rule.1
  | none => .SEARCH

inductive AnswerOutcome
  | CURRENT
  | STALE
  | CONFLICT
  | UNRESOLVED
  | NOT_AUTHORIZED
deriving DecidableEq, Repr

structure EvidenceOccurrence where
  claim_id : String
  evidence_id : String
  source_status : SourceStatus
deriving DecidableEq, Repr

structure DraftClaim where
  claim : ScopedClaim
  world_state_id : String

structure CompiledAnswer where
  claim_ids : List String
  world_state_id : String
  evidence_occurrences : List EvidenceOccurrence
  outcome : AnswerOutcome
  intent : QueryIntent := .SEARCH
  reason : String := ""
deriving DecidableEq, Repr

def audit_freshness (drafts : List DraftClaim) (active : WorldState) : List String :=
  (drafts.filter (fun draft => draft.world_state_id ≠ active.world_state_id)).map
    (fun draft => draft.claim.claim_id)

def _occurrences (drafts : List DraftClaim) : List EvidenceOccurrence :=
  drafts.filterMap (fun draft => draft.claim.evidence_id.map (fun evidence_id =>
    { claim_id := draft.claim.claim_id
      evidence_id := evidence_id
      source_status := draft.claim.source_status }))

section Compile

variable (casefold : String → String) (timestamp : Datetime → Except String Int)
variable (query : String) (registry : WorldStateRegistry) (context : ClaimContext)
  (rules : List ResolutionRule)

def DraftClaim.visible (draft : DraftClaim) : Bool := draft.claim.visible_to context

-- The answer where a visible draft is of another world.
def stale_answer (intent : QueryIntent) (active : WorldState) (visible : List DraftClaim)
    (stale_ids : List String) : CompiledAnswer :=
  let stale_drafts := visible.filter (fun draft => draft.claim.claim_id ∈ stale_ids)
  let fresh_ids := (visible.filter (fun draft => draft.claim.claim_id ∉ stale_ids)).map
    (fun draft => draft.claim.claim_id)
  let foreign := ", ".intercalate
    ((stale_drafts.map DraftClaim.world_state_id).toFinset.sort (· ≤ ·))
  let note :=
    if fresh_ids = [] then ""
    else "; fresh candidates were set aside: " ++ ", ".intercalate fresh_ids
  { claim_ids := stale_ids
    world_state_id := active.world_state_id
    evidence_occurrences := _occurrences stale_drafts
    outcome := .STALE
    intent := intent
    reason := s!"{stale_ids.length} claim(s) were extracted against {foreign}, " ++
      s!"not the ACTIVE {active.world_state_id}{note}" }

-- The answer that the resolution of the visible claims comes to.
def resolved_answer (intent : QueryIntent) (active : WorldState) (visible : List DraftClaim)
    (resolution : Resolution) : CompiledAnswer :=
  if resolution.status = .CONFLICTED then
    let tied := visible.filter (fun draft => resolution.candidates.any draft.claim.same)
    { claim_ids := resolution.candidates.map ScopedClaim.claim_id
      world_state_id := active.world_state_id
      evidence_occurrences := _occurrences tied
      outcome := .CONFLICT
      intent := intent
      reason := resolution.reason }
  else
    match resolution.status, resolution.claim with
    | .RESOLVED, some winner =>
        let winning_drafts := visible.filter (fun draft => draft.claim.claim_id = winner.claim_id)
        { claim_ids := [winner.claim_id]
          world_state_id := active.world_state_id
          evidence_occurrences := _occurrences winning_drafts
          outcome := .CURRENT
          intent := intent
          reason := resolution.reason }
    | _, _ =>
        { claim_ids := []
          world_state_id := active.world_state_id
          evidence_occurrences := []
          outcome := .UNRESOLVED
          intent := intent
          reason := resolution.reason }

def compile_answer (drafts : List DraftClaim) : Except String CompiledAnswer :=
  let intent := classify_intent casefold query
  let unresolved (world_state_id reason : String) : CompiledAnswer :=
    { claim_ids := []
      world_state_id := world_state_id
      evidence_occurrences := []
      outcome := .UNRESOLVED
      intent := intent
      reason := reason }
  if drafts = [] then
    .ok (unresolved ((registry.current.map WorldState.world_state_id).getD "")
      "the draft set is empty")
  else
    match registry.current.filter (fun active => active.status = .ACTIVE) with
    | none => .ok (unresolved "" "no ACTIVE world state is published")
    | some active =>
        let visible := drafts.filter (DraftClaim.visible context)
        if visible = [] then
          .ok
            { claim_ids := []
              world_state_id := active.world_state_id
              evidence_occurrences := []
              outcome := .NOT_AUTHORIZED
              intent := intent
              reason := "every draft claim requires a permission this question's context does " ++
                "not hold" }
        else
          let stale_ids := audit_freshness visible active
          if stale_ids ≠ [] then .ok (stale_answer intent active visible stale_ids)
          else
            (resolve_authority timestamp context rules (visible.map DraftClaim.claim)).map
              (resolved_answer intent active visible)

end Compile

end KnowledgeCompiler.Answers
