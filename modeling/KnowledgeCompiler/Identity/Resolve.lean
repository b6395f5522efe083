import KnowledgeCompiler.Identity.Score
import KnowledgeCompiler.Lib.Dict
import KnowledgeCompiler.Lib.Ranked
import Mathlib.Algebra.Order.Ring.Rat
import Mathlib.Data.Prod.Lex

namespace KnowledgeCompiler.Identity

open Lib

-- `(-score, logical_id, position)`, compared the way Python compares tuples.
abbrev RankKey := ℚ ×ₗ String ×ₗ Nat

def rank_key (score : ℚ) (logical_id : String) (position : Nat) : RankKey :=
  toLex (-score, toLex (logical_id, position))

def RankKey.position (key : RankKey) : Nat := (ofLex (ofLex key).2).2

def RankKey.logical_id (key : RankKey) : String := (ofLex (ofLex key).2).1

structure BlockingCandidateIndex where
  fingerprints : List LogicalUnitFingerprint
  prepared : List PreparedFeatures
  by_anchor : Dict String (List Nat)
  by_identifier : Dict String (List Nat)
  by_path : Dict (List String) (List Nat)

namespace BlockingCandidateIndex

-- `dict.setdefault(key, []).append(position)`
def append_position {α : Type} [DecidableEq α] (buckets : Dict α (List Nat)) (key : α)
    (position : Nat) : Dict α (List Nat) :=
  buckets.update key (fun found => found.getD [] ++ [position])

def build (unicode : Unicode) (previous : List LogicalUnitFingerprint) :
    BlockingCandidateIndex :=
  let prepared := previous.map (prepare_features unicode)
  { fingerprints := previous
    prepared := prepared
    by_anchor := prepared.zipIdx.foldl (fun buckets entry =>
      if entry.1.has_anchor then append_position buckets entry.1.norm_anchor entry.2
      else buckets) .empty
    by_identifier := prepared.zipIdx.foldl (fun buckets entry =>
      if entry.1.has_identifier then append_position buckets entry.1.norm_identifier entry.2
      else buckets) .empty
    by_path := prepared.zipIdx.foldl (fun buckets entry =>
      if entry.1.norm_path ≠ [] then append_position buckets entry.1.norm_path entry.2
      else buckets) .empty }

variable (index : BlockingCandidateIndex)

def fingerprint (position : Nat) : LogicalUnitFingerprint := index.fingerprints[position]!

def features (position : Nat) : PreparedFeatures := index.prepared[position]!

def key_hits (incoming : PreparedFeatures) : List Nat :=
  (if incoming.has_anchor then (index.by_anchor.get? incoming.norm_anchor).getD [] else []) ++
  (if incoming.has_identifier then
    (index.by_identifier.get? incoming.norm_identifier).getD [] else []) ++
  (if incoming.norm_path ≠ [] then (index.by_path.get? incoming.norm_path).getD [] else [])

-- The bound, the id and the corpus position of every candidate, in corpus order.
def bound_keys (incoming : PreparedFeatures) (resolver : LogicalIdentityResolver) :
    List RankKey :=
  index.prepared.zipIdx.map (fun entry =>
    rank_key (pair_score_upper_bound entry.1 incoming resolver.weights)
      entry.1.fingerprint.logical_id entry.2)

def hot (incoming : PreparedFeatures) (resolver : LogicalIdentityResolver) : List RankKey :=
  Ranked.rank id ((index.bound_keys incoming resolver).filter
    (fun key => key.position ∈ index.key_hits incoming))

def cold (incoming : PreparedFeatures) (resolver : LogicalIdentityResolver) : List RankKey :=
  Ranked.rank id ((index.bound_keys incoming resolver).filter
    (fun key => key.position ∉ index.key_hits incoming))

-- Exact-key hits first, then everything else, each group sorted on its own.
def examination_order (unicode : Unicode) (incoming : LogicalUnitFingerprint)
    (resolver : LogicalIdentityResolver) : PreparedFeatures × List RankKey :=
  let prepared_incoming := prepare_features unicode incoming
  (prepared_incoming, index.hot prepared_incoming resolver ++ index.cold prepared_incoming resolver)

theorem examination_order_perm (incoming : PreparedFeatures) (resolver : LogicalIdentityResolver) :
    (index.hot incoming resolver ++ index.cold incoming resolver).Perm
      (index.bound_keys incoming resolver) := by
  refine ((Ranked.rank_perm id _).append (Ranked.rank_perm id _)).trans ?_
  simpa using List.filter_append_perm
    (fun key => decide (key.position ∈ index.key_hits incoming))
    (index.bound_keys incoming resolver)

end BlockingCandidateIndex

-- One examined candidate.
structure ScoredCandidate where
  score : ℚ
  logical_id : String
  position : Nat
  signals : List (Signal × ℚ)
  missing : List (Signal × MissingReason)
deriving DecidableEq

def ScoredCandidate.of (pair : PairScore) (logical_id : String) (position : Nat) :
    ScoredCandidate where
  score := pair.score
  logical_id := logical_id
  position := position
  signals := pair.signals
  missing := pair.missing

def ScoredCandidate.key (candidate : ScoredCandidate) : RankKey :=
  rank_key candidate.score candidate.logical_id candidate.position

def absent_critical (missing : List (Signal × MissingReason)) : List String :=
  (CRITICAL_IDENTITY_SIGNALS.filter (fun signal => signal ∈ missing.map Prod.fst)).map Signal.name

-- `seed_logical_id or incoming.logical_id`
def seed_or (seed_logical_id : Option String) (logical_id : String) : String :=
  match seed_logical_id with
  | some seed => if seed = "" then logical_id else seed
  | none => logical_id

namespace LogicalIdentityResolver

variable (resolver : LogicalIdentityResolver) (unicode : Unicode)

def decide_pair (incoming partner : LogicalUnitFingerprint) (score : PairScore) (runner_up : ℚ)
    (runner_up_id : Option String) (seed_logical_id : Option String) :
    LogicalIdentityDecision :=
  let best_score := score.score
  let critical := absent_critical score.missing
  if critical ≠ [] then
    { verdict := .AMBIGUOUS
      logical_id := none
      score := best_score
      signals := score.signals
      missing := score.missing
      reason := "critical signal(s) " ++ ", ".intercalate critical ++
        " had no value; the remaining signals renormalised to " ++ Text.fixed2 best_score ++
        " would be a confident score built on a thin one"
      candidates := [partner.logical_id] }
  else if best_score < resolver.new_threshold then
    { verdict := .NEW
      logical_id := some (seed_or seed_logical_id incoming.logical_id)
      score := best_score
      signals := score.signals
      missing := score.missing
      reason := "best candidate scored " ++ Text.fixed2 best_score ++ ", below the " ++
        Text.fixed2 resolver.new_threshold ++ " floor for continuing an identity" }
  else
    match runner_up_id with
    | some rival =>
        if best_score - runner_up < resolver.tie_band then
          { verdict := .AMBIGUOUS
            logical_id := none
            score := best_score
            signals := score.signals
            missing := score.missing
            reason := "two candidates scored within " ++ Text.fixed2 resolver.tie_band ++ " (" ++
              Text.fixed2 best_score ++ " and " ++ Text.fixed2 runner_up ++
              "); merging would pick one history arbitrarily"
            candidates := [partner.logical_id, rival] }
        else banded
    | none => banded
where
  -- The bands that look at the best candidate alone.
  banded : LogicalIdentityDecision :=
    if score.score < resolver.merge_threshold then
      { verdict := .AMBIGUOUS
        logical_id := none
        score := score.score
        signals := score.signals
        missing := score.missing
        reason := "score " ++ Text.fixed2 score.score ++ " sits in the review band between " ++
          Text.fixed2 resolver.new_threshold ++ " and " ++ Text.fixed2 resolver.merge_threshold
        candidates := [partner.logical_id] }
    else
      let moved := path_agreement unicode partner.document_path incoming.document_path < 1
      { verdict := .MATCHED
        logical_id := some partner.logical_id
        score := score.score
        signals := score.signals
        missing := score.missing
        reason := "continues " ++ partner.logical_id ++ " at " ++ Text.fixed2 score.score
        candidates := [partner.logical_id]
        relation := some (if moved then .MOVED_FROM else .SAME_AS_VERSION) }

-- The top two, as `decide_pair` receives them.
structure Contest where
  best : ScoredCandidate
  runner_up : ℚ
  runner_up_id : Option String

def contest_of : List ScoredCandidate → Option Contest
  | [] => none
  | [best] => some ⟨best, 0, none⟩
  | best :: second :: _ => some ⟨best, second.score, some second.logical_id⟩

def decide_contest (incoming : LogicalUnitFingerprint)
    (fingerprint : Nat → LogicalUnitFingerprint) (seed_logical_id : Option String)
    (contest : Contest) : LogicalIdentityDecision :=
  resolver.decide_pair unicode incoming (fingerprint contest.best.position)
    ⟨contest.best.score, contest.best.signals, contest.best.missing⟩ contest.runner_up
    contest.runner_up_id seed_logical_id

def examine (index : BlockingCandidateIndex) (prepared_incoming : PreparedFeatures)
    (entry : RankKey) : ScoredCandidate :=
  .of (resolver.score_pair_prepared (index.features entry.position) prepared_incoming)
    entry.logical_id entry.position

def past_second : List ScoredCandidate → RankKey → Bool
  | [_, second], entry => second.key < entry
  | _, _ => false

-- The best two examined so far, until the next bound is past the second.
def examine_in_order (index : BlockingCandidateIndex) (prepared_incoming : PreparedFeatures) :
    List ScoredCandidate → List RankKey → List ScoredCandidate
  | top, [] => top
  | top, entry :: rest =>
      if past_second top entry then top
      else
        let scored := examine resolver index prepared_incoming entry
        examine_in_order index prepared_incoming
          ((Ranked.rank ScoredCandidate.key (top ++ [scored])).take 2) rest

def resolve (incoming : LogicalUnitFingerprint) (previous : List LogicalUnitFingerprint)
    (seed_logical_id : Option String) (given_index : Option BlockingCandidateIndex) :
    Except String LogicalIdentityDecision :=
  if previous = [] then
    .ok { verdict := .NEW
          logical_id := some (seed_or seed_logical_id incoming.logical_id)
          score := 0
          reason := "no prior version to continue from" }
  else
    let index := given_index.getD (.build unicode previous)
    if index.fingerprints.length ≠ previous.length then
      .error "the candidate index was built over a different corpus"
    else
      let (prepared_incoming, order) := index.examination_order unicode incoming resolver
      let top := resolver.examine_in_order index prepared_incoming [] order
      match contest_of top with
      | none => .error "list index out of range"
      | some contest =>
          .ok (resolver.decide_contest unicode incoming index.fingerprint seed_logical_id contest)

-- Every candidate of the corpus with its full score.
def scored_corpus (incoming : LogicalUnitFingerprint) (previous : List LogicalUnitFingerprint) :
    List ScoredCandidate :=
  previous.zipIdx.map (fun entry =>
    .of (resolver.score_pair unicode entry.1 incoming) entry.1.logical_id entry.2)

def top_two (candidates : List ScoredCandidate) : List ScoredCandidate :=
  Ranked.leading ScoredCandidate.key 2 candidates

-- The reference: score the whole corpus, sort it, and decide on the first two.
def whole_corpus_scan (incoming : LogicalUnitFingerprint)
    (previous : List LogicalUnitFingerprint) (seed_logical_id : Option String) :
    Option LogicalIdentityDecision :=
  (contest_of (top_two (resolver.scored_corpus unicode incoming previous))).map
    (resolver.decide_contest unicode incoming (fun position => previous[position]!)
      seed_logical_id)

end LogicalIdentityResolver

end KnowledgeCompiler.Identity
