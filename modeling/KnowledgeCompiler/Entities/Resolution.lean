import KnowledgeCompiler.Entities.Registry
import KnowledgeCompiler.Identity.Fingerprint
import KnowledgeCompiler.Lib.Binary64.Sum
import KnowledgeCompiler.Lib.Ranked
import Mathlib.Data.Finset.Card
import Mathlib.Data.Prod.Lex

namespace KnowledgeCompiler.Entities

open Lib Identity

def HIGH_RISK_TYPES : List String := ["person", "customer", "contract", "supplier", "account"]

-- `_NON_ALNUM.sub(" ", text)`
def sub_non_alnum (is_word : Char → Bool) : List Char → List Char
  | [] => []
  | c :: rest =>
      if is_word c then c :: sub_non_alnum is_word rest
      else
        match rest with
        | [] => [' ']
        | next :: _ =>
            if is_word next then ' ' :: sub_non_alnum is_word rest else sub_non_alnum is_word rest

def normalize_mention (unicode : Unicode) (text : String) : String :=
  let folded := unicode.casefold (String.ofList (Text.strip (unicode.nfkc text).toList))
  String.ofList (Text.strip (sub_non_alnum unicode.is_word folded.toList))

-- A mention has evidence, or it is refused.
structure EntityMention where
  mention_id : String
  text : String
  evidence_id : String
  type_candidate : String := ""
  attributes : Dict String String := .empty
  external_ids : Dict String String := .empty
  context_ids : Finset String := ∅
  evidenced : evidence_id ≠ ""

-- A ratio of two counts, as a float.
def ratio (shared total : ℕ) : ℚ := Binary64.rounded (shared / total)

def overlap {α : Type} [DecidableEq α] (left right : Finset α) : ℚ :=
  if left = ∅ ∨ right = ∅ then 0 else ratio (left ∩ right).card (left ∪ right).card

def _context_overlap (left right : EntityMention) : ℚ := overlap left.context_ids right.context_ids

section Mentions

variable (unicode : Unicode)

def EntityMention.normalized (mention : EntityMention) : String := normalize_mention unicode mention.text

def _composite_key (mention : EntityMention) : Option (List String) :=
  if mention.attributes.entries.length < 2 then none
  else
    some ((Ranked.rank (fun item : String × String => toLex item) mention.attributes.entries).map
      fun item => s!"{item.1}={normalize_mention unicode item.2}")

def tokens (mention : EntityMention) : Finset (List Char) :=
  (Text.words (mention.normalized unicode).toList).toFinset

def _name_similarity (left right : EntityMention) : ℚ := overlap (tokens unicode left) (tokens unicode right)

end Mentions

abbrev Candidates : Type := List (String × EntityMention)

-- `sorted(pairs, reverse=True)`
def descending (pairs : List (ℚ × String)) : List (ℚ × String) :=
  Ranked.rank (fun pair => OrderDual.toDual (toLex pair)) pairs

def scored (score : EntityMention → ℚ) (entries : Candidates) : List (ℚ × String) :=
  entries.map fun entry => (score entry.2, entry.1)

section Tiers

variable (unicode : Unicode) (mention : EntityMention) (candidates : Candidates)

def high_risk : Bool := HIGH_RISK_TYPES.contains mention.type_candidate

-- The candidates that carry one of the mention's external ids.
def external_matches : List String :=
  (candidates.filter fun entry => mention.external_ids.entries.any fun pair =>
    entry.2.external_ids.get? pair.1 = some pair.2).map Prod.fst

def system_of_record : Option MergeDecision :=
  match external_matches mention candidates with
  | [] => none
  | [found] =>
      some { verdict := .AUTO_MERGE, entity_id := some found, tier := some .SYSTEM_OF_RECORD
             score := .finite 1, reason := "an external system identifier matched exactly"
             candidates := [found] }
  | matched =>
      some { verdict := .REVIEW, entity_id := none, tier := some .SYSTEM_OF_RECORD, score := .finite 1
             reason := "one external identifier matched several entities; the " ++
               "system of record disagrees with itself"
             candidates := matched.insertionSort (· ≤ ·) }

def alias_target (aliases : Dict String String) : Option String :=
  (aliases.get? (mention.normalized unicode)).filter fun target =>
    target ≠ "" && candidates.any (·.1 = target)

def approved_alias (aliases : Dict String String) : Option MergeDecision :=
  (alias_target unicode mention candidates aliases).map fun target =>
    { verdict := .AUTO_MERGE, entity_id := some target, tier := some .APPROVED_ALIAS, score := .finite 1
      reason := "an approved alias names this entity", candidates := [target] }

def composite_matches : List String :=
  match _composite_key unicode mention with
  | none => []
  | some key =>
      (candidates.filter fun entry => _composite_key unicode entry.2 = some key &&
        entry.2.normalized unicode = mention.normalized unicode).map Prod.fst

def composite_key : Option MergeDecision :=
  match composite_matches unicode mention candidates with
  | [found] =>
      some { verdict := .AUTO_MERGE, entity_id := some found, tier := some .COMPOSITE_KEY
             score := .finite 1
             reason := "composite key " ++ "|".intercalate ((_composite_key unicode mention).getD []) ++
               " matched exactly"
             candidates := [found] }
  | _ => none

-- A threshold of zero does not make nothing count.
def reaches (threshold : Binary64) (score : ℚ) : Bool := 0 < score && threshold.le (.finite score)

def same_type : Candidates :=
  candidates.filter fun entry => entry.2.type_candidate = mention.type_candidate

def context_overlap (context_threshold : Binary64) : Option MergeDecision :=
  match descending (scored (_context_overlap mention) (same_type mention candidates)) with
  | [] => none
  | (score, entity_id) :: _ =>
      if reaches context_threshold score then
        some { verdict := if high_risk mention then .REVIEW else .AUTO_MERGE
               entity_id := if high_risk mention then none else some entity_id
               tier := some .CONTEXT_OVERLAP, score := .finite score
               reason := s!"context overlap {Text.fixed2 score} with matching type" ++
                 if high_risk mention then
                   s!"; {mention.type_candidate} is high-risk and does not " ++
                     "auto-merge without an identifier"
                 else ""
               candidates := [entity_id] }
      else none

-- `score - runner_up < 0.05`
def too_close (score runner_up : ℚ) : Bool := Binary64.rounded (score - runner_up) < Binary64.rounded (1 / 20)

def name_decision (score : ℚ) (entity_id : String) : MergeDecision where
  verdict := if high_risk mention then .REVIEW else .AUTO_MERGE
  entity_id := if high_risk mention then none else some entity_id
  tier := some .NAME_SIMILARITY
  score := .finite score
  reason := s!"name similarity {Text.fixed2 score}" ++
    if high_risk mention then
      s!"; {mention.type_candidate} is high-risk and a resemblance is not an identifier"
    else ""
  candidates := [entity_id]

def name_similarity (name_threshold : Binary64) : Option MergeDecision :=
  match descending (scored (_name_similarity unicode mention) candidates) with
  | [] => none
  | (score, entity_id) :: others =>
      if reaches name_threshold score then
        match others with
        | [] => some (name_decision mention score entity_id)
        | (runner_up, next) :: _ =>
            if too_close score runner_up then
              some { verdict := .REVIEW, entity_id := none, tier := some .NAME_SIMILARITY
                     score := .finite score
                     reason := s!"two entities have equally similar names ({Text.fixed2 score} and " ++
                       s!"{Text.fixed2 runner_up})"
                     candidates := [entity_id, next] }
            else some (name_decision mention score entity_id)
      else none

def model_proposal (model_proposals : List String) : Option MergeDecision :=
  let proposed := model_proposals.filter fun entity_id => candidates.any (·.1 = entity_id)
  if proposed = [] then none
  else
    some { verdict := .REVIEW, entity_id := none, tier := some .MODEL_PROPOSAL, score := .finite 0
           reason := "a model proposed this match; §N16.2 lets it propose and not " ++
             "execute, so the strongest outcome available here is review"
           candidates := proposed }

def no_match : MergeDecision where
  verdict := .NEW_ENTITY
  entity_id := none
  tier := none
  score := .finite 0
  reason := "no tier produced a match"

-- The first tier that answers.
def resolve_mention (aliases : Dict String String) (name_threshold context_threshold : Binary64)
    (model_proposals : List String) : MergeDecision :=
  (system_of_record mention candidates <|> approved_alias unicode mention candidates aliases <|>
    composite_key unicode mention candidates <|> context_overlap mention candidates context_threshold <|>
    name_similarity unicode mention candidates name_threshold <|>
    model_proposal candidates model_proposals).getD no_match

end Tiers

end KnowledgeCompiler.Entities
