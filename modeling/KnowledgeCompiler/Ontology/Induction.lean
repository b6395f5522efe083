import KnowledgeCompiler.Lib.Binary64
import KnowledgeCompiler.Lib.Datetime
import KnowledgeCompiler.Lib.Json
import KnowledgeCompiler.Lib.Sha256
import KnowledgeCompiler.Lib.Utf8

namespace KnowledgeCompiler.Ontology

open Lib
open Text (is_blank trim_where trim trim_trim)

-- The second names the field whose check fails, the last is raised where a quotient is too large
-- for a float.
inductive Raised
  | value_error (message : String)
  | validation_error (field : String)
  | overflow_error
deriving DecidableEq

section Strings

@[ext]
structure NonEmptyStr where
  text : String
  trimmed : trim text = text
  nonempty : text ≠ ""

instance : DecidableEq NonEmptyStr :=
  fun one other => decidable_of_iff (one.text = other.text) NonEmptyStr.ext_iff.symm

def non_empty_str (field value : String) : Except Raised NonEmptyStr :=
  if h : trim value = "" then .error (.validation_error field)
  else .ok ⟨trim value, trim_trim value, h⟩

structure StableId where
  text : String
  trimmed : trim text = text
  bounded : 3 ≤ text.length ∧ text.length ≤ 256
deriving DecidableEq

def stable_id (field value : String) : Except Raised StableId :=
  if h : 3 ≤ (trim value).length ∧ (trim value).length ≤ 256 then .ok ⟨trim value, trim_trim value, h⟩
  else .error (.validation_error field)

end Strings

structure CoOccurrence where
  entity_a : NonEmptyStr
  entity_b : NonEmptyStr
  count : ℕ
  counted : 1 ≤ count
  canonical : entity_a.text < entity_b.text

-- The proofs are what the model checks.
structure CorpusStats where
  corpus_id : StableId
  document_count : ℕ
  entity_mentions : Dict String ℕ
  co_occurrences : List CoOccurrence
  named : ∀ name ∈ entity_mentions.keys, trim name = name ∧ Text.strip name.toList ≠ []
  positive : ∀ name count, entity_mentions.get? name = some count → 0 < count
  observed : ∀ pair ∈ co_occurrences, pair.entity_a.text ∈ entity_mentions.keys ∧
    pair.entity_b.text ∈ entity_mentions.keys

def CorpusStats.total_mentions (stats : CorpusStats) : ℕ := stats.entity_mentions.values.sum

-- `stats.entity_mentions[name]` of a name that has been observed
def CorpusStats.mentions (stats : CorpusStats) (name : String) : ℕ :=
  (stats.entity_mentions.get? name).getD 0

-- `ge=0.0` and `le=1.0`
def in_unit (value : Binary64) : Bool :=
  !value.lt (.finite 0) && !(Binary64.finite 1).lt value

structure InductionConfig where
  min_mention_frequency : ℕ := 3
  max_entity_kinds : ℕ := 12
  min_co_occurrence : ℕ := 2
  min_pair_affinity : Binary64 := .of (5 / 100)
  max_relation_candidates : ℕ := 16
  positive : 1 ≤ min_mention_frequency ∧ 1 ≤ max_entity_kinds ∧ 1 ≤ min_co_occurrence
  affinity_bounded : in_unit min_pair_affinity = true

-- `InductionConfig()`
def default_config : InductionConfig where
  positive := by decide
  affinity_bounded := by decide +kernel

structure EntityCandidate where
  name : NonEmptyStr
  suggested_kind : NonEmptyStr
  mention_frequency : ℕ
  mention_share : Binary64
  counted : 1 ≤ mention_frequency
  share_bounded : in_unit mention_share = true
deriving DecidableEq

def entity_candidate (name suggested_kind : String) (mention_frequency : ℕ) (mention_share : Binary64) :
    Except Raised EntityCandidate := do
  let name ← non_empty_str "name" name
  let suggested_kind ← non_empty_str "suggestedKind" suggested_kind
  if hcounted : 1 ≤ mention_frequency then
    if hshare : in_unit mention_share = true then
      .ok { name, suggested_kind, mention_frequency, mention_share, counted := hcounted,
            share_bounded := hshare }
    else .error (.validation_error "mentionShare")
  else .error (.validation_error "mentionFrequency")

structure RelationCandidate where
  source : NonEmptyStr
  target : NonEmptyStr
  suggested_kind : NonEmptyStr
  support : ℕ
  affinity : Binary64
  supported : 1 ≤ support
  affinity_bounded : in_unit affinity = true
deriving DecidableEq

def relation_candidate (source target suggested_kind : String) (support : ℕ) (affinity : Binary64) :
    Except Raised RelationCandidate := do
  let source ← non_empty_str "source" source
  let target ← non_empty_str "target" target
  let suggested_kind ← non_empty_str "suggestedKind" suggested_kind
  if hsupported : 1 ≤ support then
    if haffinity : in_unit affinity = true then
      .ok { source, target, suggested_kind, support, affinity, supported := hsupported,
            affinity_bounded := haffinity }
    else .error (.validation_error "affinity")
  else .error (.validation_error "support")

structure OntologyProposal where
  proposal_id : StableId
  corpus_id : StableId
  method : NonEmptyStr
  observed_document_count : ℕ
  entity_candidates : List EntityCandidate
  relation_candidates : List RelationCandidate
  created_at : Datetime
  aware : created_at.utcoffset.isSome = true

-- `str.lower` and `str.isalnum`; a letter or a digit is no blank.
structure Characters where
  lower : String → String
  isalnum : Char → Bool
  visible : ∀ c, isalnum c = true → is_blank c = false

section Induction

variable (characters : Characters)

-- `slug.replace("__", "_")`
def replace_double : List Char → List Char
  | '_' :: '_' :: rest => '_' :: replace_double rest
  | c :: rest => c :: replace_double rest
  | [] => []

-- `"__" in slug`
def has_double : List Char → Bool
  | '_' :: '_' :: _ => true
  | _ :: rest => has_double rest
  | [] => false

-- `while "__" in slug`; each turn makes the slug shorter.
def collapse : ℕ → List Char → List Char
  | 0, slug => slug
  | fuel + 1, slug => if has_double slug then collapse fuel (replace_double slug) else slug

def _kind_slug (surface : String) : String :=
  let lowered := characters.lower surface
  let slug := lowered.toList.map (fun ch => if characters.isalnum ch then ch else '_')
  String.ofList (trim_where (· = '_') (collapse slug.length slug))

-- `(-item[1], item[0])`
def ranked_before (first second : String × ℕ) : Prop :=
  second.2 < first.2 ∨ first.2 = second.2 ∧ first.1 ≤ second.1

instance : DecidableRel ranked_before := fun _ _ => inferInstanceAs (Decidable (_ ∨ _ ∧ _))

def _ranked_entities (stats : CorpusStats) (config : InductionConfig) : List (String × ℕ) :=
  let qualified := stats.entity_mentions.entries.filter
    (fun item => config.min_mention_frequency ≤ item.2)
  (qualified.insertionSort ranked_before).take config.max_entity_kinds

-- `a / b` of integers
def true_div (a b : ℕ) : Except Raised Binary64 :=
  match Binary64.quotient? a b with
  | some quotient => .ok quotient
  | none => .error .overflow_error

-- `(a / b) if b else 0.0`
def ratio (a b : ℕ) : Except Raised Binary64 := if b ≠ 0 then true_div a b else .ok (.finite 0)

-- A slug that has come before is numbered.
def kind_name (slug : String) (occurrences : ℕ) : String :=
  if occurrences = 0 then slug else s!"{slug}_{occurrences + 1}"

def slug_of (name : String) : String :=
  let slug := _kind_slug characters name
  if slug = "" then "entity" else slug

def induce_entity (total : ℕ) (state : List EntityCandidate × Dict String ℕ) (item : String × ℕ) :
    Except Raised (List EntityCandidate × Dict String ℕ) := do
  let slug := slug_of characters item.1
  let occurrences := (state.2.get? slug).getD 0
  let share ← ratio item.2 total
  let candidate ← entity_candidate item.1 (kind_name slug occurrences) item.2 share
  return (state.1 ++ [candidate], state.2.set slug (occurrences + 1))

def _induce_entity_candidates (stats : CorpusStats) (config : InductionConfig) :
    Except Raised (List EntityCandidate) := do
  let induced ← (_ranked_entities stats config).foldlM
    (induce_entity characters stats.total_mentions) ([], .empty)
  return induced.1

structure RelationPair where
  count : ℕ
  entity_a : String
  entity_b : String
  affinity : Binary64

def induce_pair (stats : CorpusStats) (config : InductionConfig) (pairs : List RelationPair)
    (pair : CoOccurrence) : Except Raised (List RelationPair) :=
  if pair.count < config.min_co_occurrence then .ok pairs
  else do
    let floor := min (stats.mentions pair.entity_a.text) (stats.mentions pair.entity_b.text)
    let affinity ← ratio pair.count floor
    if affinity.lt config.min_pair_affinity then .ok pairs
    else .ok (pairs ++ [⟨pair.count, pair.entity_a.text, pair.entity_b.text, affinity⟩])

-- `(-item[0], item[1], item[2])`
def pair_before (first second : RelationPair) : Prop :=
  second.count < first.count ∨ first.count = second.count ∧
    (first.entity_a < second.entity_a ∨
      first.entity_a = second.entity_a ∧ first.entity_b ≤ second.entity_b)

instance : DecidableRel pair_before := fun _ _ => inferInstanceAs (Decidable (_ ∨ _ ∧ (_ ∨ _ ∧ _)))

def RELATES_TO_KIND : String := "relates_to"

def _induce_relation_candidates (stats : CorpusStats) (config : InductionConfig) :
    Except Raised (List RelationCandidate) := do
  let pairs ← stats.co_occurrences.foldlM (induce_pair stats config) []
  ((pairs.insertionSort pair_before).take config.max_relation_candidates).mapM (fun pair =>
    relation_candidate pair.entity_a pair.entity_b RELATES_TO_KIND pair.count pair.affinity)

def INDUCTION_METHOD : String := "frequency_cooccurrence_v1"

def float_json (value : Binary64) : Json := .float value.repr

def EntityCandidate.dump (candidate : EntityCandidate) : Json := .obj
  [("name", .str candidate.name.text), ("suggestedKind", .str candidate.suggested_kind.text),
    ("mentionFrequency", .int candidate.mention_frequency),
    ("mentionShare", float_json candidate.mention_share)]

def RelationCandidate.dump (candidate : RelationCandidate) : Json := .obj
  [("source", .str candidate.source.text), ("target", .str candidate.target.text),
    ("suggestedKind", .str candidate.suggested_kind.text), ("support", .int candidate.support),
    ("affinity", float_json candidate.affinity)]

variable (hasher : Hasher)

def _compute_proposal_id (body : Json) : String :=
  "prop_" ++ String.ofList ((hasher.hexdigest (Utf8.encode (Json.dumps body))).toList.take 16)

-- Candidates that have been checked pass the checks of the proposal as they are.
def propose (stats : CorpusStats) (config : InductionConfig) (now : Datetime) :
    Except Raised OntologyProposal :=
  if haware : now.utcoffset.isSome = true then do
    let entity_candidates ← _induce_entity_candidates characters stats config
    let relation_candidates ← _induce_relation_candidates stats config
    let body : Json := .obj
      [("corpus_id", .str stats.corpus_id.text), ("method", .str INDUCTION_METHOD),
        ("observed_document_count", .int stats.document_count),
        ("entity_candidates", .arr (entity_candidates.map EntityCandidate.dump)),
        ("relation_candidates", .arr (relation_candidates.map RelationCandidate.dump))]
    let proposal_id ← stable_id "proposalId" (_compute_proposal_id hasher body)
    let method ← non_empty_str "method" INDUCTION_METHOD
    .ok
      { proposal_id
        corpus_id := stats.corpus_id
        method
        observed_document_count := stats.document_count
        entity_candidates
        relation_candidates
        created_at := now
        aware := haware }
  else .error (.value_error "timestamp must be timezone-aware")

end Induction

end KnowledgeCompiler.Ontology
