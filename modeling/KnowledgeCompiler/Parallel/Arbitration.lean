import KnowledgeCompiler.Lib.Minimum
import KnowledgeCompiler.Parallel.Models
import Mathlib.Data.Finset.Card

namespace KnowledgeCompiler.Parallel

open Lib

inductive ArbitrationBasis
  | AUTHORITY_EXACT
  | NATIVE_EXACT
  | PIXEL_SPECIALIST
  | INDEPENDENT_AGREEMENT
  | SOURCE_GEOMETRY
  | TABLE_CELL_MAP
  | DOWNSTREAM_CONSISTENCY
  | UNRESOLVED
deriving DecidableEq

def ArbitrationBasis.value : ArbitrationBasis → String
  | AUTHORITY_EXACT => "authority_exact"
  | NATIVE_EXACT => "native_exact"
  | PIXEL_SPECIALIST => "pixel_specialist"
  | INDEPENDENT_AGREEMENT => "independent_agreement"
  | SOURCE_GEOMETRY => "source_geometry"
  | TABLE_CELL_MAP => "table_cell_map"
  | DOWNSTREAM_CONSISTENCY => "downstream_consistency"
  | UNRESOLVED => "unresolved"

inductive ArbitrationFault
  | index_error (message : String)
  | runtime_error (message : String)
deriving DecidableEq

-- A decimal as a set or a dictionary keeps it: numbers by value, and a NaN by the object it is.
inductive NumericKey
  | number (value : ℚ)
  | infinity (negative : Bool)
  | nan (object : ℕ)
deriving DecidableEq

-- `first == second`
def NumericKey.equals : NumericKey → NumericKey → Bool
  | nan _, _ => false
  | first, second => first = second

structure NumericValue where
  value : Decimal
  object : ℕ

def NumericValue.key (numeric_value : NumericValue) : NumericKey :=
  match numeric_value.value with
  | .finite negative coefficient exponent =>
      .number (Decimal.toRat (.finite negative coefficient exponent))
  | .infinity negative => .infinity negative
  | .nan => .nan numeric_value.object

structure ArbitrationCandidate where
  attempt_id : String
  prediction_sha256 : String
  hard_gate_pass : Bool
  numeric_value : Option NumericValue
  structure_fingerprint : Option String
  independent_family : String
  authority_exact : Option Bool := none
  native_exact : Option Bool := none
  pixel_specialist_exact : Bool := false
  source_geometry_exact : Bool := false
  table_cell_map_exact : Bool := false
  downstream_consistent : Bool := false
  source_coverage : Binary64 := .finite 0
  structure_score : Binary64 := .finite 0
  cross_model_agreement : Binary64 := .finite 0
  runtime_reliability : Binary64 := .finite 0
  identified : (attempt_id ≠ "" ∧ independent_family ≠ "") ∧ is_sha256 prediction_sha256 = true
  scored : ∀ component ∈ [source_coverage, structure_score, cross_model_agreement,
    runtime_reliability], Binary64.between (.finite 1) component = true

namespace ArbitrationCandidate

def score (candidate : ArbitrationCandidate) : Option Binary64 :=
  if candidate.hard_gate_pass then
    some (Binary64.round
      (((((Binary64.of (30 / 100)).mul candidate.source_coverage).add
        ((Binary64.of (25 / 100)).mul candidate.structure_score)).add
        ((Binary64.of (20 / 100)).mul candidate.cross_model_agreement)).add
        ((Binary64.of (25 / 100)).mul candidate.runtime_reliability)) 12)
  else none

def numeric_key (candidate : ArbitrationCandidate) : Option NumericKey :=
  candidate.numeric_value.map NumericValue.key

-- `-(candidate.score or 0.0)`
def rank (candidate : ArbitrationCandidate) : Binary64 :=
  (candidate.score.getD (.finite 0)).neg

-- `(-(candidate.score or 0.0), candidate.attempt_id)` comes first.
def before (first second : ArbitrationCandidate) : Bool :=
  if first.rank = second.rank then first.attempt_id < second.attempt_id
  else first.rank.lt second.rank

end ArbitrationCandidate

structure ArbitrationDecision where
  decision_id : String
  scope_id : String
  selected_attempt_id : Option String
  selected_prediction_sha256 : Option String
  basis : ArbitrationBasis
  verification_state : VerificationState
  accepted : Bool
  billable : Bool
  reason_codes : List String
  considered_attempt_ids : List String
  excluded_hard_gate_attempt_ids : List String
  decision_sha256 : String
deriving DecidableEq

namespace Arbitrator

def _best (candidates : List ArbitrationCandidate) : Except ArbitrationFault ArbitrationCandidate :=
  match firstMin ArbitrationCandidate.before candidates with
  | some best => .ok best
  | none => .error (.index_error "list index out of range")

def attempt_ids (candidates : List ArbitrationCandidate) : List String :=
  candidates.map ArbitrationCandidate.attempt_id

section Decisions

variable (hasher : Hasher) (scope_id : String) (considered excluded : List ArbitrationCandidate)

def _unresolved (reasons : List String) : ArbitrationDecision :=
  let digest := canonical_sha256 hasher (.obj [("scope_id", .str scope_id),
    ("basis", .str ArbitrationBasis.UNRESOLVED.value),
    ("considered", strings_json (attempt_ids considered)),
    ("excluded", strings_json (attempt_ids excluded)), ("reasons", strings_json reasons)])
  { decision_id := stable_id hasher "arbitration" [.str scope_id, .str digest]
    scope_id
    selected_attempt_id := none
    selected_prediction_sha256 := none
    basis := .UNRESOLVED
    verification_state := .UNRESOLVED
    accepted := false
    billable := false
    reason_codes := reasons
    considered_attempt_ids := attempt_ids considered
    excluded_hard_gate_attempt_ids := attempt_ids excluded
    decision_sha256 := digest }

def _selected (candidate : ArbitrationCandidate) (basis : ArbitrationBasis)
    (state : VerificationState) : ArbitrationDecision :=
  let digest := canonical_sha256 hasher (.obj [("scope_id", .str scope_id),
    ("attempt_id", .str candidate.attempt_id),
    ("prediction_sha256", .str candidate.prediction_sha256), ("basis", .str basis.value),
    ("state", .str state.value)])
  { decision_id := stable_id hasher "arbitration" [.str scope_id, .str digest]
    scope_id
    selected_attempt_id := some candidate.attempt_id
    selected_prediction_sha256 := some candidate.prediction_sha256
    basis
    verification_state := state
    accepted := true
    billable := true
    reason_codes := [basis.value]
    considered_attempt_ids := attempt_ids considered
    excluded_hard_gate_attempt_ids := attempt_ids excluded
    decision_sha256 := digest }

end Decisions

-- What a decision is made from.
inductive Ruling
  | unresolved (reason : String)
  | selected (candidate : ArbitrationCandidate) (basis : ArbitrationBasis)
      (state : VerificationState)

section Tiers

variable {α : Type} [DecidableEq α]

-- One tier of evidence, which decides as soon as any candidate holds it.
def tier (value_of : ArbitrationCandidate → Option α) (holds : ArbitrationCandidate → Bool)
    (basis : ArbitrationBasis) (state : VerificationState) (conflict : String)
    (eligible : List ArbitrationCandidate) : Except ArbitrationFault (Option Ruling) :=
  let supported := eligible.filter holds
  if supported.isEmpty then .ok none
  else if (supported.map value_of).toFinset.card ≠ 1 then .ok (some (.unresolved conflict))
  else (_best supported).map fun best => some (.selected best basis state)

-- The tier's ruling, or else what comes after it.
def decided (ruling : Except ArbitrationFault (Option Ruling))
    (next : Except ArbitrationFault Ruling) : Except ArbitrationFault Ruling :=
  match ruling with
  | .error raised => .error raised
  | .ok (some ruling) => .ok ruling
  | .ok none => next

def eligible_of (value_of : ArbitrationCandidate → Option α)
    (candidates : List ArbitrationCandidate) : List ArbitrationCandidate :=
  candidates.filter fun candidate => candidate.hard_gate_pass && (value_of candidate).isSome

end Tiers

abbrev Groups : Type := Dict NumericKey (Dict String (List ArbitrationCandidate))

def group (groups : Groups) (candidate : ArbitrationCandidate) : Except ArbitrationFault Groups :=
  match candidate.numeric_key with
  | none => .error (.runtime_error "eligible numeric candidate lost its numeric value")
  | some numeric_value => .ok (groups.update numeric_value fun families =>
      (families.getD .empty).update candidate.independent_family fun held =>
        held.getD [] ++ [candidate])

def by_value (eligible : List ArbitrationCandidate) : Except ArbitrationFault Groups :=
  eligible.foldlM group .empty

-- `independently_supported`
def supported_by_families (groups : Groups) :
    List (NumericKey × Dict String (List ArbitrationCandidate)) :=
  groups.entries.filter fun entry => 2 ≤ entry.2.entries.length

def agreement_of (eligible : List ArbitrationCandidate) :
    List (NumericKey × Dict String (List ArbitrationCandidate)) → Except ArbitrationFault Ruling
  | [(value, families)] =>
      (_best (eligible.filter fun candidate =>
        candidate.numeric_key.any (fun key => key.equals value) &&
          candidate.independent_family ∈ families.keys)).map fun best =>
            .selected best .INDEPENDENT_AGREEMENT .CROSS_MODEL_VERIFIED
  | [] => .ok (.unresolved "independent_agreement_insufficient")
  | _ => .ok (.unresolved "independent_values_conflict")

def independent_agreement (eligible : List ArbitrationCandidate) :
    Except ArbitrationFault Ruling := do
  let groups ← by_value eligible
  agreement_of eligible (supported_by_families groups)

def rule_numeric (authority_required : Bool) (eligible : List ArbitrationCandidate) :
    Except ArbitrationFault Ruling :=
  if eligible.isEmpty then .ok (.unresolved "no_hard_gate_passing_numeric_candidate")
  else decided (tier ArbitrationCandidate.numeric_key
      (fun candidate => candidate.authority_exact = some true) .AUTHORITY_EXACT
      .AUTHORITY_VERIFIED "authority_conflict" eligible) <|
    if eligible.any (fun candidate => candidate.authority_exact = some false) then
      .ok (.unresolved "authority_mismatch")
    else if authority_required then .ok (.unresolved "authority_required_but_unavailable")
    else decided (tier ArbitrationCandidate.numeric_key
        (fun candidate => candidate.native_exact = some true) .NATIVE_EXACT .VERIFIED
        "native_source_conflict" eligible) <|
      if eligible.any (fun candidate => candidate.native_exact = some false) then
        .ok (.unresolved "native_source_mismatch")
      else decided (tier ArbitrationCandidate.numeric_key
          ArbitrationCandidate.pixel_specialist_exact .PIXEL_SPECIALIST .VERIFIED
          "pixel_specialist_conflict" eligible)
        (independent_agreement eligible)

-- `tiers`
def structure_tiers : List (ArbitrationBasis × (ArbitrationCandidate → Bool)) :=
  [(.SOURCE_GEOMETRY, ArbitrationCandidate.source_geometry_exact),
    (.TABLE_CELL_MAP, ArbitrationCandidate.table_cell_map_exact),
    (.DOWNSTREAM_CONSISTENCY, ArbitrationCandidate.downstream_consistent)]

def rule_tiers (eligible : List ArbitrationCandidate) :
    List (ArbitrationBasis × (ArbitrationCandidate → Bool)) → Except ArbitrationFault Ruling
  | [] => .ok (.unresolved "objective_structure_evidence_insufficient")
  | (basis, predicate) :: rest =>
      decided (tier ArbitrationCandidate.structure_fingerprint predicate basis .VERIFIED
        (basis.value ++ "_conflict") eligible) (rule_tiers eligible rest)

def rule_structure (eligible : List ArbitrationCandidate) : Except ArbitrationFault Ruling :=
  if eligible.isEmpty then .ok (.unresolved "no_hard_gate_passing_structure_candidate")
  else rule_tiers eligible structure_tiers

section Arbitration

variable (hasher : Hasher) (scope_id : String)

def decision_on (candidates eligible : List ArbitrationCandidate) : Ruling → ArbitrationDecision :=
  let excluded := candidates.filter fun candidate => !candidate.hard_gate_pass
  fun
  | .unresolved reason => _unresolved hasher scope_id eligible excluded [reason]
  | .selected candidate basis state =>
      _selected hasher scope_id eligible excluded candidate basis state

def arbitrate_numeric (candidates : List ArbitrationCandidate) (authority_required : Bool) :
    Except ArbitrationFault ArbitrationDecision :=
  let eligible := eligible_of ArbitrationCandidate.numeric_key candidates
  (rule_numeric authority_required eligible).map (decision_on hasher scope_id candidates eligible)

def arbitrate_structure (candidates : List ArbitrationCandidate) :
    Except ArbitrationFault ArbitrationDecision :=
  let eligible := eligible_of ArbitrationCandidate.structure_fingerprint candidates
  (rule_structure eligible).map (decision_on hasher scope_id candidates eligible)

end Arbitration

end Arbitrator

end KnowledgeCompiler.Parallel
