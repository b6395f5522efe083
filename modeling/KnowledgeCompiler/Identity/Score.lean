import KnowledgeCompiler.Identity.Fingerprint
import Mathlib.Data.Finset.Card
import Mathlib.Algebra.Order.BigOperators.Group.List
import Mathlib.Tactic.Linarith
import Mathlib.Tactic.Positivity

namespace KnowledgeCompiler.Identity

open Lib

def split_tokens (text : String) : List String :=
  (Text.words text.toList).map String.ofList

def token_set (normalized : String) : Finset String × Nat :=
  let tokens := (split_tokens normalized).toFinset
  (tokens, tokens.card)

def jaccard_sets (left right : Finset String) : ℚ :=
  if left = ∅ ∧ right = ∅ then 1
  else if left = ∅ ∨ right = ∅ then 0
  else (left ∩ right).card / (left ∪ right).card

def jaccard (left right : String) : ℚ :=
  jaccard_sets (split_tokens left).toFinset (split_tokens right).toFinset

-- How many leading parts two paths share.
def shared : List String → List String → Nat
  | a :: left, b :: right => if a = b then shared left right + 1 else 0
  | _, _ => 0

def prefix_agreement (left right : List String) : ℚ :=
  if left = [] ∧ right = [] then 1
  else
    let longest := max left.length right.length
    if longest = 0 then 1 else shared left right / longest

def path_agreement (unicode : Unicode) (left right : List String) : ℚ :=
  if left = [] ∧ right = [] then 1
  else
    let normalized_left := left.map (normalize_text_for_identity unicode)
    let normalized_right := right.map (normalize_text_for_identity unicode)
    let longest := max normalized_left.length normalized_right.length
    if longest = 0 then 1 else shared normalized_left normalized_right / longest

structure PreparedFeatures where
  fingerprint : LogicalUnitFingerprint
  lineage : String
  version_distance : Int
  norm_path : List String
  has_identifier : Bool
  norm_identifier : String
  norm_text : String
  text_tokens : Finset String
  text_token_count : Nat
  has_previous_anchor : Bool
  previous_anchor_tokens : Finset String
  previous_anchor_token_count : Nat
  has_next_anchor : Bool
  next_anchor_tokens : Finset String
  next_anchor_token_count : Nat
  has_geometry : Bool
  geometry_tokens : Finset String
  geometry_token_count : Nat
  has_anchor : Bool
  norm_anchor : String
deriving Inhabited

def prepare_features (unicode : Unicode) (unit : LogicalUnitFingerprint) : PreparedFeatures :=
  let text := token_set unit.normalized_text
  let previous := token_set (normalize_text_for_identity unicode unit.previous_anchor)
  let following := token_set (normalize_text_for_identity unicode unit.next_anchor)
  let geometry := token_set (normalize_text_for_identity unicode unit.geometry_style)
  { fingerprint := unit
    lineage := unit.source_lineage
    version_distance := unit.version_distance
    norm_path := unit.document_path.map (normalize_text_for_identity unicode)
    has_identifier := unit.explicit_identifier ≠ ""
    norm_identifier := normalize_text_for_identity unicode unit.explicit_identifier
    norm_text := unit.normalized_text
    text_tokens := text.1
    text_token_count := text.2
    has_previous_anchor := unit.previous_anchor ≠ ""
    previous_anchor_tokens := previous.1
    previous_anchor_token_count := previous.2
    has_next_anchor := unit.next_anchor ≠ ""
    next_anchor_tokens := following.1
    next_anchor_token_count := following.2
    has_geometry := unit.geometry_style ≠ ""
    geometry_tokens := geometry.1
    geometry_token_count := geometry.2
    has_anchor := unit.anchor ≠ ""
    norm_anchor := normalize_text_for_identity unicode unit.anchor }

@[simp] theorem prepare_features_fingerprint (unicode : Unicode) (unit : LogicalUnitFingerprint) :
    (prepare_features unicode unit).fingerprint = unit := rfl

-- What a signal came out as: a value, or the reason it has none.
abbrev Reading := Option ℚ × Option MissingReason

def present (raw : Signal → Reading) : List (Signal × ℚ) :=
  Signal.all.filterMap (fun signal => (raw signal).1.map (signal, ·))

def missing (raw : Signal → Reading) : List (Signal × MissingReason) :=
  Signal.all.filterMap (fun signal =>
    match (raw signal).1 with
    | some _ => none
    | none => some (signal, (raw signal).2.getD .MODEL_UNAVAILABLE))

-- The mean over the signals that have values, renormalised to their weight.
def weighted_mean (weights : Signal → ℚ) (values : List (Signal × ℚ)) : ℚ :=
  let available := (values.map (fun value => weights value.1)).sum
  if available ≤ 0 then 0
  else (values.map (fun value => value.2 * weights value.1)).sum / available

structure PairScore where
  score : ℚ
  signals : List (Signal × ℚ)
  missing : List (Signal × MissingReason)
deriving DecidableEq, Inhabited

def pair_score_of (weights : Signal → ℚ) (raw : Signal → Reading) : PairScore where
  score := weighted_mean weights (present raw)
  signals := present raw
  missing := missing raw

-- The decayed continuity of one source over `version_distance - 1` steps.
def lineage_value (version_distance : Int) : ℚ :=
  max LINEAGE_FLOOR (1 - LINEAGE_DECAY * (max 0 (version_distance - 1) : Int))

def source_continuity (candidate incoming : LogicalUnitFingerprint) : Reading :=
  if candidate.source_lineage = "" ∨ incoming.source_lineage = "" then (none, some .NOT_APPLICABLE)
  else if candidate.source_lineage ≠ incoming.source_lineage then (some 0, none)
  else (some (lineage_value candidate.version_distance), none)

def explicit_identifier (unicode : Unicode) (candidate incoming : LogicalUnitFingerprint) :
    Reading :=
  if candidate.explicit_identifier = "" ∨ incoming.explicit_identifier = "" then
    (none, some .NOT_APPLICABLE)
  else
    let left := normalize_text_for_identity unicode candidate.explicit_identifier
    let right := normalize_text_for_identity unicode incoming.explicit_identifier
    (some (if left = right then 1 else 0), none)

def anchor_pair (unicode : Unicode) (left right : String) : Reading :=
  if left = "" ∨ right = "" then (none, some .NOT_APPLICABLE)
  else
    (some (jaccard (normalize_text_for_identity unicode left)
      (normalize_text_for_identity unicode right)), none)

def signals (unicode : Unicode) (candidate incoming : LogicalUnitFingerprint) : Signal → Reading
  | .source_continuity => source_continuity candidate incoming
  | .structural_path =>
      (some (path_agreement unicode candidate.document_path incoming.document_path), none)
  | .explicit_identifier => explicit_identifier unicode candidate incoming
  | .semantic =>
      if candidate.normalized_text = "" ∧ incoming.normalized_text = "" then
        (none, some .NOT_APPLICABLE)
      else (some (jaccard candidate.normalized_text incoming.normalized_text), none)
  | .previous_neighbor => anchor_pair unicode candidate.previous_anchor incoming.previous_anchor
  | .next_neighbor => anchor_pair unicode candidate.next_anchor incoming.next_anchor
  | .geometry_style => anchor_pair unicode candidate.geometry_style incoming.geometry_style

def source_continuity_prepared (candidate incoming : PreparedFeatures) : Reading :=
  if candidate.lineage = "" ∨ incoming.lineage = "" then (none, some .NOT_APPLICABLE)
  else if candidate.lineage ≠ incoming.lineage then (some 0, none)
  else (some (lineage_value candidate.version_distance), none)

def explicit_identifier_prepared (candidate incoming : PreparedFeatures) : Reading :=
  if !candidate.has_identifier || !incoming.has_identifier then (none, some .NOT_APPLICABLE)
  else (some (if candidate.norm_identifier = incoming.norm_identifier then 1 else 0), none)

def anchor_pair_prepared (has_left : Bool) (left_tokens : Finset String) (has_right : Bool)
    (right_tokens : Finset String) : Reading :=
  if !has_left || !has_right then (none, some .NOT_APPLICABLE)
  else (some (jaccard_sets left_tokens right_tokens), none)

def signals_prepared (candidate incoming : PreparedFeatures) : Signal → Reading
  | .source_continuity => source_continuity_prepared candidate incoming
  | .structural_path => (some (prefix_agreement candidate.norm_path incoming.norm_path), none)
  | .explicit_identifier => explicit_identifier_prepared candidate incoming
  | .semantic =>
      if candidate.norm_text = "" ∧ incoming.norm_text = "" then (none, some .NOT_APPLICABLE)
      else (some (jaccard_sets candidate.text_tokens incoming.text_tokens), none)
  | .previous_neighbor =>
      anchor_pair_prepared candidate.has_previous_anchor candidate.previous_anchor_tokens
        incoming.has_previous_anchor incoming.previous_anchor_tokens
  | .next_neighbor =>
      anchor_pair_prepared candidate.has_next_anchor candidate.next_anchor_tokens
        incoming.has_next_anchor incoming.next_anchor_tokens
  | .geometry_style =>
      anchor_pair_prepared candidate.has_geometry candidate.geometry_tokens
        incoming.has_geometry incoming.geometry_tokens

def token_ratio_bound (count other : Nat) : ℚ :=
  let largest := max count other
  if largest = 0 then 1 else (min count other : Nat) / largest

-- A ceiling for each signal that has a value; the Jaccard signals are bounded
-- by their token counts alone.
def signal_bounds (candidate incoming : PreparedFeatures) : Signal → Option ℚ
  | .source_continuity =>
      if candidate.lineage ≠ "" ∧ incoming.lineage ≠ "" then
        some (if candidate.lineage = incoming.lineage then 1 else 0)
      else none
  | .structural_path => some (prefix_agreement candidate.norm_path incoming.norm_path)
  | .explicit_identifier =>
      if candidate.has_identifier && incoming.has_identifier then
        some (if candidate.norm_identifier = incoming.norm_identifier then 1 else 0)
      else none
  | .semantic =>
      if candidate.norm_text ≠ "" ∨ incoming.norm_text ≠ "" then
        some (token_ratio_bound candidate.text_token_count incoming.text_token_count)
      else none
  | .previous_neighbor =>
      if candidate.has_previous_anchor && incoming.has_previous_anchor then
        some (token_ratio_bound candidate.previous_anchor_token_count
          incoming.previous_anchor_token_count)
      else none
  | .next_neighbor =>
      if candidate.has_next_anchor && incoming.has_next_anchor then
        some (token_ratio_bound candidate.next_anchor_token_count incoming.next_anchor_token_count)
      else none
  | .geometry_style =>
      if candidate.has_geometry && incoming.has_geometry then
        some (token_ratio_bound candidate.geometry_token_count incoming.geometry_token_count)
      else none

def pair_score_upper_bound (candidate incoming : PreparedFeatures) (bound_weights : Signal → ℚ) :
    ℚ :=
  weighted_mean bound_weights
    (present (fun signal => (signal_bounds candidate incoming signal, none)))

namespace LogicalIdentityResolver

variable (resolver : LogicalIdentityResolver)

def score_pair (unicode : Unicode) (candidate incoming : LogicalUnitFingerprint) : PairScore :=
  pair_score_of resolver.weights (signals unicode candidate incoming)

def score_pair_prepared (candidate incoming : PreparedFeatures) : PairScore :=
  pair_score_of resolver.weights (signals_prepared candidate incoming)

end LogicalIdentityResolver

theorem path_agreement_eq (unicode : Unicode) (left right : List String) :
    path_agreement unicode left right =
      prefix_agreement (left.map (normalize_text_for_identity unicode))
        (right.map (normalize_text_for_identity unicode)) := by
  simp [path_agreement, prefix_agreement]

theorem signals_prepared_eq (unicode : Unicode) (candidate incoming : LogicalUnitFingerprint) :
    signals_prepared (prepare_features unicode candidate) (prepare_features unicode incoming) =
      signals unicode candidate incoming := by
  funext signal
  cases signal <;>
    simp [signals_prepared, signals, prepare_features, source_continuity_prepared,
      source_continuity, explicit_identifier_prepared, explicit_identifier, anchor_pair_prepared,
      anchor_pair, path_agreement_eq, jaccard, token_set]

-- Scoring prepared features gives the numbers that scoring the raw units gives.
theorem score_pair_prepared_eq (unicode : Unicode) (resolver : LogicalIdentityResolver)
    (candidate incoming : LogicalUnitFingerprint) :
    resolver.score_pair_prepared (prepare_features unicode candidate)
      (prepare_features unicode incoming) = resolver.score_pair unicode candidate incoming := by
  unfold LogicalIdentityResolver.score_pair_prepared LogicalIdentityResolver.score_pair
  rw [signals_prepared_eq]

section Values

theorem lineage_value_le_one (distance : Int) : lineage_value distance ≤ 1 := by
  have hs : (0 : ℚ) ≤ ((max 0 (distance - 1) : Int) : ℚ) := by exact_mod_cast le_max_left _ _
  have hd : 0 ≤ LINEAGE_DECAY * ((max 0 (distance - 1) : Int) : ℚ) :=
    mul_nonneg (by norm_num [LINEAGE_DECAY]) hs
  exact max_le (by norm_num [LINEAGE_FLOOR]) (by linarith)

theorem jaccard_sets_le_ratio (left right : Finset String) :
    jaccard_sets left right ≤ token_ratio_bound left.card right.card := by
  unfold jaccard_sets token_ratio_bound
  dsimp only
  by_cases hb : left = ∅ ∧ right = ∅
  · simp [hb]
  by_cases he : left = ∅ ∨ right = ∅
  · simp only [hb, he, ite_true, ite_false]
    split_ifs <;> positivity
  simp only [hb, he, ite_false]
  have hl : 0 < left.card := Finset.card_pos.mpr
    (Finset.nonempty_iff_ne_empty.mpr (fun h => he (Or.inl h)))
  have hmax : max left.card right.card ≠ 0 := by omega
  simp only [hmax, ite_false]
  have hnum : (left ∩ right).card ≤ min left.card right.card :=
    le_min (Finset.card_le_card Finset.inter_subset_left)
      (Finset.card_le_card Finset.inter_subset_right)
  have hden : max left.card right.card ≤ (left ∪ right).card :=
    max_le (Finset.card_le_card Finset.subset_union_left)
      (Finset.card_le_card Finset.subset_union_right)
  have hpos : (0 : ℚ) < (max left.card right.card : Nat) := by exact_mod_cast Nat.pos_of_ne_zero hmax
  exact div_le_div₀ (by positivity) (by exact_mod_cast hnum) hpos (by exact_mod_cast hden)

end Values

-- One reading is bounded by another when both are missing or both have values in order.
def ReadingLe : Option ℚ → Option ℚ → Prop
  | none, none => True
  | some value, some ceiling => value ≤ ceiling
  | _, _ => False

theorem weighted_mean_mono (weights : Signal → ℚ) (hw : ∀ signal, 0 ≤ weights signal)
    (first second : Signal → Reading) (hle : ∀ signal, ReadingLe (first signal).1 (second signal).1) :
    weighted_mean weights (present first) ≤ weighted_mean weights (present second) := by
  have hsum (order : List Signal) :
      ((order.filterMap (fun s => (first s).1.map (s, ·))).map (fun v => weights v.1)).sum =
        ((order.filterMap (fun s => (second s).1.map (s, ·))).map (fun v => weights v.1)).sum ∧
      ((order.filterMap (fun s => (first s).1.map (s, ·))).map (fun v => v.2 * weights v.1)).sum ≤
        ((order.filterMap (fun s => (second s).1.map (s, ·))).map
          (fun v => v.2 * weights v.1)).sum := by
    induction order with
    | nil => simp
    | cons signal order ih =>
        have hs := hle signal
        cases hf : (first signal).1 with
        | none =>
            cases hg : (second signal).1 with
            | none => simpa [hf, hg] using ih
            | some ceiling => simp [hf, hg, ReadingLe] at hs
        | some value =>
            cases hg : (second signal).1 with
            | none => simp [hf, hg, ReadingLe] at hs
            | some ceiling =>
                rw [hf, hg] at hs
                have hm : value * weights signal ≤ ceiling * weights signal :=
                  mul_le_mul_of_nonneg_right hs (hw signal)
                simp only [List.filterMap_cons, hf, hg, Option.map_some, List.map_cons,
                  List.sum_cons, ih.1, true_and]
                exact add_le_add hm ih.2
  obtain ⟨ha, hv⟩ := hsum Signal.all
  unfold weighted_mean
  change (if (List.map (fun v => weights v.1) (present first)).sum ≤ 0 then _ else _) ≤
    (if (List.map (fun v => weights v.1) (present second)).sum ≤ 0 then _ else _)
  unfold present
  rw [ha]
  split_ifs with hpos
  · exact le_rfl
  · exact div_le_div_of_nonneg_right hv (le_of_lt (not_le.mp hpos))

-- The stored token counts are the sizes of the stored token sets.
structure PreparedFeatures.Counted (features : PreparedFeatures) : Prop where
  text : features.text_token_count = features.text_tokens.card
  previous : features.previous_anchor_token_count = features.previous_anchor_tokens.card
  following : features.next_anchor_token_count = features.next_anchor_tokens.card
  geometry : features.geometry_token_count = features.geometry_tokens.card

theorem prepare_features_counted (unicode : Unicode) (unit : LogicalUnitFingerprint) :
    (prepare_features unicode unit).Counted := by
  constructor <;> simp only [prepare_features, token_set]

private theorem anchor_pair_le_bound (has_left has_right : Bool) (left right : Finset String) :
    ReadingLe (anchor_pair_prepared has_left left has_right right).1
      (if has_left && has_right then some (token_ratio_bound left.card right.card) else none) := by
  cases has_left <;> cases has_right <;>
    simp [anchor_pair_prepared, ReadingLe, jaccard_sets_le_ratio]

theorem signals_le_bounds (candidate incoming : PreparedFeatures) (hc : candidate.Counted)
    (hi : incoming.Counted) (signal : Signal) :
    ReadingLe (signals_prepared candidate incoming signal).1
      (signal_bounds candidate incoming signal) := by
  cases signal with
  | source_continuity =>
      simp only [signals_prepared, signal_bounds, source_continuity_prepared]
      split_ifs <;> simp_all [ReadingLe, lineage_value_le_one]
  | structural_path => exact le_rfl
  | explicit_identifier =>
      simp only [signals_prepared, signal_bounds, explicit_identifier_prepared]
      split_ifs <;> simp_all [ReadingLe]
  | semantic =>
      simp only [signals_prepared, signal_bounds, hc.text, hi.text]
      by_cases he : candidate.norm_text = "" ∧ incoming.norm_text = ""
      · simp [he, ReadingLe]
      · rw [if_neg he, if_pos (not_and_or.mp he)]
        exact jaccard_sets_le_ratio _ _
  | previous_neighbor =>
      simp only [signal_bounds, hc.previous, hi.previous]
      exact anchor_pair_le_bound _ _ _ _
  | next_neighbor =>
      simp only [signal_bounds, hc.following, hi.following]
      exact anchor_pair_le_bound _ _ _ _
  | geometry_style =>
      simp only [signal_bounds, hc.geometry, hi.geometry]
      exact anchor_pair_le_bound _ _ _ _

-- The screening bound never under-estimates, whatever the nonnegative weights.
theorem score_le_upper_bound (unicode : Unicode) (resolver : LogicalIdentityResolver)
    (hw : ∀ signal, 0 ≤ resolver.weights signal) (candidate incoming : LogicalUnitFingerprint) :
    (resolver.score_pair unicode candidate incoming).score ≤
      pair_score_upper_bound (prepare_features unicode candidate)
        (prepare_features unicode incoming) resolver.weights := by
  rw [← score_pair_prepared_eq]
  exact weighted_mean_mono resolver.weights hw _ _
    (signals_le_bounds _ _ (prepare_features_counted unicode candidate)
      (prepare_features_counted unicode incoming))

end KnowledgeCompiler.Identity
