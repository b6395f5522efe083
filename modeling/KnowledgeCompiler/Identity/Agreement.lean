import KnowledgeCompiler.Identity.Score
import KnowledgeCompiler.Lib.Dict
import KnowledgeCompiler.Lib.Method

namespace KnowledgeCompiler.Identity

open Lib

-- The dictionary of weights as a resolver keeps it. It may lack a signal or name others.
abbrev WeightTable := Dict String ℚ

namespace WeightTable

variable (weights : WeightTable)

-- A name that is not there raises `KeyError`.
def weight (signal : Signal) : Except String ℚ :=
  match weights.get? signal.name with
  | some value => .ok value
  | none => .error signal.name

def mean_score (raw : Signal → Reading) : Except String PairScore := do
  let values ← (present raw).mapM (fun value => weights.weight value.1)
  let available := values.sum
  if available ≤ 0 then
    return { score := 0, signals := present raw, missing := missing raw }
  let weighted ← (present raw).mapM (fun value => do return value.2 * (← weights.weight value.1))
  return { score := weighted.sum / available, signals := present raw, missing := missing raw }

def score_pair (unicode : Unicode) (candidate incoming : LogicalUnitFingerprint) :
    Except String PairScore :=
  weights.mean_score (signals unicode candidate incoming)

def score_pair_prepared (candidate incoming : PreparedFeatures) : Except String PairScore :=
  weights.mean_score (signals_prepared candidate incoming)

def bound_weights : Except String (Signal → ℚ) := do
  let source_continuity ← weights.weight .source_continuity
  let structural_path ← weights.weight .structural_path
  let explicit_identifier ← weights.weight .explicit_identifier
  let semantic ← weights.weight .semantic
  let previous_neighbor ← weights.weight .previous_neighbor
  let next_neighbor ← weights.weight .next_neighbor
  let geometry_style ← weights.weight .geometry_style
  return fun
    | .source_continuity => source_continuity
    | .structural_path => structural_path
    | .explicit_identifier => explicit_identifier
    | .semantic => semantic
    | .previous_neighbor => previous_neighbor
    | .next_neighbor => next_neighbor
    | .geometry_style => geometry_style

def score_upper_bound (candidate incoming : PreparedFeatures) : Except String ℚ := do
  let bound_weights ← weights.bound_weights
  return pair_score_upper_bound candidate incoming bound_weights

variable {weights}

theorem bound_weights_eq_ok {found : Signal → ℚ} (hfound : weights.bound_weights = .ok found)
    (signal : Signal) : weights.weight signal = .ok (found signal) := by
  unfold bound_weights at hfound
  simp only [Method.except_bind_eq_ok_iff] at hfound
  obtain ⟨_, hsource, _, hpath, _, hidentifier, _, hsemantic, _, hprevious, _, hnext, _, hgeometry,
    hvalue⟩ := hfound
  obtain rfl := Except.ok.inj hvalue
  cases signal with
  | source_continuity => exact hsource
  | structural_path => exact hpath
  | explicit_identifier => exact hidentifier
  | semantic => exact hsemantic
  | previous_neighbor => exact hprevious
  | next_neighbor => exact hnext
  | geometry_style => exact hgeometry

theorem weight_nonneg (hweights : ∀ value ∈ weights.values, 0 ≤ value) {signal : Signal}
    {value : ℚ} (hvalue : weights.weight signal = .ok value) : 0 ≤ value := by
  unfold weight at hvalue
  split at hvalue
  · rename_i found hfound
    obtain rfl := Except.ok.inj hvalue
    refine hweights found ?_
    exact List.mem_map.mpr ⟨(signal.name, found), (weights.mem_entries_iff _ _).mpr hfound, rfl⟩
  · cases hvalue

theorem mapM_eq_ok_map {step : Signal × ℚ → Except String ℚ} {change : Signal × ℚ → ℚ}
    (hstep : ∀ value, step value = .ok (change value)) (values : List (Signal × ℚ)) :
    values.mapM step = .ok (values.map change) := by
  rw [funext hstep]
  exact List.mapM_pure

-- A table that names every signal scores as its weights do.
theorem mean_score_eq {found : Signal → ℚ}
    (hfound : ∀ signal, weights.weight signal = .ok (found signal)) (raw : Signal → Reading) :
    weights.mean_score raw = .ok (pair_score_of found raw) := by
  have hvalues := mapM_eq_ok_map (fun value => hfound value.1) (present raw)
  have hproduct (value : Signal × ℚ) : (do return value.2 * (← weights.weight value.1)) =
      (.ok (value.2 * found value.1) : Except String ℚ) := by
    rw [hfound]
    rfl
  have hweighted := mapM_eq_ok_map hproduct (present raw)
  unfold mean_score pair_score_of weighted_mean
  rw [hvalues, hweighted]
  dsimp only [bind, Except.bind, pure, Except.pure]
  split_ifs <;> rfl

theorem prepared_score_eq (unicode : Unicode) (candidate incoming : LogicalUnitFingerprint) :
    weights.score_pair_prepared (prepare_features unicode candidate)
      (prepare_features unicode incoming) = weights.score_pair unicode candidate incoming := by
  unfold score_pair_prepared score_pair
  rw [signals_prepared_eq]

-- The two scorers agree, also on a name that is not there, and the bound is never under the score.
theorem scorers_agree_under_bound (unicode : Unicode) (weights : WeightTable)
    (hweights : ∀ value ∈ weights.values, 0 ≤ value) (candidate incoming : LogicalUnitFingerprint) :
    weights.score_pair_prepared (prepare_features unicode candidate)
        (prepare_features unicode incoming) = weights.score_pair unicode candidate incoming ∧
      ∀ bound, weights.score_upper_bound (prepare_features unicode candidate)
          (prepare_features unicode incoming) = .ok bound →
        ∃ result, weights.score_pair unicode candidate incoming = .ok result ∧
          result.score ≤ bound := by
  refine ⟨prepared_score_eq unicode candidate incoming, fun bound hbound => ?_⟩
  obtain ⟨found, hfound, hvalue⟩ := Method.except_bind_eq_ok_iff.mp hbound
  obtain rfl := Except.ok.inj hvalue
  have hweight := bound_weights_eq_ok hfound
  refine ⟨_, mean_score_eq hweight _, ?_⟩
  have hnonneg (signal : Signal) : 0 ≤ found signal := weight_nonneg hweights (hweight signal)
  rw [← signals_prepared_eq]
  exact weighted_mean_mono found hnonneg _ _
    (signals_le_bounds _ _ (prepare_features_counted unicode candidate)
      (prepare_features_counted unicode incoming))

def default_weights : WeightTable where
  entries := Signal.all.map (fun signal => (signal.name, IDENTITY_SIGNAL_WEIGHTS signal))
  nodup := by decide +kernel

-- Two versions of a clause; the second has lost its number.
def numbered_clause : LogicalUnitFingerprint where
  logical_id := "ku_clause"
  document_path := ["terms", "warranty"]
  anchor := "limits"
  normalized_text := "the warranty lasts two two years"
  explicit_identifier := "4.2"
  previous_anchor := "scope"

def plain_clause : LogicalUnitFingerprint where
  logical_id := "ku_limits"
  document_path := ["terms"]
  anchor := "limits"
  normalized_text := "the warranty lasts three years"
  previous_anchor := "scope of cover"

theorem clause_scorers_agree :
    default_weights.score_pair_prepared (prepare_features .ascii numbered_clause)
        (prepare_features .ascii plain_clause) =
      default_weights.score_pair .ascii numbered_clause plain_clause ∧
    ∀ bound, default_weights.score_upper_bound (prepare_features .ascii numbered_clause)
        (prepare_features .ascii plain_clause) = .ok bound →
      ∃ result, default_weights.score_pair .ascii numbered_clause plain_clause = .ok result ∧
        result.score ≤ bound :=
  scorers_agree_under_bound .ascii default_weights (by decide +kernel) numbered_clause plain_clause

end WeightTable

end KnowledgeCompiler.Identity
