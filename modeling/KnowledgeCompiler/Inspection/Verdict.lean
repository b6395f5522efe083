import KnowledgeCompiler.Inspection.RecoveryPolicy
import Mathlib.Algebra.Order.Field.Rat
import Mathlib.Algebra.Order.BigOperators.Group.List

namespace KnowledgeCompiler.Inspection

open Lib

inductive Severity
  | INFO
  | LOW
  | MEDIUM
  | HIGH
  | CRITICAL
deriving DecidableEq

def Severity.rank : Severity → ℕ
  | INFO => 0
  | LOW => 1
  | MEDIUM => 2
  | HIGH => 3
  | CRITICAL => 4

inductive InspectionStatus
  | PASS
  | SUSPICIOUS
  | FAIL
deriving DecidableEq

def InspectionStatus.rank : InspectionStatus → ℕ
  | PASS => 0
  | SUSPICIOUS => 1
  | FAIL => 2

def CATASTROPHIC_CODES : List FailureCode :=
  [.F8_EMPTY_OUTPUT, .F25_PERMISSION_VIOLATION, .F24_RECOMPILE_DIVERGENCE, .F31_SCHEMA_INCOMPATIBLE,
   .F32_MODEL_OR_CONTAINER_UNVERIFIED, .F33_LICENSE_NOT_APPROVED,
   .F36_RLS_OR_TENANT_CONTEXT_MISSING, .F45_ACTIVE_CONTENT_OR_MALWARE,
   .F46_ARTIFACT_CHECKSUM_MISMATCH, .F47_PROVENANCE_SIGNATURE_INVALID]

inductive RawValue
  | number (value : ℚ)
  | text (value : String)
  | none
deriving DecidableEq

structure DetectorSignal where
  code : FailureCode
  score : ℚ
  hard_fail : Bool := false
  detail : String := ""
  evidence_refs : List String := []
  raw : Dict String RawValue := .empty
  bounded : 0 ≤ score ∧ score ≤ 1

structure CalibrationTable where
  route_class : String := "default"
  document_type : String := "default"
  catastrophic_threshold : ℚ := 9 / 10
  suspicious_threshold : ℚ := 45 / 100
  calibrated : Bool := false
  calibrated_from : String := ""
  ordered : 0 < suspicious_threshold ∧ suspicious_threshold ≤ catastrophic_threshold ∧
    catastrophic_threshold ≤ 1 := by norm_num
  sourced : calibrated = true → calibrated_from ≠ "" := by decide

structure InspectionResult where
  status : InspectionStatus
  severity : Severity
  signals : List DetectorSignal
  calibration : CalibrationTable
  unknown_references : List String := []

-- `1 - Π(1 - s)`
def _noisy_or (scores : List ℚ) : ℚ :=
  1 - scores.foldl (fun product score => product * (1 - max 0 (min 1 score))) 1

-- `(not s.hard_fail, -s.score, s.code)`, at the first place where two signals differ.
def reported_before (first second : DetectorSignal) : Bool :=
  if first.hard_fail ≠ second.hard_fail then first.hard_fail
  else if first.score ≠ second.score then second.score < first.score
  else first.code.value ≤ second.code.value

def inspect_output (signals : List DetectorSignal) (calibration : Option CalibrationTable)
    (unknown_references : List String) : InspectionResult :=
  let table := calibration.getD {}
  let ordered := signals.insertionSort (fun first second => reported_before first second = true)
  let unknowns := fromkeys (unknown_references.filter (· ≠ ""))
  let result (status : InspectionStatus) (severity : Severity) : InspectionResult :=
    { status, severity, signals := ordered, calibration := table, unknown_references := unknowns }
  if ordered = [] then result .PASS .INFO
  else if ordered.any DetectorSignal.hard_fail then result .FAIL .CRITICAL
  else if table.catastrophic_threshold ≤
      _noisy_or ((ordered.filter (·.code ∈ CATASTROPHIC_CODES)).map DetectorSignal.score) then
    result .FAIL .CRITICAL
  else
    let combined := _noisy_or (ordered.map DetectorSignal.score)
    if table.suspicious_threshold ≤ combined then
      result .SUSPICIOUS (if 3 / 4 ≤ combined then .HIGH else .MEDIUM)
    else result .PASS .LOW

section Risk

-- What a score leaves of the product.
def left_over (score : ℚ) : ℚ := 1 - max 0 (min 1 score)

theorem left_over_bounds (score : ℚ) : 0 ≤ left_over score ∧ left_over score ≤ 1 := by
  have hlow : 0 ≤ max 0 (min 1 score) := le_max_left _ _
  have hhigh : max 0 (min 1 score) ≤ 1 := max_le zero_le_one (min_le_left _ _)
  constructor
  · exact sub_nonneg.mpr hhigh
  · exact sub_le_self 1 hlow

theorem noisy_or_eq (scores : List ℚ) : _noisy_or scores = 1 - (scores.map left_over).prod := by
  rw [_noisy_or, List.prod_eq_foldl, List.foldl_map]
  rfl

theorem noisy_or_perm {first second : List ℚ} (hperm : first.Perm second) :
    _noisy_or first = _noisy_or second := by
  rw [noisy_or_eq, noisy_or_eq, (hperm.map left_over).prod_eq]

theorem prod_left_over_bounds (scores : List ℚ) :
    0 ≤ (scores.map left_over).prod ∧ (scores.map left_over).prod ≤ 1 := by
  induction scores with
  | nil => exact ⟨zero_le_one, le_refl _⟩
  | cons score rest ih =>
      obtain ⟨hlow, hhigh⟩ := left_over_bounds score
      rw [List.map_cons, List.prod_cons]
      exact ⟨mul_nonneg hlow ih.1, mul_le_one₀ hhigh ih.1 ih.2⟩

-- More evidence never lowers the risk.
theorem noisy_or_le_append (scores more : List ℚ) : _noisy_or scores ≤ _noisy_or (scores ++ more) := by
  have hscores := (prod_left_over_bounds scores).1
  have hmore := (prod_left_over_bounds more).2
  rw [noisy_or_eq, noisy_or_eq, List.map_append, List.prod_append]
  exact sub_le_sub_left (mul_le_of_le_one_right hscores hmore) 1

end Risk

section Monotone

def catastrophic_risk (signals : List DetectorSignal) : ℚ :=
  _noisy_or ((signals.filter (·.code ∈ CATASTROPHIC_CODES)).map DetectorSignal.score)

def combined_risk (signals : List DetectorSignal) : ℚ :=
  _noisy_or (signals.map DetectorSignal.score)

-- The verdict without the order in which the signals are reported.
def verdict (table : CalibrationTable) (signals : List DetectorSignal) : InspectionStatus × Severity :=
  if signals = [] then (.PASS, .INFO)
  else if signals.any DetectorSignal.hard_fail then (.FAIL, .CRITICAL)
  else if table.catastrophic_threshold ≤ catastrophic_risk signals then (.FAIL, .CRITICAL)
  else if table.suspicious_threshold ≤ combined_risk signals then
    (.SUSPICIOUS, if 3 / 4 ≤ combined_risk signals then .HIGH else .MEDIUM)
  else (.PASS, .LOW)

theorem catastrophic_risk_perm {first second : List DetectorSignal} (hperm : first.Perm second) :
    catastrophic_risk first = catastrophic_risk second :=
  noisy_or_perm ((hperm.filter _).map _)

theorem combined_risk_perm {first second : List DetectorSignal} (hperm : first.Perm second) :
    combined_risk first = combined_risk second :=
  noisy_or_perm (hperm.map _)

theorem verdict_perm (table : CalibrationTable) {first second : List DetectorSignal}
    (hperm : first.Perm second) : verdict table first = verdict table second := by
  have hempty : first = [] ↔ second = [] := by
    rw [← List.length_eq_zero_iff, ← List.length_eq_zero_iff, hperm.length_eq]
  have hany : first.any DetectorSignal.hard_fail = second.any DetectorSignal.hard_fail :=
    hperm.any_eq
  simp only [verdict, hempty, hany, catastrophic_risk_perm hperm, combined_risk_perm hperm]

theorem inspect_output_verdict (signals : List DetectorSignal) (calibration : Option CalibrationTable)
    (unknown_references : List String) :
    ((inspect_output signals calibration unknown_references).status,
      (inspect_output signals calibration unknown_references).severity) =
        verdict (calibration.getD {}) signals := by
  have hperm := List.perm_insertionSort
    (fun first second => reported_before first second = true) signals
  rw [← verdict_perm _ hperm]
  unfold inspect_output verdict catastrophic_risk combined_risk
  dsimp only
  split_ifs <;> rfl

theorem catastrophic_risk_le_append (signals more : List DetectorSignal) :
    catastrophic_risk signals ≤ catastrophic_risk (signals ++ more) := by
  unfold catastrophic_risk
  rw [List.filter_append, List.map_append]
  exact noisy_or_le_append _ _

theorem combined_risk_le_append (signals more : List DetectorSignal) :
    combined_risk signals ≤ combined_risk (signals ++ more) := by
  unfold combined_risk
  rw [List.map_append]
  exact noisy_or_le_append _ _

theorem verdict_bounds (table : CalibrationTable) (signals : List DetectorSignal) :
    (verdict table signals).1.rank ≤ 2 ∧ (verdict table signals).2.rank ≤ 4 := by
  constructor
  · cases (verdict table signals).1 <;> decide
  · cases (verdict table signals).2 <;> decide

-- An added signal moves the verdict down the ladder of branches, never up.
theorem verdict_le_append (table : CalibrationTable) (signals more : List DetectorSignal) :
    (verdict table signals).1.rank ≤ (verdict table (signals ++ more)).1.rank ∧
      (verdict table signals).2.rank ≤ (verdict table (signals ++ more)).2.rank := by
  have hcatastrophic := catastrophic_risk_le_append signals more
  have hcombined := combined_risk_le_append signals more
  by_cases hempty : signals = []
  · have hnone : verdict table signals = (.PASS, .INFO) := if_pos hempty
    rw [hnone]
    exact ⟨Nat.zero_le _, Nat.zero_le _⟩
  have hmore : signals ++ more ≠ [] := fun h => hempty (List.append_eq_nil_iff.mp h).1
  by_cases hfail : (signals ++ more).any DetectorSignal.hard_fail ∨
      table.catastrophic_threshold ≤ catastrophic_risk (signals ++ more)
  · have hworst : verdict table (signals ++ more) = (.FAIL, .CRITICAL) := by
      unfold verdict
      rw [if_neg hmore]
      rcases hfail with hany | hrisk
      · rw [if_pos hany]
      · rw [if_pos hrisk, ite_self]
    rw [hworst]
    exact verdict_bounds table signals
  obtain ⟨hany, hrisk⟩ := not_or.mp hfail
  have hany' : ¬signals.any DetectorSignal.hard_fail = true := by
    rw [List.any_append, Bool.or_eq_true] at hany
    exact fun h => hany (Or.inl h)
  have hrisk' : ¬table.catastrophic_threshold ≤ catastrophic_risk signals :=
    fun h => hrisk (h.trans hcatastrophic)
  unfold verdict
  rw [if_neg hempty, if_neg hany', if_neg hrisk', if_neg hmore, if_neg hany, if_neg hrisk]
  by_cases hlow : table.suspicious_threshold ≤ combined_risk signals
  · rw [if_pos hlow, if_pos (hlow.trans hcombined)]
    refine ⟨le_refl _, ?_⟩
    by_cases hhigh : 3 / 4 ≤ combined_risk signals
    · rw [if_pos hhigh, if_pos (hhigh.trans hcombined)]
    · rw [if_neg hhigh]
      split <;> decide
  · rw [if_neg hlow]
    split
    · refine ⟨Nat.zero_le 1, ?_⟩
      split <;> decide
    · exact ⟨le_refl _, le_refl _⟩

theorem inspection_monotone (calibration : Option CalibrationTable)
    (unknown_references more_references : List String) :
    (∀ smaller larger : List DetectorSignal, smaller.Subperm larger →
      (inspect_output smaller calibration unknown_references).status.rank ≤
          (inspect_output larger calibration more_references).status.rank ∧
        (inspect_output smaller calibration unknown_references).severity.rank ≤
          (inspect_output larger calibration more_references).severity.rank) ∧
    (∀ first second : List DetectorSignal, first.Perm second →
      (inspect_output first calibration unknown_references).status =
          (inspect_output second calibration more_references).status ∧
        (inspect_output first calibration unknown_references).severity =
          (inspect_output second calibration more_references).severity) := by
  constructor
  · intro smaller larger hsub
    obtain ⟨part, hpart, hsublist⟩ := hsub
    obtain ⟨more, hlist⟩ := hsublist.exists_perm_append
    have hperm : larger.Perm (smaller ++ more) := hlist.trans (hpart.append_right more)
    have hsmaller := inspect_output_verdict smaller calibration unknown_references
    have hlarger := inspect_output_verdict larger calibration more_references
    rw [verdict_perm _ hperm] at hlarger
    have hle := verdict_le_append (calibration.getD {}) smaller more
    rw [← hsmaller, ← hlarger] at hle
    exact hle
  · intro first second hperm
    have hfirst := inspect_output_verdict first calibration unknown_references
    have hsecond := inspect_output_verdict second calibration more_references
    rw [verdict_perm _ hperm, ← hsecond] at hfirst
    exact Prod.mk.inj hfirst

def garbled : DetectorSignal where
  code := .F11_GARBLED_TEXT
  score := 2 / 5
  bounded := by norm_num

def unverified : DetectorSignal where
  code := .F32_MODEL_OR_CONTAINER_UNVERIFIED
  score := 19 / 20
  bounded := by norm_num

theorem inspection_monotone_garbled :
    (inspect_output [garbled] none []).status.rank ≤
        (inspect_output [unverified, garbled] none []).status.rank ∧
      (inspect_output [unverified, garbled] none []).status =
        (inspect_output [garbled, unverified] none []).status ∧
      (inspect_output [garbled] none []).status = .PASS ∧
      (inspect_output [garbled, unverified] none []).status = .FAIL := by
  have hsub : List.Subperm [garbled] [unverified, garbled] :=
    (List.sublist_cons_self unverified [garbled]).subperm
  refine ⟨((inspection_monotone none [] []).1 _ _ hsub).1,
    ((inspection_monotone none [] []).2 _ _ (List.Perm.swap garbled unverified [])).1, ?_, ?_⟩
  · decide +kernel
  · decide +kernel

end Monotone

end KnowledgeCompiler.Inspection
