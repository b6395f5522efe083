import KnowledgeCompiler.Lib.Binary64
import Mathlib.Data.Finset.Card

namespace KnowledgeCompiler.Router

open Lib

inductive ProcessingMode
  | SPEED | BALANCED | PRECISION | PRIVATE | LONG_FORM_BETA
deriving DecidableEq

inductive RiskTier
  | NORMAL | HIGH
deriving DecidableEq

inductive Route
  | NATIVE | PADDLE_VL | PADDLE_FAST | HPD_FAST | OVIS_VL | INFINITY_FLASH | UNLIMITED_LONG
  | MISTRAL_FALLBACK | REGION_RECOVERY | AUTHORITY_RECONSTRUCTION | UNRESOLVED | QUARANTINE
deriving DecidableEq

def Route.value : Route → String
  | NATIVE => "native"
  | PADDLE_VL => "paddle_vl"
  | PADDLE_FAST => "paddle_fast"
  | HPD_FAST => "hpd_fast"
  | OVIS_VL => "ovis_vl"
  | INFINITY_FLASH => "infinity_flash"
  | UNLIMITED_LONG => "unlimited_long"
  | MISTRAL_FALLBACK => "mistral_fallback"
  | REGION_RECOVERY => "region_recovery"
  | AUTHORITY_RECONSTRUCTION => "authority_reconstruction"
  | UNRESOLVED => "unresolved"
  | QUARANTINE => "quarantine"

def routes : Finset Route :=
  {.NATIVE, .PADDLE_VL, .PADDLE_FAST, .HPD_FAST, .OVIS_VL, .INFINITY_FLASH, .UNLIMITED_LONG,
    .MISTRAL_FALLBACK, .REGION_RECOVERY, .AUTHORITY_RECONSTRUCTION, .UNRESOLVED, .QUARANTINE}

structure FeatureFlags where
  external_fallback_enabled : Bool := false
  region_recovery_enabled : Bool := false
  authority_verification_enabled : Bool := false

structure DataPolicy where
  external_api_allowed : Bool := false
  private_processing : Bool := false

-- The proofs are what `enforce_private_mode` checks.
structure RouterContext where
  mode : ProcessingMode := .BALANCED
  risk_tier : RiskTier := .NORMAL
  feature_flags : FeatureFlags := {}
  data_policy : DataPolicy := {}
  ready_routes : Finset Route := {.NATIVE}
  policy_version : String := "router-1.0.0"
  private_mode_internal : ¬(mode = .PRIVATE ∧ data_policy.external_api_allowed = true)
  private_processing_internal :
    ¬(data_policy.private_processing = true ∧ data_policy.external_api_allowed = true)
  no_terminal_ready : .UNRESOLVED ∉ ready_routes ∧ .QUARANTINE ∉ ready_routes
  private_mode_no_fallback : ¬(mode = .PRIVATE ∧ .MISTRAL_FALLBACK ∈ ready_routes)

-- The floats `0.82` and `0.90`.
def WARNING_SCORE : ℚ := Binary64.rounded (82 / 100)

def PASSING_SCORE : ℚ := Binary64.rounded (90 / 100)

def IsShare (value : Option ℚ) : Prop := ∀ share ∈ value, 0 ≤ share ∧ share ≤ 1

structure QualitySignal where
  score : Option ℚ := none
  passed : Bool := false
  empty_output : Bool := false
  repetition_failure : Bool := false
  provider_failure : Bool := false
  unreadable : Bool := false
  critical_numeric_mismatch : Bool := false
  critical_table_error : Bool := false
  engine_specific_failure : Bool := false
  security_quarantine_required : Bool := false
  source_integrity_failure : Bool := false
  unsupported_content : Bool := false
  region_recoverable : Bool := false
  authority_match : Option Bool := none
  agreement_numeric : Option ℚ := none
  score_range : IsShare score
  agreement_range : IsShare agreement_numeric
  pass_score : passed = true → ∃ found, score = some found ∧ WARNING_SCORE ≤ found

inductive EscalationAction
  | ACCEPT | RETRY | ESCALATE | VERIFY_AUTHORITY | UNRESOLVED | QUARANTINE | FAIL
  | DISCARD_CHALLENGER
deriving DecidableEq

structure EscalationDecision where
  action : EscalationAction
  route : Option Route
  reason_codes : List String
  attempt_number : Nat
  policy_version : String

def _external_fallback_allowed (context : RouterContext) : Bool :=
  context.feature_flags.external_fallback_enabled && context.data_policy.external_api_allowed &&
    context.mode ≠ .PRIVATE && !context.data_policy.private_processing &&
    .MISTRAL_FALLBACK ∈ context.ready_routes

def is_primary (route : Route) : Bool := route = .NATIVE || route = .HPD_FAST || route = .PADDLE_FAST

namespace QualitySignal

def retryable_output_failure (signal : QualitySignal) : Bool :=
  signal.empty_output || signal.repetition_failure || signal.provider_failure ||
    signal.engine_specific_failure

def reaches (signal : QualitySignal) (bound : ℚ) : Bool :=
  match signal.score with
  | none => false
  | some score => bound ≤ score

def numeric_reason (signal : QualitySignal) : String :=
  if signal.agreement_numeric.isNone then "numeric_agreement_missing"
  else "numeric_agreement_below_one"

end QualitySignal

section Decision

variable (context : RouterContext)

def decision (action : EscalationAction) (route : Option Route) (reason_codes : List String)
    (attempt_number : Nat) : EscalationDecision :=
  ⟨action, route, reason_codes, attempt_number, context.policy_version⟩

-- What is left to try when the route's own attempts are used up.
def recover (current_route : Route) (signal : QualitySignal) (attempt_number : Nat) :
    EscalationDecision :=
  if is_primary current_route then
    if .PADDLE_VL ∉ context.ready_routes then
      decision context .UNRESOLVED (some .UNRESOLVED)
        ["primary_route_quality_failed", "paddle_precision_unavailable", "fail_closed_unresolved"]
        attempt_number
    else
      decision context .ESCALATE (some .PADDLE_VL)
        ["primary_route_quality_failed", "paddle_precision_escalation"] 1
  else if current_route = .PADDLE_VL ∧ _external_fallback_allowed context then
    decision context .ESCALATE (some .MISTRAL_FALLBACK)
      ["internal_parser_failed", "explicit_external_consent"] 1
  else if signal.region_recoverable ∧ context.feature_flags.region_recovery_enabled ∧
      .REGION_RECOVERY ∈ context.ready_routes then
    decision context .ESCALATE (some .REGION_RECOVERY)
      ["failed_region_isolated", "region_recovery_enqueued"] 1
  else if context.feature_flags.authority_verification_enabled then
    decision context .VERIFY_AUTHORITY (some .AUTHORITY_RECONSTRUCTION)
      ["quality_gate_failed", "authority_check_required"] attempt_number
  else
    decision context .UNRESOLVED (some .UNRESOLVED)
      ["quality_gate_failed", "automatic_recovery_exhausted"] attempt_number

def decide_escalation (current_route : Route) (signal : QualitySignal)
    (attempt_number max_attempts : Nat) : Except String EscalationDecision :=
  if attempt_number < 1 ∨ max_attempts < 1 then .error "attempt counts start at one"
  else if signal.security_quarantine_required ∨ signal.source_integrity_failure then
    .ok (decision context .QUARANTINE (some .QUARANTINE)
      [if signal.security_quarantine_required then "security_quarantine_required"
        else "source_integrity_failure"] attempt_number)
  else if signal.unreadable ∨ signal.unsupported_content then
    .ok (decision context .QUARANTINE (some .QUARANTINE)
      [if signal.unreadable then "unreadable_source" else "unsupported_content"] attempt_number)
  else if signal.critical_numeric_mismatch ∨ signal.critical_table_error then
    let reason := if signal.critical_numeric_mismatch then "critical_numeric_mismatch"
      else "critical_table_error"
    if signal.authority_match = some true then
      .ok (decision context .VERIFY_AUTHORITY (some .AUTHORITY_RECONSTRUCTION)
        [reason, "authority_exact_reconstruction"] attempt_number)
    else if context.feature_flags.authority_verification_enabled then
      .ok (decision context .VERIFY_AUTHORITY (some .AUTHORITY_RECONSTRUCTION)
        [reason, "authority_check_required"] attempt_number)
    else
      .ok (decision context .UNRESOLVED (some .UNRESOLVED) [reason, "authority_unavailable"]
        attempt_number)
  else if context.risk_tier = .HIGH ∧ signal.agreement_numeric ≠ some 1 then
    if context.feature_flags.authority_verification_enabled then
      .ok (decision context .VERIFY_AUTHORITY (some .AUTHORITY_RECONSTRUCTION)
        ["high_risk_numeric_exact_match_required", signal.numeric_reason,
          "authority_check_required"] attempt_number)
    else
      .ok (decision context .UNRESOLVED (some .UNRESOLVED)
        ["high_risk_numeric_exact_match_required", signal.numeric_reason, "authority_unavailable"]
        attempt_number)
  else if current_route = .UNLIMITED_LONG then
    .ok (decision context .DISCARD_CHALLENGER none
      ["long_document_result_is_comparison_only", "base_result_retained"] attempt_number)
  else if current_route ∉ context.ready_routes then
    .ok (decision context .UNRESOLVED (some .UNRESOLVED)
      [s!"route_unavailable:{current_route.value}", "fail_closed_unresolved"] attempt_number)
  else if signal.passed ∧ signal.reaches WARNING_SCORE ∧ ¬signal.retryable_output_failure then
    .ok (decision context .ACCEPT (some current_route)
      [if signal.reaches PASSING_SCORE then "quality_gate_passed"
        else "quality_gate_passed_with_warnings"] attempt_number)
  else if signal.retryable_output_failure ∧ attempt_number < max_attempts then
    .ok (decision context .RETRY (some current_route) ["bounded_retry"] (attempt_number + 1))
  else .ok (recover context current_route signal attempt_number)

end Decision

-- The page is read once more.
def EscalationDecision.again (decision : EscalationDecision) : Bool :=
  decision.action = .RETRY || decision.action = .ESCALATE

section Run

variable (context : RouterContext) (max_attempts : Nat) (start : Route)
  (signals : Nat → QualitySignal)

-- The route and the attempt number before the decision, if there is one.
def stage : Nat → Option (Route × Nat)
  | 0 => some (start, 1)
  | n + 1 =>
      match stage n with
      | none => none
      | some (route, attempt_number) =>
          match decide_escalation context route (signals n) attempt_number max_attempts with
          | .error _ => none
          | .ok found =>
              if found.again then found.route.map (·, found.attempt_number) else none

def decision_at (n : Nat) : Option EscalationDecision :=
  (stage context max_attempts start signals n).bind fun state =>
    (decide_escalation context state.1 (signals n) state.2 max_attempts).toOption

structure BoundedRun : Prop where
  stops : ∃ n < max_attempts * routes.card, ∃ found,
    decision_at context max_attempts start signals n = some found ∧ found.again = false
  once : ∀ i j first second, i < j → decision_at context max_attempts start signals i = some first →
    decision_at context max_attempts start signals j = some second →
      first.action = .ESCALATE → second.action = .ESCALATE → first.route ≠ second.route
  consent : ∀ n found, decision_at context max_attempts start signals n = some found →
    found.action = .ESCALATE → found.route = some .MISTRAL_FALLBACK →
      context.feature_flags.external_fallback_enabled = true ∧
        context.data_policy.external_api_allowed = true ∧
        context.data_policy.private_processing = false ∧ context.mode ≠ .PRIVATE

end Run

-- The starts from which region recovery can be reached: it is then handed to itself.
def Loops (context : RouterContext) (start : Route) : Prop :=
  context.feature_flags.region_recovery_enabled = true ∧
    .REGION_RECOVERY ∈ context.ready_routes ∧ start ∈ context.ready_routes ∧
    start ≠ .UNLIMITED_LONG ∧ (is_primary start = true → .PADDLE_VL ∈ context.ready_routes)

def Escalates (context : RouterContext) (route next : Route) : Prop :=
  (is_primary route = true ∧ .PADDLE_VL ∈ context.ready_routes ∧ next = .PADDLE_VL) ∨
    (route = .PADDLE_VL ∧ _external_fallback_allowed context = true ∧ next = .MISTRAL_FALLBACK) ∨
    (is_primary route = false ∧ context.feature_flags.region_recovery_enabled = true ∧
      .REGION_RECOVERY ∈ context.ready_routes ∧ next = .REGION_RECOVERY)

section Step

variable (context : RouterContext) (route : Route) (signal : QualitySignal)
  (attempt_number max_attempts : Nat)

theorem recover_cases (hagain : (recover context route signal attempt_number).again = true) :
    (recover context route signal attempt_number).action = .ESCALATE ∧
      (recover context route signal attempt_number).attempt_number = 1 ∧
      ∃ next, (recover context route signal attempt_number).route = some next ∧
        Escalates context route next := by
  unfold recover at hagain ⊢
  split_ifs at hagain ⊢ with hprimary hready hfallback hregion hauthority
  · exact ⟨rfl, rfl, _, rfl, Or.inl ⟨hprimary, hready, rfl⟩⟩
  · cases hagain
  · exact ⟨rfl, rfl, _, rfl, Or.inr (Or.inl ⟨hfallback.1, hfallback.2, rfl⟩)⟩
  · refine ⟨rfl, rfl, _, rfl, Or.inr (Or.inr ⟨?_, hregion.2.1, hregion.2.2, rfl⟩)⟩
    exact Bool.eq_false_of_not_eq_true hprimary
  · cases hagain
  · cases hagain

theorem decide_cases (found : EscalationDecision)
    (hfound : decide_escalation context route signal attempt_number max_attempts = .ok found)
    (hagain : found.again = true) :
    route ∈ context.ready_routes ∧ route ≠ .UNLIMITED_LONG ∧
      ((found.action = .RETRY ∧ found.route = some route ∧
          found.attempt_number = attempt_number + 1 ∧ attempt_number < max_attempts) ∨
        (found.action = .ESCALATE ∧ found.attempt_number = 1 ∧
          ∃ next, found.route = some next ∧ Escalates context route next)) := by
  unfold decide_escalation at hfound
  split at hfound
  · cases hfound
  split at hfound
  · cases hfound
    cases hagain
  split at hfound
  · cases hfound
    cases hagain
  split at hfound
  · split_ifs at hfound
    all_goals cases hfound
    all_goals cases hagain
  split at hfound
  · split at hfound
    all_goals cases hfound
    all_goals cases hagain
  split at hfound
  · cases hfound
    cases hagain
  rename_i hlong
  split at hfound
  · cases hfound
    cases hagain
  rename_i hready
  split at hfound
  · cases hfound
    cases hagain
  split at hfound
  · rename_i hretry
    cases hfound
    exact ⟨not_not.mp hready, hlong, Or.inl ⟨rfl, rfl, rfl, hretry.2⟩⟩
  · cases hfound
    exact ⟨not_not.mp hready, hlong, Or.inr (recover_cases context route signal _ hagain)⟩

end Step

section Loop

variable (context : RouterContext) (route next : Route)

theorem loops_of_escalates (hescalates : Escalates context route next)
    (hready : route ∈ context.ready_routes) (hlong : route ≠ .UNLIMITED_LONG)
    (hnext : Loops context next) : Loops context route := by
  obtain ⟨henabled, hregion, hnext_ready, -, -⟩ := hnext
  refine ⟨henabled, hregion, hready, hlong, fun hprimary => ?_⟩
  rcases hescalates with ⟨-, hpaddle, -⟩ | ⟨rfl, -, -⟩ | ⟨hno, -, -, -⟩
  · exact hpaddle
  · exact hready
  · rw [hprimary] at hno
    cases hno

theorem loops_escalates (hloops : Loops context route) (hescalates : Escalates context route next) :
    Loops context next := by
  obtain ⟨henabled, hregion, -, -, -⟩ := hloops
  rcases hescalates with ⟨-, hpaddle, rfl⟩ | ⟨-, hallowed, rfl⟩ | ⟨-, -, -, rfl⟩
  · exact ⟨henabled, hregion, hpaddle, nofun, nofun⟩
  · have hready : .MISTRAL_FALLBACK ∈ context.ready_routes := by
      simp only [_external_fallback_allowed, Bool.and_eq_true, decide_eq_true_eq] at hallowed
      exact hallowed.2
    exact ⟨henabled, hregion, hready, nofun, nofun⟩
  · exact ⟨henabled, hregion, hregion, nofun, nofun⟩

-- How many escalations are left, when region recovery is not one of them.
def rank (route : Route) : Nat :=
  if is_primary route then 2 else if route = .PADDLE_VL then 1 else 0

theorem rank_le (route : Route) : rank route ≤ 2 := by
  cases route <;> decide

theorem rank_lt_of_escalates (hescalates : Escalates context route next)
    (hready : route ∈ context.ready_routes) (hlong : route ≠ .UNLIMITED_LONG)
    (hloops : ¬Loops context route) : rank next < rank route := by
  rcases hescalates with ⟨hprimary, -, rfl⟩ | ⟨rfl, -, rfl⟩ | ⟨hprimary, henabled, hregion, -⟩
  · simp only [rank, hprimary, if_true]
    decide
  · decide
  · refine absurd ⟨henabled, hregion, hready, hlong, fun hyes => ?_⟩ hloops
    rw [hyes] at hprimary
    cases hprimary

end Loop

section Stops

variable (context : RouterContext) (max_attempts : Nat) (start : Route)
  (signals : Nat → QualitySignal)

theorem stage_succ (n : Nat) (route : Route) (attempt_number : Nat)
    (hstage : stage context max_attempts start signals (n + 1) = some (route, attempt_number)) :
    ∃ before attempt found, stage context max_attempts start signals n = some (before, attempt) ∧
      decide_escalation context before (signals n) attempt max_attempts = .ok found ∧
      found.again = true ∧ found.route = some route ∧ found.attempt_number = attempt_number := by
  rw [stage] at hstage
  split at hstage
  · cases hstage
  · rename_i before attempt hbefore
    split at hstage
    · cases hstage
    · rename_i found hfound
      split at hstage
      · rename_i hagain
        obtain ⟨route', hroute, heq⟩ := Option.map_eq_some_iff.mp hstage
        cases heq
        exact ⟨before, attempt, found, hbefore, hfound, hagain, hroute, rfl⟩
      · cases hstage

-- Where the run stands: no loop can be reached, and each reading lowers what is left.
theorem stage_invariant (hattempts : 1 ≤ max_attempts) (hloops : ¬Loops context start) (n : Nat)
    (route : Route) (attempt_number : Nat)
    (hstage : stage context max_attempts start signals n = some (route, attempt_number)) :
    ¬Loops context route ∧ 1 ≤ attempt_number ∧
      n + rank route * max_attempts + (max_attempts - attempt_number) + 1 ≤ 3 * max_attempts := by
  induction n generalizing route attempt_number with
  | zero =>
    cases hstage
    have hrank : rank start * max_attempts ≤ 2 * max_attempts :=
      Nat.mul_le_mul_right _ (rank_le start)
    exact ⟨hloops, Nat.le_refl 1, by omega⟩
  | succ n ih =>
    obtain ⟨before, attempt, found, hbefore, hfound, hagain, hroute, hnumber⟩ :=
      stage_succ context max_attempts start signals n route attempt_number hstage
    obtain ⟨hno, hpositive, hleft⟩ := ih before attempt hbefore
    obtain ⟨hready, hlong, hcases⟩ := decide_cases context before _ _ _ found hfound hagain
    rcases hcases with ⟨-, hsame, hnext, hlt⟩ | ⟨-, hnext, next, hto, hescalates⟩
    · obtain rfl : before = route := Option.some.inj (hsame.symm.trans hroute)
      exact ⟨hno, by omega, by omega⟩
    · obtain rfl : next = route := Option.some.inj (hto.symm.trans hroute)
      have hlower : rank next < rank before :=
        rank_lt_of_escalates context before next hescalates hready hlong hno
      have hsteps : (rank next + 1) * max_attempts ≤ rank before * max_attempts :=
        Nat.mul_le_mul_right _ hlower
      rw [Nat.add_mul, Nat.one_mul] at hsteps
      refine ⟨fun hyes => hno ?_, by omega, by omega⟩
      exact loops_of_escalates context before next hescalates hready hlong hyes

theorem decide_ok (route : Route) (signal : QualitySignal) (attempt_number : Nat)
    (hattempt : 1 ≤ attempt_number) (hattempts : 1 ≤ max_attempts) :
    ∃ found, decide_escalation context route signal attempt_number max_attempts = .ok found := by
  have hcounts : ¬(attempt_number < 1 ∨ max_attempts < 1) := by omega
  unfold decide_escalation
  rw [if_neg hcounts]
  split_ifs
  all_goals exact ⟨_, rfl⟩

theorem decision_at_eq_some_iff (n : Nat) (found : EscalationDecision) :
    decision_at context max_attempts start signals n = some found ↔
      ∃ route attempt_number,
        stage context max_attempts start signals n = some (route, attempt_number) ∧
          decide_escalation context route (signals n) attempt_number max_attempts = .ok found := by
  unfold decision_at
  rw [Option.bind_eq_some_iff]
  constructor
  · rintro ⟨⟨route, attempt_number⟩, hstage, hfound⟩
    refine ⟨route, attempt_number, hstage, ?_⟩
    cases hdecide : decide_escalation context route (signals n) attempt_number max_attempts with
    | error message =>
      rw [hdecide] at hfound
      cases hfound
    | ok other =>
      rw [hdecide] at hfound
      cases hfound
      rfl
  · rintro ⟨route, attempt_number, hstage, hfound⟩
    refine ⟨(route, attempt_number), hstage, ?_⟩
    rw [hfound]
    rfl

-- The last stage before there is none.
theorem exists_last_stage (n : Nat) (hnone : stage context max_attempts start signals n = none) :
    ∃ m < n, ∃ state, stage context max_attempts start signals m = some state ∧
      stage context max_attempts start signals (m + 1) = none := by
  induction n with
  | zero => cases hnone
  | succ n ih =>
    cases hstage : stage context max_attempts start signals n with
    | none =>
      obtain ⟨m, hm, hlast⟩ := ih hstage
      exact ⟨m, Nat.lt_succ_of_lt hm, hlast⟩
    | some state => exact ⟨n, Nat.lt_succ_self n, state, hstage, hnone⟩

theorem run_stops (hattempts : 1 ≤ max_attempts) (hloops : ¬Loops context start) :
    ∃ n < max_attempts * routes.card, ∃ found,
      decision_at context max_attempts start signals n = some found ∧ found.again = false := by
  have hnone : stage context max_attempts start signals (3 * max_attempts) = none := by
    by_contra hsome
    obtain ⟨⟨route, attempt_number⟩, hstage⟩ := Option.ne_none_iff_exists'.mp hsome
    have hleft := (stage_invariant context max_attempts start signals hattempts hloops _ route
      attempt_number hstage).2.2
    omega
  obtain ⟨n, hlt, ⟨route, attempt_number⟩, hstage, hlast⟩ :=
    exists_last_stage context max_attempts start signals _ hnone
  obtain ⟨-, hpositive, -⟩ := stage_invariant context max_attempts start signals hattempts hloops n
    route attempt_number hstage
  obtain ⟨found, hfound⟩ := decide_ok context max_attempts route (signals n) attempt_number
    hpositive hattempts
  have hcard : routes.card = 12 := by decide
  refine ⟨n, by rw [hcard]; omega, found, ?_, ?_⟩
  · rw [decision_at_eq_some_iff]
    exact ⟨route, attempt_number, hstage, hfound⟩
  · by_contra hagain
    rw [Bool.not_eq_false] at hagain
    have hroute : ∃ next, found.route = some next := by
      obtain ⟨-, -, ⟨-, hsame, -⟩ | ⟨-, -, next, hto, -⟩⟩ :=
        decide_cases context route _ _ _ found hfound hagain
      · exact ⟨route, hsame⟩
      · exact ⟨next, hto⟩
    obtain ⟨next, hnext⟩ := hroute
    rw [stage, hstage] at hlast
    simp only [hfound, hagain, if_true, hnext] at hlast
    cases hlast

theorem rank_stage_succ (hattempts : 1 ≤ max_attempts) (hloops : ¬Loops context start) (n : Nat)
    (before after : Route) (attempt attempt_number : Nat)
    (hbefore : stage context max_attempts start signals n = some (before, attempt))
    (hafter : stage context max_attempts start signals (n + 1) = some (after, attempt_number)) :
    rank after ≤ rank before := by
  obtain ⟨before', attempt', found, hbefore', hfound, hagain, hroute, -⟩ :=
    stage_succ context max_attempts start signals n after attempt_number hafter
  cases hbefore.symm.trans hbefore'
  obtain ⟨hno, -, -⟩ := stage_invariant context max_attempts start signals hattempts hloops n before
    attempt hbefore
  obtain ⟨hready, hlong, hcases⟩ := decide_cases context before _ _ _ found hfound hagain
  rcases hcases with ⟨-, hsame, -, -⟩ | ⟨-, -, next, hto, hescalates⟩
  · cases hsame.symm.trans hroute
    exact Nat.le_refl _
  · cases hto.symm.trans hroute
    exact Nat.le_of_lt (rank_lt_of_escalates context before after hescalates hready hlong hno)

theorem rank_stage_le (hattempts : 1 ≤ max_attempts) (hloops : ¬Loops context start) (n k : Nat)
    (before after : Route) (attempt attempt_number : Nat)
    (hbefore : stage context max_attempts start signals n = some (before, attempt))
    (hafter : stage context max_attempts start signals (n + k) = some (after, attempt_number)) :
    rank after ≤ rank before := by
  induction k generalizing after attempt_number with
  | zero =>
    cases hbefore.symm.trans hafter
    exact Nat.le_refl _
  | succ k ih =>
    obtain ⟨middle, number, -, hmiddle, -, -, -, -⟩ :=
      stage_succ context max_attempts start signals (n + k) after attempt_number hafter
    exact Nat.le_trans
      (rank_stage_succ context max_attempts start signals hattempts hloops (n + k) middle after
        number attempt_number hmiddle hafter)
      (ih middle number hmiddle)

theorem stage_after (n : Nat) (found : EscalationDecision) (next : Route)
    (hfound : decision_at context max_attempts start signals n = some found)
    (hagain : found.again = true) (hnext : found.route = some next) :
    stage context max_attempts start signals (n + 1) = some (next, found.attempt_number) := by
  obtain ⟨route, attempt_number, hstage, hdecide⟩ :=
    (decision_at_eq_some_iff context max_attempts start signals n found).mp hfound
  rw [stage, hstage]
  simp only [hdecide, hagain, if_true, hnext]
  rfl

theorem escalated_at (n : Nat) (found : EscalationDecision)
    (hfound : decision_at context max_attempts start signals n = some found)
    (haction : found.action = .ESCALATE) :
    ∃ route attempt_number next,
      stage context max_attempts start signals n = some (route, attempt_number) ∧
        route ∈ context.ready_routes ∧ route ≠ .UNLIMITED_LONG ∧ found.again = true ∧
        found.route = some next ∧ Escalates context route next := by
  have hagain : found.again = true := by
    rw [EscalationDecision.again, haction]
    rfl
  obtain ⟨route, attempt_number, hstage, hdecide⟩ :=
    (decision_at_eq_some_iff context max_attempts start signals n found).mp hfound
  obtain ⟨hready, hlong, ⟨hretry, -⟩ | ⟨-, -, next, hto, hescalates⟩⟩ :=
    decide_cases context route _ _ _ found hdecide hagain
  · rw [haction] at hretry
    cases hretry
  · exact ⟨route, attempt_number, next, hstage, hready, hlong, hagain, hto, hescalates⟩

theorem escalates_once (hattempts : 1 ≤ max_attempts) (hloops : ¬Loops context start) (i j : Nat)
    (first second : EscalationDecision) (hij : i < j)
    (hfirst : decision_at context max_attempts start signals i = some first)
    (hsecond : decision_at context max_attempts start signals j = some second)
    (hfirst_action : first.action = .ESCALATE) (hsecond_action : second.action = .ESCALATE) :
    first.route ≠ second.route := by
  obtain ⟨-, -, next, -, -, -, hagain, hnext, -⟩ :=
    escalated_at context max_attempts start signals i first hfirst hfirst_action
  have hafter := stage_after context max_attempts start signals i first next hfirst hagain hnext
  obtain ⟨route, attempt_number, last, hstage, hready, hlong, -, hlast, hescalates⟩ :=
    escalated_at context max_attempts start signals j second hsecond hsecond_action
  obtain ⟨hno, -, -⟩ := stage_invariant context max_attempts start signals hattempts hloops j route
    attempt_number hstage
  have hlower : rank last < rank route :=
    rank_lt_of_escalates context route last hescalates hready hlong hno
  obtain ⟨k, rfl⟩ := Nat.exists_eq_add_of_le (Nat.succ_le_of_lt hij)
  have hle : rank route ≤ rank next :=
    rank_stage_le context max_attempts start signals hattempts hloops (i + 1) k next route _
      attempt_number hafter hstage
  intro hsame
  rw [hnext, hlast] at hsame
  cases hsame
  omega

theorem external_fallback_consent (hallowed : _external_fallback_allowed context = true) :
    context.feature_flags.external_fallback_enabled = true ∧
      context.data_policy.external_api_allowed = true ∧
      context.data_policy.private_processing = false ∧ context.mode ≠ .PRIVATE := by
  simp only [_external_fallback_allowed, Bool.and_eq_true, decide_eq_true_eq,
    Bool.not_eq_true'] at hallowed
  obtain ⟨⟨⟨⟨henabled, hexternal⟩, hmode⟩, hprivate⟩, -⟩ := hallowed
  exact ⟨henabled, hexternal, hprivate, hmode⟩

theorem escalates_consent (n : Nat) (found : EscalationDecision)
    (hfound : decision_at context max_attempts start signals n = some found)
    (haction : found.action = .ESCALATE) (hroute : found.route = some .MISTRAL_FALLBACK) :
    _external_fallback_allowed context = true := by
  obtain ⟨route, -, next, -, -, -, -, hnext, hescalates⟩ :=
    escalated_at context max_attempts start signals n found hfound haction
  have heq : next = .MISTRAL_FALLBACK := Option.some.inj (hnext.symm.trans hroute)
  rw [heq] at hescalates
  rcases hescalates with ⟨-, -, hother⟩ | ⟨-, hallowed, -⟩ | ⟨-, -, -, hother⟩
  · cases hother
  · exact hallowed
  · cases hother

end Stops

-- The reading fails on every route, and its failed regions can be read again.
def recoverable : QualitySignal where
  region_recoverable := true
  agreement_numeric := some 1
  score_range := by
    rintro share ⟨⟩
  agreement_range := by
    rintro share ⟨⟩
    exact ⟨zero_le_one, le_refl 1⟩
  pass_score := by
    rintro ⟨⟩

section Endless

variable (context : RouterContext) (max_attempts : Nat)

theorem recover_loops (route : Route) (hloops : Loops context route) :
    ∃ found, recover context route recoverable 1 = found ∧ found.again = true ∧
      found.attempt_number = 1 ∧ ∃ next, found.route = some next ∧ Escalates context route next := by
  obtain ⟨henabled, hregion, -, -, hprimary⟩ := hloops
  refine ⟨_, rfl, ?_⟩
  have hagain : (recover context route recoverable 1).again = true := by
    unfold recover
    split_ifs with hyes hpaddle hallowed hrecover
    · rfl
    · exact absurd (hprimary hyes) hpaddle
    · rfl
    · rfl
    · exact absurd ⟨rfl, henabled, hregion⟩ hrecover
    · exact absurd ⟨rfl, henabled, hregion⟩ hrecover
  obtain ⟨-, hnumber, next, hnext, hescalates⟩ := recover_cases context route recoverable 1 hagain
  exact ⟨hagain, hnumber, next, hnext, hescalates⟩

theorem decide_recoverable (route : Route) (hattempts : 1 ≤ max_attempts)
    (hready : route ∈ context.ready_routes) (hlong : route ≠ .UNLIMITED_LONG) :
    decide_escalation context route recoverable 1 max_attempts =
      .ok (recover context route recoverable 1) := by
  have hcounts : ¬(1 < 1 ∨ max_attempts < 1) := by omega
  have hrisk : ¬(context.risk_tier = .HIGH ∧ recoverable.agreement_numeric ≠ some 1) :=
    fun hboth => hboth.2 rfl
  have hretry : ¬(recoverable.retryable_output_failure = true ∧ 1 < max_attempts) :=
    fun hboth => Bool.false_ne_true hboth.1
  unfold decide_escalation
  rw [if_neg hcounts, if_neg (by decide), if_neg (by decide), if_neg (by decide), if_neg hrisk,
    if_neg hlong, if_neg (not_not.mpr hready), if_neg (by decide), if_neg hretry]

theorem stage_loops (start : Route) (hattempts : 1 ≤ max_attempts) (hloops : Loops context start)
    (n : Nat) :
    ∃ route, stage context max_attempts start (fun _ => recoverable) n = some (route, 1) ∧
      Loops context route := by
  induction n with
  | zero => exact ⟨start, rfl, hloops⟩
  | succ n ih =>
    obtain ⟨route, hstage, hroute⟩ := ih
    have hready : route ∈ context.ready_routes := hroute.2.2.1
    have hlong : route ≠ .UNLIMITED_LONG := hroute.2.2.2.1
    obtain ⟨found, hfound, hagain, hnumber, next, hnext, hescalates⟩ :=
      recover_loops context route hroute
    refine ⟨next, ?_, loops_escalates context route next hroute hescalates⟩
    rw [stage, hstage]
    simp only [decide_recoverable context max_attempts route hattempts hready hlong, hfound, hagain,
      if_true, hnext, hnumber]
    rfl

theorem never_stops (start : Route) (hattempts : 1 ≤ max_attempts) (hloops : Loops context start)
    (n : Nat) (found : EscalationDecision)
    (hfound : decision_at context max_attempts start (fun _ => recoverable) n = some found) :
    found.again = true := by
  obtain ⟨route, attempt_number, hstage, hdecide⟩ :=
    (decision_at_eq_some_iff context max_attempts start _ n found).mp hfound
  obtain ⟨route', hstage', hroute⟩ := stage_loops context max_attempts start hattempts hloops n
  cases hstage.symm.trans hstage'
  have hready : route ∈ context.ready_routes := hroute.2.2.1
  have hlong : route ≠ .UNLIMITED_LONG := hroute.2.2.2.1
  rw [decide_recoverable context max_attempts route hattempts hready hlong] at hdecide
  obtain ⟨other, hother, hagain, -⟩ := recover_loops context route hroute
  cases hdecide.symm.trans (congrArg Except.ok hother)
  exact hagain

end Endless

theorem bounded_run_iff (context : RouterContext) (max_attempts : Nat) (start : Route)
    (hattempts : 1 ≤ max_attempts) :
    (∀ signals, BoundedRun context max_attempts start signals) ↔ ¬Loops context start := by
  constructor
  · intro hbounded hloops
    obtain ⟨n, -, found, hfound, hlast⟩ := (hbounded fun _ => recoverable).stops
    rw [never_stops context max_attempts start hattempts hloops n found hfound] at hlast
    cases hlast
  · intro hloops signals
    exact {
      stops := run_stops context max_attempts start signals hattempts hloops
      once := escalates_once context max_attempts start signals hattempts hloops
      consent := fun n found hfound haction hroute => external_fallback_consent context
        (escalates_consent context max_attempts start signals n found hfound haction hroute) }

def recovery_context : RouterContext where
  feature_flags := { region_recovery_enabled := true }
  ready_routes := {.REGION_RECOVERY}
  private_mode_internal := by decide
  private_processing_internal := by decide
  no_terminal_ready := by decide
  private_mode_no_fallback := by decide

def native_context : RouterContext where
  private_mode_internal := by decide
  private_processing_internal := by decide
  no_terminal_ready := by decide
  private_mode_no_fallback := by decide

theorem native_reading_bounded :
    (∀ signals, BoundedRun native_context 3 .NATIVE signals) ↔ ¬Loops native_context .NATIVE :=
  bounded_run_iff native_context 3 .NATIVE (by decide)

theorem region_recovery_endless :
    ¬∀ signals, BoundedRun recovery_context 3 .REGION_RECOVERY signals := by
  intro hbounded
  have hloops : Loops recovery_context .REGION_RECOVERY := ⟨rfl, by decide, by decide, nofun, nofun⟩
  obtain ⟨n, -, found, hfound, hlast⟩ := (hbounded fun _ => recoverable).stops
  rw [never_stops recovery_context 3 .REGION_RECOVERY (by decide) hloops n found hfound] at hlast
  cases hlast

end KnowledgeCompiler.Router
