import KnowledgeCompiler.Lib.Binary64.Order
import KnowledgeCompiler.Lib.Dict
import KnowledgeCompiler.Router.Escalation
import Mathlib.Algebra.BigOperators.Group.List.Basic
import Mathlib.Algebra.Order.BigOperators.Group.List
import Mathlib.Data.List.Sort
import Mathlib.Tactic.NormNum
import Mathlib.Tactic.Positivity

namespace KnowledgeCompiler.Router

open Lib

inductive EstimateConfidence
  | LOW | MEDIUM | HIGH
deriving DecidableEq

inductive GpuThermalState
  | WARM | COLD | UNKNOWN
deriving DecidableEq

inductive GpuClass
  | CPU_ONLY | T4 | L4 | A10 | A100 | H100 | UNKNOWN
deriving DecidableEq

structure RoutePopulation where
  route : Route
  pages : Nat
  sampled_pages : Nat := 0
  sample_runtime_seconds_p50 : Option ℚ := none
  sample_runtime_seconds_p95 : Option ℚ := none
  recovery_probability : ℚ := 0
  p50_nonneg : ∀ seconds ∈ sample_runtime_seconds_p50, 0 ≤ seconds
  p95_nonneg : ∀ seconds ∈ sample_runtime_seconds_p95, 0 ≤ seconds
  recovery_range : 0 ≤ recovery_probability ∧ recovery_probability ≤ 1
  sampled_le : sampled_pages ≤ pages
  runtime_le : ∀ p50 ∈ sample_runtime_seconds_p50, ∀ p95 ∈ sample_runtime_seconds_p95, p50 ≤ p95

-- `_TERMINAL_UNBILLABLE_ROUTES`
def is_terminal (population : RoutePopulation) : Bool :=
  population.route = .UNRESOLVED || population.route = .QUARANTINE

def total_pages (populations : List RoutePopulation) : Nat :=
  (populations.map RoutePopulation.pages).sum

def terminal_pages (populations : List RoutePopulation) : Nat :=
  total_pages (populations.filter is_terminal)

-- The proofs are what `validate_input` and the fields check.
structure CollectionEstimateInput where
  route_populations : List RoutePopulation
  duplicate_pages : Nat := 0
  knowledge_note_count : Nat := 0
  entity_relation_candidates : Nat := 0
  export_profile_count : Nat := 1
  queue_delay_p50_seconds : Option ℚ := none
  queue_delay_p95_seconds : Option ℚ := none
  gpu_state : GpuThermalState := .UNKNOWN
  gpu_class : GpuClass := .UNKNOWN
  sample_output_tokens : Nat := 0
  static_complexity : ℚ := 0
  max_parallel_pages : Nat := 8
  predictor_revision : String := "rules-quantile-2026-07-31.1"
  evidence_revision : String := "unbound"
  evidence_sha256 : Option String := none
  measured_signal_fields : List String := []
  populations_ne : route_populations ≠ []
  routes_unique : (route_populations.map RoutePopulation.route).Nodup
  queue_together : queue_delay_p50_seconds.isNone = queue_delay_p95_seconds.isNone
  queue_nonneg : ∀ delay ∈ queue_delay_p50_seconds, 0 ≤ delay
  queue_le : ∀ p50 ∈ queue_delay_p50_seconds, ∀ p95 ∈ queue_delay_p95_seconds, p50 ≤ p95
  fields_unique : measured_signal_fields.Nodup
  duplicates_le : duplicate_pages + terminal_pages route_populations ≤ total_pages route_populations
  export_range : 1 ≤ export_profile_count ∧ export_profile_count ≤ 8
  complexity_range : 0 ≤ static_complexity ∧ static_complexity ≤ 1
  parallel_range : 1 ≤ max_parallel_pages ∧ max_parallel_pages ≤ 64

structure CollectionEstimate where
  credit_p50 : ℚ
  credit_p95 : ℚ
  reserve_ceiling : ℚ
  duration_p50_seconds : ℚ
  duration_p95_seconds : ℚ
  route_mix : List (String × ℚ)
  confidence : ℚ
  confidence_band : EstimateConfidence
  sampled_pages : Nat
  billable_pages : Nat
  duplicate_pages : Nat
  unbillable_pages : Nat
  predictor_revision : String
  evidence_revision : String
  evidence_sha256 : Option String
  measured_signal_fields : List String
  calibration_required : Bool

def _CREDIT_QUANTILES : Route → ℚ × ℚ
  | .NATIVE => (0.25, 0.35)
  | .PADDLE_FAST => (0.85, 1.20)
  | .HPD_FAST => (0.90, 1.25)
  | .PADDLE_VL => (1.25, 1.80)
  | .UNLIMITED_LONG => (1.45, 2.10)
  | .MISTRAL_FALLBACK => (1.75, 2.60)
  | .REGION_RECOVERY => (2.20, 3.40)
  | .AUTHORITY_RECONSTRUCTION => (0.75, 1.50)
  | _ => (0, 0)

def _SECONDS_QUANTILES : Route → ℚ × ℚ
  | .NATIVE => (0.06, 0.18)
  | .PADDLE_FAST => (0.65, 1.50)
  | .HPD_FAST => (0.75, 1.70)
  | .PADDLE_VL => (1.80, 4.20)
  | .UNLIMITED_LONG => (2.40, 6.50)
  | .MISTRAL_FALLBACK => (2.10, 5.50)
  | .REGION_RECOVERY => (4.00, 12.00)
  | .AUTHORITY_RECONSTRUCTION => (1.00, 5.00)
  | _ => (0, 0)

structure RouteQuantiles where
  credit_p50 : ℚ
  credit_p95 : ℚ
  seconds_p50 : ℚ
  seconds_p95 : ℚ

def _route_quantiles (population : RoutePopulation) : RouteQuantiles :=
  let credit := _CREDIT_QUANTILES population.route
  let seconds := _SECONDS_QUANTILES population.route
  let seconds_p50 := population.sample_runtime_seconds_p50.getD seconds.1
  let seconds_p95 := population.sample_runtime_seconds_p95.getD seconds.2
  let recovery := population.recovery_probability
  { credit_p50 := credit.1 * (1 + 0.20 * recovery)
    credit_p95 := credit.2 * (1 + 0.45 * recovery)
    seconds_p50 := seconds_p50 * (1 + 0.35 * recovery)
    seconds_p95 := seconds_p95 * (1 + 0.80 * recovery) }

structure Totals where
  duplicate_remaining : Nat
  credit_p50 : ℚ := 0
  credit_p95 : ℚ := 0
  work_p50 : ℚ := 0
  work_p95 : ℚ := 0
  sampled_pages : Nat := 0
  billed_by_route : Dict Route Nat := .empty

-- One round of the loop in `estimate_collection`.
def add_population (totals : Totals) (population : RoutePopulation) : Totals :=
  let sampled_pages := totals.sampled_pages + population.sampled_pages
  if is_terminal population then { totals with sampled_pages := sampled_pages }
  else
    let deduped := min population.pages totals.duplicate_remaining
    let pages := population.pages - deduped
    let quantiles := _route_quantiles population
    { duplicate_remaining := totals.duplicate_remaining - deduped
      credit_p50 := totals.credit_p50 + pages * quantiles.credit_p50
      credit_p95 := totals.credit_p95 + pages * quantiles.credit_p95
      work_p50 := totals.work_p50 + pages * quantiles.seconds_p50
      work_p95 := totals.work_p95 + pages * quantiles.seconds_p95
      sampled_pages := sampled_pages
      billed_by_route := totals.billed_by_route.update population.route (·.getD 0 + pages) }

def gpu_capacity : GpuClass → ℚ
  | .CPU_ONLY => 0.25
  | .T4 => 0.50
  | .L4 => 0.75
  | .A10 => 0.80
  | .A100 => 1.25
  | .H100 => 1.50
  | .UNKNOWN => 1.0

-- `round(value, places)`
def round (value : ℚ) (places : Nat) : ℚ :=
  Text.roundHalfEven (value * 10 ^ places) / 10 ^ places

namespace CollectionEstimateInput

variable (value : CollectionEstimateInput)

def totals : Totals :=
  value.route_populations.foldl add_population { duplicate_remaining := value.duplicate_pages }

def billable_pages : Nat :=
  total_pages value.route_populations - value.duplicate_pages -
    terminal_pages value.route_populations

def complexity_multiplier : ℚ := 1 + 0.15 * value.static_complexity

def knowledge_p50 : ℚ :=
  value.knowledge_note_count * 0.08 + value.entity_relation_candidates * 0.025 +
    value.sample_output_tokens * 0.00002

def knowledge_p95 : ℚ :=
  value.knowledge_note_count * 0.12 + value.entity_relation_candidates * 0.04 +
    value.sample_output_tokens * 0.00004

def credit_p50 : ℚ :=
  value.totals.credit_p50 * value.complexity_multiplier + value.knowledge_p50 +
    value.billable_pages * 0.01 * value.export_profile_count

def credit_p95 : ℚ :=
  value.totals.credit_p95 * value.complexity_multiplier + value.knowledge_p95 +
    value.billable_pages * 0.02 * value.export_profile_count

def cold_p50 : ℚ := if value.gpu_state = .COLD then 8 else 0

def cold_p95 : ℚ := if value.gpu_state ≠ .WARM then 30 else 2

def duration_p50 : ℚ :=
  value.totals.work_p50 / gpu_capacity value.gpu_class / value.max_parallel_pages +
    value.queue_delay_p50_seconds.getD 0 + value.cold_p50 + value.knowledge_note_count * 0.03

def duration_p95 : ℚ :=
  value.totals.work_p95 / gpu_capacity value.gpu_class /
      (max 1 (value.max_parallel_pages / 2) : Nat) +
    value.queue_delay_p95_seconds.getD 0 + value.cold_p95 + value.knowledge_note_count * 0.08

def sampled_ratio : ℚ := value.totals.sampled_pages / (max 1 value.billable_pages : Nat)

def route_coverage : ℚ :=
  (value.route_populations.countP fun population => 0 < population.sampled_pages : Nat) /
    (value.route_populations.length : ℚ)

def recovery_uncertainty : ℚ :=
  (value.route_populations.map fun population =>
    population.recovery_probability * (population.pages : ℚ)).sum /
      (max 1 (total_pages value.route_populations) : Nat)

def evidence_coverage : ℚ := min 1 (value.measured_signal_fields.length / 12)

def confidence : ℚ :=
  let confidence := min 0.97
    (max 0.20 (0.34 + 0.36 * value.route_coverage + 0.35 * min 1 (value.sampled_ratio * 20)) -
      0.20 * value.recovery_uncertainty)
  let confidence := if value.queue_delay_p50_seconds.isNone then confidence - 0.05 else confidence
  let confidence :=
    if value.gpu_class = .UNKNOWN ∨ value.gpu_state = .UNKNOWN then confidence - 0.05
    else confidence
  max 0.20 (confidence - 0.08 * (1 - value.evidence_coverage))

def confidence_band : EstimateConfidence :=
  if 0.80 ≤ value.confidence then .HIGH else if 0.55 ≤ value.confidence then .MEDIUM else .LOW

def no_later (first second : Route × Nat) : Prop := first.1.value ≤ second.1.value

instance : DecidableRel no_later := fun _ _ => inferInstanceAs (Decidable (_ ≤ _))

def route_mix : List (String × ℚ) :=
  if value.billable_pages = 0 then []
  else
    ((value.totals.billed_by_route.entries.insertionSort no_later).filter fun entry =>
      entry.2 ≠ 0).map fun entry => (entry.1.value, entry.2 / value.billable_pages)

-- What `estimate_collection` hands to the validators.
def estimated : CollectionEstimate where
  credit_p50 := round value.credit_p50 3
  credit_p95 := round value.credit_p95 3
  reserve_ceiling := round (value.credit_p95 * 1.025) 3
  duration_p50_seconds := round value.duration_p50 3
  duration_p95_seconds := round (max value.duration_p50 value.duration_p95) 3
  route_mix := value.route_mix
  confidence := round value.confidence 4
  confidence_band := value.confidence_band
  sampled_pages := value.totals.sampled_pages
  billable_pages := value.billable_pages
  duplicate_pages := value.duplicate_pages
  unbillable_pages := terminal_pages value.route_populations
  predictor_revision := value.predictor_revision
  evidence_revision := value.evidence_revision
  evidence_sha256 := value.evidence_sha256
  measured_signal_fields := value.measured_signal_fields
  calibration_required := value.confidence_band ≠ .HIGH

end CollectionEstimateInput

-- `math.isclose(value, 1.0, abs_tol=1e-6)`
def close_to_one (value : ℚ) : Prop :=
  |value - 1| ≤ max (10⁻¹ ^ 9 * max |value| 1) (10⁻¹ ^ 6)

instance (value : ℚ) : Decidable (close_to_one value) := inferInstanceAs (Decidable (_ ≤ _))

-- The fields' ranges, then `validate_quantiles`.
def validated (estimate : CollectionEstimate) : Except String CollectionEstimate :=
  if estimate.credit_p50 < 0 ∨ estimate.credit_p95 < 0 ∨ estimate.reserve_ceiling < 0 ∨
      estimate.duration_p50_seconds < 0 ∨ estimate.duration_p95_seconds < 0 ∨
      estimate.confidence < 0 ∨ ¬(estimate.route_mix.all fun share => 0 ≤ share.2) then
    .error "Input should be greater than or equal to 0"
  else if 1 < estimate.confidence ∨ ¬(estimate.route_mix.all fun share => share.2 ≤ 1) then
    .error "Input should be less than or equal to 1"
  else if estimate.credit_p95 < estimate.credit_p50 then
    .error "credit p95 cannot be below p50"
  else if estimate.reserve_ceiling < estimate.credit_p95 then
    .error "reserve ceiling cannot be below credit p95"
  else if estimate.duration_p95_seconds < estimate.duration_p50_seconds then
    .error "duration p95 cannot be below p50"
  else if estimate.route_mix ≠ [] ∧ ¬close_to_one (estimate.route_mix.map Prod.snd).sum then
    .error "route mix must sum to one"
  else .ok estimate

def estimate_collection (value : CollectionEstimateInput) : Except String CollectionEstimate :=
  validated value.estimated

section Charging

-- The pages of each population that are billed, when some duplicates are left to charge off.
def charged : Nat → List RoutePopulation → List (RoutePopulation × Nat)
  | _, [] => []
  | remaining, population :: rest =>
      if is_terminal population then charged remaining rest
      else
        (population, population.pages - min population.pages remaining) ::
          charged (remaining - min population.pages remaining) rest

theorem mem_of_mem_charged (remaining : Nat) (populations : List RoutePopulation)
    (entry : RoutePopulation × Nat) (hentry : entry ∈ charged remaining populations) :
    entry.1 ∈ populations ∧ is_terminal entry.1 = false := by
  induction populations generalizing remaining with
  | nil => cases hentry
  | cons population rest ih =>
    unfold charged at hentry
    split at hentry
    · obtain ⟨hmem, hbillable⟩ := ih _ hentry
      exact ⟨List.mem_cons_of_mem _ hmem, hbillable⟩
    · rename_i hbillable
      rcases List.mem_cons.mp hentry with rfl | hentry
      · exact ⟨List.mem_cons_self, Bool.eq_false_of_not_eq_true hbillable⟩
      · obtain ⟨hmem, hbillable'⟩ := ih _ hentry
        exact ⟨List.mem_cons_of_mem _ hmem, hbillable'⟩

theorem exists_mem_charged (remaining : Nat) (populations : List RoutePopulation)
    (population : RoutePopulation) (hmem : population ∈ populations)
    (hbillable : is_terminal population = false) :
    ∃ pages, (population, pages) ∈ charged remaining populations := by
  induction populations generalizing remaining with
  | nil => cases hmem
  | cons other rest ih =>
    unfold charged
    rcases List.mem_cons.mp hmem with rfl | hmem
    · rw [if_neg (by rw [hbillable]; exact Bool.false_ne_true)]
      exact ⟨_, List.mem_cons_self⟩
    · split
      · exact ih _ hmem
      · obtain ⟨pages, hpages⟩ := ih (remaining - min other.pages remaining) hmem
        exact ⟨pages, List.mem_cons_of_mem _ hpages⟩

theorem charged_sublist (remaining : Nat) (populations : List RoutePopulation) :
    ((charged remaining populations).map Prod.fst).Sublist populations := by
  induction populations generalizing remaining with
  | nil => exact List.Sublist.refl _
  | cons population rest ih =>
    unfold charged
    split
    · exact (ih _).cons _
    · exact (ih _).cons_cons _

theorem charged_pages (remaining : Nat) (populations : List RoutePopulation) :
    ((charged remaining populations).map Prod.snd).sum =
      total_pages populations - terminal_pages populations - remaining := by
  have hterminal (populations : List RoutePopulation) :
      terminal_pages populations ≤ total_pages populations :=
    (List.filter_sublist.map RoutePopulation.pages).sum_le_sum fun _ _ => Nat.zero_le _
  induction populations generalizing remaining with
  | nil => simp [charged, total_pages, terminal_pages]
  | cons population rest ih =>
    have hle := hterminal rest
    unfold charged
    split
    · rename_i hyes
      rw [ih]
      simp only [total_pages, terminal_pages, List.filter_cons, hyes, if_true, List.map_cons,
        List.sum_cons] at hle ⊢
      omega
    · rename_i hno
      rw [List.map_cons, List.sum_cons, ih]
      simp only [total_pages, terminal_pages, List.filter_cons, hno, if_false, List.map_cons,
        List.sum_cons, Bool.false_eq_true] at hle ⊢
      omega

-- A population is charged what is left of the duplicates by the ones that stand before it.
theorem charged_at (remaining : Nat) (before after : List RoutePopulation)
    (population : RoutePopulation) (hbillable : is_terminal population = false) :
    (population, population.pages - (remaining - (total_pages before - terminal_pages before))) ∈
      charged remaining (before ++ population :: after) := by
  induction before generalizing remaining with
  | nil =>
    have hpages : population.pages - (remaining - (total_pages [] - terminal_pages [])) =
        population.pages - min population.pages remaining := by
      simp only [total_pages, terminal_pages, List.filter_nil, List.map_nil, List.sum_nil]
      omega
    rw [List.nil_append, charged, hbillable, if_neg Bool.false_ne_true, hpages]
    exact List.mem_cons_self
  | cons first rest ih =>
    have hle : terminal_pages rest ≤ total_pages rest :=
      (List.filter_sublist.map RoutePopulation.pages).sum_le_sum fun _ _ => Nat.zero_le _
    rw [List.cons_append, charged]
    split
    · rename_i hyes
      have hsame : total_pages (first :: rest) - terminal_pages (first :: rest) =
          total_pages rest - terminal_pages rest := by
        simp only [total_pages, terminal_pages, List.filter_cons, hyes, if_true, List.map_cons,
          List.sum_cons]
        omega
      rw [hsame]
      exact ih remaining
    · rename_i hno
      have hmore : total_pages (first :: rest) - terminal_pages (first :: rest) =
          first.pages + (total_pages rest - terminal_pages rest) := by
        simp only [total_pages, terminal_pages, List.filter_cons, hno, if_false, List.map_cons,
          List.sum_cons, Bool.false_eq_true] at hle ⊢
        omega
      have hleft : remaining - (first.pages + (total_pages rest - terminal_pages rest)) =
          remaining - min first.pages remaining - (total_pages rest - terminal_pages rest) := by
        omega
      rw [hmore, hleft]
      exact List.mem_cons_of_mem _ (ih _)

-- A price, summed over the billed pages.
def priced (price : RoutePopulation → ℚ) (entries : List (RoutePopulation × Nat)) : ℚ :=
  (entries.map fun entry => entry.2 * price entry.1).sum

structure Charged (before after : Totals) (populations : List RoutePopulation) : Prop where
  credit_p50 : after.credit_p50 = before.credit_p50 +
    priced (fun population => (_route_quantiles population).credit_p50)
      (charged before.duplicate_remaining populations)
  credit_p95 : after.credit_p95 = before.credit_p95 +
    priced (fun population => (_route_quantiles population).credit_p95)
      (charged before.duplicate_remaining populations)
  work_p50 : after.work_p50 = before.work_p50 +
    priced (fun population => (_route_quantiles population).seconds_p50)
      (charged before.duplicate_remaining populations)
  work_p95 : after.work_p95 = before.work_p95 +
    priced (fun population => (_route_quantiles population).seconds_p95)
      (charged before.duplicate_remaining populations)
  sampled : after.sampled_pages = before.sampled_pages +
    (populations.map RoutePopulation.sampled_pages).sum
  billed : after.billed_by_route.entries = before.billed_by_route.entries ++
    (charged before.duplicate_remaining populations).map fun entry => (entry.1.route, entry.2)

theorem charge_run (populations : List RoutePopulation) (totals : Totals)
    (hunique : (populations.map RoutePopulation.route).Nodup)
    (hfresh : ∀ population ∈ populations, population.route ∉ totals.billed_by_route.keys) :
    Charged totals (populations.foldl add_population totals) populations := by
  induction populations generalizing totals with
  | nil => exact ⟨by simp [priced, charged], by simp [priced, charged], by simp [priced, charged],
      by simp [priced, charged], by simp, by simp [charged]⟩
  | cons population rest ih =>
    rw [List.map_cons, List.nodup_cons] at hunique
    obtain ⟨hnew, hunique⟩ := hunique
    have hhead := hfresh population List.mem_cons_self
    have hrest : ∀ other ∈ rest, other.route ∉ totals.billed_by_route.keys :=
      fun other hother => hfresh other (List.mem_cons_of_mem _ hother)
    rw [List.foldl_cons]
    cases hterminal : is_terminal population with
    | true =>
      have hstep : add_population totals population =
          { totals with sampled_pages := totals.sampled_pages + population.sampled_pages } := by
        rw [add_population, if_pos hterminal]
      rw [hstep]
      obtain ⟨h₁, h₂, h₃, h₄, hsampled, hbilled⟩ := ih
        { totals with sampled_pages := totals.sampled_pages + population.sampled_pages } hunique hrest
      have hcharged : charged totals.duplicate_remaining (population :: rest) =
          charged totals.duplicate_remaining rest := by
        rw [charged, if_pos hterminal]
      rw [← hcharged] at h₁ h₂ h₃ h₄ hbilled
      refine ⟨h₁, h₂, h₃, h₄, ?_, hbilled⟩
      rw [hsampled, List.map_cons, List.sum_cons, Nat.add_assoc]
    | false =>
      have hcharged : charged totals.duplicate_remaining (population :: rest) =
          (population, population.pages - min population.pages totals.duplicate_remaining) ::
            charged (totals.duplicate_remaining - min population.pages totals.duplicate_remaining)
              rest := by
        rw [charged, hterminal, if_neg Bool.false_ne_true]
      generalize hpages : population.pages - min population.pages totals.duplicate_remaining = pages
        at hcharged
      have hbilled_step : (add_population totals population).billed_by_route =
          totals.billed_by_route.set population.route pages := by
        have hnone := (totals.billed_by_route.get?_eq_none_iff population.route).mpr hhead
        rw [add_population, hterminal, if_neg Bool.false_ne_true]
        simp only [Dict.update, hnone, Option.getD_none, Nat.zero_add, hpages]
      have hentries : (add_population totals population).billed_by_route.entries =
          totals.billed_by_route.entries ++ [(population.route, pages)] := by
        rw [hbilled_step]
        exact Dict.setEntries_of_not_mem _ _ _ hhead
      have hfresh_step : ∀ other ∈ rest,
          other.route ∉ (add_population totals population).billed_by_route.keys := by
        intro other hother hkey
        rw [hbilled_step, Dict.mem_keys_set] at hkey
        rcases hkey with heq | hkey
        · exact hnew (heq ▸ List.mem_map_of_mem hother)
        · exact hrest other hother hkey
      obtain ⟨h₁, h₂, h₃, h₄, hsampled, hbilled⟩ := ih _ hunique hfresh_step
      have hremaining : (add_population totals population).duplicate_remaining =
          totals.duplicate_remaining - min population.pages totals.duplicate_remaining := by
        rw [add_population, hterminal, if_neg Bool.false_ne_true]
      rw [hremaining] at h₁ h₂ h₃ h₄ hbilled
      have hstep : add_population totals population = {
          duplicate_remaining :=
            totals.duplicate_remaining - min population.pages totals.duplicate_remaining
          credit_p50 := totals.credit_p50 + pages * (_route_quantiles population).credit_p50
          credit_p95 := totals.credit_p95 + pages * (_route_quantiles population).credit_p95
          work_p50 := totals.work_p50 + pages * (_route_quantiles population).seconds_p50
          work_p95 := totals.work_p95 + pages * (_route_quantiles population).seconds_p95
          sampled_pages := totals.sampled_pages + population.sampled_pages
          billed_by_route := totals.billed_by_route.update population.route (·.getD 0 + pages) } := by
        rw [add_population, hterminal, if_neg Bool.false_ne_true]
        simp only [hpages]
      rw [hentries, List.append_assoc] at hbilled
      refine ⟨?_, ?_, ?_, ?_, ?_, ?_⟩
      · rw [h₁, hcharged, hstep]
        simp only [priced, List.map_cons, List.sum_cons, add_assoc]
      · rw [h₂, hcharged, hstep]
        simp only [priced, List.map_cons, List.sum_cons, add_assoc]
      · rw [h₃, hcharged, hstep]
        simp only [priced, List.map_cons, List.sum_cons, add_assoc]
      · rw [h₄, hcharged, hstep]
        simp only [priced, List.map_cons, List.sum_cons, add_assoc]
      · rw [hsampled, hstep]
        simp only [List.map_cons, List.sum_cons, Nat.add_assoc]
      · rw [hbilled, hcharged]
        rfl

end Charging

section Bounds

theorem round_mono (places : Nat) (first second : ℚ) (hle : first ≤ second) :
    round first places ≤ round second places := by
  have hscaled : first * 10 ^ places ≤ second * 10 ^ places :=
    mul_le_mul_of_nonneg_right hle (by positivity)
  refine div_le_div_of_nonneg_right ?_ (by positivity)
  exact_mod_cast Binary64.roundHalfEven_mono hscaled

theorem round_intCast (places : Nat) (n : ℤ) : round n places = n := by
  have hcast : (n : ℚ) * 10 ^ places = ((n * 10 ^ places : ℤ) : ℚ) := by push_cast; rfl
  rw [round, hcast, Binary64.roundHalfEven_intCast, ← hcast]
  exact mul_div_cancel_right₀ _ (by positivity)

theorem round_nonneg (places : Nat) (value : ℚ) (hvalue : 0 ≤ value) : 0 ≤ round value places := by
  have hzero := round_intCast places 0
  rw [Int.cast_zero] at hzero
  rw [← hzero]
  exact round_mono places 0 value hvalue

theorem round_le_one (places : Nat) (value : ℚ) (hvalue : value ≤ 1) : round value places ≤ 1 := by
  have hone := round_intCast places 1
  rw [Int.cast_one] at hone
  calc round value places ≤ round 1 places := round_mono places value 1 hvalue
    _ = 1 := hone

theorem credit_quantiles_le (route : Route) :
    0 ≤ (_CREDIT_QUANTILES route).1 ∧ (_CREDIT_QUANTILES route).1 ≤ (_CREDIT_QUANTILES route).2 := by
  cases route <;> norm_num [_CREDIT_QUANTILES]

theorem seconds_quantiles_nonneg (route : Route) :
    0 ≤ (_SECONDS_QUANTILES route).1 ∧ 0 ≤ (_SECONDS_QUANTILES route).2 := by
  cases route <;> norm_num [_SECONDS_QUANTILES]

theorem route_credit_bounds (population : RoutePopulation) :
    0 ≤ (_route_quantiles population).credit_p50 ∧
      (_route_quantiles population).credit_p50 ≤ (_route_quantiles population).credit_p95 := by
  obtain ⟨hnonneg, hle⟩ := credit_quantiles_le population.route
  obtain ⟨hrecovery, -⟩ := population.recovery_range
  constructor
  · exact mul_nonneg hnonneg (by linarith)
  · exact mul_le_mul hle (by linarith) (by linarith) (hnonneg.trans hle)

theorem getD_nonneg (measured : Option ℚ) (default : ℚ) (hmeasured : ∀ seconds ∈ measured, 0 ≤ seconds)
    (hdefault : 0 ≤ default) : 0 ≤ measured.getD default := by
  cases measured with
  | none => exact hdefault
  | some seconds => exact hmeasured seconds rfl

theorem route_seconds_nonneg (population : RoutePopulation) :
    0 ≤ (_route_quantiles population).seconds_p50 ∧
      0 ≤ (_route_quantiles population).seconds_p95 := by
  obtain ⟨h50, h95⟩ := seconds_quantiles_nonneg population.route
  obtain ⟨hrecovery, -⟩ := population.recovery_range
  exact ⟨mul_nonneg (getD_nonneg _ _ population.p50_nonneg h50) (by linarith),
    mul_nonneg (getD_nonneg _ _ population.p95_nonneg h95) (by linarith)⟩

theorem priced_nonneg (price : RoutePopulation → ℚ) (entries : List (RoutePopulation × Nat))
    (hprice : ∀ population, 0 ≤ price population) : 0 ≤ priced price entries := by
  refine List.sum_nonneg fun amount hamount => ?_
  obtain ⟨entry, -, rfl⟩ := List.mem_map.mp hamount
  exact mul_nonneg (Nat.cast_nonneg _) (hprice entry.1)

theorem priced_mono (first second : RoutePopulation → ℚ) (entries : List (RoutePopulation × Nat))
    (hle : ∀ population, first population ≤ second population) :
    priced first entries ≤ priced second entries :=
  List.sum_le_sum fun entry _ => mul_le_mul_of_nonneg_left (hle entry.1) (Nat.cast_nonneg _)

theorem gpu_capacity_pos (gpu : GpuClass) : 0 < gpu_capacity gpu := by
  cases gpu <;> norm_num [gpu_capacity]

namespace CollectionEstimateInput

variable (value : CollectionEstimateInput)

theorem totals_charged :
    Charged { duplicate_remaining := value.duplicate_pages } value.totals value.route_populations :=
  charge_run value.route_populations _ value.routes_unique fun _ _ hkey => nomatch hkey

theorem credit_bounds : 0 ≤ value.credit_p50 ∧ value.credit_p50 ≤ value.credit_p95 := by
  obtain ⟨hcredit_p50, hcredit_p95, -, -, -, -⟩ := value.totals_charged
  have hp50 : 0 ≤ value.totals.credit_p50 := by
    rw [hcredit_p50, zero_add]
    exact priced_nonneg _ _ fun population => (route_credit_bounds population).1
  have hp95 : value.totals.credit_p50 ≤ value.totals.credit_p95 := by
    rw [hcredit_p50, hcredit_p95, zero_add, zero_add]
    exact priced_mono _ _ _ fun population => (route_credit_bounds population).2
  have hmultiplier : 0 ≤ value.complexity_multiplier := by
    have hcomplexity := value.complexity_range.1
    unfold complexity_multiplier
    linarith
  have hknowledge : 0 ≤ value.knowledge_p50 ∧ value.knowledge_p50 ≤ value.knowledge_p95 := by
    have hnotes : (0 : ℚ) ≤ value.knowledge_note_count := Nat.cast_nonneg _
    have hcandidates : (0 : ℚ) ≤ value.entity_relation_candidates := Nat.cast_nonneg _
    have htokens : (0 : ℚ) ≤ value.sample_output_tokens := Nat.cast_nonneg _
    unfold knowledge_p50 knowledge_p95
    exact ⟨by linarith, by linarith⟩
  have hexport : (0 : ℚ) ≤ value.billable_pages * value.export_profile_count := by positivity
  have hscaled := mul_le_mul_of_nonneg_right hp95 hmultiplier
  have hscaled_nonneg := mul_nonneg hp50 hmultiplier
  unfold credit_p50 credit_p95
  constructor
  · linarith [hknowledge.1]
  · linarith [hknowledge.2]

theorem duration_p50_nonneg : 0 ≤ value.duration_p50 := by
  have hwork : 0 ≤ value.totals.work_p50 := by
    rw [value.totals_charged.work_p50, zero_add]
    exact priced_nonneg _ _ fun population => (route_seconds_nonneg population).1
  have hqueue : 0 ≤ value.queue_delay_p50_seconds.getD 0 :=
    getD_nonneg _ _ value.queue_nonneg (le_refl 0)
  have hcold : 0 ≤ value.cold_p50 := by
    unfold cold_p50
    split <;> norm_num
  have hshare : 0 ≤ value.totals.work_p50 / gpu_capacity value.gpu_class / value.max_parallel_pages :=
    div_nonneg (div_nonneg hwork (gpu_capacity_pos _).le) (Nat.cast_nonneg _)
  have hnotes : (0 : ℚ) ≤ value.knowledge_note_count := Nat.cast_nonneg _
  unfold duration_p50
  linarith

theorem confidence_bounds : 0 ≤ value.confidence ∧ value.confidence ≤ 1 := by
  have hevidence : value.evidence_coverage ≤ 1 := min_le_left _ _
  unfold confidence
  dsimp only
  constructor
  · exact le_max_of_le_left (by norm_num)
  · have hfirst : min 0.97
        (max 0.20 (0.34 + 0.36 * value.route_coverage + 0.35 * min 1 (value.sampled_ratio * 20)) -
          0.20 * value.recovery_uncertainty) ≤ (1 : ℚ) :=
      (min_le_left _ _).trans (by norm_num)
    refine max_le (by norm_num) ?_
    split <;> split <;> linarith

-- The billed pages of the routes, taken together, are the billable pages.
theorem sum_billed : value.totals.billed_by_route.values.sum = value.billable_pages := by
  have hbilled : value.totals.billed_by_route.values =
      (charged value.duplicate_pages value.route_populations).map Prod.snd := by
    rw [Dict.values, value.totals_charged.billed, List.map_append, List.map_map]
    rfl
  have hduplicates := value.duplicates_le
  rw [hbilled, charged_pages, billable_pages]
  omega

theorem sum_shares (entries : List (Route × Nat)) (pages : ℚ) :
    ((entries.filter fun entry => entry.2 ≠ 0).map fun entry => (entry.2 : ℚ) / pages).sum =
      ((entries.map Prod.snd).sum : Nat) / pages := by
  induction entries with
  | nil => simp
  | cons entry rest ih =>
    rw [List.map_cons, List.sum_cons, Nat.cast_add, add_div, ← ih]
    by_cases hzero : entry.2 = 0
    · simp [hzero]
    · simp [hzero]

theorem sum_route_mix (hne : value.route_mix ≠ []) : (value.route_mix.map Prod.snd).sum = 1 := by
  have hpages : value.billable_pages ≠ 0 := fun hzero => hne (if_pos hzero)
  have hperm := (List.perm_insertionSort no_later value.totals.billed_by_route.entries).map Prod.snd
  rw [route_mix, if_neg hpages, List.map_map]
  have hsum := sum_shares (value.totals.billed_by_route.entries.insertionSort no_later)
    value.billable_pages
  rw [hperm.sum_eq] at hsum
  refine hsum.trans ?_
  have hbilled := value.sum_billed
  rw [Dict.values] at hbilled
  rw [hbilled]
  exact div_self (Nat.cast_ne_zero.mpr hpages)

theorem share_bounds (share : String × ℚ) (hshare : share ∈ value.route_mix) :
    0 ≤ share.2 ∧ share.2 ≤ 1 := by
  unfold route_mix at hshare
  split at hshare
  · cases hshare
  · rename_i hpages
    obtain ⟨entry, hentry, rfl⟩ := List.mem_map.mp hshare
    have hmem : entry ∈ value.totals.billed_by_route.entries :=
      (List.mem_insertionSort _).mp (List.mem_filter.mp hentry).1
    have hle : entry.2 ≤ value.billable_pages := by
      rw [← value.sum_billed]
      exact List.single_le_sum (fun _ _ => Nat.zero_le _) _ (List.mem_map_of_mem hmem)
    have hpos : (0 : ℚ) < value.billable_pages := Nat.cast_pos.mpr (Nat.pos_of_ne_zero hpages)
    exact ⟨by positivity, (div_le_one hpos).mpr (Nat.cast_le.mpr hle)⟩

theorem estimate_collection_ok : estimate_collection value = .ok value.estimated := by
  obtain ⟨hcredit, hcredit_le⟩ := value.credit_bounds
  have hceiling : value.credit_p95 ≤ value.credit_p95 * 1.025 := by linarith
  have hduration := value.duration_p50_nonneg
  have hduration_le : value.duration_p50 ≤ max value.duration_p50 value.duration_p95 :=
    le_max_left _ _
  obtain ⟨hconfidence, hconfidence_le⟩ := value.confidence_bounds
  have hp95 := hcredit.trans hcredit_le
  have hranges : ¬(value.estimated.credit_p50 < 0 ∨ value.estimated.credit_p95 < 0 ∨
      value.estimated.reserve_ceiling < 0 ∨ value.estimated.duration_p50_seconds < 0 ∨
      value.estimated.duration_p95_seconds < 0 ∨ value.estimated.confidence < 0 ∨
      ¬(value.estimated.route_mix.all fun share => 0 ≤ share.2) = true) := by
    simp only [not_or, not_lt, not_not]
    refine ⟨round_nonneg _ _ hcredit, round_nonneg _ _ hp95, round_nonneg _ _ (hp95.trans hceiling),
      round_nonneg _ _ hduration, round_nonneg _ _ (hduration.trans hduration_le),
      round_nonneg _ _ hconfidence, ?_⟩
    exact List.all_eq_true.mpr fun share hshare =>
      decide_eq_true (value.share_bounds share hshare).1
  have hshares : ¬(1 < value.estimated.confidence ∨
      ¬(value.estimated.route_mix.all fun share => share.2 ≤ 1) = true) := by
    simp only [not_or, not_lt, not_not]
    refine ⟨round_le_one _ _ hconfidence_le, ?_⟩
    exact List.all_eq_true.mpr fun share hshare =>
      decide_eq_true (value.share_bounds share hshare).2
  have hmix : ¬(value.estimated.route_mix ≠ [] ∧
      ¬close_to_one (value.estimated.route_mix.map Prod.snd).sum) := by
    rintro ⟨hne, hfar⟩
    refine hfar ?_
    have hsum : (value.estimated.route_mix.map Prod.snd).sum = 1 := value.sum_route_mix hne
    rw [hsum, close_to_one, sub_self, abs_zero]
    positivity
  have hquantiles : ¬value.estimated.credit_p95 < value.estimated.credit_p50 :=
    not_lt.mpr (round_mono 3 _ _ hcredit_le)
  have hreserve : ¬value.estimated.reserve_ceiling < value.estimated.credit_p95 :=
    not_lt.mpr (round_mono 3 _ _ hceiling)
  have hdurations : ¬value.estimated.duration_p95_seconds < value.estimated.duration_p50_seconds :=
    not_lt.mpr (round_mono 3 _ _ hduration_le)
  unfold estimate_collection validated
  rw [if_neg hranges, if_neg hshares, if_neg hquantiles, if_neg hreserve, if_neg hdurations,
    if_neg hmix]

end CollectionEstimateInput

end Bounds

end KnowledgeCompiler.Router
