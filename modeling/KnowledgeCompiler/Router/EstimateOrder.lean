import KnowledgeCompiler.Router.Estimation

namespace KnowledgeCompiler.Router

open Lib

section Order

theorem total_pages_perm (first second : List RoutePopulation) (hperm : first.Perm second) :
    total_pages first = total_pages second := (hperm.map RoutePopulation.pages).sum_eq

theorem terminal_pages_perm (first second : List RoutePopulation) (hperm : first.Perm second) :
    terminal_pages first = terminal_pages second := total_pages_perm _ _ (hperm.filter _)

namespace CollectionEstimateInput

variable (value : CollectionEstimateInput) (order : List RoutePopulation)
  (hperm : order.Perm value.route_populations)

-- The same input with its populations listed in another order.
def reorder : CollectionEstimateInput :=
  { value with
    route_populations := order
    populations_ne := fun hnil => value.populations_ne (hnil ▸ hperm).nil_eq.symm
    routes_unique := (hperm.map RoutePopulation.route).nodup_iff.mpr value.routes_unique
    duplicates_le := by
      rw [total_pages_perm _ _ hperm, terminal_pages_perm _ _ hperm]
      exact value.duplicates_le }

-- The pages billed for each route.
def billed : Dict Route Nat := value.totals.billed_by_route

theorem billed_entries : value.billed.entries =
    (charged value.duplicate_pages value.route_populations).map fun entry =>
      (entry.1.route, entry.2) := value.totals_charged.billed

theorem mem_charged_iff (population : RoutePopulation) (pages : Nat) :
    (population, pages) ∈ charged value.duplicate_pages value.route_populations ↔
      population ∈ value.route_populations ∧ is_terminal population = false ∧
        value.billed.get? population.route = some pages := by
  have hget (other : Nat)
      (hmem : (population, other) ∈ charged value.duplicate_pages value.route_populations) :
      value.billed.get? population.route = some other := by
    rw [← Dict.mem_entries_iff, billed_entries]
    exact List.mem_map.mpr ⟨_, hmem, rfl⟩
  constructor
  · intro hmem
    obtain ⟨hlisted, hbillable⟩ := mem_of_mem_charged _ _ _ hmem
    exact ⟨hlisted, hbillable, hget pages hmem⟩
  · rintro ⟨hlisted, hbillable, hpages⟩
    obtain ⟨other, hother⟩ := exists_mem_charged value.duplicate_pages value.route_populations
      population hlisted hbillable
    rw [hget other hother] at hpages
    cases hpages
    exact hother

theorem nodup_charged : (charged value.duplicate_pages value.route_populations).Nodup :=
  ((charged_sublist _ _).nodup value.routes_unique.of_map).of_map

-- The two orders bill the same pages for every route.
def SameBilled : Prop :=
  ∀ route, value.billed.get? route = (value.reorder order hperm).billed.get? route

theorem charged_perm (hbilled : value.SameBilled order hperm) :
    (charged value.duplicate_pages order).Perm
      (charged value.duplicate_pages value.route_populations) := by
  have hnodup : (charged value.duplicate_pages order).Nodup :=
    (value.reorder order hperm).nodup_charged
  rw [List.perm_ext_iff_of_nodup hnodup value.nodup_charged]
  rintro ⟨population, pages⟩
  refine ((value.reorder order hperm).mem_charged_iff population pages).trans ?_
  rw [value.mem_charged_iff population pages, hbilled population.route]
  exact and_congr_left fun _ => hperm.mem_iff

theorem sampled_reorder : (value.reorder order hperm).totals.sampled_pages =
    value.totals.sampled_pages := by
  rw [(value.reorder order hperm).totals_charged.sampled, value.totals_charged.sampled]
  exact congrArg _ (hperm.map RoutePopulation.sampled_pages).sum_eq

theorem billable_reorder : (value.reorder order hperm).billable_pages = value.billable_pages := by
  unfold billable_pages
  exact congrArg₂ (· - value.duplicate_pages - ·) (total_pages_perm _ _ hperm)
    (terminal_pages_perm _ _ hperm)

theorem confidence_reorder : (value.reorder order hperm).confidence = value.confidence := by
  have hcoverage : (value.reorder order hperm).route_coverage = value.route_coverage := by
    unfold route_coverage
    exact congrArg₂ (fun sampled length : Nat => (sampled : ℚ) / length) (hperm.countP_eq _)
      hperm.length_eq
  have hrecovery : (value.reorder order hperm).recovery_uncertainty =
      value.recovery_uncertainty := by
    unfold recovery_uncertainty
    exact congrArg₂ (fun weighted : ℚ => fun total : Nat => weighted / (max 1 total : Nat))
      (hperm.map fun population : RoutePopulation =>
        population.recovery_probability * (population.pages : ℚ)).sum_eq
      (total_pages_perm _ _ hperm)
  have hratio : (value.reorder order hperm).sampled_ratio = value.sampled_ratio := by
    unfold sampled_ratio
    rw [value.sampled_reorder order hperm, value.billable_reorder order hperm]
  unfold confidence
  rw [hcoverage, hrecovery, hratio]
  rfl

theorem priced_reorder (price : RoutePopulation → ℚ) (hbilled : value.SameBilled order hperm) :
    priced price (charged value.duplicate_pages order) =
      priced price (charged value.duplicate_pages value.route_populations) :=
  ((value.charged_perm order hperm hbilled).map _).sum_eq

structure SameTotals (first second : Totals) : Prop where
  credit_p50 : first.credit_p50 = second.credit_p50
  credit_p95 : first.credit_p95 = second.credit_p95
  work_p50 : first.work_p50 = second.work_p50
  work_p95 : first.work_p95 = second.work_p95

theorem totals_reorder (hbilled : value.SameBilled order hperm) :
    SameTotals (value.reorder order hperm).totals value.totals := by
  have hfirst := (value.reorder order hperm).totals_charged
  have hsecond := value.totals_charged
  refine ⟨?_, ?_, ?_, ?_⟩
  · rw [hfirst.credit_p50, hsecond.credit_p50]
    exact congrArg _ (value.priced_reorder order hperm _ hbilled)
  · rw [hfirst.credit_p95, hsecond.credit_p95]
    exact congrArg _ (value.priced_reorder order hperm _ hbilled)
  · rw [hfirst.work_p50, hsecond.work_p50]
    exact congrArg _ (value.priced_reorder order hperm _ hbilled)
  · rw [hfirst.work_p95, hsecond.work_p95]
    exact congrArg _ (value.priced_reorder order hperm _ hbilled)

theorem value_injective (first second : Route) (heq : first.value = second.value) :
    first = second := by
  cases first <;> cases second <;> first | rfl | exact absurd heq (by decide)

theorem route_mix_reorder (hbilled : value.SameBilled order hperm) :
    (value.reorder order hperm).route_mix = value.route_mix := by
  have hentries : ((value.reorder order hperm).billed.entries.insertionSort no_later) =
      value.billed.entries.insertionSort no_later := by
    have hsame : (value.reorder order hperm).billed.entries.Perm value.billed.entries := by
      rw [billed_entries, billed_entries]
      exact (value.charged_perm order hperm hbilled).map _
    have hsorted := (List.perm_insertionSort no_later _).trans
      (hsame.trans (List.perm_insertionSort no_later _).symm)
    have htotal : Std.Total no_later := ⟨fun first second => le_total first.1.value second.1.value⟩
    have htrans : IsTrans (Route × Nat) no_later := ⟨fun _ _ _ hfirst hsecond => le_trans hfirst hsecond⟩
    refine hsorted.eq_of_pairwise (fun first second hfirst hsecond hle hle' => ?_)
      (List.pairwise_insertionSort no_later _) (List.pairwise_insertionSort no_later _)
    have hroute : first.1 = second.1 := value_injective _ _ (le_antisymm hle hle')
    rw [List.mem_insertionSort, hsame.mem_iff] at hfirst
    rw [List.mem_insertionSort] at hsecond
    have hget := (value.billed.mem_entries_iff first.1 first.2).mp hfirst
    have hget' := (value.billed.mem_entries_iff second.1 second.2).mp hsecond
    rw [hroute, hget'] at hget
    exact Prod.ext hroute (Option.some.inj hget).symm
  unfold route_mix
  rw [value.billable_reorder order hperm]
  rw [billed, billed] at hentries
  rw [hentries]

theorem estimated_reorder (hbilled : value.SameBilled order hperm) :
    (value.reorder order hperm).estimated = value.estimated := by
  obtain ⟨hcredit_p50, hcredit_p95, hwork_p50, hwork_p95⟩ := value.totals_reorder order hperm hbilled
  have hbillable := value.billable_reorder order hperm
  have hp50 : (value.reorder order hperm).credit_p50 = value.credit_p50 := by
    rw [credit_p50, hcredit_p50, hbillable]
    rfl
  have hp95 : (value.reorder order hperm).credit_p95 = value.credit_p95 := by
    rw [credit_p95, hcredit_p95, hbillable]
    rfl
  have hduration_p50 : (value.reorder order hperm).duration_p50 = value.duration_p50 := by
    rw [duration_p50, hwork_p50]
    rfl
  have hduration_p95 : (value.reorder order hperm).duration_p95 = value.duration_p95 := by
    rw [duration_p95, hwork_p95]
    rfl
  have hband : (value.reorder order hperm).confidence_band = value.confidence_band := by
    rw [confidence_band, value.confidence_reorder order hperm]
    rfl
  have hterminal : terminal_pages (value.reorder order hperm).route_populations =
      terminal_pages value.route_populations := terminal_pages_perm _ _ hperm
  unfold estimated
  rw [hp50, hp95, hduration_p50, hduration_p95, value.route_mix_reorder order hperm hbilled,
    value.confidence_reorder order hperm, hband, value.sampled_reorder order hperm, hbillable,
    hterminal]
  rfl

theorem mem_route_mix_iff (route : Route) (pages : Nat) (hpages : pages ≠ 0)
    (hbillable : value.billable_pages ≠ 0) :
    (route.value, (pages : ℚ) / value.billable_pages) ∈ value.route_mix ↔
      value.billed.get? route = some pages := by
  have hne : (value.billable_pages : ℚ) ≠ 0 := Nat.cast_ne_zero.mpr hbillable
  rw [route_mix, if_neg hbillable, List.mem_map, ← Dict.mem_entries_iff]
  constructor
  · rintro ⟨entry, hentry, heq⟩
    obtain ⟨hmem, -⟩ := List.mem_filter.mp hentry
    rw [List.mem_insertionSort] at hmem
    have hroute : entry.1 = route := value_injective _ _ (congrArg Prod.fst heq)
    have hcount : (entry.2 : ℚ) = pages := (div_left_inj' hne).mp (congrArg Prod.snd heq)
    rw [Nat.cast_inj] at hcount
    rw [← hroute, ← hcount]
    exact hmem
  · intro hmem
    exact ⟨(route, pages), List.mem_filter.mpr
      ⟨(List.mem_insertionSort _).mpr hmem, decide_eq_true hpages⟩, rfl⟩

theorem mem_billed_keys_iff (route : Route) :
    (∃ pages, value.billed.get? route = some pages) ↔
      ∃ population ∈ value.route_populations,
        is_terminal population = false ∧ population.route = route := by
  constructor
  · rintro ⟨pages, hpages⟩
    rw [← Dict.mem_entries_iff, billed_entries] at hpages
    obtain ⟨entry, hentry, heq⟩ := List.mem_map.mp hpages
    obtain ⟨hmem, hbillable⟩ := mem_of_mem_charged _ _ _ hentry
    exact ⟨entry.1, hmem, hbillable, congrArg Prod.fst heq⟩
  · rintro ⟨population, hmem, hbillable, rfl⟩
    obtain ⟨pages, hpages⟩ := exists_mem_charged value.duplicate_pages value.route_populations
      population hmem hbillable
    exact ⟨pages, ((value.mem_charged_iff population pages).mp hpages).2.2⟩

theorem billed_eq_zero (route : Route) (pages : Nat) (hbillable : value.billable_pages = 0)
    (hpages : value.billed.get? route = some pages) : pages = 0 := by
  have hsum := value.sum_billed
  rw [hbillable] at hsum
  have hmem : pages ∈ value.totals.billed_by_route.values :=
    List.mem_map.mpr ⟨_, (value.billed.mem_entries_iff route pages).mpr hpages, rfl⟩
  have hle := List.single_le_sum (fun _ _ => Nat.zero_le _) _ hmem
  rw [hsum] at hle
  exact Nat.le_zero.mp hle

theorem same_billed_of_route_mix
    (hmix : (value.reorder order hperm).route_mix = value.route_mix) :
    value.SameBilled order hperm := by
  intro route
  have hbillable := value.billable_reorder order hperm
  have hkeys : (∃ pages, value.billed.get? route = some pages) ↔
      ∃ pages, (value.reorder order hperm).billed.get? route = some pages := by
    rw [mem_billed_keys_iff, mem_billed_keys_iff]
    exact exists_congr fun population => and_congr_left fun _ => hperm.mem_iff.symm
  cases hfirst : value.billed.get? route with
  | none =>
    cases hsecond : (value.reorder order hperm).billed.get? route with
    | none => rfl
    | some pages =>
      obtain ⟨other, hother⟩ := hkeys.mpr ⟨pages, hsecond⟩
      rw [hfirst] at hother
      cases hother
  | some pages =>
    obtain ⟨other, hother⟩ := hkeys.mp ⟨pages, hfirst⟩
    rw [hother]
    by_cases hnothing : value.billable_pages = 0
    · rw [value.billed_eq_zero route pages hnothing hfirst,
        (value.reorder order hperm).billed_eq_zero route other (hbillable.trans hnothing) hother]
    · by_cases hpages : pages = 0
      · by_cases hzero : other = 0
        · rw [hpages, hzero]
        · have hmem := ((value.reorder order hperm).mem_route_mix_iff route other hzero
            (hbillable ▸ hnothing)).mpr hother
          rw [hmix, hbillable, value.mem_route_mix_iff route other hzero hnothing, hfirst] at hmem
          exact hmem
      · have hmem := (value.mem_route_mix_iff route pages hpages hnothing).mpr hfirst
        rw [← hmix, ← hbillable, (value.reorder order hperm).mem_route_mix_iff route pages hpages
          (hbillable ▸ hnothing), hother] at hmem
        exact hmem.symm

theorem estimated_reorder_iff :
    (value.reorder order hperm).estimated = value.estimated ↔ value.SameBilled order hperm :=
  ⟨fun heq => value.same_billed_of_route_mix order hperm (congrArg CollectionEstimate.route_mix heq),
    value.estimated_reorder order hperm⟩

theorem billed_at (before after : List RoutePopulation) (population : RoutePopulation)
    (hlisted : value.route_populations = before ++ population :: after)
    (hbillable : is_terminal population = false) :
    value.billed.get? population.route = some (population.pages -
      (value.duplicate_pages - (total_pages before - terminal_pages before))) := by
  have hmem := charged_at value.duplicate_pages before after population hbillable
  rw [← hlisted] at hmem
  exact ((value.mem_charged_iff population _).mp hmem).2.2

end CollectionEstimateInput

structure SameCounts (first second : CollectionEstimate) : Prop where
  sampled_pages : first.sampled_pages = second.sampled_pages
  billable_pages : first.billable_pages = second.billable_pages
  duplicate_pages : first.duplicate_pages = second.duplicate_pages
  unbillable_pages : first.unbillable_pages = second.unbillable_pages
  confidence : first.confidence = second.confidence
  confidence_band : first.confidence_band = second.confidence_band

theorem estimate_in_order (value : CollectionEstimateInput) (order : List RoutePopulation)
    (hperm : order.Perm value.route_populations) :
    ∃ estimate reordered, estimate_collection value = .ok estimate ∧
      estimate_collection (value.reorder order hperm) = .ok reordered ∧
      value.billed.values.sum = estimate.billable_pages ∧ SameCounts reordered estimate ∧
      (∀ before population after, value.route_populations = before ++ population :: after →
        is_terminal population = false → value.billed.get? population.route =
          some (population.pages -
            (value.duplicate_pages - (total_pages before - terminal_pages before)))) ∧
      (reordered = estimate ↔ value.SameBilled order hperm) := by
  have hconfidence := value.confidence_reorder order hperm
  refine ⟨value.estimated, (value.reorder order hperm).estimated, value.estimate_collection_ok,
    (value.reorder order hperm).estimate_collection_ok, value.sum_billed, ?_,
    fun before population after => value.billed_at before after population,
    value.estimated_reorder_iff order hperm⟩
  exact {
    sampled_pages := value.sampled_reorder order hperm
    billable_pages := value.billable_reorder order hperm
    duplicate_pages := rfl
    unbillable_pages := terminal_pages_perm _ _ hperm
    confidence := congrArg (round · 4) hconfidence
    confidence_band := by
      simp only [CollectionEstimateInput.estimated, CollectionEstimateInput.confidence_band,
        hconfidence] }

end Order

section Samples

def native_population : RoutePopulation where
  route := .NATIVE
  pages := 70
  p50_nonneg := by rintro _ ⟨⟩
  p95_nonneg := by rintro _ ⟨⟩
  recovery_range := by decide +kernel
  sampled_le := by decide
  runtime_le := by rintro _ ⟨⟩

def paddle_population : RoutePopulation where
  route := .PADDLE_VL
  pages := 30
  p50_nonneg := by rintro _ ⟨⟩
  p95_nonneg := by rintro _ ⟨⟩
  recovery_range := by decide +kernel
  sampled_le := by decide
  runtime_le := by rintro _ ⟨⟩

def native_first : CollectionEstimateInput where
  route_populations := [native_population, paddle_population]
  duplicate_pages := 10
  populations_ne := List.cons_ne_nil _ _
  routes_unique := by decide
  queue_together := rfl
  queue_nonneg := by rintro _ ⟨⟩
  queue_le := by rintro _ ⟨⟩
  fields_unique := List.nodup_nil
  duplicates_le := by decide
  export_range := by decide
  complexity_range := by decide +kernel
  parallel_range := by decide

theorem native_first_perm :
    [paddle_population, native_population].Perm native_first.route_populations :=
  List.Perm.swap native_population paddle_population []

theorem native_first_in_order :
    ∃ estimate reordered, estimate_collection native_first = .ok estimate ∧
      estimate_collection (native_first.reorder _ native_first_perm) = .ok reordered ∧
      native_first.billed.values.sum = estimate.billable_pages ∧ SameCounts reordered estimate ∧
      (∀ before population after, native_first.route_populations = before ++ population :: after →
        is_terminal population = false → native_first.billed.get? population.route =
          some (population.pages -
            (native_first.duplicate_pages - (total_pages before - terminal_pages before)))) ∧
      (reordered = estimate ↔ native_first.SameBilled _ native_first_perm) :=
  estimate_in_order native_first _ native_first_perm

theorem duplicates_charged_in_order :
    ∃ estimate reordered, estimate_collection native_first = .ok estimate ∧
      estimate_collection (native_first.reorder _ native_first_perm) = .ok reordered ∧
      estimate.credit_p50 = 53.4 ∧ reordered.credit_p50 = 43.4 := by
  refine ⟨_, _, native_first.estimate_collection_ok,
    (native_first.reorder _ native_first_perm).estimate_collection_ok, ?_, ?_⟩
  · decide +kernel
  · decide +kernel

end Samples

end KnowledgeCompiler.Router
