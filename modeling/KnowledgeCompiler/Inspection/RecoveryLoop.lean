import KnowledgeCompiler.Inspection.RecoveryPolicy

namespace KnowledgeCompiler.Inspection

open Lib

-- What comes of a rung that was applied.
structure Outcome where
  failure_signature : String
  succeeded : Bool
  gpu_seconds : Binary64
  cost_units : Binary64

-- The failure as it stands before a decision, and what comes of it if a rung is applied.
structure Round where
  failure_signature : String
  circuit_open : Bool
  outcome : Outcome

structure Selection where
  history : List RecoveryAttempt
  policy : RecoveryPolicy
  outcome : Outcome

def Selection.attempt (selection : Selection) : RecoveryAttempt where
  policy_signature := selection.policy.signature
  failure_signature := selection.outcome.failure_signature
  succeeded := selection.outcome.succeeded
  gpu_seconds := selection.outcome.gpu_seconds
  cost_units := selection.outcome.cost_units

-- A float that is not negative.
def Cost (value : Binary64) : Prop := value.IsFloat ∧ (Binary64.finite 0).le value = true

def Outcome.Costs (outcome : Outcome) : Prop := Cost outcome.gpu_seconds ∧ Cost outcome.cost_units

section Loop

variable (code : FailureCode) (registry : PolicyRegistry) (mode : QualityMode)
  (budget : Option RecoveryBudget)

-- The rungs applied in turn, and the decision that ended the loop.
def recover (history : List RecoveryAttempt) : List Round → List Selection × Option RecoveryDecision
  | [] => ([], none)
  | round :: rest =>
      let decision := select_recovery code round.failure_signature registry history mode budget
        round.circuit_open
      match decision.policy with
      | none => ([], some decision)
      | some policy =>
          let selection : Selection := { history, policy, outcome := round.outcome }
          let later := recover (history ++ [selection.attempt]) rest
          (selection :: later.1, later.2)

-- A rung that the ladder and the budget let through.
structure Admits (history : List RecoveryAttempt) (policy : RecoveryPolicy) : Prop where
  secure : code ∉ SECURITY_CODES
  listed : policy ∈ registry.for_code code
  level : policy.level.value ≤ mode.max_level.value
  fresh : tried history policy = false
  afforded : (budget.getD {}).can_afford policy history = true

end Loop

section Registry

theorem no_later_total (first second : RecoveryPolicy) :
    PolicyRegistry.no_later first second ∨ PolicyRegistry.no_later second first := by
  unfold PolicyRegistry.no_later
  rcases lt_trichotomy first.level.value second.level.value with h | h | h
  · exact .inl (.inl h)
  · rcases le_total first.policy_id second.policy_id with hid | hid
    · exact .inl (.inr ⟨h, hid⟩)
    · exact .inr (.inr ⟨h.symm, hid⟩)
  · exact .inr (.inl h)

theorem no_later_trans (first second third : RecoveryPolicy)
    (hfirst : PolicyRegistry.no_later first second)
    (hsecond : PolicyRegistry.no_later second third) : PolicyRegistry.no_later first third := by
  unfold PolicyRegistry.no_later at *
  rcases hfirst with hlt | ⟨heq, hid⟩
  · rcases hsecond with hlt' | ⟨heq', -⟩
    · exact .inl (hlt.trans hlt')
    · exact .inl (heq' ▸ hlt)
  · rcases hsecond with hlt' | ⟨heq', hid'⟩
    · exact .inl (heq ▸ hlt')
    · exact .inr ⟨heq.trans heq', hid.trans hid'⟩

instance : Std.Total PolicyRegistry.no_later := ⟨no_later_total⟩

instance : IsTrans RecoveryPolicy PolicyRegistry.no_later := ⟨no_later_trans⟩

-- Every ladder goes up.
def Ascending (registry : PolicyRegistry) : Prop :=
  ∀ code, (registry.for_code code).Pairwise
    (fun first second => first.level.value ≤ second.level.value)

theorem level_of_no_later {first second : RecoveryPolicy}
    (h : PolicyRegistry.no_later first second) : first.level.value ≤ second.level.value :=
  h.elim le_of_lt (fun heq => heq.1.le)

theorem ascending_add {registry : PolicyRegistry} (hregistry : Ascending registry)
    (policy : RecoveryPolicy) : Ascending (registry.add policy) := by
  intro code
  by_cases hcode : code = policy.code
  · subst hcode
    have hsorted := List.pairwise_insertionSort PolicyRegistry.no_later
      (registry.for_code policy.code ++ [policy])
    simpa [PolicyRegistry.add, PolicyRegistry.for_code] using
      hsorted.imp (fun h => level_of_no_later h)
  · simpa [PolicyRegistry.add, PolicyRegistry.for_code, Dict.get?_set, hcode] using hregistry code

theorem ascending_ofPolicies (policies : List RecoveryPolicy) :
    Ascending (PolicyRegistry.ofPolicies policies) := by
  have hfold : ∀ registry, Ascending registry → Ascending (policies.foldl PolicyRegistry.add registry) := by
    induction policies with
    | nil => exact fun _ hregistry => hregistry
    | cons policy rest ih => exact fun registry hregistry => ih _ (ascending_add hregistry policy)
  exact hfold _ (fun _ => .nil)

end Registry

section Step

variable {code : FailureCode} {registry : PolicyRegistry} {mode : QualityMode}
  {budget : Option RecoveryBudget}

theorem policy_exhausted (reason : String) :
    (_exhausted mode reason).policy = none ∧ (_exhausted mode reason).outcome ≠ .APPLY := by
  unfold _exhausted
  split <;> exact ⟨rfl, RecoveryOutcome.noConfusion⟩

theorem mem_rungs {history : List RecoveryAttempt} {policy : RecoveryPolicy} :
    policy ∈ rungs registry mode code history ↔ policy ∈ registry.for_code code ∧
      policy.level.value ≤ mode.max_level.value ∧ tried history policy = false := by
  simp [rungs]

-- A decision names a rung if and only if it applies it.
theorem select_cases (failure_signature : String) (history : List RecoveryAttempt)
    (circuit_open : Bool) :
    (∃ policy, code ∉ SECURITY_CODES ∧
        (rungs registry mode code history).find? ((budget.getD {}).can_afford · history) =
          some policy ∧
        (select_recovery code failure_signature registry history mode budget circuit_open).policy =
          some policy) ∨
      (select_recovery code failure_signature registry history mode budget circuit_open).policy =
          none ∧
        (select_recovery code failure_signature registry history mode budget circuit_open).outcome ≠
          .APPLY := by
  unfold select_recovery
  dsimp only
  split
  · exact .inr ⟨rfl, RecoveryOutcome.noConfusion⟩
  rename_i hsecure
  split
  · exact .inr ⟨rfl, RecoveryOutcome.noConfusion⟩
  split
  · exact .inr (policy_exhausted _)
  split
  · rename_i policy hfind
    exact .inl ⟨policy, hsecure, hfind, rfl⟩
  · split
    · exact .inr ⟨rfl, RecoveryOutcome.noConfusion⟩
    split
    · exact .inr (policy_exhausted _)
    · exact .inr (policy_exhausted _)

theorem admits_of_find {history : List RecoveryAttempt} {policy : RecoveryPolicy}
    (hsecure : code ∉ SECURITY_CODES)
    (hfind : (rungs registry mode code history).find? ((budget.getD {}).can_afford · history) =
      some policy) : Admits code registry mode budget history policy := by
  obtain ⟨hlisted, hlevel, hfresh⟩ := mem_rungs.mp (List.mem_of_find?_eq_some hfind)
  have hafforded : (budget.getD {}).can_afford policy history = true :=
    List.find?_some (p := ((budget.getD {}).can_afford · history)) hfind
  exact
    { secure := hsecure
      listed := hlisted
      level := hlevel
      fresh := hfresh
      afforded := hafforded }

-- The rung found is the first that is admitted.
theorem level_le_of_find (hregistry : Ascending registry) {history : List RecoveryAttempt}
    {policy other : RecoveryPolicy}
    (hfind : (rungs registry mode code history).find? ((budget.getD {}).can_afford · history) =
      some policy) (hother : Admits code registry mode budget history other) :
    policy.level.value ≤ other.level.value := by
  have hsorted : (rungs registry mode code history).Pairwise
      (fun first second => first.level.value ≤ second.level.value) :=
    (hregistry code).filter _
  have hmem := mem_rungs.mpr ⟨hother.listed, hother.level, hother.fresh⟩
  obtain ⟨-, before, after, hsplit, hbefore⟩ := List.find?_eq_some_iff_append.mp hfind
  rw [hsplit] at hsorted hmem
  rcases List.mem_append.mp hmem with hearly | hlate
  · have hrefused := hbefore other hearly
    rw [hother.afforded] at hrefused
    cases hrefused
  · rcases List.mem_cons.mp hlate with rfl | hlater
    · exact le_rfl
    · exact (List.pairwise_cons.mp (List.pairwise_append.mp hsorted).2.1).1 other hlater

def Costed (history : List RecoveryAttempt) : Prop :=
  ∀ attempt ∈ history, Cost attempt.gpu_seconds ∧ Cost attempt.cost_units

theorem costed_append {history : List RecoveryAttempt} (hhistory : Costed history)
    {selection : Selection} (hcosts : selection.outcome.Costs) :
    Costed (history ++ [selection.attempt]) := by
  intro attempt hattempt
  rcases List.mem_append.mp hattempt with hearlier | hlast
  · exact hhistory attempt hearlier
  · rw [List.mem_singleton.mp hlast]
    exact hcosts

-- Time does not make a rung cheaper.
theorem affords_earlier {limits : RecoveryBudget} {history : List RecoveryAttempt}
    {attempt : RecoveryAttempt} {policy : RecoveryPolicy} (hcosted : Costed (history ++ [attempt]))
    (hafford : limits.can_afford policy (history ++ [attempt]) = true) :
    limits.can_afford policy history = true := by
  have hsums : ∀ (field : RecoveryAttempt → Binary64),
      (∀ attempt' ∈ history ++ [attempt], Cost (field attempt')) →
      (Binary64.finite 0).le (Binary64.sum (history.map field)) = true ∧
        (Binary64.sum (history.map field)).le
          (Binary64.sum ((history ++ [attempt]).map field)) = true := by
    intro field hfield
    have hfloats : ∀ value ∈ history.map field ++ [field attempt], value.IsFloat ∧
        (Binary64.finite 0).le value = true := by
      intro value hvalue
      rw [← List.map_singleton, ← List.map_append] at hvalue
      obtain ⟨attempt', hattempt', rfl⟩ := List.mem_map.mp hvalue
      exact hfield attempt' hattempt'
    rw [List.map_append, List.map_singleton]
    refine ⟨Binary64.sum_nonneg (fun value hvalue => ?_) (fun value hvalue => ?_),
      Binary64.sum_le_sum_append (fun value hvalue => (hfloats value hvalue).1)
        (fun value hvalue => (hfloats value hvalue).2)⟩
    · exact (hfloats value (List.mem_append_left _ hvalue)).1
    · exact (hfloats value (List.mem_append_left _ hvalue)).2
  obtain ⟨hgpu_nonneg, hgpu⟩ := hsums RecoveryAttempt.gpu_seconds (fun a ha => (hcosted a ha).1)
  obtain ⟨hcost_nonneg, hcost⟩ := hsums RecoveryAttempt.cost_units (fun a ha => (hcosted a ha).2)
  unfold RecoveryBudget.can_afford at hafford ⊢
  split at hafford
  · cases hafford
  · rename_i hmore
    rw [Bool.and_eq_true] at hafford
    rw [if_neg (by rw [List.length_append] at hmore; push_cast at hmore; omega), Bool.and_eq_true]
    exact ⟨Binary64.add_le hgpu_nonneg hgpu hafford.1, Binary64.add_le hcost_nonneg hcost hafford.2⟩

-- What is admitted after an attempt was admitted before it.
theorem Admits.earlier {history : List RecoveryAttempt} {attempt : RecoveryAttempt}
    {policy : RecoveryPolicy} (hcosted : Costed (history ++ [attempt]))
    (hadmits : Admits code registry mode budget (history ++ [attempt]) policy) :
    Admits code registry mode budget history policy := by
  have hfresh := hadmits.fresh
  rw [tried, List.any_append, Bool.or_eq_false_iff] at hfresh
  exact
    { secure := hadmits.secure
      listed := hadmits.listed
      level := hadmits.level
      fresh := hfresh.1
      afforded := affords_earlier hcosted hadmits.afforded }

end Step

section Run

variable {code : FailureCode} {registry : PolicyRegistry} {mode : QualityMode}
  {budget : Option RecoveryBudget}

-- The loop on one more failure: a rung and what follows, or its end.
theorem recover_cons (history : List RecoveryAttempt) (round : Round) (rest : List Round) :
    (∃ policy, code ∉ SECURITY_CODES ∧
        (rungs registry mode code history).find? ((budget.getD {}).can_afford · history) =
          some policy ∧
        recover code registry mode budget history (round :: rest) =
          (⟨history, policy, round.outcome⟩ :: (recover code registry mode budget
              (history ++ [Selection.attempt ⟨history, policy, round.outcome⟩]) rest).1,
            (recover code registry mode budget
              (history ++ [Selection.attempt ⟨history, policy, round.outcome⟩]) rest).2)) ∨
      ∃ decision, decision.outcome ≠ .APPLY ∧
        recover code registry mode budget history (round :: rest) = ([], some decision) := by
  rcases @select_cases code registry mode budget
      round.failure_signature history round.circuit_open with
    ⟨policy, hsecure, hfind, hpolicy⟩ | ⟨hpolicy, houtcome⟩
  · refine .inl ⟨policy, hsecure, hfind, ?_⟩
    simp only [recover, hpolicy]
  · refine .inr ⟨_, houtcome, ?_⟩
    simp only [recover, hpolicy]

theorem admits_of_mem {history : List RecoveryAttempt} {rounds : List Round} {selection : Selection}
    (hmem : selection ∈ (recover code registry mode budget history rounds).1) :
    Admits code registry mode budget selection.history selection.policy := by
  induction rounds generalizing history with
  | nil => cases hmem
  | cons round rest ih =>
    rcases @recover_cons code registry mode budget
        history round rest with ⟨policy, hsecure, hfind, hrun⟩ | ⟨decision, -, hrun⟩
    · rw [hrun] at hmem
      rcases List.mem_cons.mp hmem with rfl | hlater
      · exact admits_of_find hsecure hfind
      · exact ih hlater
    · rw [hrun] at hmem
      cases hmem

-- Every rung that the loop applies was admitted at its start already.
theorem admits_at_start {history : List RecoveryAttempt} {rounds : List Round}
    (hcosted : Costed history) (hrounds : ∀ round ∈ rounds, round.outcome.Costs)
    {selection : Selection} (hmem : selection ∈ (recover code registry mode budget history rounds).1) :
    Admits code registry mode budget history selection.policy := by
  induction rounds generalizing history with
  | nil => cases hmem
  | cons round rest ih =>
    rcases @recover_cons code registry mode budget
        history round rest with ⟨policy, hsecure, hfind, hrun⟩ | ⟨decision, -, hrun⟩
    · rw [hrun] at hmem
      rcases List.mem_cons.mp hmem with rfl | hlater
      · exact admits_of_find hsecure hfind
      · have hnext := @costed_append history hcosted ⟨history, policy, round.outcome⟩
          (hrounds round List.mem_cons_self)
        exact (ih hnext (fun other hother => hrounds other (List.mem_cons_of_mem round hother))
          hlater).earlier hnext
    · rw [hrun] at hmem
      cases hmem

-- What holds of every step of a loop, and of its length.
structure Bounded (code : FailureCode) (mode : QualityMode) (limits : RecoveryBudget)
    (rounds : List Round) (run : List Selection × Option RecoveryDecision) : Prop where
  attempts : (run.1.length : ℤ) ≤ max 0 limits.max_attempts_per_page
  terminates : max 0 limits.max_attempts_per_page < rounds.length →
    ∃ decision, run.2 = some decision ∧ decision.outcome ≠ .APPLY
  not_again : run.1.Pairwise (fun earlier later =>
    later.policy.signature = earlier.policy.signature → earlier.outcome.succeeded = true)
  ascending : run.1.Pairwise (fun earlier later =>
    earlier.policy.level.value ≤ later.policy.level.value)
  ceiling : ∀ selection ∈ run.1, selection.policy.level.value ≤ mode.max_level.value
  afforded : ∀ selection ∈ run.1,
    ((RecoveryBudget.spent selection.history).1.add selection.policy.estimated_gpu_seconds).le
        limits.max_gpu_seconds = true ∧
      ((RecoveryBudget.spent selection.history).2.add selection.policy.estimated_cost_units).le
        limits.max_cost_units = true
  history : ∀ before selection after, run.1 = before ++ selection :: after →
    selection.history = before.map Selection.attempt
  secure : code ∈ SECURITY_CODES → run.1 = []

theorem of_can_afford {limits : RecoveryBudget} {policy : RecoveryPolicy}
    {history : List RecoveryAttempt} (hafford : limits.can_afford policy history = true) :
    (history.length : ℤ) < limits.max_attempts_per_page ∧
      ((RecoveryBudget.spent history).1.add policy.estimated_gpu_seconds).le
        limits.max_gpu_seconds = true ∧
      ((RecoveryBudget.spent history).2.add policy.estimated_cost_units).le
        limits.max_cost_units = true := by
  unfold RecoveryBudget.can_afford at hafford
  split at hafford
  · cases hafford
  · rename_i hmore
    rw [Bool.and_eq_true] at hafford
    exact ⟨not_le.mp hmore, hafford⟩

theorem length_le {history : List RecoveryAttempt} (rounds : List Round)
    (hhistory : (history.length : ℤ) ≤ max 0 (budget.getD {}).max_attempts_per_page) :
    ((recover code registry mode budget history rounds).1.length : ℤ) + history.length ≤
      max 0 (budget.getD {}).max_attempts_per_page := by
  induction rounds generalizing history with
  | nil => simpa [recover] using hhistory
  | cons round rest ih =>
    rcases @recover_cons code registry mode budget
        history round rest with ⟨policy, hsecure, hfind, hrun⟩ | ⟨decision, -, hrun⟩
    · have hroom := (of_can_afford (admits_of_find hsecure hfind).afforded).1
      have hlater := @ih (history ++ [Selection.attempt ⟨history, policy, round.outcome⟩])
        (by rw [List.length_append]; push_cast; simp; omega)
      rw [hrun]
      simp only [List.length_cons, List.length_append, List.length_nil] at hlater ⊢
      push_cast at hlater ⊢
      omega
    · rw [hrun]
      simpa using hhistory

-- A loop that has not ended has applied a rung for every failure.
theorem ends_or_applies {history : List RecoveryAttempt} (rounds : List Round) :
    (∃ decision, (recover code registry mode budget history rounds).2 = some decision ∧
        decision.outcome ≠ .APPLY) ∨
      (recover code registry mode budget history rounds).1.length = rounds.length := by
  induction rounds generalizing history with
  | nil => exact .inr rfl
  | cons round rest ih =>
    rcases @recover_cons code registry mode budget
        history round rest with ⟨policy, -, -, hrun⟩ | ⟨decision, houtcome, hrun⟩
    · rw [hrun]
      simpa using @ih (history ++ [Selection.attempt ⟨history, policy, round.outcome⟩])
    · exact .inl ⟨decision, by rw [hrun], houtcome⟩

theorem pairwise_recover (hregistry : Ascending registry) {history : List RecoveryAttempt}
    {rounds : List Round} (hcosted : Costed history)
    (hrounds : ∀ round ∈ rounds, round.outcome.Costs) :
    (recover code registry mode budget history rounds).1.Pairwise (fun earlier later =>
      (later.policy.signature = earlier.policy.signature → earlier.outcome.succeeded = true) ∧
        earlier.policy.level.value ≤ later.policy.level.value) := by
  induction rounds generalizing history with
  | nil => exact .nil
  | cons round rest ih =>
    rcases @recover_cons code registry mode budget
        history round rest with ⟨policy, hsecure, hfind, hrun⟩ | ⟨decision, -, hrun⟩
    · have hnext := @costed_append history hcosted ⟨history, policy, round.outcome⟩
        (hrounds round List.mem_cons_self)
      have hrest := fun other hother => hrounds other (List.mem_cons_of_mem round hother)
      rw [hrun]
      refine List.pairwise_cons.mpr ⟨fun later hlater => ?_, ih hnext hrest⟩
      have hadmits := admits_at_start hnext hrest hlater
      refine ⟨fun hsame => ?_, level_le_of_find hregistry hfind (hadmits.earlier hnext)⟩
      have hfresh := hadmits.fresh
      rw [tried, List.any_append, Bool.or_eq_false_iff] at hfresh
      simpa [Selection.attempt, hsame] using hfresh.2
    · rw [hrun]
      exact .nil

theorem history_recover {history : List RecoveryAttempt} (rounds : List Round)
    {before after : List Selection} {selection : Selection}
    (hsplit : (recover code registry mode budget history rounds).1 = before ++ selection :: after) :
    selection.history = history ++ before.map Selection.attempt := by
  induction rounds generalizing history before with
  | nil => cases before <;> cases hsplit
  | cons round rest ih =>
    rcases @recover_cons code registry mode budget
        history round rest with ⟨policy, -, -, hrun⟩ | ⟨decision, -, hrun⟩
    · rw [hrun] at hsplit
      cases before with
      | nil =>
        obtain ⟨rfl, -⟩ := List.cons.inj hsplit
        simp
      | cons first before =>
        obtain ⟨rfl, hlater⟩ := List.cons.inj hsplit
        rw [ih hlater, List.map_cons, List.append_assoc]
        rfl
    · rw [hrun] at hsplit
      cases before <;> cases hsplit

end Run

theorem recover_bounded (code : FailureCode) (policies : List RecoveryPolicy) (mode : QualityMode)
    (budget : Option RecoveryBudget) (rounds : List Round)
    (hrounds : ∀ round ∈ rounds, round.outcome.Costs) :
    Bounded code mode (budget.getD {}) rounds
      (recover code (PolicyRegistry.ofPolicies policies) mode budget [] rounds) := by
  have hcosted : Costed [] := fun attempt hattempt => absurd hattempt List.not_mem_nil
  have hlength := @length_le code (PolicyRegistry.ofPolicies policies) mode budget [] rounds (by simp)
  have hpairs := @pairwise_recover code _ mode budget (ascending_ofPolicies policies) [] rounds hcosted
    hrounds
  have hadmits := fun selection hselection =>
    @admits_of_mem code (PolicyRegistry.ofPolicies policies) mode budget [] rounds selection hselection
  have hattempts : ((recover code (PolicyRegistry.ofPolicies policies) mode budget [] rounds).1.length : ℤ) ≤
      max 0 (budget.getD {}).max_attempts_per_page := by simpa using hlength
  exact
    { attempts := hattempts
      terminates := fun hlong => by
        rcases @ends_or_applies code (PolicyRegistry.ofPolicies policies) mode budget [] rounds with
          hends | happlies
        · exact hends
        · rw [happlies] at hattempts
          exact absurd hlong (not_lt.mpr hattempts)
      not_again := hpairs.imp And.left
      ascending := hpairs.imp And.right
      ceiling := fun selection hselection => (hadmits selection hselection).level
      afforded := fun selection hselection =>
        (of_can_afford (hadmits selection hselection).afforded).2
      history := fun before selection after hsplit => by
        rw [history_recover rounds hsplit, List.nil_append]
      secure := fun hsecurity => List.eq_nil_iff_forall_not_mem.mpr
        (fun selection hselection => (hadmits selection hselection).secure hsecurity) }

section Repeat

def rerender : RecoveryPolicy where
  policy_id := "p1"
  code := .F13_TABLE_STRUCTURE
  level := .L1_SAFE_RERENDER
  action := "rerender_300dpi"
  estimated_gpu_seconds := .finite 8
  estimated_cost_units := .finite 1

def rotate : RecoveryPolicy where
  policy_id := "p2"
  code := .F13_TABLE_STRUCTURE
  level := .L2_SAME_PARSER_VARIATION
  action := "rotate"
  estimated_gpu_seconds := .finite 4
  estimated_cost_units := .finite 1

def round_of (failure_signature : String) (succeeded : Bool) : Round where
  failure_signature := failure_signature
  circuit_open := false
  outcome := { failure_signature, succeeded, gpu_seconds := .finite 4, cost_units := .finite 1 }

theorem sample_values : Binary64.rounded 4 = 4 ∧
    (recover .F13_TABLE_STRUCTURE (PolicyRegistry.ofPolicies [rotate, rerender]) .FAST none []
      [round_of "a" false, round_of "b" false, round_of "c" false]).1.map Selection.policy =
        [rerender, rotate] := by
  decide +kernel

theorem costs_round_of (failure_signature : String) (succeeded : Bool) :
    (round_of failure_signature succeeded).outcome.Costs := by
  have hcost : ∀ value : ℚ, Binary64.rounded value = value → 0 ≤ value → value < 2 ^ 3 →
      Cost (.finite value) := by
    intro value hexact hnonneg hsmall
    refine ⟨⟨hexact, ?_⟩, Binary64.le_finite.mpr hnonneg⟩
    rw [abs_of_nonneg hnonneg]
    exact Binary64.lt_largest hsmall
  exact ⟨hcost 4 sample_values.1 (by norm_num) (by norm_num),
    hcost 1 Binary64.rounded_near_one.1 (by norm_num) (by norm_num)⟩

theorem two_rungs_bounded :
    Bounded .F13_TABLE_STRUCTURE .FAST {}
        [round_of "a" false, round_of "b" false, round_of "c" false]
        (recover .F13_TABLE_STRUCTURE (PolicyRegistry.ofPolicies [rotate, rerender]) .FAST none []
          [round_of "a" false, round_of "b" false, round_of "c" false]) ∧
      (recover .F13_TABLE_STRUCTURE (PolicyRegistry.ofPolicies [rotate, rerender]) .FAST none []
          [round_of "a" false, round_of "b" false, round_of "c" false]).1.map Selection.policy =
        [rerender, rotate] := by
  refine ⟨recover_bounded _ _ _ none _ (fun round hround => ?_), sample_values.2⟩
  simp only [List.mem_cons, List.not_mem_nil, or_false] at hround
  rcases hround with rfl | rfl | rfl <;> exact costs_round_of _ _

-- A rung that succeeded is not among the tried ones.
theorem successful_rung_applied_again :
    (recover .F13_TABLE_STRUCTURE (PolicyRegistry.ofPolicies [rotate, rerender]) .FAST none []
        [round_of "a" true, round_of "b" true]).1.map (fun selection =>
          (selection.policy, selection.outcome.succeeded)) = [(rerender, true), (rerender, true)] := by
  decide +kernel

end Repeat

end KnowledgeCompiler.Inspection
