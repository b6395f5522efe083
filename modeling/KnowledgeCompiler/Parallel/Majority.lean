import KnowledgeCompiler.Parallel.Evidence

namespace KnowledgeCompiler.Parallel

open Lib Method

-- The finding a basis rests on; an agreement rests on the families.
def ArbitrationBasis.finding : ArbitrationBasis → Option Arbitrator.Finding
  | AUTHORITY_EXACT => some (.authority true)
  | NATIVE_EXACT => some (.native true)
  | PIXEL_SPECIALIST => some .pixel_specialist
  | SOURCE_GEOMETRY => some .source_geometry
  | TABLE_CELL_MAP => some .table_cell_map
  | DOWNSTREAM_CONSISTENCY => some .downstream
  | INDEPENDENT_AGREEMENT => none
  | UNRESOLVED => none

namespace Arbitrator

variable {α : Type} {value_of : ArbitrationCandidate → Option α}
  {candidates others added : List ArbitrationCandidate}

-- Some surviving candidate, or two of two families, hold the evidence of the basis for the value.
def Supported (value_of : ArbitrationCandidate → Option α) (candidates : List ArbitrationCandidate)
    (basis : ArbitrationBasis) (value : α) : Prop :=
  match basis.finding with
  | some finding => ∃ candidate ∈ candidates, candidate.hard_gate_pass = true ∧
      value_of candidate = some value ∧ shows finding candidate = true
  | none => basis = .INDEPENDENT_AGREEMENT ∧ ∃ first ∈ candidates, ∃ second ∈ candidates,
      (first.hard_gate_pass = true ∧ second.hard_gate_pass = true) ∧
      (value_of first = some value ∧ value_of second = some value) ∧
      first.independent_family ≠ second.independent_family

-- Every surviving candidate that is added repeats the value of its family, and whatever is found
-- about it has been found about a surviving candidate of that value.
def Repeats (value_of : ArbitrationCandidate → Option α) (findings : List Finding)
    (candidates added : List ArbitrationCandidate) : Prop :=
  ∀ candidate ∈ added, candidate.hard_gate_pass = true → ∀ value ∈ value_of candidate,
    (∃ present ∈ candidates, present.hard_gate_pass = true ∧ value_of present = some value ∧
      present.independent_family = candidate.independent_family) ∧
    ∀ finding ∈ findings, shows finding candidate = true →
      ∃ present ∈ candidates, present.hard_gate_pass = true ∧ value_of present = some value ∧
        shows finding present = true

theorem mem_eligible_iff {candidate : ArbitrationCandidate} :
    candidate ∈ eligible_of value_of candidates ↔ candidate ∈ candidates ∧
      candidate.hard_gate_pass = true ∧ (value_of candidate).isSome = true := by
  simp [eligible_of]

theorem mem_eligible_of_value {candidate : ArbitrationCandidate} {value : α}
    (hmem : candidate ∈ candidates) (hgate : candidate.hard_gate_pass = true)
    (hvalue : value_of candidate = some value) : candidate ∈ eligible_of value_of candidates :=
  mem_eligible_iff.mpr ⟨hmem, hgate, by rw [hvalue]; rfl⟩

theorem eligible_perm (hperm : others.Perm (candidates ++ added))
    (hadded : ∀ candidate ∈ added, candidate.hard_gate_pass = false) :
    (eligible_of value_of others).Perm (eligible_of value_of candidates) := by
  have hnone : eligible_of value_of added = [] :=
    List.filter_eq_nil_iff.mpr fun candidate hmem => by simp [hadded candidate hmem]
  have hfilter : (eligible_of value_of others).Perm (eligible_of value_of (candidates ++ added)) :=
    hperm.filter _
  unfold eligible_of at hfilter hnone ⊢
  rwa [List.filter_append, hnone, List.append_nil] at hfilter

theorem same_of_repeats {findings : List Finding} (hperm : others.Perm (candidates ++ added))
    (hrepeats : Repeats value_of findings candidates added) :
    SameEvidence value_of findings (eligible_of value_of candidates)
      (eligible_of value_of others) := by
  have hkept {candidate : ArbitrationCandidate}
      (hmem : candidate ∈ eligible_of value_of candidates) :
      candidate ∈ eligible_of value_of others := by
    obtain ⟨hmem, hrest⟩ := mem_eligible_iff.mp hmem
    exact mem_eligible_iff.mpr ⟨hperm.mem_iff.mpr (List.mem_append_left _ hmem), hrest⟩
  constructor
  · intro value family
    constructor
    · rintro ⟨candidate, hmem, hvalue, rfl⟩
      obtain ⟨hmem, hgate, -⟩ := mem_eligible_iff.mp hmem
      cases List.mem_append.mp (hperm.mem_iff.mp hmem) with
      | inl hpresent =>
        exact ⟨candidate, mem_eligible_of_value hpresent hgate hvalue, hvalue, rfl⟩
      | inr hadded =>
        obtain ⟨⟨present, hpresent, hgate', hvalue', hfamily⟩, -⟩ :=
          hrepeats candidate hadded hgate value hvalue
        exact ⟨present, mem_eligible_of_value hpresent hgate' hvalue', hvalue', hfamily⟩
    · rintro ⟨candidate, hmem, hrest⟩
      exact ⟨candidate, hkept hmem, hrest⟩
  · intro finding hfinding value
    constructor
    · rintro ⟨candidate, hmem, hshows, rfl⟩
      obtain ⟨hmem, hgate, hsome⟩ := mem_eligible_iff.mp hmem
      obtain ⟨value, hvalue⟩ := Option.isSome_iff_exists.mp hsome
      cases List.mem_append.mp (hperm.mem_iff.mp hmem) with
      | inl hpresent =>
        exact ⟨candidate, mem_eligible_of_value hpresent hgate hvalue, hshows, rfl⟩
      | inr hadded =>
        obtain ⟨present, hpresent, hgate', hvalue', hshown⟩ :=
          (hrepeats candidate hadded hgate value hvalue).2 finding hfinding hshows
        exact ⟨present, mem_eligible_of_value hpresent hgate' hvalue', hshown,
          hvalue'.trans hvalue.symm⟩
    · rintro ⟨candidate, hmem, hrest⟩
      exact ⟨candidate, hkept hmem, hrest⟩

section Selection

variable {eligible : List ArbitrationCandidate} {ruling : Ruling}
  {best : ArbitrationCandidate} {basis : ArbitrationBasis} {state : VerificationState}

theorem decided_eq_ok {first : Except ArbitrationFault (Option Ruling)}
    {next : Except ArbitrationFault Ruling} (hdecided : decided first next = .ok ruling) :
    first = .ok (some ruling) ∨ next = .ok ruling := by
  unfold decided at hdecided
  split at hdecided
  · cases hdecided
  · exact .inl (congrArg (Except.ok ∘ some) (Except.ok.inj hdecided))
  · exact .inr hdecided

-- A selection rests on evidence that no other value has.
structure Rests (value_of : ArbitrationCandidate → Option α) (eligible : List ArbitrationCandidate)
    (best : ArbitrationCandidate) (basis : ArbitrationBasis) : Prop where
  mem : best ∈ eligible
  supported : ∃ value, value_of best = some value ∧ Supported value_of eligible basis value ∧
    ∀ other, Supported value_of eligible basis other → other = value

theorem rests_of_tier [DecidableEq α] (finding : Finding) {conflict : String}
    {tier_basis : ArbitrationBasis} {tier_state : VerificationState}
    (hdistinct : Distinct eligible)
    (hgates : ∀ candidate ∈ eligible, candidate.hard_gate_pass = true)
    (hsome : ∀ candidate ∈ eligible, (value_of candidate).isSome = true)
    (hfinding : tier_basis.finding = some finding)
    (htier : tier value_of (shows finding) tier_basis tier_state conflict eligible =
      .ok (some (.selected best basis state))) : Rests value_of eligible best basis := by
  obtain ⟨-, heq⟩ | ⟨-, heq⟩ | ⟨found, hmem, hshows, hone, heq⟩ :=
    tier_cases value_of (shows finding) tier_basis tier_state conflict hdistinct
  · rw [heq] at htier
    cases htier
  · rw [heq] at htier
    cases htier
  · rw [heq] at htier
    cases htier
    obtain ⟨value, hvalue⟩ := Option.isSome_iff_exists.mp (hsome best hmem)
    refine ⟨hmem, value, hvalue, ?_, ?_⟩
    · rw [Supported, hfinding]
      exact ⟨best, hmem, hgates best hmem, hvalue, hshows⟩
    · intro other hother
      rw [Supported, hfinding] at hother
      obtain ⟨candidate, hin, -, hother, hshown⟩ := hother
      have h := hone candidate hin hshown
      rw [hother, hvalue] at h
      exact Option.some.inj h

theorem supported_agreement_iff
    (hgates : ∀ candidate ∈ eligible, candidate.hard_gate_pass = true) (value : NumericKey) :
    Supported ArbitrationCandidate.numeric_key eligible .INDEPENDENT_AGREEMENT value ↔
      Agreed eligible value := by
  constructor
  · rintro ⟨-, first, hfirst, second, hsecond, -, hrest⟩
    exact ⟨first, hfirst, second, hsecond, hrest⟩
  · rintro ⟨first, hfirst, second, hsecond, hrest⟩
    exact ⟨rfl, first, hfirst, second, hsecond, ⟨hgates first hfirst, hgates second hsecond⟩, hrest⟩

theorem rests_of_agreement (hdistinct : Distinct eligible) (hkeyed : Keyed eligible)
    (hgates : ∀ candidate ∈ eligible, candidate.hard_gate_pass = true)
    (hagreement : independent_agreement eligible = .ok (.selected best basis state)) :
    Rests ArbitrationCandidate.numeric_key eligible best basis := by
  obtain ⟨value, honly, heq⟩ | ⟨-, heq⟩ | ⟨_, _, -, -, -, heq⟩ := agreement_cases hkeyed
  · rw [heq] at hagreement
    obtain ⟨-, hbest⟩ | ⟨-, found, hmem, hkey, hbest⟩ :=
      best_agreeing hdistinct ((honly value).mpr rfl)
    · rw [hbest] at hagreement
      cases hagreement
    · rw [hbest] at hagreement
      cases hagreement
      refine ⟨hmem, value, hkey, ?_, ?_⟩
      · exact (supported_agreement_iff hgates value).mpr ((honly value).mpr rfl)
      · exact fun other hother => (honly other).mp ((supported_agreement_iff hgates other).mp hother)
  · rw [heq] at hagreement
    cases hagreement
  · rw [heq] at hagreement
    cases hagreement

theorem rests_of_numeric (hdistinct : Distinct eligible) (hkeyed : Keyed eligible)
    (hgates : ∀ candidate ∈ eligible, candidate.hard_gate_pass = true) {authority_required : Bool}
    (hruling : rule_numeric authority_required eligible = .ok (.selected best basis state)) :
    Rests ArbitrationCandidate.numeric_key eligible best basis := by
  have hsome : ∀ candidate ∈ eligible, candidate.numeric_key.isSome = true := by
    intro candidate hmem
    obtain ⟨value, hvalue⟩ := hkeyed candidate hmem
    rw [hvalue]
    rfl
  unfold rule_numeric at hruling
  split at hruling
  · cases hruling
  rcases decided_eq_ok hruling with htier | hruling
  · exact rests_of_tier (.authority true) hdistinct hgates hsome rfl htier
  split at hruling
  · cases hruling
  split at hruling
  · cases hruling
  rcases decided_eq_ok hruling with htier | hruling
  · exact rests_of_tier (.native true) hdistinct hgates hsome rfl htier
  split at hruling
  · cases hruling
  rcases decided_eq_ok hruling with htier | hruling
  · exact rests_of_tier .pixel_specialist hdistinct hgates hsome rfl htier
  exact rests_of_agreement hdistinct hkeyed hgates hruling

theorem rests_of_structure (hdistinct : Distinct eligible)
    (hgates : ∀ candidate ∈ eligible, candidate.hard_gate_pass = true)
    (hsome : ∀ candidate ∈ eligible, candidate.structure_fingerprint.isSome = true)
    (hruling : rule_structure eligible = .ok (.selected best basis state)) :
    Rests ArbitrationCandidate.structure_fingerprint eligible best basis := by
  unfold rule_structure structure_tiers at hruling
  split at hruling
  · cases hruling
  rcases decided_eq_ok hruling with htier | hruling
  · exact rests_of_tier .source_geometry hdistinct hgates hsome rfl htier
  rcases decided_eq_ok hruling with htier | hruling
  · exact rests_of_tier .table_cell_map hdistinct hgates hsome rfl htier
  rcases decided_eq_ok hruling with htier | hruling
  · exact rests_of_tier .downstream hdistinct hgates hsome rfl htier
  cases hruling

end Selection

-- What the claim of a decision is compared by: the selected value, the basis, the flag.
structure Verdict (α : Type) where
  value : Option α
  basis : ArbitrationBasis
  accepted : Bool
deriving DecidableEq

def verdict (value_of : ArbitrationCandidate → Option α) (candidates : List ArbitrationCandidate)
    (result : Except ArbitrationFault ArbitrationDecision) : Except ArbitrationFault (Verdict α) :=
  result.map fun decision => {
    value := (candidates.find? fun candidate =>
      decision.selected_attempt_id = some candidate.attempt_id).bind value_of
    basis := decision.basis
    accepted := decision.accepted }

def Judgment.verdict : Judgment α → Verdict α
  | .unresolved _ => ⟨none, .UNRESOLVED, false⟩
  | .selected value basis _ => ⟨value, basis, true⟩

theorem find_attempt (hdistinct : Distinct candidates) {best : ArbitrationCandidate}
    (hmem : best ∈ candidates) :
    candidates.find? (fun candidate => some best.attempt_id = some candidate.attempt_id) =
      some best := by
  have hsome : (candidates.find? fun candidate =>
      some best.attempt_id = some candidate.attempt_id).isSome = true :=
    List.find?_isSome.mpr ⟨best, hmem, by simp⟩
  obtain ⟨found, hfound⟩ := Option.isSome_iff_exists.mp hsome
  have hid : best.attempt_id = found.attempt_id := by simpa using List.find?_some hfound
  rw [hfound, List.inj_on_of_nodup_map hdistinct (List.mem_of_find?_eq_some hfound) hmem hid.symm]

theorem verdict_decision_on {hasher : Hasher} {scope_id : String}
    {eligible : List ArbitrationCandidate} {result : Except ArbitrationFault Ruling}
    (hdistinct : Distinct candidates)
    (hmem : ∀ best basis state, result = .ok (.selected best basis state) → best ∈ candidates) :
    verdict value_of candidates (result.map (decision_on hasher scope_id candidates eligible)) =
      (result.map (judged value_of)).map Judgment.verdict := by
  cases result with
  | error raised => rfl
  | ok ruling =>
    cases ruling with
    | unresolved reason =>
      have hnone : candidates.find? (fun candidate =>
          (none : Option String) = some candidate.attempt_id) = none :=
        List.find?_eq_none.mpr fun candidate _ => by simp
      change Except.ok (Verdict.mk ((candidates.find? fun candidate =>
        (none : Option String) = some candidate.attempt_id).bind value_of) _ _) = _
      rw [hnone]
      rfl
    | selected best basis state =>
      change Except.ok (Verdict.mk ((candidates.find? fun candidate =>
        some best.attempt_id = some candidate.attempt_id).bind value_of) _ _) = _
      rw [find_attempt hdistinct (hmem best basis state rfl)]
      rfl

def Ruling.attempt_id : Ruling → Option String
  | .unresolved _ => none
  | .selected candidate _ _ => some candidate.attempt_id

theorem attempt_decision_on {hasher : Hasher} {scope_id : String}
    {eligible : List ArbitrationCandidate} (result : Except ArbitrationFault Ruling) :
    (result.map (decision_on hasher scope_id candidates eligible)).map
      ArbitrationDecision.selected_attempt_id = result.map Ruling.attempt_id := by
  cases result with
  | error raised => rfl
  | ok ruling => cases ruling <;> rfl

-- The value, the basis and the flag do not depend on the order of the candidates, on any that
-- fail a hard gate, or on how often a family's value and what is found about it are repeated;
-- and what is accepted passes the hard gate, no other value having the evidence it rests on.
def NoMajority (value_of : ArbitrationCandidate → Option α) (findings : List Finding)
    (arbitrate : List ArbitrationCandidate → Except ArbitrationFault ArbitrationDecision) : Prop :=
  ∀ candidates added others, others.Perm (candidates ++ added) → Distinct others →
    ((∀ candidate ∈ added, candidate.hard_gate_pass = false) →
      verdict value_of others (arbitrate others) = verdict value_of candidates (arbitrate candidates) ∧
      (arbitrate others).map ArbitrationDecision.selected_attempt_id =
        (arbitrate candidates).map ArbitrationDecision.selected_attempt_id) ∧
    (Repeats value_of findings candidates added →
      verdict value_of others (arbitrate others) =
        verdict value_of candidates (arbitrate candidates)) ∧
    ∀ decision, arbitrate candidates = .ok decision → decision.accepted = true →
      ∃ best ∈ candidates, decision.selected_attempt_id = some best.attempt_id ∧
        best.hard_gate_pass = true ∧ ∃ value, value_of best = some value ∧
        Supported value_of candidates decision.basis value ∧
        ∀ other, Supported value_of candidates decision.basis other → other = value

-- What the rules on the eligible candidates are like.
structure Impartial (value_of : ArbitrationCandidate → Option α) (findings : List Finding)
    (rule : List ArbitrationCandidate → Except ArbitrationFault Ruling) : Prop where
  perm : ∀ eligible others, Distinct eligible →
    (∀ candidate ∈ eligible, (value_of candidate).isSome = true) →
    others.Perm eligible → rule others = rule eligible
  congr : ∀ eligible others, Distinct eligible → Distinct others →
    (∀ candidate ∈ eligible, (value_of candidate).isSome = true) →
    (∀ candidate ∈ others, (value_of candidate).isSome = true) →
    SameEvidence value_of findings eligible others →
    (rule others).map (judged value_of) = (rule eligible).map (judged value_of)
  rests : ∀ eligible best basis state, Distinct eligible →
    (∀ candidate ∈ eligible, (value_of candidate).isSome = true) →
    (∀ candidate ∈ eligible, candidate.hard_gate_pass = true) →
    rule eligible = .ok (.selected best basis state) → Rests value_of eligible best basis

theorem supported_eligible_iff {basis : ArbitrationBasis} {value : α} :
    Supported value_of (eligible_of value_of candidates) basis value ↔
      Supported value_of candidates basis value := by
  unfold Supported
  cases basis.finding with
  | some finding =>
    constructor
    · rintro ⟨candidate, hmem, hrest⟩
      exact ⟨candidate, (mem_eligible_iff.mp hmem).1, hrest⟩
    · rintro ⟨candidate, hmem, hgate, hvalue, hshows⟩
      exact ⟨candidate, mem_eligible_of_value hmem hgate hvalue, hgate, hvalue, hshows⟩
  | none =>
    refine and_congr_right fun _ => ?_
    constructor
    · rintro ⟨first, hfirst, second, hsecond, hrest⟩
      exact ⟨first, (mem_eligible_iff.mp hfirst).1, second, (mem_eligible_iff.mp hsecond).1, hrest⟩
    · rintro ⟨first, hfirst, second, hsecond, ⟨hgate, hgate'⟩, ⟨hvalue, hvalue'⟩, hne⟩
      exact ⟨first, mem_eligible_of_value hfirst hgate hvalue, second,
        mem_eligible_of_value hsecond hgate' hvalue', ⟨hgate, hgate'⟩, ⟨hvalue, hvalue'⟩, hne⟩

theorem Impartial.noMajority {findings : List Finding}
    {rule : List ArbitrationCandidate → Except ArbitrationFault Ruling}
    (hrule : Impartial value_of findings rule) (hasher : Hasher) (scope_id : String) :
    NoMajority value_of findings fun candidates =>
      (rule (eligible_of value_of candidates)).map
        (decision_on hasher scope_id candidates (eligible_of value_of candidates)) := by
  intro candidates added others hperm hdistinct
  have hvalued (candidates : List ArbitrationCandidate) :
      ∀ candidate ∈ eligible_of value_of candidates, (value_of candidate).isSome = true :=
    fun candidate hmem => (mem_eligible_iff.mp hmem).2.2
  have hgates (candidates : List ArbitrationCandidate) :
      ∀ candidate ∈ eligible_of value_of candidates, candidate.hard_gate_pass = true :=
    fun candidate hmem => (mem_eligible_iff.mp hmem).2.1
  have hcandidates : Distinct candidates := by
    have hall : Distinct (candidates ++ added) := hdistinct.perm hperm.symm
    exact List.Nodup.sublist ((List.sublist_append_left _ _).map _) hall
  have hsame {candidates : List ArbitrationCandidate} (hdistinct : Distinct candidates) :
      verdict value_of candidates ((rule (eligible_of value_of candidates)).map
        (decision_on hasher scope_id candidates (eligible_of value_of candidates))) =
      ((rule (eligible_of value_of candidates)).map (judged value_of)).map Judgment.verdict := by
    refine verdict_decision_on hdistinct fun best basis state hruling => ?_
    exact (mem_eligible_iff.mp (hrule.rests _ best basis state (hdistinct.filter _)
      (hvalued candidates) (hgates candidates) hruling).mem).1
  refine ⟨fun hadded => ?_, fun hrepeats => ?_, fun decision hdecision haccepted => ?_⟩
  · have hrule : rule (eligible_of value_of others) = rule (eligible_of value_of candidates) :=
      hrule.perm _ _ (hcandidates.filter _) (hvalued candidates) (eligible_perm hperm hadded)
    refine ⟨by rw [hsame hdistinct, hsame hcandidates, hrule], ?_⟩
    rw [attempt_decision_on, attempt_decision_on, hrule]
  · have hcongr : (rule (eligible_of value_of others)).map (judged value_of) =
        (rule (eligible_of value_of candidates)).map (judged value_of) :=
      hrule.congr _ _ (hcandidates.filter _) (hdistinct.filter _) (hvalued candidates)
        (hvalued others) (same_of_repeats hperm hrepeats)
    rw [hsame hdistinct, hsame hcandidates, hcongr]
  · dsimp only at hdecision
    cases hruling : rule (eligible_of value_of candidates) with
    | error raised =>
      rw [hruling] at hdecision
      cases hdecision
    | ok ruling =>
      rw [hruling] at hdecision
      cases ruling with
      | unresolved reason =>
        cases hdecision
        cases haccepted
      | selected best basis state =>
        cases hdecision
        obtain ⟨hmem, value, hvalue, hsupported, honly⟩ := hrule.rests _ best basis state
          (hcandidates.filter _) (hvalued candidates) (hgates candidates) hruling
        refine ⟨best, (mem_eligible_iff.mp hmem).1, rfl, hgates candidates best hmem, value, hvalue,
          supported_eligible_iff.mp hsupported, fun other hother => ?_⟩
        exact honly other (supported_eligible_iff.mpr hother)

theorem keyed_of_some {eligible : List ArbitrationCandidate}
    (hsome : ∀ candidate ∈ eligible, candidate.numeric_key.isSome = true) : Keyed eligible :=
  fun candidate hmem => Option.isSome_iff_exists.mp (hsome candidate hmem)

theorem impartial_numeric (authority_required : Bool) :
    Impartial ArbitrationCandidate.numeric_key numeric_findings (rule_numeric authority_required) where
  perm := fun _ _ hdistinct hsome hperm =>
    rule_numeric_perm hdistinct (keyed_of_some hsome) hperm authority_required
  congr := fun _ _ hdistinct hdistinct' hsome hothers hsame =>
    rule_numeric_congr hdistinct hdistinct' (keyed_of_some hsome) (keyed_of_some hothers) hsame
      authority_required
  rests := fun _ _ _ _ hdistinct hsome hgates hruling =>
    rests_of_numeric hdistinct (keyed_of_some hsome) hgates hruling

theorem impartial_structure :
    Impartial ArbitrationCandidate.structure_fingerprint structure_findings rule_structure where
  perm := fun _ _ hdistinct _ hperm => rule_structure_perm hdistinct hperm
  congr := fun _ _ hdistinct hdistinct' hsome hothers hsame =>
    rule_structure_congr hdistinct hdistinct' hsome hothers hsame
  rests := fun _ _ _ _ hdistinct hsome hgates hruling =>
    rests_of_structure hdistinct hgates hsome hruling

theorem no_majority_as_truth (hasher : Hasher) (scope_id : String) :
    (∀ authority_required, NoMajority ArbitrationCandidate.numeric_key numeric_findings
      fun candidates => arbitrate_numeric hasher scope_id candidates authority_required) ∧
    NoMajority ArbitrationCandidate.structure_fingerprint structure_findings
      (arbitrate_structure hasher scope_id) :=
  ⟨fun authority_required => (impartial_numeric authority_required).noMajority hasher scope_id,
    impartial_structure.noMajority hasher scope_id⟩

section Repeated

def first_reading : ArbitrationCandidate where
  attempt_id := "reading-1"
  prediction_sha256 := "1111111111111111111111111111111111111111111111111111111111111111"
  hard_gate_pass := true
  numeric_value := some ⟨.finite false 42 0, 0⟩
  structure_fingerprint := none
  independent_family := "family-a"
  identified := by decide +kernel
  scored := by decide +kernel

def native_reading : ArbitrationCandidate where
  attempt_id := "reading-2"
  prediction_sha256 := "2222222222222222222222222222222222222222222222222222222222222222"
  hard_gate_pass := true
  numeric_value := some ⟨.finite false 42 0, 1⟩
  structure_fingerprint := none
  independent_family := "family-a"
  native_exact := some true
  identified := by decide +kernel
  scored := by decide +kernel

-- The same family repeats its value, and the native source confirms the second reading.
theorem repeated_value_accepted :
    let numeric (candidates : List ArbitrationCandidate) :=
      match verdict ArbitrationCandidate.numeric_key candidates
        (arbitrate_numeric sha256 "scope-1" candidates false) with
      | .ok verdict => some verdict
      | .error _ => none
    numeric [first_reading] = some ⟨none, .UNRESOLVED, false⟩ ∧
    numeric [first_reading, native_reading] = some ⟨some (.number 42), .NATIVE_EXACT, true⟩ ∧
    (native_reading.independent_family = first_reading.independent_family ∧
      native_reading.numeric_key = first_reading.numeric_key) := by
  decide +kernel

end Repeated

end Arbitrator

end KnowledgeCompiler.Parallel
