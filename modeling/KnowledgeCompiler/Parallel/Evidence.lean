import KnowledgeCompiler.Lib.Method
import KnowledgeCompiler.Parallel.Arbitration

namespace KnowledgeCompiler.Parallel

open Lib

namespace ArbitrationCandidate

theorem between_score {candidate : ArbitrationCandidate} {score : Binary64}
    (hscore : candidate.score = some score) : Binary64.between (.finite 4) score = true := by
  unfold ArbitrationCandidate.score at hscore
  split at hscore
  · obtain rfl := Option.some.inj hscore
    have hpart {weight component : Binary64} (hweight : Binary64.between (.finite 1) weight = true)
        (hcomponent : component ∈ [candidate.source_coverage, candidate.structure_score,
          candidate.cross_model_agreement, candidate.runtime_reliability]) :
        Binary64.between (.finite 1) (weight.mul component) = true :=
      Binary64.between_mul hweight (candidate.scored component hcomponent)
    have hone := @hpart (.of (30 / 100)) candidate.source_coverage (by decide +kernel) (by simp)
    have htwo := Binary64.between_add (by decide +kernel) (Binary64.lt_largest (by norm_num)) hone
      (@hpart (.of (25 / 100)) candidate.structure_score (by decide +kernel) (by simp))
    have hthree := Binary64.between_add (by decide +kernel) (Binary64.lt_largest (by norm_num)) htwo
      (@hpart (.of (20 / 100)) candidate.cross_model_agreement (by decide +kernel) (by simp))
    have hfour := Binary64.between_add (by decide +kernel) (Binary64.lt_largest (by norm_num)) hthree
      (@hpart (.of (25 / 100)) candidate.runtime_reliability (by decide +kernel) (by simp))
    have hbound : (1 + 1 + 1 + 1 : ℚ) = (4 : ℕ) := by norm_num
    rw [hbound] at hfour
    exact Binary64.between_round 12 (by decide +kernel) (Binary64.lt_largest (by norm_num)) hfour
  · cases hscore

theorem rank_ne_nan (candidate : ArbitrationCandidate) : candidate.rank ≠ .nan := by
  unfold rank
  cases hscore : candidate.score with
  | none => simp [Binary64.neg]
  | some score =>
    obtain ⟨value, rfl, -, -⟩ := Binary64.exists_of_between (between_score hscore)
    simp [Binary64.neg]

theorem before_asymm {first second : ArbitrationCandidate} (hfirst : first.before second = true) :
    second.before first = false := by
  unfold before at *
  by_cases hrank : first.rank = second.rank
  · rw [if_pos hrank] at hfirst
    rw [if_pos hrank.symm]
    exact decide_eq_false (not_lt_of_gt (of_decide_eq_true hfirst))
  · rw [if_neg hrank] at hfirst
    rw [if_neg (Ne.symm hrank)]
    by_contra hsecond
    have htrans := Binary64.lt_trans hfirst (by simpa using hsecond)
    rw [Binary64.lt_irrefl] at htrans
    cases htrans

theorem before_trans (first second third : ArbitrationCandidate)
    (hfirst : first.before second = true) (hsecond : second.before third = true) :
    first.before third = true := by
  unfold before at *
  split at hfirst <;> split at hsecond
  · rename_i hranks hranks'
    rw [if_pos (hranks.trans hranks')]
    exact decide_eq_true ((of_decide_eq_true hfirst).trans (of_decide_eq_true hsecond))
  · rename_i hranks hne
    rw [if_neg (hranks ▸ hne), hranks]
    exact hsecond
  · rename_i hne hranks
    rw [if_neg (hranks ▸ hne), ← hranks]
    exact hfirst
  · have hlt := Binary64.lt_trans hfirst hsecond
    have hne : first.rank ≠ third.rank := by
      intro heq
      rw [heq, Binary64.lt_irrefl] at hlt
      cases hlt
    rw [if_neg hne]
    exact hlt

theorem before_total {first second : ArbitrationCandidate}
    (hne : first.attempt_id ≠ second.attempt_id) :
    first.before second = true ∨ second.before first = true := by
  unfold before
  by_cases hrank : first.rank = second.rank
  · rw [if_pos hrank, if_pos hrank.symm]
    simpa using lt_or_gt_of_ne hne
  · rw [if_neg hrank, if_neg (Ne.symm hrank)]
    exact Binary64.lt_or_lt hrank first.rank_ne_nan second.rank_ne_nan

end ArbitrationCandidate

namespace Arbitrator

section Best

variable {candidates others : List ArbitrationCandidate}

def Distinct (candidates : List ArbitrationCandidate) : Prop := (attempt_ids candidates).Nodup

theorem Distinct.filter (hdistinct : Distinct candidates) (holds : ArbitrationCandidate → Bool) :
    Distinct (candidates.filter holds) :=
  List.Nodup.sublist (List.filter_sublist.map _) hdistinct

theorem Distinct.perm (hdistinct : Distinct candidates) (hperm : others.Perm candidates) :
    Distinct others :=
  (hperm.map _).nodup_iff.mpr hdistinct

theorem best_spec (hdistinct : Distinct candidates) {best : ArbitrationCandidate}
    (hbest : _best candidates = .ok best) :
    best ∈ candidates ∧ ∀ other ∈ candidates, other ≠ best → best.before other = true := by
  unfold _best at hbest
  split at hbest
  · rename_i found hfound
    obtain rfl := Except.ok.inj hbest
    refine firstMin_spec ArbitrationCandidate.before_trans ?_ hfound
    intro first hfirst second hsecond hne
    apply ArbitrationCandidate.before_total
    exact fun hid => hne (List.inj_on_of_nodup_map hdistinct hfirst hsecond hid)
  · cases hbest

theorem exists_best (hne : candidates ≠ []) : ∃ best, _best candidates = .ok best := by
  unfold _best
  split
  · exact ⟨_, rfl⟩
  · rename_i hnone
    exact absurd (firstMin_eq_none_iff.mp hnone) hne

theorem best_perm (hdistinct : Distinct candidates) (hperm : others.Perm candidates) :
    _best others = _best candidates := by
  by_cases hnil : candidates = []
  · subst hnil
    rw [hperm.eq_nil]
  · obtain ⟨best, hbest⟩ := exists_best hnil
    have hnil' : others ≠ [] := fun h => hnil (h ▸ hperm).symm.eq_nil
    obtain ⟨best', hbest'⟩ := exists_best hnil'
    obtain ⟨hmem, hleast⟩ := best_spec hdistinct hbest
    obtain ⟨hmem', hleast'⟩ := best_spec (hdistinct.perm hperm) hbest'
    rw [hbest, hbest']
    by_contra hne
    have hne' : best' ≠ best := fun h => hne (congrArg Except.ok h)
    have hbefore := hleast best' (hperm.mem_iff.mp hmem') hne'
    have hasymm := ArbitrationCandidate.before_asymm (hleast' best (hperm.mem_iff.mpr hmem) hne'.symm)
    rw [hasymm] at hbefore
    cases hbefore

end Best

-- What is found about a candidate besides its value and its family.
inductive Finding
  | authority (exact : Bool)
  | native (exact : Bool)
  | pixel_specialist
  | source_geometry
  | table_cell_map
  | downstream
deriving DecidableEq

def shows (finding : Finding) (candidate : ArbitrationCandidate) : Bool :=
  match finding with
  | .authority exact => candidate.authority_exact = some exact
  | .native exact => candidate.native_exact = some exact
  | .pixel_specialist => candidate.pixel_specialist_exact
  | .source_geometry => candidate.source_geometry_exact
  | .table_cell_map => candidate.table_cell_map_exact
  | .downstream => candidate.downstream_consistent

def numeric_findings : List Finding :=
  [.authority true, .authority false, .native true, .native false, .pixel_specialist]

def structure_findings : List Finding := [.source_geometry, .table_cell_map, .downstream]

-- A ruling without the candidate that stands for the value.
inductive Judgment (α : Type)
  | unresolved (reason : String)
  | selected (value : Option α) (basis : ArbitrationBasis) (state : VerificationState)

def judged {α : Type} (value_of : ArbitrationCandidate → Option α) : Ruling → Judgment α
  | .unresolved reason => .unresolved reason
  | .selected candidate basis state => .selected (value_of candidate) basis state

theorem decided_congr {α : Type} {value_of : ArbitrationCandidate → Option α}
    {ruling ruling' : Except ArbitrationFault (Option Ruling)}
    {next next' : Except ArbitrationFault Ruling}
    (hruling : ruling'.map (Option.map (judged value_of)) = ruling.map (Option.map (judged value_of)))
    (hnext : next'.map (judged value_of) = next.map (judged value_of)) :
    (decided ruling' next').map (judged value_of) = (decided ruling next).map (judged value_of) := by
  cases ruling with
  | error raised =>
    cases ruling' with
    | error raised' => exact congrArg Except.error (Except.error.inj hruling)
    | ok found => cases hruling
  | ok found =>
    cases ruling' with
    | error raised' => cases hruling
    | ok found' =>
      have hfound : found'.map (judged value_of) = found.map (judged value_of) :=
        Except.ok.inj hruling
      cases found with
      | none =>
        cases found' with
        | none => exact hnext
        | some ruling' => cases hfound
      | some ruling =>
        cases found' with
        | none => cases hfound
        | some ruling' => exact congrArg Except.ok (Option.some.inj hfound)

section Tiers

variable {α : Type} [DecidableEq α] {value_of : ArbitrationCandidate → Option α}
  {holds : ArbitrationCandidate → Bool} {basis : ArbitrationBasis} {state : VerificationState}
  {conflict : String} {eligible others : List ArbitrationCandidate}

theorem tier_perm (hdistinct : Distinct eligible) (hperm : others.Perm eligible) :
    tier value_of holds basis state conflict others =
      tier value_of holds basis state conflict eligible := by
  have hsupported := hperm.filter holds
  unfold tier
  dsimp only
  rw [hsupported.isEmpty_eq, List.toFinset_eq_of_perm _ _ (hsupported.map value_of),
    best_perm (hdistinct.filter holds) hsupported]

-- What one tier does.
theorem tier_cases (value_of : ArbitrationCandidate → Option α) (holds : ArbitrationCandidate → Bool)
    (basis : ArbitrationBasis) (state : VerificationState) (conflict : String)
    (hdistinct : Distinct eligible) :
    ((∀ candidate ∈ eligible, holds candidate = false) ∧
      tier value_of holds basis state conflict eligible = .ok none) ∨
    ((∃ first ∈ eligible, ∃ second ∈ eligible, (holds first = true ∧ holds second = true) ∧
        value_of first ≠ value_of second) ∧
      tier value_of holds basis state conflict eligible = .ok (some (.unresolved conflict))) ∨
    ∃ best ∈ eligible, holds best = true ∧
      (∀ other ∈ eligible, holds other = true → value_of other = value_of best) ∧
      tier value_of holds basis state conflict eligible = .ok (some (.selected best basis state)) := by
  unfold tier
  dsimp only
  by_cases hempty : eligible.filter holds = []
  · refine .inl ⟨?_, by rw [hempty]; rfl⟩
    simpa [List.filter_eq_nil_iff] using hempty
  rw [if_neg (by simpa using hempty)]
  obtain ⟨best, hbest⟩ := exists_best hempty
  obtain ⟨hmem, hholds⟩ := List.mem_filter.mp (best_spec (hdistinct.filter holds) hbest).1
  by_cases hone : ∀ other ∈ eligible, holds other = true → value_of other = value_of best
  · have hcard : ((eligible.filter holds).map value_of).toFinset.card = 1 := by
      rw [Finset.card_eq_one]
      refine ⟨value_of best, Finset.eq_singleton_iff_unique_mem.mpr ⟨?_, ?_⟩⟩
      · exact List.mem_toFinset.mpr (List.mem_map.mpr ⟨best, List.mem_filter.mpr ⟨hmem, hholds⟩, rfl⟩)
      · intro value hvalue
        obtain ⟨other, hother, rfl⟩ := List.mem_map.mp (List.mem_toFinset.mp hvalue)
        obtain ⟨hother, hshown⟩ := List.mem_filter.mp hother
        exact hone other hother hshown
    rw [if_neg (by simp [hcard]), hbest]
    exact .inr (.inr ⟨best, hmem, hholds, hone, rfl⟩)
  · push Not at hone
    obtain ⟨other, hother, hshown, hne⟩ := hone
    have hcard : ((eligible.filter holds).map value_of).toFinset.card ≠ 1 := by
      intro hcard
      obtain ⟨value, hvalue⟩ := Finset.card_eq_one.mp hcard
      have hvalues (candidate : ArbitrationCandidate) (hin : candidate ∈ eligible)
          (hheld : holds candidate = true) : value_of candidate = value := by
        have hfound : value_of candidate ∈ ((eligible.filter holds).map value_of).toFinset :=
          List.mem_toFinset.mpr
            (List.mem_map.mpr ⟨candidate, List.mem_filter.mpr ⟨hin, hheld⟩, rfl⟩)
        rw [hvalue] at hfound
        exact Finset.mem_singleton.mp hfound
      exact hne ((hvalues other hother hshown).trans (hvalues best hmem hholds).symm)
    rw [if_pos hcard]
    exact .inr (.inl ⟨⟨other, hother, best, hmem, ⟨hshown, hholds⟩, hne⟩, rfl⟩)

-- Some candidate of the value is as asked.
def Held (value_of : ArbitrationCandidate → Option α) (holds : ArbitrationCandidate → Bool)
    (eligible : List ArbitrationCandidate) (value : Option α) : Prop :=
  ∃ candidate ∈ eligible, holds candidate = true ∧ value_of candidate = value

theorem tier_congr (hdistinct : Distinct eligible) (hothers : Distinct others)
    (hsame : ∀ value, Held value_of holds others value ↔ Held value_of holds eligible value) :
    (tier value_of holds basis state conflict others).map (Option.map (judged value_of)) =
      (tier value_of holds basis state conflict eligible).map (Option.map (judged value_of)) := by
  have hheld {candidate : ArbitrationCandidate} (hmem : candidate ∈ others)
      (hholds : holds candidate = true) : Held value_of holds eligible (value_of candidate) :=
    (hsame _).mp ⟨candidate, hmem, hholds, rfl⟩
  have hheld' {candidate : ArbitrationCandidate} (hmem : candidate ∈ eligible)
      (hholds : holds candidate = true) : Held value_of holds others (value_of candidate) :=
    (hsame _).mpr ⟨candidate, hmem, hholds, rfl⟩
  obtain ⟨hnone, heq⟩ | ⟨⟨first, hfirst, second, hsecond, ⟨hshown, hshown'⟩, hne⟩, heq⟩ |
      ⟨best, hbest, hshown, hone, heq⟩ :=
    tier_cases value_of holds basis state conflict hdistinct
  · obtain ⟨-, heq'⟩ | ⟨⟨other, hother, _, _, ⟨hother', _⟩, _⟩, -⟩ | ⟨other, hother, hother', -⟩ :=
      tier_cases value_of holds basis state conflict hothers
    · rw [heq, heq']
    · obtain ⟨candidate, hmem, hholds, -⟩ := hheld hother hother'
      exact absurd hholds (by simp [hnone candidate hmem])
    · obtain ⟨candidate, hmem, hholds, -⟩ := hheld hother hother'
      exact absurd hholds (by simp [hnone candidate hmem])
  · obtain ⟨candidate, hmem, hholds, hvalue⟩ := hheld' hfirst hshown
    obtain ⟨candidate', hmem', hholds', hvalue'⟩ := hheld' hsecond hshown'
    obtain ⟨hnone, -⟩ | ⟨-, heq'⟩ | ⟨other, -, -, hone, -⟩ :=
      tier_cases value_of holds basis state conflict hothers
    · exact absurd hholds (by simp [hnone candidate hmem])
    · rw [heq, heq']
    · have hsingle := (hone _ hmem hholds).trans (hone _ hmem' hholds').symm
      rw [hvalue, hvalue'] at hsingle
      exact absurd hsingle hne
  · obtain ⟨candidate, hmem, hholds, hvalue⟩ := hheld' hbest hshown
    obtain ⟨hnone, -⟩ | ⟨⟨first, hfirst, second, hsecond, ⟨hshown', hshown''⟩, hne⟩, -⟩ |
        ⟨other, -, -, hone', heq'⟩ :=
      tier_cases value_of holds basis state conflict hothers
    · exact absurd hholds (by simp [hnone candidate hmem])
    · obtain ⟨found, hfound, hholds', hvalue'⟩ := hheld hfirst hshown'
      obtain ⟨found', hfound', hholds'', hvalue''⟩ := hheld hsecond hshown''
      have hsingle := (hone _ hfound hholds').trans (hone _ hfound' hholds'').symm
      rw [hvalue', hvalue''] at hsingle
      exact absurd hsingle hne
    · rw [heq, heq']
      change Except.ok (some (Judgment.selected (value_of other) basis state)) = _
      rw [← hone' candidate hmem hholds, hvalue]
      rfl

end Tiers

section Agreement

variable {eligible others : List ArbitrationCandidate}

def Found (groups : Groups) (value : NumericKey) (family : String) : Prop :=
  ∃ families, groups.get? value = some families ∧ ∃ held, families.get? family = some held

theorem found_group {groups : Groups} {candidate : ArbitrationCandidate} {numeric_value : NumericKey}
    (hkey : candidate.numeric_key = some numeric_value) :
    ∃ next, group groups candidate = .ok next ∧ ∀ value family, Found next value family ↔
      Found groups value family ∨
        numeric_value = value ∧ candidate.independent_family = family := by
  unfold group
  rw [hkey]
  refine ⟨_, rfl, fun value family => ?_⟩
  simp only [Found, Dict.update, Dict.get?_set]
  by_cases hvalue : value = numeric_value
  · subst hvalue
    simp only [if_true, Option.some.injEq, true_and]
    constructor
    · rintro ⟨_, rfl, held, hheld⟩
      rw [Dict.get?_set] at hheld
      split at hheld
      · rename_i hfamily
        exact .inr hfamily.symm
      · cases hfamilies : groups.get? value with
        | none =>
          rw [hfamilies] at hheld
          cases hheld
        | some families =>
          rw [hfamilies] at hheld
          exact .inl ⟨families, rfl, held, hheld⟩
    · intro hfound
      refine ⟨_, rfl, ?_⟩
      rw [Dict.get?_set]
      by_cases hfamily : family = candidate.independent_family
      · exact ⟨_, if_pos hfamily⟩
      · rw [if_neg hfamily]
        obtain ⟨families, hfamilies, held, hheld⟩ := hfound.resolve_right (Ne.symm hfamily)
        exact ⟨held, by rw [hfamilies]; exact hheld⟩
  · simp [hvalue, Ne.symm hvalue]

def Keyed (eligible : List ArbitrationCandidate) : Prop :=
  ∀ candidate ∈ eligible, ∃ value, candidate.numeric_key = some value

theorem by_value_spec (hkeyed : Keyed eligible) :
    ∃ groups, by_value eligible = .ok groups ∧ ∀ value family, Found groups value family ↔
      ∃ candidate ∈ eligible, candidate.numeric_key = some value ∧
        candidate.independent_family = family := by
  induction eligible using List.reverseRecOn with
  | nil =>
    refine ⟨.empty, rfl, fun value family => ?_⟩
    simp [Found]
  | append_singleton eligible candidate ih =>
    obtain ⟨groups, hgroups, hfound⟩ := ih fun other hother => hkeyed other (by simp [hother])
    obtain ⟨numeric_value, hkey⟩ := hkeyed candidate (by simp)
    obtain ⟨next, hnext, hfound'⟩ := @found_group groups candidate numeric_value hkey
    refine ⟨next, ?_, fun value family => ?_⟩
    · unfold by_value at *
      rw [List.foldlM_append, hgroups]
      change List.foldlM group groups [candidate] = _
      rw [List.foldlM_cons, hnext]
      rfl
    · rw [hfound', hfound]
      simp only [List.mem_append, List.mem_singleton, or_and_right, exists_or, exists_eq_left, hkey,
        Option.some.injEq]

-- Two families have the value.
def Agreed (eligible : List ArbitrationCandidate) (value : NumericKey) : Prop :=
  ∃ first ∈ eligible, ∃ second ∈ eligible,
    (first.numeric_key = some value ∧ second.numeric_key = some value) ∧
    first.independent_family ≠ second.independent_family

theorem two_le_entries_iff {β : Type} (families : Dict String β) : 2 ≤ families.entries.length ↔
    ∃ first second, first ≠ second ∧ (∃ held, families.get? first = some held) ∧
      ∃ held, families.get? second = some held := by
  simp only [← Dict.mem_keys_iff]
  have hlength : families.entries.length = families.keys.length := by simp [Dict.keys]
  rw [hlength]
  constructor
  · intro htwo
    have hne : families.keys[0] ≠ families.keys[1] := by
      intro heq
      have h := (List.Nodup.getElem_inj_iff families.nodup).mp heq
      cases h
    exact ⟨_, _, hne, List.getElem_mem _, List.getElem_mem _⟩
  · rintro ⟨first, second, hne, hfirst, hsecond⟩
    have hnodup : [first, second].Nodup := by simp [hne]
    exact (List.subperm_of_subset hnodup (by simp [hfirst, hsecond])).length_le

theorem agreed_iff {groups : Groups}
    (hfound : ∀ value family, Found groups value family ↔
      ∃ candidate ∈ eligible, candidate.numeric_key = some value ∧
        candidate.independent_family = family) (value : NumericKey) :
    Agreed eligible value ↔
      ∃ families, groups.get? value = some families ∧ 2 ≤ families.entries.length := by
  constructor
  · rintro ⟨first, hfirst, second, hsecond, ⟨hkey, hkey'⟩, hne⟩
    obtain ⟨families, hfamilies, hheld⟩ := (hfound value _).mpr ⟨first, hfirst, hkey, rfl⟩
    obtain ⟨families', hfamilies', hheld'⟩ := (hfound value _).mpr ⟨second, hsecond, hkey', rfl⟩
    obtain rfl : families = families' := Option.some.inj (hfamilies.symm.trans hfamilies')
    exact ⟨families, hfamilies, (two_le_entries_iff families).mpr ⟨_, _, hne, hheld, hheld'⟩⟩
  · rintro ⟨families, hfamilies, htwo⟩
    obtain ⟨family, family', hne, hheld, hheld'⟩ := (two_le_entries_iff families).mp htwo
    obtain ⟨first, hfirst, hkey, rfl⟩ := (hfound value family).mp ⟨families, hfamilies, hheld⟩
    obtain ⟨second, hsecond, hkey', rfl⟩ := (hfound value family').mp ⟨families, hfamilies, hheld'⟩
    exact ⟨first, hfirst, second, hsecond, ⟨hkey, hkey'⟩, hne⟩

theorem eq_of_equals {first second : NumericKey} (hequals : first.equals second = true) :
    first = second := by
  cases first <;> simp_all [NumericKey.equals]

-- The candidates whose value equals the agreed one; a NaN has none.
def agreeing (value : NumericKey) (eligible : List ArbitrationCandidate) :
    List ArbitrationCandidate :=
  eligible.filter fun candidate => candidate.numeric_key.any (fun key => key.equals value)

theorem numeric_key_of_agreeing {value : NumericKey} {candidate : ArbitrationCandidate}
    (hmem : candidate ∈ agreeing value eligible) :
    candidate ∈ eligible ∧ candidate.numeric_key = some value := by
  obtain ⟨hmem, hequals⟩ := List.mem_filter.mp hmem
  obtain ⟨key, hkey, hequals⟩ := Option.any_eq_true _ _ |>.mp hequals
  exact ⟨hmem, by rw [hkey, eq_of_equals hequals]⟩

-- What comes of the agreement between families.
theorem agreement_cases (hkeyed : Keyed eligible) :
    (∃ value, (∀ other, Agreed eligible other ↔ other = value) ∧
      independent_agreement eligible = (_best (agreeing value eligible)).map fun best =>
        .selected best .INDEPENDENT_AGREEMENT .CROSS_MODEL_VERIFIED) ∨
    ((∀ value, ¬Agreed eligible value) ∧ independent_agreement eligible =
      .ok (.unresolved "independent_agreement_insufficient")) ∨
    ∃ value other, Agreed eligible value ∧ Agreed eligible other ∧ value ≠ other ∧
      independent_agreement eligible = .ok (.unresolved "independent_values_conflict") := by
  obtain ⟨groups, hgroups, hfound⟩ := by_value_spec hkeyed
  have hmem (value : NumericKey) (families : Dict String (List ArbitrationCandidate)) :
      (value, families) ∈ supported_by_families groups ↔
        groups.get? value = some families ∧ 2 ≤ families.entries.length := by
    rw [supported_by_families, List.mem_filter, groups.mem_entries_iff, decide_eq_true_eq]
  have hagreed (value : NumericKey) :
      Agreed eligible value ↔ ∃ families, (value, families) ∈ supported_by_families groups := by
    rw [agreed_iff hfound]
    simp only [hmem]
  have hnodup : ((supported_by_families groups).map Prod.fst).Nodup :=
    List.Nodup.sublist (List.filter_sublist.map _) groups.nodup
  have heq : independent_agreement eligible =
      agreement_of eligible (supported_by_families groups) := by
    rw [independent_agreement, hgroups]
    rfl
  rw [heq]
  cases hsupported : supported_by_families groups with
  | nil => exact .inr (.inl ⟨fun value => by simp [hagreed, hsupported], rfl⟩)
  | cons first rest =>
    cases rest with
    | nil =>
      obtain ⟨value, families⟩ := first
      refine .inl ⟨value, fun other => by simp [hagreed, hsupported], ?_⟩
      have hfamilies := ((hmem value families).mp (by simp [hsupported])).1
      have hfilter : agreeing value eligible = eligible.filter fun candidate =>
          candidate.numeric_key.any (fun key => key.equals value) &&
            candidate.independent_family ∈ families.keys := by
        refine List.filter_congr fun candidate hcandidate => ?_
        -- the family of a candidate that has the value is one of the value's
        cases hequals : candidate.numeric_key.any (fun key => key.equals value) with
        | false => rfl
        | true =>
          obtain ⟨-, hkey⟩ :=
            numeric_key_of_agreeing (List.mem_filter.mpr ⟨hcandidate, hequals⟩)
          obtain ⟨found, hget, hheld⟩ := (hfound value _).mpr ⟨candidate, hcandidate, hkey, rfl⟩
          obtain rfl := Option.some.inj (hfamilies.symm.trans hget)
          simpa using (families.mem_keys_iff _).mpr hheld
      rw [hfilter]
      rfl
    | cons second rest =>
      rw [hsupported] at hnodup
      have hne : first.1 ≠ second.1 := by
        rintro heq
        simp [heq] at hnodup
      refine .inr (.inr ⟨first.1, second.1, ?_, ?_, hne, rfl⟩)
      · exact (hagreed _).mpr ⟨first.2, by simp [hsupported]⟩
      · exact (hagreed _).mpr ⟨second.2, by simp [hsupported]⟩

theorem best_agreeing {value : NumericKey} (hdistinct : Distinct eligible)
    (hagreed : Agreed eligible value) :
    (value.equals value = false ∧
      _best (agreeing value eligible) = .error (.index_error "list index out of range")) ∨
    (value.equals value = true ∧ ∃ best ∈ eligible, best.numeric_key = some value ∧
      _best (agreeing value eligible) = .ok best) := by
  obtain ⟨first, hfirst, -, -, ⟨hkey, -⟩, -⟩ := hagreed
  cases hequals : value.equals value with
  | false =>
    refine .inl ⟨rfl, ?_⟩
    have hnil : agreeing value eligible = [] := by
      refine List.filter_eq_nil_iff.mpr fun candidate hcandidate hany => ?_
      obtain ⟨-, hvalue⟩ := numeric_key_of_agreeing (List.mem_filter.mpr ⟨hcandidate, hany⟩)
      simp [hvalue, hequals] at hany
    rw [hnil]
    rfl
  | true =>
    have hmem : first ∈ agreeing value eligible :=
      List.mem_filter.mpr ⟨hfirst, by simp [hkey, hequals]⟩
    obtain ⟨best, hbest⟩ := exists_best (List.ne_nil_of_mem hmem)
    obtain ⟨hin, hvalue⟩ := numeric_key_of_agreeing (best_spec (hdistinct.filter _) hbest).1
    exact .inr ⟨rfl, best, hin, hvalue, hbest⟩

-- The same agreements lead to the same ruling, as far as each is about the same value.
theorem agreement_same {β : Type} {view : Ruling → β} (hkeyed : Keyed eligible)
    (hothers : Keyed others) (hsame : ∀ value, Agreed others value ↔ Agreed eligible value)
    (hbest : ∀ value, Agreed eligible value →
      ((_best (agreeing value others)).map fun best =>
        view (.selected best .INDEPENDENT_AGREEMENT .CROSS_MODEL_VERIFIED)) =
      (_best (agreeing value eligible)).map fun best =>
        view (.selected best .INDEPENDENT_AGREEMENT .CROSS_MODEL_VERIFIED)) :
    (independent_agreement others).map view = (independent_agreement eligible).map view := by
  have hmap (result : Except ArbitrationFault ArbitrationCandidate) :
      (result.map fun best => Ruling.selected best .INDEPENDENT_AGREEMENT
        .CROSS_MODEL_VERIFIED).map view = result.map fun best =>
          view (.selected best .INDEPENDENT_AGREEMENT .CROSS_MODEL_VERIFIED) := by
    cases result <;> rfl
  obtain ⟨value, honly, heq⟩ | ⟨hnone, heq⟩ | ⟨value, other, hvalue, hother, hne, heq⟩ :=
    agreement_cases hkeyed
  · obtain ⟨found, honly', heq'⟩ | ⟨hnone, -⟩ | ⟨found, other, hfound, hother, hne, -⟩ :=
      agreement_cases hothers
    · obtain rfl : found = value :=
        (honly found).mp ((hsame found).mp ((honly' found).mpr rfl))
      rw [heq, heq', hmap, hmap]
      exact hbest found ((honly found).mpr rfl)
    · exact absurd ((hsame value).mpr ((honly value).mpr rfl)) (hnone value)
    · have hfound := (honly found).mp ((hsame found).mp hfound)
      exact absurd (hfound.trans ((honly other).mp ((hsame other).mp hother)).symm) hne
  · obtain ⟨found, honly, -⟩ | ⟨-, heq'⟩ | ⟨found, -, hfound, -, -, -⟩ := agreement_cases hothers
    · exact absurd ((hsame found).mp ((honly found).mpr rfl)) (hnone found)
    · rw [heq, heq']
    · exact absurd ((hsame found).mp hfound) (hnone found)
  · obtain ⟨found, honly, -⟩ | ⟨hnone, -⟩ | ⟨-, -, -, -, -, heq'⟩ := agreement_cases hothers
    · have hvalue := (honly value).mp ((hsame value).mpr hvalue)
      exact absurd (hvalue.trans ((honly other).mp ((hsame other).mpr hother)).symm) hne
    · exact absurd ((hsame value).mpr hvalue) (hnone value)
    · rw [heq, heq']

theorem agreement_perm (hdistinct : Distinct eligible) (hkeyed : Keyed eligible)
    (hperm : others.Perm eligible) : independent_agreement others = independent_agreement eligible := by
  have hsame (value : NumericKey) : Agreed others value ↔ Agreed eligible value := by
    simp only [Agreed, hperm.mem_iff]
  have hothers : Keyed others := fun candidate hmem => hkeyed candidate (hperm.mem_iff.mp hmem)
  have hmap (result : Except ArbitrationFault Ruling) : result.map id = result := by
    cases result <;> rfl
  rw [← hmap (independent_agreement others), ← hmap (independent_agreement eligible)]
  refine agreement_same hkeyed hothers hsame fun value _ => ?_
  have hagreeing : (agreeing value others).Perm (agreeing value eligible) := hperm.filter _
  rw [best_perm (hdistinct.filter _) hagreeing]
  rfl

theorem agreement_congr (hdistinct : Distinct eligible) (hdistinct' : Distinct others)
    (hkeyed : Keyed eligible) (hothers : Keyed others)
    (hsame : ∀ value, Agreed others value ↔ Agreed eligible value) :
    (independent_agreement others).map (judged ArbitrationCandidate.numeric_key) =
      (independent_agreement eligible).map (judged ArbitrationCandidate.numeric_key) := by
  refine agreement_same hkeyed hothers hsame fun value hagreed => ?_
  obtain ⟨hequals, hbest⟩ | ⟨hequals, best, -, hkey, hbest⟩ := best_agreeing hdistinct hagreed
  · obtain ⟨-, hbest'⟩ | ⟨hequals', -⟩ := best_agreeing hdistinct' ((hsame value).mpr hagreed)
    · rw [hbest, hbest']
    · rw [hequals] at hequals'
      cases hequals'
  · obtain ⟨hequals', -⟩ | ⟨-, best', -, hkey', hbest'⟩ :=
      best_agreeing hdistinct' ((hsame value).mpr hagreed)
    · rw [hequals] at hequals'
      cases hequals'
    · rw [hbest, hbest']
      change Except.ok (Judgment.selected best'.numeric_key _ _) = _
      rw [hkey', ← hkey]
      rfl

end Agreement

section Rules

theorem apply_ite_congr {α β : Type} {holds : Prop} [Decidable holds] {change : α → β}
    {value first second : α} (hsecond : ¬holds → change first = change second) :
    change (if holds then value else first) = change (if holds then value else second) := by
  by_cases hholds : holds
  · rw [if_pos hholds, if_pos hholds]
  · rw [if_neg hholds, if_neg hholds]
    exact hsecond hholds

variable {eligible others : List ArbitrationCandidate}

-- The two lists show the same evidence for the same values, however often.
structure SameEvidence {α : Type} (value_of : ArbitrationCandidate → Option α)
    (findings : List Finding) (eligible others : List ArbitrationCandidate) : Prop where
  families : ∀ value family,
    (∃ candidate ∈ others, value_of candidate = some value ∧
      candidate.independent_family = family) ↔
    ∃ candidate ∈ eligible, value_of candidate = some value ∧ candidate.independent_family = family
  shown : ∀ finding ∈ findings, ∀ value,
    Held value_of (shows finding) others value ↔ Held value_of (shows finding) eligible value

namespace SameEvidence

variable {α : Type} {value_of : ArbitrationCandidate → Option α} {findings : List Finding}

theorem any (hsame : SameEvidence value_of findings eligible others) {finding : Finding}
    (hfinding : finding ∈ findings) : others.any (shows finding) = eligible.any (shows finding) := by
  rw [Bool.eq_iff_iff, List.any_eq_true, List.any_eq_true]
  constructor
  · rintro ⟨candidate, hmem, hshows⟩
    obtain ⟨found, hfound, hshown, -⟩ :=
      (hsame.shown finding hfinding (value_of candidate)).mp ⟨candidate, hmem, hshows, rfl⟩
    exact ⟨found, hfound, hshown⟩
  · rintro ⟨candidate, hmem, hshows⟩
    obtain ⟨found, hfound, hshown, -⟩ :=
      (hsame.shown finding hfinding (value_of candidate)).mpr ⟨candidate, hmem, hshows, rfl⟩
    exact ⟨found, hfound, hshown⟩

theorem isEmpty (hsame : SameEvidence value_of findings eligible others)
    (heligible : ∀ candidate ∈ eligible, (value_of candidate).isSome = true)
    (hothers : ∀ candidate ∈ others, (value_of candidate).isSome = true) :
    others.isEmpty = eligible.isEmpty := by
  rw [Bool.eq_iff_iff, List.isEmpty_iff, List.isEmpty_iff]
  constructor
  · rintro rfl
    refine List.eq_nil_iff_forall_not_mem.mpr fun candidate hmem => ?_
    obtain ⟨value, hvalue⟩ := Option.isSome_iff_exists.mp (heligible candidate hmem)
    obtain ⟨found, hfound, -⟩ := (hsame.families value _).mpr ⟨candidate, hmem, hvalue, rfl⟩
    cases hfound
  · rintro rfl
    refine List.eq_nil_iff_forall_not_mem.mpr fun candidate hmem => ?_
    obtain ⟨value, hvalue⟩ := Option.isSome_iff_exists.mp (hothers candidate hmem)
    obtain ⟨found, hfound, -⟩ := (hsame.families value _).mp ⟨candidate, hmem, hvalue, rfl⟩
    cases hfound

theorem agreed (hsame : SameEvidence ArbitrationCandidate.numeric_key findings eligible others)
    (value : NumericKey) : Agreed others value ↔ Agreed eligible value := by
  constructor
  · rintro ⟨first, hfirst, second, hsecond, ⟨hkey, hkey'⟩, hne⟩
    obtain ⟨found, hfound, hvalue, hfamily⟩ :=
      (hsame.families value _).mp ⟨first, hfirst, hkey, rfl⟩
    obtain ⟨found', hfound', hvalue', hfamily'⟩ :=
      (hsame.families value _).mp ⟨second, hsecond, hkey', rfl⟩
    exact ⟨found, hfound, found', hfound', ⟨hvalue, hvalue'⟩, by rw [hfamily, hfamily']; exact hne⟩
  · rintro ⟨first, hfirst, second, hsecond, ⟨hkey, hkey'⟩, hne⟩
    obtain ⟨found, hfound, hvalue, hfamily⟩ :=
      (hsame.families value _).mpr ⟨first, hfirst, hkey, rfl⟩
    obtain ⟨found', hfound', hvalue', hfamily'⟩ :=
      (hsame.families value _).mpr ⟨second, hsecond, hkey', rfl⟩
    exact ⟨found, hfound, found', hfound', ⟨hvalue, hvalue'⟩, by rw [hfamily, hfamily']; exact hne⟩

end SameEvidence

theorem rule_numeric_perm (hdistinct : Distinct eligible) (hkeyed : Keyed eligible)
    (hperm : others.Perm eligible) (authority_required : Bool) :
    rule_numeric authority_required others = rule_numeric authority_required eligible := by
  have hany (holds : ArbitrationCandidate → Bool) : others.any holds = eligible.any holds := by
    rw [Bool.eq_iff_iff, List.any_eq_true, List.any_eq_true]
    simp only [hperm.mem_iff]
  unfold rule_numeric
  simp only [hperm.isEmpty_eq, tier_perm hdistinct hperm, hany,
    agreement_perm hdistinct hkeyed hperm]

theorem rule_tiers_perm (hdistinct : Distinct eligible) (hperm : others.Perm eligible)
    (tiers : List (ArbitrationBasis × (ArbitrationCandidate → Bool))) :
    rule_tiers others tiers = rule_tiers eligible tiers := by
  induction tiers with
  | nil => rfl
  | cons first rest ih => rw [rule_tiers, rule_tiers, tier_perm hdistinct hperm, ih]

theorem rule_structure_perm (hdistinct : Distinct eligible) (hperm : others.Perm eligible) :
    rule_structure others = rule_structure eligible := by
  unfold rule_structure
  rw [hperm.isEmpty_eq, rule_tiers_perm hdistinct hperm]

theorem rule_numeric_congr (hdistinct : Distinct eligible) (hdistinct' : Distinct others)
    (hkeyed : Keyed eligible) (hothers : Keyed others)
    (hsame : SameEvidence ArbitrationCandidate.numeric_key numeric_findings eligible others)
    (authority_required : Bool) :
    (rule_numeric authority_required others).map (judged ArbitrationCandidate.numeric_key) =
      (rule_numeric authority_required eligible).map (judged ArbitrationCandidate.numeric_key) := by
  have hsome {candidates : List ArbitrationCandidate} (hkeyed : Keyed candidates) :
      ∀ candidate ∈ candidates, candidate.numeric_key.isSome = true := by
    intro candidate hmem
    obtain ⟨value, hvalue⟩ := hkeyed candidate hmem
    rw [hvalue]
    rfl
  unfold rule_numeric
  rw [hsame.isEmpty (hsome hkeyed) (hsome hothers)]
  refine apply_ite_congr fun _ => ?_
  refine decided_congr (tier_congr hdistinct hdistinct' (hsame.shown (.authority true) (by decide))) ?_
  have hmismatch : others.any (shows (.authority false)) = eligible.any (shows (.authority false)) :=
    hsame.any (by decide)
  have hmismatch' : others.any (shows (.native false)) = eligible.any (shows (.native false)) :=
    hsame.any (by decide)
  change Except.map _ (if others.any (shows (.authority false)) then _ else _) = _
  rw [hmismatch]
  refine apply_ite_congr fun _ => apply_ite_congr fun _ => ?_
  refine decided_congr (tier_congr hdistinct hdistinct' (hsame.shown (.native true) (by decide))) ?_
  change Except.map _ (if others.any (shows (.native false)) then _ else _) = _
  rw [hmismatch']
  refine apply_ite_congr fun _ => ?_
  exact decided_congr (tier_congr hdistinct hdistinct' (hsame.shown .pixel_specialist (by decide)))
    (agreement_congr hdistinct hdistinct' hkeyed hothers hsame.agreed)

theorem rule_structure_congr (hdistinct : Distinct eligible) (hdistinct' : Distinct others)
    (hkeyed : ∀ candidate ∈ eligible, candidate.structure_fingerprint.isSome = true)
    (hothers : ∀ candidate ∈ others, candidate.structure_fingerprint.isSome = true)
    (hsame : SameEvidence ArbitrationCandidate.structure_fingerprint structure_findings eligible
      others) :
    (rule_structure others).map (judged ArbitrationCandidate.structure_fingerprint) =
      (rule_structure eligible).map (judged ArbitrationCandidate.structure_fingerprint) := by
  unfold rule_structure
  rw [hsame.isEmpty hkeyed hothers]
  refine apply_ite_congr fun _ => ?_
  refine decided_congr (tier_congr hdistinct hdistinct' (hsame.shown .source_geometry (by decide))) ?_
  refine decided_congr (tier_congr hdistinct hdistinct' (hsame.shown .table_cell_map (by decide))) ?_
  exact decided_congr (tier_congr hdistinct hdistinct' (hsame.shown .downstream (by decide))) rfl

end Rules

end Arbitrator

end KnowledgeCompiler.Parallel
