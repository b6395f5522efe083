import KnowledgeCompiler.Identity.Resolve
import KnowledgeCompiler.Identity.Matching.Optimal

namespace KnowledgeCompiler.Identity

open Lib Matching

-- Python's order on the pairs `(score, logical_id)`.
def rival_lt (first second : ℚ × String) : Bool :=
  first.1 < second.1 || first.1 == second.1 && first.2 < second.2

-- `max(rivals, default=(0.0, None))`
def best_rival : List (ℚ × String) → ℚ × Option String
  | [] => (0, none)
  | first :: rest =>
      let best := rest.foldl (fun best rival => if rival_lt best rival then rival else best) first
      (best.1, some best.2)

namespace LogicalIdentityResolver

variable (resolver : LogicalIdentityResolver) (unicode : Unicode)

def window_scores (incoming previous : List LogicalUnitFingerprint) : List (List PairScore) :=
  incoming.map (fun unit => previous.map (fun candidate =>
    resolver.score_pair unicode candidate unit))

def window_matching (incoming previous : List LogicalUnitFingerprint) : Option (Dict Nat Nat) :=
  max_weight_matching
    ((resolver.window_scores unicode incoming previous).map (List.map PairScore.score))

-- The candidates no other row was given, with this row's scores.
def available_rivals (scores : List PairScore) (previous : List LogicalUnitFingerprint)
    (assignment : Dict Nat Nat) (index column : Nat) : List (ℚ × String) :=
  let taken := (assignment.entries.filter (fun entry => entry.1 ≠ index)).map Prod.snd
  ((List.range previous.length).filter (fun col => col ≠ column ∧ col ∉ taken)).map
    (fun col => ((scores[col]!).score, (previous[col]!).logical_id))

def decide_row (previous : List LogicalUnitFingerprint) (assignment : Dict Nat Nat)
    (unit : LogicalUnitFingerprint) (scores : List PairScore) (index : Nat) :
    Option LogicalIdentityDecision :=
  match assignment.get? index with
  | none => (resolver.resolve unicode unit [] none none).toOption
  | some column =>
      let rival := best_rival (available_rivals scores previous assignment index column)
      some (resolver.decide_pair unicode unit (previous[column]!) (scores[column]!) rival.1 rival.2
        (some unit.logical_id))

def assign_one_to_one (incoming previous : List LogicalUnitFingerprint) :
    Option (List LogicalIdentityDecision) :=
  if incoming = [] then some []
  else if previous = [] then
    incoming.mapM (fun unit => (resolver.resolve unicode unit [] none none).toOption)
  else do
    let scores := resolver.window_scores unicode incoming previous
    let assignment ← resolver.window_matching unicode incoming previous
    incoming.zipIdx.mapM (fun entry =>
      resolver.decide_row unicode previous assignment entry.1 (scores[entry.2]!) entry.2)

end LogicalIdentityResolver

-- The decision continues the previous unit.
def LogicalIdentityDecision.Continues (decision : LogicalIdentityDecision)
    (unit : LogicalUnitFingerprint) : Prop :=
  decision.verdict = .MATCHED ∧ decision.logical_id = some unit.logical_id

instance (decision : LogicalIdentityDecision) (unit : LogicalUnitFingerprint) :
    Decidable (decision.Continues unit) := inferInstanceAs (Decidable (_ ∧ _))

-- No previous unit is continued twice.
def OneToOne (decisions : List LogicalIdentityDecision) : Prop :=
  ∀ (first second : Nat) (earlier later : LogicalIdentityDecision),
    decisions[first]? = some earlier → decisions[second]? = some later →
    earlier.verdict = .MATCHED → later.verdict = .MATCHED →
    earlier.logical_id = later.logical_id → first = second

section Rivals

theorem foldl_best_ge (rivals : List (ℚ × String)) (first : ℚ × String) :
    let best := rivals.foldl (fun best rival => if rival_lt best rival then rival else best) first
    first.1 ≤ best.1 ∧ ∀ rival ∈ rivals, rival.1 ≤ best.1 := by
  induction rivals generalizing first with
  | nil => simp
  | cons rival rest ih =>
      obtain ⟨hkeep, hrest⟩ := ih (if rival_lt first rival then rival else first)
      have hboth : first.1 ≤ (if rival_lt first rival then rival else first).1 ∧
          rival.1 ≤ (if rival_lt first rival then rival else first).1 := by
        split
        · rename_i hlt
          simp only [rival_lt, Bool.or_eq_true, Bool.and_eq_true, decide_eq_true_eq, beq_iff_eq]
            at hlt
          exact ⟨hlt.elim le_of_lt (fun h => h.1.le), le_rfl⟩
        · rename_i hnot
          simp only [rival_lt, Bool.or_eq_true, decide_eq_true_eq, not_or, not_lt] at hnot
          exact ⟨le_rfl, hnot.1⟩
      refine ⟨hboth.1.trans hkeep, fun other ho => ?_⟩
      rcases List.mem_cons.mp ho with rfl | ho
      · exact hboth.2.trans hkeep
      · exact hrest other ho

theorem best_rival_ge (rivals : List (ℚ × String)) (rival : ℚ × String) (hr : rival ∈ rivals) :
    rival.1 ≤ (best_rival rivals).1 ∧ ∃ id, (best_rival rivals).2 = some id := by
  cases rivals with
  | nil => simp at hr
  | cons first rest =>
      obtain ⟨hfirst, hrest⟩ := foldl_best_ge rest first
      refine ⟨?_, _, rfl⟩
      rcases List.mem_cons.mp hr with rfl | hr
      · exact hfirst
      · exact hrest rival hr

theorem best_rival_named (rivals : List (ℚ × String)) {id : String}
    (hid : (best_rival rivals).2 = some id) : ∃ rival ∈ rivals, rival.2 = id := by
  have hkept : ∀ (others : List (ℚ × String)) (first : ℚ × String),
      others.foldl (fun best rival => if rival_lt best rival then rival else best) first ∈
        first :: others := by
    intro others
    induction others with
    | nil => simp
    | cons other rest ih =>
        intro first
        by_cases hlt : rival_lt first other
        · have hnext := ih other
          simp only [List.foldl_cons, hlt, if_true]
          exact List.mem_cons_of_mem _ hnext
        · have hnext := ih first
          simp only [List.foldl_cons, if_neg hlt, List.mem_cons] at hnext ⊢
          exact hnext.imp_right Or.inr
  cases rivals with
  | nil => cases hid
  | cons first rest => exact ⟨_, hkept rest first, Option.some.inj hid⟩

end Rivals

namespace LogicalIdentityResolver

variable (resolver : LogicalIdentityResolver) (unicode : Unicode)

-- What a MATCHED verdict says: the partner's id, and no rival inside the band.
theorem decide_pair_matched (incoming partner : LogicalUnitFingerprint) (score : PairScore)
    (runner_up : ℚ) (runner_up_id seed : Option String)
    (hm : (resolver.decide_pair unicode incoming partner score runner_up runner_up_id seed).verdict =
      .MATCHED) :
    (resolver.decide_pair unicode incoming partner score runner_up runner_up_id seed).logical_id =
      some partner.logical_id ∧
    ∀ rival, runner_up_id = some rival → resolver.tie_band ≤ score.score - runner_up := by
  have hbanded : (decide_pair.banded resolver unicode incoming partner score).verdict = .MATCHED →
      (decide_pair.banded resolver unicode incoming partner score).logical_id =
        some partner.logical_id := by
    unfold decide_pair.banded
    split
    · intro h
      cases h
    · exact fun _ => rfl
  simp only [decide_pair] at hm ⊢
  split at hm
  · cases hm
  · rename_i hcritical
    rw [if_neg hcritical]
    split at hm
    · cases hm
    · rename_i hfloor
      rw [if_neg hfloor]
      cases runner_up_id with
      | none => exact ⟨hbanded hm, by simp⟩
      | some rival =>
          simp only at hm ⊢
          split at hm
          · cases hm
          · rename_i hband
            rw [if_neg hband]
            exact ⟨hbanded hm, fun _ _ => not_lt.mp hband⟩

-- What an AMBIGUOUS verdict names: the partner, and at most the runner-up.
theorem decide_pair_ambiguous (incoming partner : LogicalUnitFingerprint) (score : PairScore)
    (runner_up : ℚ) (runner_up_id seed : Option String) {id : String}
    (hm : (resolver.decide_pair unicode incoming partner score runner_up runner_up_id seed).verdict =
      .AMBIGUOUS)
    (hid : id ∈
      (resolver.decide_pair unicode incoming partner score runner_up runner_up_id seed).candidates) :
    id = partner.logical_id ∨ runner_up_id = some id := by
  have hbanded : id ∈ (decide_pair.banded resolver unicode incoming partner score).candidates →
      id = partner.logical_id := by
    unfold decide_pair.banded
    split
    · exact List.mem_singleton.mp
    · exact List.mem_singleton.mp
  simp only [decide_pair] at hm hid
  split at hm
  · rename_i hcritical
    rw [if_pos hcritical] at hid
    exact .inl (List.mem_singleton.mp hid)
  · rename_i hcritical
    rw [if_neg hcritical] at hid
    split at hm
    · cases hm
    · rename_i hfloor
      rw [if_neg hfloor] at hid
      cases runner_up_id with
      | none => exact .inl (hbanded hid)
      | some rival =>
          simp only at hm hid
          split at hm
          · rename_i hband
            rw [if_pos hband] at hid
            rcases List.mem_cons.mp hid with rfl | hid
            · exact .inl rfl
            · exact .inr (congrArg some (List.mem_singleton.mp hid).symm)
          · rename_i hband
            rw [if_neg hband] at hid
            exact .inl (hbanded hid)

theorem resolve_nil (incoming : LogicalUnitFingerprint) :
    ∃ decision, (resolver.resolve unicode incoming [] none none).toOption = some decision ∧
      decision.verdict = .NEW := ⟨_, rfl, rfl⟩

variable (incoming previous : List LogicalUnitFingerprint)

theorem window_scores_get {index column : Nat} {unit candidate : LogicalUnitFingerprint}
    (hi : incoming[index]? = some unit) (hc : previous[column]? = some candidate) :
    ((resolver.window_scores unicode incoming previous)[index]!)[column]! =
      resolver.score_pair unicode candidate unit := by
  obtain ⟨hilt, rfl⟩ := List.getElem?_eq_some_iff.mp hi
  obtain ⟨hclt, rfl⟩ := List.getElem?_eq_some_iff.mp hc
  simp [window_scores, hilt, hclt]

theorem window_matching_partial : ∃ assignment,
    resolver.window_matching unicode incoming previous = some assignment ∧
      ∃ matching : PartialMatching incoming.length previous.length,
        matching.partner = assignment.get? := by
  have h := max_weight_matching_partial
    ((resolver.window_scores unicode incoming previous).map (List.map PairScore.score))
    previous.length (by simp [window_scores])
  have hrows : ((resolver.window_scores unicode incoming previous).map
      (List.map PairScore.score)).length = incoming.length := by simp [window_scores]
  rw [hrows] at h
  exact h

-- A rival that no other row was given is among the rivals the guard looks at.
theorem mem_available_rivals {scores : List PairScore} {assignment : Dict Nat Nat}
    {index column other : Nat} (ho : other < previous.length) (hne : other ≠ column)
    (hfree : ∀ row, row ≠ index → assignment.get? row ≠ some other) :
    ((scores[other]!).score, (previous[other]!).logical_id) ∈
      available_rivals scores previous assignment index column := by
  unfold available_rivals
  refine List.mem_map.mpr ⟨other, List.mem_filter.mpr ⟨List.mem_range.mpr ho, ?_⟩, rfl⟩
  simp only [decide_eq_true_eq, List.mem_map, List.mem_filter, not_exists, not_and]
  refine ⟨hne, ?_⟩
  rintro ⟨row, col⟩ ⟨hmem, hrow⟩ rfl
  exact hfree row hrow ((Dict.mem_entries_iff _ _ _).mp hmem)

theorem decide_row_total (assignment : Dict Nat Nat) (unit : LogicalUnitFingerprint)
    (scores : List PairScore) (index : Nat) :
    ∃ decision, resolver.decide_row unicode previous assignment unit scores index =
      some decision := by
  unfold decide_row
  cases assignment.get? index with
  | none =>
      obtain ⟨decision, hd, _⟩ := resolver.resolve_nil unicode unit
      exact ⟨decision, hd⟩
  | some column => exact ⟨_, rfl⟩

theorem decide_row_matched {assignment : Dict Nat Nat} {unit : LogicalUnitFingerprint}
    {scores : List PairScore} {index : Nat} {decision : LogicalIdentityDecision}
    (hrow : resolver.decide_row unicode previous assignment unit scores index = some decision)
    (hm : decision.verdict = .MATCHED) :
    ∃ column, assignment.get? index = some column ∧
      decision.logical_id = some (previous[column]!).logical_id ∧
      ∀ other < previous.length, other ≠ column →
        (∀ row, row ≠ index → assignment.get? row ≠ some other) →
        resolver.tie_band ≤ (scores[column]!).score - (scores[other]!).score := by
  unfold decide_row at hrow
  cases hcolumn : assignment.get? index with
  | none =>
      obtain ⟨new, hd, hnew⟩ := resolver.resolve_nil unicode unit
      simp only [hcolumn, hd] at hrow
      rw [← Option.some.inj hrow, hnew] at hm
      cases hm
  | some column =>
      simp only [hcolumn] at hrow
      rw [← Option.some.inj hrow] at hm ⊢
      obtain ⟨hid, hband⟩ := resolver.decide_pair_matched unicode _ _ _ _ _ _ hm
      refine ⟨column, rfl, hid, fun other ho hne hfree => ?_⟩
      obtain ⟨hle, rival, hrival⟩ :=
        best_rival_ge _ _ (mem_available_rivals previous ho hne hfree)
      have := hband rival hrival
      linarith

-- The candidates of an ambiguous row are its own column and columns nobody was given.
theorem decide_row_ambiguous {assignment : Dict Nat Nat} {unit : LogicalUnitFingerprint}
    {scores : List PairScore} {index : Nat} {decision : LogicalIdentityDecision}
    (hrow : resolver.decide_row unicode previous assignment unit scores index = some decision)
    (hm : decision.verdict = .AMBIGUOUS) {id : String} (hid : id ∈ decision.candidates) :
    ∃ column, assignment.get? index = some column ∧ ∃ other,
      id = (previous[other]!).logical_id ∧
      (other = column ∨ other < previous.length ∧
        ∀ row, row ≠ index → assignment.get? row ≠ some other) := by
  unfold decide_row at hrow
  cases hcolumn : assignment.get? index with
  | none =>
      obtain ⟨new, hd, hnew⟩ := resolver.resolve_nil unicode unit
      simp only [hcolumn, hd] at hrow
      rw [← Option.some.inj hrow, hnew] at hm
      cases hm
  | some column =>
      simp only [hcolumn] at hrow
      rw [← Option.some.inj hrow] at hm hid
      refine ⟨column, rfl, ?_⟩
      rcases resolver.decide_pair_ambiguous unicode _ _ _ _ _ _ hm hid with hpartner | hrival
      · exact ⟨column, hpartner, .inl rfl⟩
      · obtain ⟨rival, hmem, rfl⟩ := best_rival_named _ hrival
        obtain ⟨other, hother, rfl⟩ := List.mem_map.mp hmem
        rw [List.mem_filter] at hother
        have hfree := of_decide_eq_true hother.2
        refine ⟨other, rfl, .inr ⟨List.mem_range.mp hother.1, fun row hne hget => hfree.2 ?_⟩⟩
        refine List.mem_map.mpr ⟨(row, other), List.mem_filter.mpr ⟨?_, by simpa using hne⟩, rfl⟩
        exact (Dict.mem_entries_iff _ _ _).mpr hget

private theorem mapM_zipIdx {α β : Type} (f : α → Option β) (items : List α) (start : Nat) :
    items.mapM f = (items.zipIdx start).mapM (fun entry => f entry.1) := by
  induction items generalizing start with
  | nil => rfl
  | cons item rest ih => simp [ih (start + 1)]

-- The decisions are the rows' own, in order, whatever the window's shape.
theorem assign_one_to_one_rows : ∃ assignment decisions,
    resolver.window_matching unicode incoming previous = some assignment ∧
    (∃ matching : PartialMatching incoming.length previous.length,
      matching.partner = assignment.get?) ∧
    resolver.assign_one_to_one unicode incoming previous = some decisions ∧
    decisions.length = incoming.length ∧
    ∀ (index : Nat) (unit : LogicalUnitFingerprint), incoming[index]? = some unit →
      resolver.decide_row unicode previous assignment unit
        ((resolver.window_scores unicode incoming previous)[index]!) index = decisions[index]? := by
  obtain ⟨assignment, hrun, matching, hpartner⟩ :=
    resolver.window_matching_partial unicode incoming previous
  choose decision hdecision using fun entry : LogicalUnitFingerprint × Nat =>
    resolver.decide_row_total unicode previous assignment entry.1
      ((resolver.window_scores unicode incoming previous)[entry.2]!) entry.2
  refine ⟨assignment, incoming.zipIdx.map decision, hrun, ⟨matching, hpartner⟩, ?_, by simp, ?_⟩
  · have hmapM : incoming.zipIdx.mapM (fun entry =>
        resolver.decide_row unicode previous assignment entry.1
          ((resolver.window_scores unicode incoming previous)[entry.2]!) entry.2) =
        some (incoming.zipIdx.map decision) := by
      simp only [hdecision]
      exact List.mapM_pure
    unfold assign_one_to_one
    split
    · rename_i hnil
      simp [hnil]
    · split
      · rename_i hnil
        rw [← hmapM]
        have hnone : ∀ index, assignment.get? index = none := fun index => by
          rw [← hpartner]
          exact partner_none_of_empty (Or.inr (by simp [hnil])) matching index
        simp only [decide_row, hnone]
        exact mapM_zipIdx _ incoming 0
      · simpa [hrun] using hmapM
  · intro index unit hunit
    rw [hdecision (unit, index)]
    simp [hunit]

-- The guard as the code has it: a rival inside the band of a continuation is a candidate that the
-- matching gave to another incoming unit, whatever became of it. Nothing is said of a rival that
-- the matching leaves on a unit it has no score for.
theorem assign_one_to_one_guarded (hids : (previous.map (·.logical_id)).Nodup) :
    ∃ assignment decisions, resolver.window_matching unicode incoming previous = some assignment ∧
      resolver.assign_one_to_one unicode incoming previous = some decisions ∧
      decisions.length = incoming.length ∧ OneToOne decisions ∧
      ∀ (index : Nat) (unit partner rival : LogicalUnitFingerprint)
        (decision : LogicalIdentityDecision) (other : Nat),
        incoming[index]? = some unit → decisions[index]? = some decision → partner ∈ previous →
        decision.Continues partner → previous[other]? = some rival → rival ≠ partner →
        (resolver.score_pair unicode partner unit).score -
          (resolver.score_pair unicode rival unit).score < resolver.tie_band →
        (∀ (row : Nat) (claimant : LogicalUnitFingerprint), incoming[row]? = some claimant →
          assignment.get? row = some other → 0 < (resolver.score_pair unicode rival claimant).score) →
        ∃ (row : Nat) (claimant : LogicalUnitFingerprint), row ≠ index ∧
          incoming[row]? = some claimant ∧ assignment.get? row = some other ∧
          0 < (resolver.score_pair unicode rival claimant).score := by
  obtain ⟨assignment, decisions, hrun, ⟨matching, hpartner⟩, hassign, hlength, hrows⟩ :=
    resolver.assign_one_to_one_rows unicode incoming previous
  have hcolumn : ∀ (index : Nat) (decision : LogicalIdentityDecision),
      decisions[index]? = some decision → decision.verdict = .MATCHED →
      ∃ (unit : LogicalUnitFingerprint) (column : Nat) (hc : column < previous.length),
        incoming[index]? = some unit ∧ assignment.get? index = some column ∧
        decision.logical_id = some (previous[column]).logical_id ∧
        ∀ other < previous.length, other ≠ column →
          (∀ row, row ≠ index → assignment.get? row ≠ some other) →
          resolver.tie_band ≤
            (((resolver.window_scores unicode incoming previous)[index]!)[column]!).score -
            (((resolver.window_scores unicode incoming previous)[index]!)[other]!).score := by
    intro index decision hd hm
    have hlt : index < incoming.length := hlength ▸ (List.getElem?_eq_some_iff.mp hd).1
    have hunit : incoming[index]? = some incoming[index] := List.getElem?_eq_getElem hlt
    have hrow := (hrows index _ hunit).trans hd
    obtain ⟨column, hget, hid, hguard⟩ := resolver.decide_row_matched unicode previous hrow hm
    have hc : column < previous.length :=
      matching.column_lt index column (by rw [hpartner]; exact hget)
    rw [getElem!_pos previous column hc] at hid
    exact ⟨_, column, hc, hunit, hget, hid, hguard⟩
  have hsame : ∀ (i j : Nat) (hi : i < previous.length) (hj : j < previous.length),
      (previous[i]).logical_id = (previous[j]).logical_id → i = j := by
    intro i j hi hj he
    have hi' : i < (previous.map (·.logical_id)).length := by simpa using hi
    have hj' : j < (previous.map (·.logical_id)).length := by simpa using hj
    exact (@List.Nodup.getElem_inj_iff _ _ hids i hi' j hj').mp (by simpa using he)
  refine ⟨assignment, decisions, hrun, hassign, hlength, ?_, ?_⟩
  · intro first second earlier later h1 h2 hm1 hm2 he
    obtain ⟨_, c1, hc1, _, hget1, hid1, _⟩ := hcolumn first earlier h1 hm1
    obtain ⟨_, c2, hc2, _, hget2, hid2, _⟩ := hcolumn second later h2 hm2
    have hc : c1 = c2 := hsame c1 c2 hc1 hc2 (Option.some.inj (hid1.symm.trans (he.trans hid2)))
    refine matching.injective first second c1 ?_ ?_
    · rw [hpartner]; exact hget1
    · rw [hpartner, hc]; exact hget2
  · intro index unit partner rival decision other hunit hd hp hcont hrival hne hband hpaired
    obtain ⟨unit', column, hc, hunit', _, hid, hguard⟩ := hcolumn index decision hd hcont.1
    obtain rfl := Option.some.inj (hunit.symm.trans hunit')
    obtain ⟨at_, hat, rfl⟩ := List.getElem_of_mem hp
    obtain rfl := hsame at_ column hat hc (Option.some.inj (hcont.2.symm.trans hid))
    by_contra hnone
    push Not at hnone
    have ho : other < previous.length := (List.getElem?_eq_some_iff.mp hrival).1
    have hne' : other ≠ at_ := by
      rintro rfl
      rw [List.getElem?_eq_getElem ho] at hrival
      exact hne (Option.some.inj hrival).symm
    have hfree : ∀ row, row ≠ index → assignment.get? row ≠ some other := by
      intro row hrow hget
      obtain ⟨claimant, hclaimant⟩ : ∃ claimant, incoming[row]? = some claimant :=
        ⟨_, List.getElem?_eq_getElem (matching.row_lt row other (by rw [hpartner]; exact hget))⟩
      exact absurd (hpaired row _ hclaimant hget) (not_lt.mpr (hnone row _ hrow hclaimant hget))
    have := hguard other ho hne' hfree
    rw [resolver.window_scores_get unicode incoming previous hunit (List.getElem?_eq_getElem hc),
      resolver.window_scores_get unicode incoming previous hunit hrival] at this
    linarith

-- The window's accounting of the previous units: one is continued at most once, and a
-- candidate of an ambiguous decision is a previous unit that nobody continues.
theorem assign_one_to_one_settled (hids : (previous.map (·.logical_id)).Nodup) :
    ∃ decisions, resolver.assign_one_to_one unicode incoming previous = some decisions ∧
      decisions.length = incoming.length ∧
      (∀ decision ∈ decisions, decision.verdict = .MATCHED →
        ∃ unit ∈ previous, decision.logical_id = some unit.logical_id) ∧
      ∀ decision ∈ decisions, decision.verdict = .AMBIGUOUS → ∀ id ∈ decision.candidates,
        (∃ unit ∈ previous, id = unit.logical_id) ∧
        ∀ other ∈ decisions, other.verdict = .MATCHED → other.logical_id ≠ some id := by
  obtain ⟨assignment, decisions, -, ⟨matching, hpartner⟩, hassign, hlength, hrows⟩ :=
    resolver.assign_one_to_one_rows unicode incoming previous
  have hlt : ∀ row column, assignment.get? row = some column → column < previous.length :=
    fun row column hget => matching.column_lt row column (by rw [hpartner]; exact hget)
  have hrow : ∀ (index : Nat) (decision : LogicalIdentityDecision),
      decisions[index]? = some decision → ∃ unit, resolver.decide_row unicode previous assignment
        unit ((resolver.window_scores unicode incoming previous)[index]!) index =
          some decision := by
    intro index decision hd
    have hi : index < incoming.length := hlength ▸ (List.getElem?_eq_some_iff.mp hd).1
    exact ⟨_, (hrows index _ (List.getElem?_eq_getElem hi)).trans hd⟩
  have hcontinued : ∀ (index : Nat) (decision : LogicalIdentityDecision),
      decisions[index]? = some decision → decision.verdict = .MATCHED →
      ∃ (column : Nat) (hc : column < previous.length), assignment.get? index = some column ∧
        decision.logical_id = some (previous[column]).logical_id := by
    intro index decision hd hm
    obtain ⟨unit, hunit⟩ := hrow index decision hd
    obtain ⟨column, hget, hid, -⟩ := resolver.decide_row_matched unicode previous hunit hm
    have hc := hlt index column hget
    exact ⟨column, hc, hget, by rw [hid, getElem!_pos previous column hc]⟩
  refine ⟨decisions, hassign, hlength, ?_, ?_⟩
  · intro decision hd hm
    obtain ⟨index, hindex⟩ := List.getElem?_of_mem hd
    obtain ⟨column, hc, -, hid⟩ := hcontinued index decision hindex hm
    exact ⟨previous[column], List.getElem_mem hc, hid⟩
  · intro decision hd hm id hcandidate
    obtain ⟨index, hindex⟩ := List.getElem?_of_mem hd
    obtain ⟨unit, hunit⟩ := hrow index decision hindex
    obtain ⟨column, hget, named, hnamed, hwhere⟩ :=
      resolver.decide_row_ambiguous unicode previous hunit hm hcandidate
    have hn : named < previous.length :=
      hwhere.elim (fun h => h ▸ hlt index column hget) (fun h => h.1)
    rw [getElem!_pos previous named hn] at hnamed
    refine ⟨⟨previous[named], List.getElem_mem hn, hnamed⟩, ?_⟩
    intro other hother hmatched hsame
    obtain ⟨row, hotherrow⟩ := List.getElem?_of_mem hother
    obtain ⟨taken, ht, htaken, hid⟩ := hcontinued row other hotherrow hmatched
    -- the continued unit is the named one, and its row is not the ambiguous one
    have hcolumn : taken = named := by
      have he : (previous[taken]).logical_id = (previous[named]).logical_id :=
        (Option.some.inj (hid.symm.trans hsame)).trans hnamed
      have ht' : taken < (previous.map (·.logical_id)).length := by simpa using ht
      have hn' : named < (previous.map (·.logical_id)).length := by simpa using hn
      exact (@List.Nodup.getElem_inj_iff _ _ hids taken ht' named hn').mp (by simpa using he)
    subst hcolumn
    have hne : row ≠ index := by
      rintro rfl
      obtain rfl := Option.some.inj (hotherrow.symm.trans hindex)
      rw [hm] at hmatched
      cases hmatched
    rcases hwhere with rfl | ⟨-, hfree⟩
    · exact hne (matching.injective row index taken (by rw [hpartner]; exact htaken)
        (by rw [hpartner]; exact hget))
    · exact hfree row hne htaken

def twin (logical_id : String) : LogicalUnitFingerprint where
  logical_id := logical_id
  document_path := ["policies", "launch", "gates"]
  anchor := "gate"
  normalized_text := "the readiness gate is open"
  source_lineage := "src_doc"

def stray : LogicalUnitFingerprint where
  logical_id := "seed_stray"
  document_path := ["policies", "memos"]
  anchor := "memo"
  normalized_text := "the memo is short"

theorem assign_one_to_one_guarded_twins :
    ∃ assignment decisions,
      default.window_matching .ascii [twin "seed", stray] [twin "ku_a", twin "ku_b"] =
        some assignment ∧
      default.assign_one_to_one .ascii [twin "seed", stray] [twin "ku_a", twin "ku_b"] =
        some decisions ∧
      decisions.length = 2 ∧ OneToOne decisions ∧
      ∀ (index : Nat) (unit partner rival : LogicalUnitFingerprint)
        (decision : LogicalIdentityDecision) (other : Nat),
        [twin "seed", stray][index]? = some unit → decisions[index]? = some decision →
        partner ∈ [twin "ku_a", twin "ku_b"] → decision.Continues partner →
        [twin "ku_a", twin "ku_b"][other]? = some rival → rival ≠ partner →
        (default.score_pair .ascii partner unit).score -
          (default.score_pair .ascii rival unit).score < default.tie_band →
        (∀ (row : Nat) (claimant : LogicalUnitFingerprint), [twin "seed", stray][row]? = some claimant →
          assignment.get? row = some other → 0 < (default.score_pair .ascii rival claimant).score) →
        ∃ (row : Nat) (claimant : LogicalUnitFingerprint), row ≠ index ∧
          [twin "seed", stray][row]? = some claimant ∧ assignment.get? row = some other ∧
          0 < (default.score_pair .ascii rival claimant).score :=
  default.assign_one_to_one_guarded .ascii [twin "seed", stray] [twin "ku_a", twin "ku_b"]
    (by decide)

-- The guard as one would expect it: every rival inside the band is continued elsewhere.
def TieGuarded (incoming previous : List LogicalUnitFingerprint)
    (decisions : List LogicalIdentityDecision) : Prop :=
  ∀ (index : Nat) (unit partner rival : LogicalUnitFingerprint)
    (decision : LogicalIdentityDecision),
    incoming[index]? = some unit → decisions[index]? = some decision → partner ∈ previous →
    decision.Continues partner → rival ∈ previous → rival ≠ partner →
    |(resolver.score_pair unicode partner unit).score -
      (resolver.score_pair unicode rival unit).score| < resolver.tie_band →
    ∃ (row : Nat) (other : LogicalIdentityDecision), row ≠ index ∧
      decisions[row]? = some other ∧ other.Continues rival

-- Two equal candidates: the matching gives the second one to a unit that resembles it a little and
-- continues nothing, and the guard no longer sees the tie.
theorem assign_one_to_one_hides_tie :
    ([twin "ku_a", twin "ku_b"].map (·.logical_id)).Nodup ∧
    (∀ unit ∈ [twin "seed", stray], ∀ candidate ∈ [twin "ku_a", twin "ku_b"],
      0 < (default.score_pair .ascii candidate unit).score) ∧ ∃ decisions,
      default.assign_one_to_one .ascii [twin "seed", stray] [twin "ku_a", twin "ku_b"] =
        some decisions ∧
      ¬default.TieGuarded .ascii [twin "seed", stray] [twin "ku_a", twin "ku_b"] decisions := by
  refine ⟨by decide, by decide +kernel, (default.assign_one_to_one .ascii [twin "seed", stray]
    [twin "ku_a", twin "ku_b"]).getD [], by decide +kernel, fun hguarded => ?_⟩
  have hmatched : ∃ decision ∈ ((default.assign_one_to_one .ascii [twin "seed", stray]
      [twin "ku_a", twin "ku_b"]).getD [])[0]?, decision.Continues (twin "ku_a") := by
    decide +kernel
  have hlost : ∀ decision ∈ (default.assign_one_to_one .ascii [twin "seed", stray]
      [twin "ku_a", twin "ku_b"]).getD [], ¬decision.Continues (twin "ku_b") := by
    decide +kernel
  obtain ⟨decision, hd, hcont⟩ := hmatched
  obtain ⟨row, other, _, ho, hrival⟩ := hguarded 0 (twin "seed") (twin "ku_a") (twin "ku_b")
    decision rfl hd (by decide) hcont (by decide) (by decide) (by decide +kernel)
  exact hlost other (List.mem_of_getElem? ho) hrival

end LogicalIdentityResolver

end KnowledgeCompiler.Identity
