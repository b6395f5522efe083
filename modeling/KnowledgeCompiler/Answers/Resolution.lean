import KnowledgeCompiler.Answers.Noninterference

namespace KnowledgeCompiler.Answers

open Lib Method

section Rules

variable {context : ClaimContext} {claim : ScopedClaim}

def raised (context : ClaimContext) (claim : ScopedClaim) (override : Int) (rule : ResolutionRule) :
    Int :=
  if (rule.applies_to claim context).toOption = some true then max override rule.precedence
  else override

-- A rule that leaves the claim out ends the loop; without one every rule has been asked.
theorem override_of_cases {rules : List ResolutionRule} {override value : Int}
    (hvalue : override_of context claim rules override = .ok value) :
    (value = -1 ∧ ∃ rule ∈ rules, rule.outcome = .EXCLUDE ∧
        rule.applies_to claim context = .ok true) ∨
      ((∀ rule ∈ rules, rule.applies_to claim context = .ok true → rule.outcome = .PREFER) ∧
        value = rules.foldl (raised context claim) override) := by
  induction rules generalizing override with
  | nil =>
      cases hvalue
      exact .inr ⟨fun rule hrule => absurd hrule List.not_mem_nil, rfl⟩
  | cons rule rest ih =>
      rw [override_of] at hvalue
      obtain ⟨applies, happlies, hrest⟩ := of_bind_eq_ok hvalue
      have hlater {start : Int} (hstart : raised context claim override rule = start)
          (hprefer : applies = true → rule.outcome = .PREFER)
          (hdone : override_of context claim rest start = .ok value) :
          (value = -1 ∧ ∃ found ∈ rule :: rest, found.outcome = .EXCLUDE ∧
              found.applies_to claim context = .ok true) ∨
            ((∀ found ∈ rule :: rest, found.applies_to claim context = .ok true →
                found.outcome = .PREFER) ∧
              value = (rule :: rest).foldl (raised context claim) override) := by
        rw [List.foldl_cons, hstart]
        rcases ih hdone with ⟨hout, found, hfound, hexcludes⟩ | ⟨hall, hmax⟩
        · exact .inl ⟨hout, found, List.mem_cons_of_mem rule hfound, hexcludes⟩
        · refine .inr ⟨List.forall_mem_cons.mpr ⟨fun htrue => ?_, hall⟩, hmax⟩
          exact hprefer (Except.ok.inj (happlies.symm.trans htrue))
      cases applies with
      | false =>
          refine hlater ?_ (fun hfalse => by cases hfalse) hrest
          rw [raised, happlies]
          rfl
      | true =>
          cases houtcome : rule.outcome with
          | EXCLUDE =>
              simp only [houtcome] at hrest
              cases hrest
              exact .inl ⟨rfl, rule, List.mem_cons_self, houtcome, happlies⟩
          | PREFER =>
              simp only [houtcome] at hrest
              refine hlater ?_ (fun _ => houtcome) hrest
              rw [raised, happlies]
              rfl

theorem raised_comm (override : Int) (first second : ResolutionRule) :
    raised context claim (raised context claim override first) second =
      raised context claim (raised context claim override second) first := by
  unfold raised
  split <;> split <;> simp only [max_assoc, max_comm first.precedence]

-- The order of the rules does not matter where both loops end.
theorem override_of_perm {rules others : List ResolutionRule} {override value other : Int}
    (hperm : rules.Perm others) (hvalue : override_of context claim rules override = .ok value)
    (hother : override_of context claim others override = .ok other) : value = other := by
  rcases override_of_cases hvalue with ⟨hout, rule, hrule, hexcludes⟩ | ⟨hall, hmax⟩ <;>
    rcases override_of_cases hother with ⟨hout', rule', hrule', hexcludes'⟩ | ⟨hall', hmax'⟩
  · rw [hout, hout']
  · have hprefers := hall' rule (hperm.mem_iff.mp hrule) hexcludes.2
    rw [hexcludes.1] at hprefers
    cases hprefers
  · have hprefers := hall rule' (hperm.mem_iff.mpr hrule') hexcludes'.2
    rw [hexcludes'.1] at hprefers
    cases hprefers
  · rw [hmax, hmax']
    exact hperm.foldl_eq' (fun first _ second _ override => raised_comm override first second) _

-- The condition of each rule is decided for the claim.
def Decided (context : ClaimContext) (rules : List ResolutionRule) (claim : ScopedClaim) : Prop :=
  ∀ rule ∈ rules, ∃ holds, rule.condition claim context = .ok holds

theorem exists_override {rules : List ResolutionRule} (hdecided : Decided context rules claim)
    (override : Int) : ∃ value, override_of context claim rules override = .ok value := by
  induction rules generalizing override with
  | nil => exact ⟨override, rfl⟩
  | cons rule rest ih =>
      obtain ⟨⟨holds, hholds⟩, hrest⟩ := List.forall_mem_cons.mp hdecided
      have happlies : ∃ applies, rule.applies_to claim context = .ok applies := by
        unfold ResolutionRule.applies_to
        split
        · exact ⟨false, rfl⟩
        split
        · exact ⟨false, rfl⟩
        · exact ⟨holds, hholds⟩
      obtain ⟨applies, happlies⟩ := happlies
      rw [override_of, happlies]
      cases applies with
      | false => exact ih hrest override
      | true =>
          cases houtcome : rule.outcome with
          | EXCLUDE => exact ⟨-1, by simp only; rfl⟩
          | PREFER =>
              obtain ⟨value, hvalue⟩ := ih hrest (max override rule.precedence)
              exact ⟨value, by simp only; exact hvalue⟩

end Rules

section Ranking

variable {timestamp : Datetime → Except String Int} {context : ClaimContext}
  {rules shuffled : List ResolutionRule} {claims others : List ScopedClaim}

theorem reduceOption_of_mapM {α β : Type} {step : α → Except String (Option β)} {items : List α}
    {values : List (Option β)} (hvalues : items.mapM step = .ok values) :
    values.reduceOption = items.filterMap (fun item => (step item).toOption.join) := by
  have hall := mapM_eq_ok_iff.mp hvalues
  clear hvalues
  induction hall with
  | nil => rfl
  | @cons item value items values hstep _ ih =>
      rw [List.filterMap_cons, hstep, ← ih]
      cases value <;> rfl

-- The tuple of a claim that is a candidate, with the claim.
def placing (timestamp : Datetime → Except String Int) (context : ClaimContext)
    (rules : List ResolutionRule) (claim : ScopedClaim) : Option Scored :=
  if (applicable context claim).toOption = some true then
    (score timestamp context rules claim).toOption.join
  else none

theorem rank_claims_eq {ranked : List Scored}
    (hranked : rank_claims timestamp context rules claims = .ok ranked) :
    ranked = sorted_best_first (claims.filterMap (placing timestamp context rules)) := by
  obtain ⟨candidates, hcandidates, hrest⟩ := of_bind_eq_ok hranked
  obtain ⟨scored, hscored, hsorted⟩ := of_bind_eq_ok hrest
  obtain rfl := Except.ok.inj hsorted
  obtain ⟨kept, hkept, hreduced⟩ := of_bind_eq_ok hcandidates
  obtain rfl := Except.ok.inj hreduced
  rw [reduceOption_of_mapM hscored, reduceOption_of_mapM hkept, List.filterMap_filterMap]
  congr 1
  refine List.filterMap_congr fun claim _ => ?_
  unfold placing
  cases applicable context claim with
  | error message => rfl
  | ok applies => cases applies <;> rfl

theorem exists_mapM_iff {α β : Type} {step : α → Except String β} {items : List α} :
    (∃ values, items.mapM step = .ok values) ↔ ∀ item ∈ items, ∃ value, step item = .ok value := by
  constructor
  · rintro ⟨values, hvalues⟩ item hitem
    obtain ⟨hlength, hall⟩ := List.forall₂_iff_get.mp (mapM_eq_ok_iff.mp hvalues)
    obtain ⟨i, rfl⟩ := List.mem_iff_get.mp hitem
    exact ⟨_, hall i i.isLt (hlength ▸ i.isLt)⟩
  · intro hitems
    obtain ⟨values, hvalues, -⟩ := @exists_mapM_eq_ok _ _ _ _ (fun _ _ => True) _
      (fun item hitem => (hitems item hitem).imp fun _ hvalue => ⟨hvalue, trivial⟩)
    exact ⟨values, hvalues⟩

theorem exists_ranked_iff :
    (∃ ranked, rank_claims timestamp context rules claims = .ok ranked) ↔
      (∀ claim ∈ claims, ∃ applies, applicable context claim = .ok applies) ∧
        ∀ claim ∈ claims, applicable context claim = .ok true →
          ∃ found, score timestamp context rules claim = .ok found := by
  constructor
  · rintro ⟨ranked, hranked⟩
    obtain ⟨candidates, hcandidates, hrest⟩ := of_bind_eq_ok hranked
    obtain ⟨scored, hscored, -⟩ := of_bind_eq_ok hrest
    obtain ⟨kept, hkept, -⟩ := of_bind_eq_ok hcandidates
    constructor
    · intro claim hclaim
      obtain ⟨value, hvalue⟩ := exists_mapM_iff.mp ⟨kept, hkept⟩ claim hclaim
      obtain ⟨applies, happlies, -⟩ := of_bind_eq_ok hvalue
      exact ⟨applies, happlies⟩
    · intro claim hclaim happlicable
      exact exists_mapM_iff.mp ⟨scored, hscored⟩ claim
        ((mem_keep hcandidates claim).mpr ⟨hclaim, happlicable⟩)
  · rintro ⟨happlicable, hscore⟩
    have hkept : ∃ candidates, keep (applicable context) claims = .ok candidates := by
      obtain ⟨kept, hkept⟩ := exists_mapM_iff.mpr (fun claim hclaim => by
        obtain ⟨applies, happlies⟩ := happlicable claim hclaim
        exact (⟨if applies then some claim else none, by rw [happlies]; rfl⟩ :
          ∃ value, (do pure (if ← applicable context claim then some claim else none) :
            Except String (Option ScopedClaim)) = .ok value))
      exact ⟨kept.reduceOption, by rw [keep, hkept]; rfl⟩
    obtain ⟨candidates, hcandidates⟩ := hkept
    obtain ⟨scored, hscored⟩ := exists_mapM_iff.mpr (fun claim hclaim =>
      hscore claim ((mem_keep hcandidates claim).mp hclaim).1 ((mem_keep hcandidates claim).mp hclaim).2)
    exact ⟨_, by rw [rank_claims, hcandidates]; dsimp only [bind, Except.bind]; rw [hscored]; rfl⟩

-- Scores differ by the override alone.
theorem score_eq_of_override {claim : ScopedClaim} {override : Int}
    (hrules : override_of context claim rules 0 = .ok override)
    (hshuffled : override_of context claim shuffled 0 = .ok override) :
    score timestamp context rules claim = score timestamp context shuffled claim := by
  rw [score, score, hrules, hshuffled]

theorem score_perm {claim : ScopedClaim} {found other : Option Scored} (hperm : rules.Perm shuffled)
    (hfound : score timestamp context rules claim = .ok found)
    (hother : score timestamp context shuffled claim = .ok other) : found = other := by
  obtain ⟨override, hrules, -⟩ := of_bind_eq_ok hfound
  obtain ⟨override', hshuffled, -⟩ := of_bind_eq_ok hother
  obtain rfl := override_of_perm hperm hrules hshuffled
  rw [score_eq_of_override hrules hshuffled, hother] at hfound
  exact (Except.ok.inj hfound).symm

theorem Decided.score_perm {claim : ScopedClaim} (hdecided : Decided context rules claim)
    (hperm : rules.Perm shuffled) :
    score timestamp context rules claim = score timestamp context shuffled claim := by
  have hother : Decided context shuffled claim := fun rule hrule =>
    hdecided rule (hperm.mem_iff.mpr hrule)
  obtain ⟨override, hrules⟩ := exists_override hdecided 0
  obtain ⟨override', hshuffled⟩ := exists_override hother 0
  obtain rfl := override_of_perm hperm hrules hshuffled
  exact score_eq_of_override hrules hshuffled

-- Different claims have different keys, so that one order alone is sorted.
theorem ranked_perm {ranked reranked : List Scored} (hids : (claims.map ScopedClaim.claim_id).Nodup)
    (hclaims : claims.Perm others) (hrules : rules.Perm shuffled)
    (hranked : rank_claims timestamp context rules claims = .ok ranked)
    (hreranked : rank_claims timestamp context shuffled others = .ok reranked) :
    ranked = reranked := by
  have hplacing : ∀ claim ∈ claims, placing timestamp context rules claim =
      placing timestamp context shuffled claim := by
    intro claim hclaim
    unfold placing
    split
    · rename_i happlicable
      have hcandidate := eq_ok_of_toOption happlicable
      obtain ⟨found, hfound⟩ := (exists_ranked_iff.mp ⟨ranked, hranked⟩).2 claim hclaim hcandidate
      obtain ⟨other, hother⟩ := (exists_ranked_iff.mp ⟨reranked, hreranked⟩).2 claim
        (hclaims.mem_iff.mp hclaim) hcandidate
      rw [hfound, hother, Answers.score_perm hrules hfound hother]
    · rfl
  have hperm : ranked.Perm reranked := by
    rw [rank_claims_eq hranked, rank_claims_eq hreranked, List.filterMap_congr hplacing]
    exact (List.perm_insertionSort _ _).trans
      ((hclaims.filterMap _).trans (List.perm_insertionSort _ _).symm)
  refine List.Perm.eq_of_pairwise ?_ (rank_claims_sorted timestamp context rules hranked)
    (rank_claims_sorted timestamp context shuffled hreranked) hperm
  intro first second hfirst hsecond hle hge
  have hkey : sort_key first = sort_key second := le_antisymm hge hle
  have hpair : (first.1, first.2.claim_id) = (second.1, second.2.claim_id) := toLex.injective hkey
  obtain ⟨htuple, hid⟩ := Prod.mk.inj hpair
  have hfound := (mem_rank_claims timestamp context rules hranked first.1 first.2).mp hfirst
  have hother := (mem_rank_claims timestamp context rules hranked second.1 second.2).mp
    (hperm.mem_iff.mpr hsecond)
  exact Prod.ext htuple (List.inj_on_of_nodup_map hids hfound.1 hother.1 hid)

end Ranking

section Outcome

variable {timestamp : Datetime → Except String Int} {context : ClaimContext}
  {rules shuffled : List ResolutionRule} {claims others : List ScopedClaim}

theorem one_lt_length_fromkeys {values : List String} :
    1 < (fromkeys values).length ↔ ∃ first ∈ values, ∃ second ∈ values, first ≠ second := by
  have hnodup := nodup_fromkeys values
  have hmem : ∀ value, value ∈ fromkeys values ↔ value ∈ values := fun value => mem_fromkeys
  cases hvalues : fromkeys values with
  | nil =>
      simp only [hvalues, List.not_mem_nil, false_iff] at hmem
      simp [List.eq_nil_iff_forall_not_mem.mpr hmem]
  | cons value rest =>
      rw [hvalues] at hnodup hmem
      cases rest with
      | nil =>
          refine ⟨fun hlong => absurd hlong (by simp), ?_⟩
          rintro ⟨first, hfirst, second, hsecond, hne⟩
          have hsame := List.mem_singleton.mp ((hmem first).mpr hfirst)
          exact absurd (hsame.trans (List.mem_singleton.mp ((hmem second).mpr hsecond)).symm) hne
      | cons other rest =>
          refine ⟨fun _ => ?_, fun _ => by simp⟩
          refine ⟨value, (hmem value).mp List.mem_cons_self, other,
            (hmem other).mp (List.mem_cons_of_mem _ List.mem_cons_self), ?_⟩
          rintro rfl
          exact (List.nodup_cons.mp hnodup).1 List.mem_cons_self

theorem exists_resolution_iff :
    (∃ resolution, resolve_authority timestamp context rules claims = .ok resolution) ↔
      ∃ ranked, rank_claims timestamp context rules claims = .ok ranked := by
  constructor
  · rintro ⟨resolution, hresolution⟩
    obtain ⟨ranked, hranked, -⟩ := of_bind_eq_ok hresolution
    exact ⟨ranked, hranked⟩
  · rintro ⟨ranked, hranked⟩
    rw [resolve_authority, hranked]
    cases ranked with
    | nil => exact ⟨_, rfl⟩
    | cons best rest =>
        dsimp only [bind, Except.bind]
        split
        · exact ⟨_, rfl⟩
        · exact ⟨_, rfl⟩

theorem resolve_perm {first second : Resolution}
    (hids : (claims.map ScopedClaim.claim_id).Nodup) (hclaims : claims.Perm others)
    (hrules : rules.Perm shuffled)
    (hfirst : resolve_authority timestamp context rules claims = .ok first)
    (hsecond : resolve_authority timestamp context shuffled others = .ok second) :
    first = second := by
  obtain ⟨ranked, hranked, hfirst⟩ := of_bind_eq_ok hfirst
  obtain ⟨reranked, hreranked, hsecond⟩ := of_bind_eq_ok hsecond
  obtain rfl := ranked_perm hids hclaims hrules hranked hreranked
  rw [hclaims.countP_eq] at hfirst
  exact Except.ok.inj (hfirst.symm.trans hsecond)

theorem exists_resolution_perm (hclaims : claims.Perm others) (hrules : rules.Perm shuffled)
    (hdecided : ∀ claim ∈ claims, Decided context rules claim) :
    (∃ resolution, resolve_authority timestamp context rules claims = .ok resolution) ↔
      ∃ resolution, resolve_authority timestamp context shuffled others = .ok resolution := by
  rw [exists_resolution_iff, exists_resolution_iff, exists_ranked_iff, exists_ranked_iff]
  refine and_congr ?_ ?_
  · exact forall_congr' fun claim => by rw [hclaims.mem_iff]
  · constructor
    · intro hscore claim hclaim happlicable
      have hmem := hclaims.mem_iff.mpr hclaim
      rw [← (hdecided claim hmem).score_perm hrules]
      exact hscore claim hmem happlicable
    · intro hscore claim hclaim happlicable
      rw [(hdecided claim hclaim).score_perm hrules]
      exact hscore claim (hclaims.mem_iff.mp hclaim) happlicable

-- The claims on top are those that the first tuple places.
theorem maximal_iff {tuple : List Int} {best : ScopedClaim} {rest : List Scored}
    (hranked : rank_claims timestamp context rules claims = .ok ((tuple, best) :: rest))
    (claim : ScopedClaim) :
    Maximal timestamp context rules claims claim ↔ (tuple, claim) ∈ (tuple, best) :: rest := by
  have hmem := mem_rank_claims timestamp context rules hranked
  obtain ⟨hbest, top, htop, habove⟩ := head_maximal timestamp context rules hranked rfl
  have hplaced := ((hmem tuple best).mp List.mem_cons_self).2
  obtain rfl : top = tuple :=
    congrArg Prod.fst (Option.some.inj (Except.ok.inj (htop.2.symm.trans hplaced.2)))
  constructor
  · rintro ⟨hclaim, other, hother, hall⟩
    have hsame : other = top :=
      le_antisymm (habove claim hclaim other hother) (hall best hbest top htop)
    exact (hmem top claim).mpr ⟨hclaim, hsame ▸ hother⟩
  · intro hclaim
    obtain ⟨hclaim, hplaced⟩ := (hmem top claim).mp hclaim
    exact ⟨hclaim, top, hplaced, habove⟩

-- A claim that is out of force or out of scope is placed below every candidate.
theorem rival_le {best other : ScopedClaim} {rival : List Int}
    (hbest : Maximal timestamp context rules claims best) (hother : other ∈ claims)
    (hvisible : other.visible_to context = true)
    (hrival : score timestamp context rules other = .ok (some (rival, other))) :
    ∃ tuple, Placed timestamp context rules best tuple ∧ rival ≤ tuple := by
  obtain ⟨-, tuple, hplaced, habove⟩ := hbest
  refine ⟨tuple, hplaced, ?_⟩
  have hshape : ∀ {claim : ScopedClaim} {found : List Int},
      score timestamp context rules claim = .ok (some (found, claim)) → ∃ temporal rest,
        claim.temporally_valid context.as_of = .ok temporal ∧
          found = (if claim.visible_to context then 1 else 0) :: (if temporal then 1 else 0) ::
            claim.scope_match context :: rest := by
    intro claim found hfound
    obtain ⟨override, -, hfound⟩ := of_bind_eq_ok hfound
    split at hfound
    · cases hfound
    obtain ⟨placed, hplaced, hfound⟩ := of_bind_eq_ok hfound
    obtain ⟨temporal, htemporal, hplaced⟩ := of_bind_eq_ok hplaced
    cases hfound
    cases hrecorded : claim.recorded_at with
    | none =>
        rw [hrecorded] at hplaced
        cases hplaced
        exact ⟨temporal, _, htemporal, rfl⟩
    | some recorded_at =>
        rw [hrecorded] at hplaced
        obtain ⟨recency, -, hplaced⟩ := of_bind_eq_ok hplaced
        cases hplaced
        exact ⟨temporal, _, htemporal, rfl⟩
  obtain ⟨temporal, rest, htemporal, rfl⟩ := hshape hrival
  have happlicable : applicable context other = .ok (temporal && 0 ≤ other.scope_match context) := by
    rw [applicable, if_neg (by simp [hvisible]), htemporal]
    rfl
  by_cases hcandidate : (temporal && decide (0 ≤ other.scope_match context)) = true
  · exact habove other hother _ ⟨happlicable.trans (congrArg Except.ok hcandidate), hrival⟩
  · obtain ⟨valid, more, hvalid, rfl⟩ := hshape hplaced.2
    have hbest := hplaced.1
    unfold applicable at hbest
    split at hbest
    · cases hbest
    rename_i hseen
    obtain ⟨begun, hbegun, hpasses⟩ := of_bind_eq_ok hbest
    obtain rfl := Except.ok.inj (hbegun.symm.trans hvalid)
    have hboth := Except.ok.inj hpasses
    rw [Bool.and_eq_true, decide_eq_true_eq] at hboth
    obtain ⟨rfl, hscope⟩ := hboth
    rw [Bool.not_eq_false] at hseen
    rw [Bool.and_eq_true, decide_eq_true_eq, not_and_or] at hcandidate
    refine le_of_lt ?_
    rw [hvisible, hseen, List.cons_lt_cons_iff, List.cons_lt_cons_iff, List.cons_lt_cons_iff]
    refine .inr ⟨rfl, ?_⟩
    cases temporal with
    | false => exact .inl (by decide)
    | true =>
        refine .inr ⟨rfl, .inl ?_⟩
        have hout := hcandidate.resolve_left (by simp)
        omega

-- What a resolution comes to.
structure Decides (timestamp : Datetime → Except String Int) (context : ClaimContext)
    (rules : List ResolutionRule) (claims : List ScopedClaim) (resolution : Resolution) : Prop where
  resolved : resolution.status = .RESOLVED → ∃ best, resolution.claim = some best ∧
    Maximal timestamp context rules claims best ∧
    (∀ other, Maximal timestamp context rules claims other → other.value = best.value) ∧
    ∀ other ∈ claims, other.visible_to context = true → ∀ rival,
      score timestamp context rules other = .ok (some (rival, other)) →
      ∃ tuple, Placed timestamp context rules best tuple ∧ rival ≤ tuple
  conflicted : resolution.status = .CONFLICTED ↔
    ∃ first second, Maximal timestamp context rules claims first ∧
      Maximal timestamp context rules claims second ∧ first.value ≠ second.value
  filtered : resolution.permission_filtered =
    claims.countP (fun claim => claim.visible_to context = false)

theorem decides_of_resolve {resolution : Resolution}
    (hresolution : resolve_authority timestamp context rules claims = .ok resolution) :
    Decides timestamp context rules claims resolution := by
  obtain ⟨ranked, hranked, hresolution⟩ := of_bind_eq_ok hresolution
  cases ranked with
  | nil =>
      cases hresolution
      refine ⟨fun hstatus => (by cases hstatus), ⟨fun hstatus => (by cases hstatus), ?_⟩, rfl⟩
      rintro ⟨first, second, ⟨hfirst, tuple, hplaced, -⟩, -, -⟩
      have hmem := (mem_rank_claims timestamp context rules hranked tuple first).mpr ⟨hfirst, hplaced⟩
      exact absurd hmem List.not_mem_nil
  | cons pair rest =>
      obtain ⟨tuple, best⟩ := pair
      have hmaximal := maximal_iff hranked
      have htied : ∀ claim, claim ∈ (((tuple, best) :: rest).filter
          (fun pair => pair.1 = tuple)).map Prod.snd ↔
            Maximal timestamp context rules claims claim := by
        intro claim
        rw [hmaximal claim, List.mem_map]
        constructor
        · rintro ⟨⟨found, other⟩, hfound, rfl⟩
          obtain ⟨hmem, htuple⟩ := List.mem_filter.mp hfound
          obtain rfl := of_decide_eq_true htuple
          exact hmem
        · intro hmem
          exact ⟨(tuple, claim), List.mem_filter.mpr ⟨hmem, decide_eq_true rfl⟩, rfl⟩
      have hdisagree : 1 < (fromkeys (((((tuple, best) :: rest).filter
          (fun pair => pair.1 = tuple)).map Prod.snd).map ScopedClaim.value)).length ↔
          ∃ first second, Maximal timestamp context rules claims first ∧
            Maximal timestamp context rules claims second ∧ first.value ≠ second.value := by
        rw [one_lt_length_fromkeys]
        constructor
        · rintro ⟨_, hvalue, _, hother, hne⟩
          obtain ⟨first, hfirst, rfl⟩ := List.mem_map.mp hvalue
          obtain ⟨second, hsecond, rfl⟩ := List.mem_map.mp hother
          exact ⟨first, second, (htied first).mp hfirst, (htied second).mp hsecond, hne⟩
        · rintro ⟨first, second, hfirst, hsecond, hne⟩
          exact ⟨_, List.mem_map_of_mem ((htied first).mpr hfirst), _,
            List.mem_map_of_mem ((htied second).mpr hsecond), hne⟩
      dsimp only [bind, Except.bind] at hresolution
      split at hresolution
      · rename_i hlong
        cases hresolution
        exact ⟨fun hstatus => (by cases hstatus), ⟨fun _ => hdisagree.mp hlong, fun _ => rfl⟩, rfl⟩
      · rename_i hshort
        cases hresolution
        have hagree := fun hconflict => hshort (hdisagree.mpr hconflict)
        have hbest := (hmaximal best).mpr List.mem_cons_self
        refine ⟨fun _ => ⟨best, rfl, hbest, ?_, ?_⟩, ⟨fun hstatus => (by cases hstatus), ?_⟩, rfl⟩
        · intro other hother
          by_contra hne
          exact hagree ⟨other, best, hother, hbest, hne⟩
        · exact fun other hother hvisible rival hrival => rival_le hbest hother hvisible hrival
        · exact fun hconflict => absurd hconflict hagree

-- The result but for the audit's count.
def told (resolution : Resolution) : Resolution := { resolution with permission_filtered := 0 }

theorem told_visible (hvisible : others.filter (fun claim => claim.visible_to context) =
    claims.filter (fun claim => claim.visible_to context)) :
    (resolve_authority timestamp context rules others).map told =
      (resolve_authority timestamp context rules claims).map told := by
  rw [resolve_authority_hidden timestamp context rules others,
    resolve_authority_hidden timestamp context rules claims, hvisible]
  cases resolve_authority timestamp context rules
      (claims.filter (fun claim => claim.visible_to context)) with
  | error message => rfl
  | ok resolution => rfl

structure ResolvesAuthority (timestamp : Datetime → Except String Int) (context : ClaimContext)
    (rules : List ResolutionRule) (claims : List ScopedClaim) : Prop where
  order_free : ∀ shuffled others, rules.Perm shuffled → claims.Perm others →
    (∀ first second, resolve_authority timestamp context rules claims = .ok first →
      resolve_authority timestamp context shuffled others = .ok second → first = second) ∧
    ((∀ claim ∈ claims, Decided context rules claim) →
      ((∃ resolution, resolve_authority timestamp context rules claims = .ok resolution) ↔
        ∃ resolution, resolve_authority timestamp context shuffled others = .ok resolution))
  decides : ∀ resolution, resolve_authority timestamp context rules claims = .ok resolution →
    Decides timestamp context rules claims resolution
  hidden : ∀ others, others.filter (fun claim => claim.visible_to context) =
      claims.filter (fun claim => claim.visible_to context) →
    (resolve_authority timestamp context rules others).map told =
      (resolve_authority timestamp context rules claims).map told

theorem authority_resolves (timestamp : Datetime → Except String Int) (context : ClaimContext)
    (rules : List ResolutionRule) (claims : List ScopedClaim)
    (hids : (claims.map ScopedClaim.claim_id).Nodup) :
    ResolvesAuthority timestamp context rules claims where
  order_free _ _ hrules hclaims :=
    ⟨fun _ _ hfirst hsecond => resolve_perm hids hclaims hrules hfirst hsecond,
      exists_resolution_perm hclaims hrules⟩
  decides _ hresolution := decides_of_resolve hresolution
  hidden _ hvisible := told_visible hvisible

theorem statements_resolve : ResolvesAuthority utc_timestamp asker []
    [hidden_statement.claim, (statement .OFFICIAL "ev_1").claim] :=
  authority_resolves utc_timestamp asker [] _ (by decide)

end Outcome

end KnowledgeCompiler.Answers
