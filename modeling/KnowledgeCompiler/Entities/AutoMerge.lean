import KnowledgeCompiler.Entities.Resolution

namespace KnowledgeCompiler.Entities

open Lib Identity

section Ranking

-- A candidate whose evidence no other one exceeds.
def Best (score : EntityMention → ℚ) (entries : Candidates) (entry : String × EntityMention) : Prop :=
  entry ∈ entries ∧ ∀ other ∈ entries, score other.2 ≤ score entry.2

theorem descending_perm (pairs : List (ℚ × String)) : (descending pairs).Perm pairs :=
  Ranked.rank_perm _ pairs

theorem descending_sorted (pairs : List (ℚ × String)) :
    (descending pairs).Pairwise fun first second => second.1 ≤ first.1 := by
  refine (Ranked.rank_pairwise (fun pair => OrderDual.toDual (toLex pair)) pairs).imp ?_
  intro first second hle
  rw [OrderDual.toDual_le_toDual, Prod.Lex.toLex_le_toLex] at hle
  rcases hle with hlt | ⟨heq, _⟩
  · exact hlt.le
  · exact heq.le

theorem le_runner_up {second pair : ℚ × String} {more : List (ℚ × String)}
    (hpairwise : (second :: more).Pairwise fun first second => second.1 ≤ first.1)
    (hmem : pair ∈ second :: more) : pair.1 ≤ second.1 := by
  rcases List.mem_cons.mp hmem with rfl | hmore
  · exact le_rfl
  · exact (List.pairwise_cons.mp hpairwise).1 pair hmore

variable (score : EntityMention → ℚ) (entries : Candidates)

theorem descending_eq_nil_iff : descending (scored score entries) = [] ↔ entries = [] := by
  constructor
  · intro hnone
    have hperm := descending_perm (scored score entries)
    rw [hnone] at hperm
    simpa [scored] using hperm.symm.eq_nil
  · rintro rfl
    rfl

theorem best_of_descending {top : ℚ × String} {rest : List (ℚ × String)}
    (hsorted : descending (scored score entries) = top :: rest) :
    ∃ entry, Best score entries entry ∧ score entry.2 = top.1 ∧ entry.1 = top.2 := by
  have hperm := descending_perm (scored score entries)
  have hpairwise := descending_sorted (scored score entries)
  rw [hsorted] at hperm hpairwise
  obtain ⟨entry, hentry, rfl⟩ := List.mem_map.mp (hperm.subset List.mem_cons_self)
  refine ⟨entry, ⟨hentry, ?_⟩, rfl, rfl⟩
  intro other hother
  have hmem := hperm.symm.subset (List.mem_map.mpr ⟨other, hother, rfl⟩)
  rcases List.mem_cons.mp hmem with heq | hrest
  · exact (congrArg Prod.fst heq).le
  · exact (List.pairwise_cons.mp hpairwise).1 _ hrest

theorem reaches_mono {threshold : Binary64} {low high : ℚ} (hle : low ≤ high)
    (hreaches : reaches threshold low = true) : reaches threshold high = true := by
  simp only [reaches, Bool.and_eq_true, decide_eq_true_eq] at hreaches ⊢
  exact ⟨hreaches.1.trans_le hle, Binary64.le_trans hreaches.2 (Binary64.le_finite.mpr hle)⟩

theorem too_close_mono {score low high : ℚ} (hle : low ≤ high) (hclose : too_close score low = true) :
    too_close score high = true := by
  simp only [too_close, decide_eq_true_eq] at hclose ⊢
  exact (Binary64.rounded_monotone (by linarith)).trans_lt hclose

theorem rounded_twentieth_pos : 0 < Binary64.rounded (1 / 20) := by
  have hulp : Binary64.ulp (1 / 20) = 2 ^ (-57 : ℤ) := by
    have hlog : Int.log 2 |(1 / 20 : ℚ)| = -5 := by
      rw [abs_of_pos (by norm_num)]
      decide +kernel
    rw [Binary64.ulp, hlog]
    norm_num
  have hle : (1 : ℤ) * Binary64.ulp (1 / 20) ≤ 1 / 20 := by
    rw [hulp]
    norm_num
  have hrounded := Binary64.le_rounded hle
  rw [hulp] at hrounded
  refine lt_of_lt_of_le ?_ hrounded
  norm_num

theorem lt_of_apart {score other : ℚ} (happart : too_close score other = false) : other < score := by
  by_contra hle
  have hsame : too_close score score = true := by
    simp only [too_close, sub_self, Binary64.rounded_zero, decide_eq_true_eq]
    exact rounded_twentieth_pos
  rw [too_close_mono (le_of_not_gt hle) hsame] at happart
  cases happart

end Ranking

section Tiers

variable (unicode : Unicode) (mention : EntityMention) (candidates : Candidates)
  (aliases : Dict String String) (name_threshold context_threshold : Binary64)
  (model_proposals : List String)

-- No identifier names an entity: no external id, no alias and no composite key.
structure Unidentified : Prop where
  external : external_matches mention candidates = []
  unaliased : alias_target unicode mention candidates aliases = none
  composite : (composite_matches unicode mention candidates).length ≠ 1

def ContextReached : Prop :=
  ∃ entry ∈ same_type mention candidates, reaches context_threshold (_context_overlap mention entry.2) = true

-- The candidate between `before` and `after` has a name alike enough, and leads all others.
def NameLeads (before : Candidates) (entry : String × EntityMention) (after : Candidates) : Prop :=
  reaches name_threshold (_name_similarity unicode mention entry.2) = true ∧
    ∀ other ∈ before ++ after, too_close (_name_similarity unicode mention entry.2)
      (_name_similarity unicode mention other.2) = false

theorem context_overlap_of_reached (hreached : ContextReached mention candidates context_threshold) :
    ∃ best, Best (_context_overlap mention) (same_type mention candidates) best ∧
      ∃ decision, context_overlap mention candidates context_threshold = some decision ∧
        decision.tier = some .CONTEXT_OVERLAP ∧
        (high_risk mention = true → decision.verdict = .REVIEW) ∧
        (high_risk mention = false → decision.verdict = .AUTO_MERGE ∧ decision.entity_id = some best.1) := by
  obtain ⟨entry, hentry, hreaches⟩ := hreached
  unfold context_overlap
  cases hsorted : descending (scored (_context_overlap mention) (same_type mention candidates)) with
  | nil =>
      have hnone := (descending_eq_nil_iff _ _).mp hsorted
      rw [hnone] at hentry
      simp at hentry
  | cons top rest =>
      obtain ⟨best, hbest, hscore, hid⟩ := best_of_descending _ _ hsorted
      have htop : reaches context_threshold top.1 = true := by
        rw [← hscore]
        exact reaches_mono (hbest.2 entry hentry) hreaches
      refine ⟨best, hbest, _, by simp only [htop, if_true]; rfl, rfl, ?_, ?_⟩
      · intro hrisk
        simp [hrisk]
      · intro hrisk
        simp [hrisk, hid]

theorem context_overlap_of_not_reached
    (hreached : ¬ContextReached mention candidates context_threshold) :
    context_overlap mention candidates context_threshold = none := by
  unfold context_overlap
  cases hsorted : descending (scored (_context_overlap mention) (same_type mention candidates)) with
  | nil => rfl
  | cons top rest =>
      obtain ⟨best, hbest, hscore, _⟩ := best_of_descending _ _ hsorted
      simp only
      rw [if_neg]
      intro htop
      rw [← hscore] at htop
      exact hreached ⟨best, hbest.1, htop⟩

theorem external_cases :
    (external_matches mention candidates = [] ∧ system_of_record mention candidates = none) ∨
      (∃ found, external_matches mention candidates = [found] ∧ ∃ decision,
        system_of_record mention candidates = some decision ∧ decision.tier = some .SYSTEM_OF_RECORD ∧
        decision.verdict = .AUTO_MERGE ∧ decision.entity_id = some found) ∨
      (2 ≤ (external_matches mention candidates).length ∧ ∃ decision,
        system_of_record mention candidates = some decision ∧ decision.tier = some .SYSTEM_OF_RECORD ∧
        decision.verdict = .REVIEW) := by
  unfold system_of_record
  split
  · rename_i hnone
    exact Or.inl ⟨hnone, rfl⟩
  · rename_i found hone
    exact Or.inr (Or.inl ⟨found, hone, _, rfl, rfl, rfl, rfl⟩)
  · rename_i hsome hmany
    refine Or.inr (Or.inr ⟨?_, _, rfl, rfl, rfl⟩)
    cases hmatches : external_matches mention candidates with
    | nil => exact absurd hmatches hsome
    | cons first rest =>
        cases rest with
        | nil => exact absurd hmatches (hmany first)
        | cons second rest => simp

theorem alias_cases :
    (alias_target unicode mention candidates aliases = none ∧
        approved_alias unicode mention candidates aliases = none) ∨
      (alias_target unicode mention candidates aliases ≠ none ∧ ∃ decision,
        approved_alias unicode mention candidates aliases = some decision ∧
        decision.tier = some .APPROVED_ALIAS) := by
  unfold approved_alias
  cases alias_target unicode mention candidates aliases with
  | none => exact Or.inl ⟨rfl, rfl⟩
  | some target => exact Or.inr ⟨by simp, _, rfl, rfl⟩

theorem composite_cases :
    ((composite_matches unicode mention candidates).length ≠ 1 ∧
        composite_key unicode mention candidates = none) ∨
      ((composite_matches unicode mention candidates).length = 1 ∧ ∃ decision,
        composite_key unicode mention candidates = some decision ∧
        decision.tier = some .COMPOSITE_KEY) := by
  unfold composite_key
  cases composite_matches unicode mention candidates with
  | nil => exact Or.inl ⟨by simp, rfl⟩
  | cons found rest =>
      cases rest with
      | nil => exact Or.inr ⟨rfl, _, rfl, rfl⟩
      | cons next rest => exact Or.inl ⟨by simp, rfl⟩

theorem scored_perm (score : EntityMention → ℚ) (before after : Candidates) (entry : String × EntityMention) :
    (scored score (before ++ entry :: after)).Perm
      ((score entry.2, entry.1) :: scored score (before ++ after)) :=
  List.perm_middle.map _

-- A candidate that leads all others comes first, and the others follow in their order.
theorem descending_of_leads {score : EntityMention → ℚ} {before after : Candidates}
    {entry : String × EntityMention} (hleads : ∀ other ∈ before ++ after, score other.2 < score entry.2) :
    ∃ rest, descending (scored score (before ++ entry :: after)) = (score entry.2, entry.1) :: rest ∧
      rest.Perm (scored score (before ++ after)) := by
  have hperm := (descending_perm (scored score (before ++ entry :: after))).trans
    (scored_perm score before after entry)
  cases hsorted : descending (scored score (before ++ entry :: after)) with
  | nil =>
      have hnone := (descending_eq_nil_iff _ _).mp hsorted
      simp at hnone
  | cons top rest =>
      obtain ⟨best, hbest, hscore, hid⟩ := best_of_descending _ _ hsorted
      have htop : top = (score entry.2, entry.1) := by
        have hle := hbest.2 entry (by simp)
        have hmem := hbest.1
        rw [List.mem_append, List.mem_cons] at hmem
        rcases hmem with hmem | rfl | hmem
        · exact absurd (hleads best (List.mem_append_left _ hmem)) (not_lt.mpr hle)
        · exact Prod.ext hscore.symm hid.symm
        · exact absurd (hleads best (List.mem_append_right _ hmem)) (not_lt.mpr hle)
      rw [hsorted, htop] at hperm
      exact ⟨rest, by rw [htop], hperm.cons_inv⟩

theorem name_similarity_of_leads {before after : Candidates} {entry : String × EntityMention}
    (hleads : NameLeads unicode mention name_threshold before entry after) :
    name_similarity unicode mention (before ++ entry :: after) name_threshold =
      some (name_decision mention (_name_similarity unicode mention entry.2) entry.1) := by
  obtain ⟨hreaches, hapart⟩ := hleads
  obtain ⟨rest, hsorted, hrest⟩ := @descending_of_leads (_name_similarity unicode mention) before after entry
    fun other hmem => lt_of_apart (hapart other hmem)
  unfold name_similarity
  rw [hsorted]
  simp only [hreaches, if_true]
  cases rest with
  | nil => rfl
  | cons second more =>
      obtain ⟨other, hother, rfl⟩ := List.mem_map.mp (hrest.subset List.mem_cons_self)
      simp [hapart other hother]

-- Everything that the names of the candidates may decide.
theorem name_cases :
    name_similarity unicode mention candidates name_threshold = none ∨
      (∃ decision, name_similarity unicode mention candidates name_threshold = some decision ∧
        decision.tier = some .NAME_SIMILARITY ∧ decision.verdict = .REVIEW) ∨
      (∃ before entry after, candidates = before ++ entry :: after ∧
        NameLeads unicode mention name_threshold before entry after ∧ high_risk mention = false) := by
  cases hsorted : descending (scored (_name_similarity unicode mention) candidates) with
  | nil => exact Or.inl (by simp [name_similarity, hsorted])
  | cons top rest =>
      obtain ⟨best, hbest, hscore, hid⟩ := best_of_descending _ _ hsorted
      obtain ⟨before, after, rfl⟩ := List.append_of_mem hbest.1
      obtain ⟨score, entity_id⟩ := top
      simp only at hscore hid
      subst hscore hid
      have hpairwise := descending_sorted (scored (_name_similarity unicode mention)
        (before ++ best :: after))
      have hperm := (descending_perm (scored (_name_similarity unicode mention)
        (before ++ best :: after))).trans (scored_perm _ before after best)
      rw [hsorted] at hperm hpairwise
      have hrest := hperm.cons_inv
      cases hreaches : reaches name_threshold (_name_similarity unicode mention best.2) with
      | false => exact Or.inl (by simp [name_similarity, hsorted, hreaches])
      | true =>
          cases hrisk : high_risk mention with
          | true =>
              refine Or.inr (Or.inl ?_)
              unfold name_similarity
              rw [hsorted]
              simp only [hreaches, if_true]
              cases rest with
              | nil => exact ⟨_, rfl, rfl, by simp [name_decision, hrisk]⟩
              | cons second more =>
                  simp only
                  split
                  · exact ⟨_, rfl, rfl, rfl⟩
                  · exact ⟨_, rfl, rfl, by simp [name_decision, hrisk]⟩
          | false =>
              cases rest with
              | nil =>
                  have hnone : before ++ after = [] := by
                    simpa [scored] using hrest.symm.eq_nil
                  refine Or.inr (Or.inr ⟨before, best, after, rfl, ⟨hreaches, ?_⟩, rfl⟩)
                  simp [hnone]
              | cons second more =>
                  cases hclose : too_close (_name_similarity unicode mention best.2) second.1 with
                  | true =>
                      refine Or.inr (Or.inl ?_)
                      unfold name_similarity
                      rw [hsorted]
                      simp only [hreaches, if_true, hclose]
                      exact ⟨_, rfl, rfl, rfl⟩
                  | false =>
                      refine Or.inr (Or.inr ⟨before, best, after, rfl, ⟨hreaches, ?_⟩, rfl⟩)
                      intro other hother
                      have hmem := hrest.symm.subset (List.mem_map.mpr ⟨other, hother, rfl⟩)
                      have hle := le_runner_up (List.pairwise_cons.mp hpairwise).2 hmem
                      by_contra hfar
                      rw [too_close_mono hle (by simpa using hfar)] at hclose
                      cases hclose

theorem first_answer (decision other : MergeDecision) (rest : Option MergeDecision) :
    (some decision <|> rest).getD other = decision := rfl

theorem no_answer (rest : Option MergeDecision) : (none <|> rest) = rest := by
  cases rest <;> rfl

theorem resolve_of_record {decision : MergeDecision}
    (hrecord : system_of_record mention candidates = some decision) :
    resolve_mention unicode mention candidates aliases name_threshold context_threshold model_proposals =
      decision := by
  simp [resolve_mention, hrecord]

-- An identifier decides before any resemblance does.
theorem tier_of_identified (hidentified : ¬Unidentified unicode mention candidates aliases) :
    let tier := (resolve_mention unicode mention candidates aliases name_threshold context_threshold
      model_proposals).tier
    tier = some .SYSTEM_OF_RECORD ∨ tier = some .APPROVED_ALIAS ∨ tier = some .COMPOSITE_KEY := by
  intro tier
  rcases external_cases mention candidates with
    ⟨hexternal, hnone⟩ | ⟨_, _, decision, hsome, htier, _⟩ | ⟨_, decision, hsome, htier, _⟩
  · rcases alias_cases unicode mention candidates aliases with
      ⟨halias, hunnamed⟩ | ⟨_, decision, hsome, htier⟩
    · rcases composite_cases unicode mention candidates with
        ⟨hcomposite, _⟩ | ⟨_, decision, hsome, htier⟩
      · exact absurd ⟨hexternal, halias, hcomposite⟩ hidentified
      · exact Or.inr (Or.inr (by simp [tier, resolve_mention, hnone, hunnamed, hsome, htier]))
    · exact Or.inr (Or.inl (by simp [tier, resolve_mention, hnone, hsome, htier]))
  · exact Or.inl (by simp [tier, resolve_mention, hsome, htier])
  · exact Or.inl (by simp [tier, resolve_mention, hsome, htier])

theorem resolve_of_unidentified (hunidentified : Unidentified unicode mention candidates aliases) :
    resolve_mention unicode mention candidates aliases name_threshold context_threshold model_proposals =
      (context_overlap mention candidates context_threshold <|>
        name_similarity unicode mention candidates name_threshold <|>
        model_proposal candidates model_proposals).getD no_match := by
  obtain ⟨hexternal, halias, hcomposite⟩ := hunidentified
  have hrecord : system_of_record mention candidates = none := by
    simp [system_of_record, hexternal]
  have happroved : approved_alias unicode mention candidates aliases = none := by
    simp [approved_alias, halias]
  have hkey : composite_key unicode mention candidates = none := by
    rcases composite_cases unicode mention candidates with ⟨_, hnone⟩ | ⟨hone, _⟩
    · exact hnone
    · exact absurd hone hcomposite
  simp [resolve_mention, hrecord, happroved, hkey]

theorem proposal_cases :
    (model_proposal candidates model_proposals).getD no_match = no_match ∨
      ((model_proposal candidates model_proposals).getD no_match).tier = some .MODEL_PROPOSAL ∧
        ((model_proposal candidates model_proposals).getD no_match).verdict = .REVIEW := by
  unfold model_proposal
  simp only
  split
  · exact Or.inl rfl
  · exact Or.inr ⟨rfl, rfl⟩

end Tiers

section Safety

variable (unicode : Unicode) (mention : EntityMention) (candidates : Candidates)
  (aliases : Dict String String) (name_threshold context_threshold : Binary64)
  (model_proposals : List String)

def LowRisk (mention : EntityMention) : Prop := high_risk mention = false

-- Neither side is of a high-risk type, and all the best evidence is for the entity merged into.
def Uncontested (score : EntityMention → ℚ) (entries : Candidates) (decision : MergeDecision) : Prop :=
  LowRisk mention ∧ ∃ target, Best score entries target ∧ decision.entity_id = some target.1 ∧
    ∀ other, Best score entries other → other.1 = target.1 ∧ LowRisk other.2

structure AutoMergeSafe (decision : MergeDecision) : Prop where
  context : decision.verdict = .AUTO_MERGE → decision.tier = some .CONTEXT_OVERLAP →
    Uncontested mention (_context_overlap mention) (same_type mention candidates) decision
  name : decision.verdict = .AUTO_MERGE → decision.tier = some .NAME_SIMILARITY →
    Uncontested mention (_name_similarity unicode mention) candidates decision
  proposal : decision.tier = some .MODEL_PROPOSAL → decision.verdict ≠ .AUTO_MERGE
  external : ∀ entity, external_matches mention candidates ≠ [] →
    (∀ found ∈ external_matches mention candidates, found = entity) →
    decision.verdict = .AUTO_MERGE ∧ decision.tier = some .SYSTEM_OF_RECORD ∧
      decision.entity_id = some entity

-- What the tiers leave unchecked does not occur: an entity with two mentions that carry the
-- external id, two entities with the same best context, a high-risk type behind the leading name.
structure Unambiguous : Prop where
  one_mention : ∀ entity, external_matches mention candidates ≠ [] →
    (∀ found ∈ external_matches mention candidates, found = entity) →
    (external_matches mention candidates).length = 1
  one_context : Unidentified unicode mention candidates aliases →
    ContextReached mention candidates context_threshold → LowRisk mention →
    ∀ first second, Best (_context_overlap mention) (same_type mention candidates) first →
      Best (_context_overlap mention) (same_type mention candidates) second → first.1 = second.1
  low_risk_name : Unidentified unicode mention candidates aliases →
    ¬ContextReached mention candidates context_threshold → LowRisk mention →
    ∀ before entry after, candidates = before ++ entry :: after →
      NameLeads unicode mention name_threshold before entry after → LowRisk entry.2

theorem lowRisk_of_same_type {entry : String × EntityMention}
    (hentry : entry ∈ same_type mention candidates) (hlow : LowRisk mention) : LowRisk entry.2 := by
  have htype : entry.2.type_candidate = mention.type_candidate := by
    simpa using (List.mem_filter.mp hentry).2
  simpa [LowRisk, high_risk, htype] using hlow

theorem uncontested_of_leads {before after : Candidates} {entry : String × EntityMention}
    (hleads : NameLeads unicode mention name_threshold before entry after) (hlow : LowRisk mention)
    (hentry : LowRisk entry.2) :
    Uncontested mention (_name_similarity unicode mention) (before ++ entry :: after)
      (name_decision mention (_name_similarity unicode mention entry.2) entry.1) := by
  have hbelow : ∀ other ∈ before ++ after,
      _name_similarity unicode mention other.2 < _name_similarity unicode mention entry.2 :=
    fun other hmem => lt_of_apart (hleads.2 other hmem)
  have hsplit (other : String × EntityMention) (hmem : other ∈ before ++ entry :: after) :
      other = entry ∨ other ∈ before ++ after := by
    rw [List.mem_append, List.mem_cons] at hmem
    rw [List.mem_append]
    tauto
  refine ⟨hlow, entry, ⟨by simp, ?_⟩, ?_, ?_⟩
  · intro other hmem
    rcases hsplit other hmem with rfl | hother
    · exact le_rfl
    · exact (hbelow other hother).le
  · have hrisk : high_risk mention = false := hlow
    simp [name_decision, hrisk]
  · intro other hbest
    rcases hsplit other hbest.1 with rfl | hother
    · exact ⟨rfl, hentry⟩
    · exact absurd (hbelow other hother) (not_lt.mpr (hbest.2 entry (by simp)))

theorem safe_of_context (hreached : ContextReached mention candidates context_threshold)
    (hunambiguous : LowRisk mention → ∀ first second,
      Best (_context_overlap mention) (same_type mention candidates) first →
      Best (_context_overlap mention) (same_type mention candidates) second → first.1 = second.1) :
    ∃ decision, context_overlap mention candidates context_threshold = some decision ∧
      decision.tier = some .CONTEXT_OVERLAP ∧ (decision.verdict = .AUTO_MERGE →
        Uncontested mention (_context_overlap mention) (same_type mention candidates) decision) := by
  obtain ⟨best, hbest, decision, hsome, htier, hhigh, hlow⟩ :=
    context_overlap_of_reached mention candidates context_threshold hreached
  refine ⟨decision, hsome, htier, fun hmerge => ?_⟩
  cases hrisk : high_risk mention with
  | true =>
      rw [hhigh hrisk] at hmerge
      cases hmerge
  | false =>
      refine ⟨hrisk, best, hbest, (hlow hrisk).2, fun other hother => ⟨?_, ?_⟩⟩
      · exact hunambiguous hrisk other best hother hbest
      · exact lowRisk_of_same_type mention candidates hother.1 hrisk

-- A decision that merges nothing is safe, where no external id is shared.
theorem safe_of_not_merged (hexternal : external_matches mention candidates = [])
    {decision : MergeDecision} (hverdict : decision.verdict ≠ .AUTO_MERGE) :
    AutoMergeSafe unicode mention candidates decision where
  context hmerge := absurd hmerge hverdict
  name hmerge := absurd hmerge hverdict
  proposal _ := hverdict
  external _ hsome := absurd hexternal hsome

theorem unambiguous_of_safe (hsafe : AutoMergeSafe unicode mention candidates
      (resolve_mention unicode mention candidates aliases name_threshold context_threshold model_proposals)) :
    Unambiguous unicode mention candidates aliases name_threshold context_threshold := by
  constructor
  · intro entity hsome hsame
    obtain ⟨hverdict, _, _⟩ := hsafe.external entity hsome hsame
    rcases external_cases mention candidates with
      ⟨hnone, _⟩ | ⟨found, hone, _⟩ | ⟨_, decision, hrecord, _, hreview⟩
    · exact absurd hnone hsome
    · simp [hone]
    · rw [resolve_of_record unicode mention candidates aliases name_threshold context_threshold
        model_proposals hrecord, hreview] at hverdict
      cases hverdict
  · intro hunidentified hreached hlow first second hfirst hsecond
    obtain ⟨best, _, decision, hsome, htier, _, hmerge⟩ :=
      context_overlap_of_reached mention candidates context_threshold hreached
    have hresolve := resolve_of_unidentified unicode mention candidates aliases name_threshold
      context_threshold model_proposals hunidentified
    rw [hsome, first_answer] at hresolve
    rw [hresolve] at hsafe
    obtain ⟨_, target, _, _, hall⟩ := hsafe.context (hmerge hlow).1 htier
    rw [(hall first hfirst).1, (hall second hsecond).1]
  · intro hunidentified hreached hlow before entry after hcandidates hleads
    subst hcandidates
    have hresolve := resolve_of_unidentified unicode mention (before ++ entry :: after) aliases
      name_threshold context_threshold model_proposals hunidentified
    rw [context_overlap_of_not_reached mention _ context_threshold hreached,
      name_similarity_of_leads unicode mention name_threshold hleads, no_answer, first_answer] at hresolve
    rw [hresolve] at hsafe
    have hrisk : high_risk mention = false := hlow
    obtain ⟨_, target, htarget, _, hall⟩ :=
      hsafe.name (by simp [name_decision, hrisk]) (by simp [name_decision])
    refine (hall entry ⟨by simp, fun other hmem => ?_⟩).2
    rw [List.mem_append, List.mem_cons] at hmem
    rcases hmem with hmem | rfl | hmem
    · exact (lt_of_apart (hleads.2 other (List.mem_append_left _ hmem))).le
    · exact le_rfl
    · exact (lt_of_apart (hleads.2 other (List.mem_append_right _ hmem))).le

-- Without a name in a register the decision is made by the context, the name or the proposals.
theorem safe_of_unidentified (hunidentified : Unidentified unicode mention candidates aliases)
    (hunambiguous : Unambiguous unicode mention candidates aliases name_threshold context_threshold) :
    AutoMergeSafe unicode mention candidates (resolve_mention unicode mention candidates aliases
      name_threshold context_threshold model_proposals) := by
  rw [resolve_of_unidentified unicode mention candidates aliases name_threshold
    context_threshold model_proposals hunidentified]
  have hexternal := hunidentified.external
  by_cases hreached : ContextReached mention candidates context_threshold
  · obtain ⟨decision, hsome, htier, hmerge⟩ := safe_of_context mention candidates context_threshold
      hreached (hunambiguous.one_context hunidentified hreached)
    rw [hsome, first_answer]
    constructor
    · exact fun hverdict _ => hmerge hverdict
    · intro _ hname
      rw [htier] at hname
      cases hname
    · intro hproposal
      rw [htier] at hproposal
      cases hproposal
    · exact fun _ hsome => absurd hexternal hsome
  rw [context_overlap_of_not_reached mention candidates context_threshold hreached, no_answer]
  rcases name_cases unicode mention candidates name_threshold with
    hnone | ⟨decision, hsome, -, hreview⟩ | ⟨before, entry, after, rfl, hleads, hrisk⟩
  · rw [hnone, no_answer]
    refine safe_of_not_merged unicode mention candidates hexternal fun hverdict => ?_
    rcases proposal_cases candidates model_proposals with hno | ⟨-, hreview⟩
    · rw [hno] at hverdict
      cases hverdict
    · rw [hreview] at hverdict
      cases hverdict
  · rw [hsome, first_answer]
    refine safe_of_not_merged unicode mention candidates hexternal fun hverdict => ?_
    rw [hreview] at hverdict
    cases hverdict
  · rw [name_similarity_of_leads unicode mention name_threshold hleads, first_answer]
    have hentry := hunambiguous.low_risk_name hunidentified hreached hrisk before entry after rfl hleads
    constructor
    · intro _ htier
      cases htier
    · exact fun _ _ => uncontested_of_leads unicode mention name_threshold hleads hrisk hentry
    · intro htier
      cases htier
    · exact fun _ hsome => absurd hexternal hsome

theorem safe_of_identified (hidentified : ¬Unidentified unicode mention candidates aliases)
    (hunambiguous : Unambiguous unicode mention candidates aliases name_threshold context_threshold) :
    AutoMergeSafe unicode mention candidates (resolve_mention unicode mention candidates aliases
      name_threshold context_threshold model_proposals) := by
  have htier := tier_of_identified unicode mention candidates aliases name_threshold
    context_threshold model_proposals hidentified
  constructor
  · intro _ hcontext
    rcases htier with htier | htier | htier <;> rw [htier] at hcontext <;> cases hcontext
  · intro _ hname
    rcases htier with htier | htier | htier <;> rw [htier] at hname <;> cases hname
  · intro hproposal
    rcases htier with htier | htier | htier <;> rw [htier] at hproposal <;> cases hproposal
  · intro entity hsome hsame
    have hone := hunambiguous.one_mention entity hsome hsame
    rcases external_cases mention candidates with
      ⟨hnone, _⟩ | ⟨found, hfound, decision, hrecord, hsystem, hmerge, hid⟩ | ⟨hmany, _⟩
    · exact absurd hnone hsome
    · rw [resolve_of_record unicode mention candidates aliases name_threshold context_threshold
        model_proposals hrecord]
      rw [hfound] at hsame
      exact ⟨hmerge, hsystem, by rw [hid, hsame found List.mem_cons_self]⟩
    · omega

theorem auto_merge_safe_iff :
    AutoMergeSafe unicode mention candidates (resolve_mention unicode mention candidates aliases
        name_threshold context_threshold model_proposals) ↔
      Unambiguous unicode mention candidates aliases name_threshold context_threshold := by
  constructor
  · exact unambiguous_of_safe unicode mention candidates aliases name_threshold context_threshold
      model_proposals
  · intro hunambiguous
    by_cases hunidentified : Unidentified unicode mention candidates aliases
    · exact safe_of_unidentified unicode mention candidates aliases name_threshold context_threshold
        model_proposals hunidentified hunambiguous
    · exact safe_of_identified unicode mention candidates aliases name_threshold context_threshold
        model_proposals hunidentified hunambiguous

end Safety

section Careless

def press (mention_id type_candidate : String) (context_ids : Finset String) : EntityMention where
  mention_id := mention_id
  text := "press"
  evidence_id := "page-1"
  type_candidate := type_candidate
  external_ids := Dict.empty.set "erp" "7"
  context_ids := context_ids
  evidenced := by decide

def unlisted (type_candidate : String) (context_ids : Finset String) : EntityMention where
  mention_id := "m-0"
  text := "press"
  evidence_id := "page-2"
  type_candidate := type_candidate
  context_ids := context_ids
  evidenced := by decide

def resolved (mention : EntityMention) (candidates : Candidates) : MergeDecision :=
  resolve_mention .ascii mention candidates .empty (.finite (17 / 20)) (.finite (3 / 5)) []

def listedTwice : Candidates := [("E1", press "m-1" "" ∅), ("E1", press "m-2" "" ∅)]

def sharedPlant : Candidates := [("E1", press "m-1" "" {"plant"}), ("E2", press "m-2" "" {"plant"})]

def customerNamed : Candidates := [("E1", press "m-1" "customer" ∅)]

theorem careless_merges :
    ¬AutoMergeSafe .ascii (press "m-0" "" ∅) listedTwice (resolved (press "m-0" "" ∅) listedTwice) ∧
      ¬AutoMergeSafe .ascii (unlisted "" {"plant"}) sharedPlant
        (resolved (unlisted "" {"plant"}) sharedPlant) ∧
      ¬AutoMergeSafe .ascii (unlisted "" ∅) customerNamed (resolved (unlisted "" ∅) customerNamed) := by
  refine ⟨fun hsafe => ?_, fun hsafe => ?_, fun hsafe => ?_⟩
  · obtain ⟨hmerge, _⟩ := hsafe.external "E1" (by decide) (by decide)
    revert hmerge
    decide
  · obtain ⟨_, target, _, _, hall⟩ := hsafe.context (by decide +kernel) (by decide +kernel)
    have hequal (entry : String × EntityMention) (hmem : entry ∈ sharedPlant) :
        Best (_context_overlap (unlisted "" {"plant"})) (same_type (unlisted "" {"plant"}) sharedPlant) entry := by
      have hsame : ∀ other ∈ sharedPlant, other.2.type_candidate = "" ∧ other.2.context_ids = {"plant"} := by
        simp [sharedPlant, press]
      refine ⟨?_, fun other hother => ?_⟩
      · rw [same_type, List.mem_filter]
        exact ⟨hmem, by simp [hsame entry hmem, unlisted]⟩
      · rw [_context_overlap, _context_overlap, (hsame entry hmem).2,
          (hsame other (List.mem_filter.mp hother).1).2]
    have hfirst := (hall _ (hequal ("E1", press "m-1" "" {"plant"}) (by simp [sharedPlant]))).1
    have hsecond := (hall _ (hequal ("E2", press "m-2" "" {"plant"}) (by simp [sharedPlant]))).1
    rw [← hfirst] at hsecond
    simp at hsecond
  · obtain ⟨_, target, _, _, hall⟩ := hsafe.name (by decide +kernel) (by decide +kernel)
    have hbest : Best (_name_similarity .ascii (unlisted "" ∅)) customerNamed
        ("E1", press "m-1" "customer" ∅) := ⟨by simp [customerNamed], by simp [customerNamed]⟩
    have hlow := (hall _ hbest).2
    revert hlow
    simp [LowRisk, high_risk, HIGH_RISK_TYPES, press]

end Careless

end KnowledgeCompiler.Entities
