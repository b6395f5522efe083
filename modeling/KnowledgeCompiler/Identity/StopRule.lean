import KnowledgeCompiler.Identity.Agreement
import KnowledgeCompiler.Identity.Resolve

namespace KnowledgeCompiler.Identity

open Lib

namespace LogicalIdentityResolver

variable (resolver : LogicalIdentityResolver) (unicode : Unicode)

theorem past_second_iff (top : List ScoredCandidate) (entry : RankKey) :
    past_second top entry = true ↔ Ranked.Settled ScoredCandidate.key 2 top entry := by
  match top with
  | [] => simp [past_second, Ranked.Settled]
  | [_] => simp [past_second, Ranked.Settled]
  | [_, second] => simp [past_second, Ranked.Settled]
  | first :: second :: third :: tail =>
      have hl : (first :: second :: third :: tail).getLast? =
          some ((first :: second :: third :: tail).getLast (by simp)) :=
        List.getLast?_eq_some_getLast _
      simp [past_second, Ranked.Settled, hl]

theorem examine_in_order_eq_walk (index : BlockingCandidateIndex) (incoming : PreparedFeatures)
    (top : List ScoredCandidate) (order : List RankKey) :
    resolver.examine_in_order index incoming top order =
      Ranked.walk (resolver.examine index incoming) ScoredCandidate.key id 2 top order := by
  induction order generalizing top with
  | nil => rfl
  | cons entry rest ih =>
      simp only [examine_in_order, Ranked.walk, past_second_iff, ih, id]
      rfl

section Corpus

variable (incoming : LogicalUnitFingerprint) (previous : List LogicalUnitFingerprint)

theorem features_build {candidate : LogicalUnitFingerprint} {position : Nat}
    (hm : (candidate, position) ∈ previous.zipIdx) :
    (BlockingCandidateIndex.build unicode previous).features position =
      prepare_features unicode candidate := by
  have hg := List.mem_zipIdx_iff_getElem?.mp hm
  simp [BlockingCandidateIndex.features, BlockingCandidateIndex.build, hg]

-- Examining the bound triples of the index scores the corpus.
theorem examine_bound_keys :
    ((BlockingCandidateIndex.build unicode previous).bound_keys
        (prepare_features unicode incoming) resolver).map
      (resolver.examine (.build unicode previous) (prepare_features unicode incoming)) =
    resolver.scored_corpus unicode incoming previous := by
  simp only [BlockingCandidateIndex.bound_keys, scored_corpus, List.map_map]
  have hp : (BlockingCandidateIndex.build unicode previous).prepared.zipIdx =
      previous.zipIdx.map (fun entry => (prepare_features unicode entry.1, entry.2)) := by
    simp [BlockingCandidateIndex.build, List.zipIdx_map, Prod.map]
  rw [hp, List.map_map]
  apply List.map_congr_left
  rintro ⟨candidate, position⟩ hm
  simp only [Function.comp_apply, examine, RankKey.position, RankKey.logical_id, rank_key,
    ofLex_toLex, features_build unicode previous hm, score_pair_prepared_eq,
    prepare_features_fingerprint]

theorem scored_corpus_positions :
    ((resolver.scored_corpus unicode incoming previous).map ScoredCandidate.key).map
      RankKey.position = List.range previous.length := by
  simp only [scored_corpus, List.map_map]
  have hf : (RankKey.position ∘ ScoredCandidate.key ∘
      fun entry : LogicalUnitFingerprint × Nat =>
        ScoredCandidate.of (resolver.score_pair unicode entry.1 incoming) entry.1.logical_id entry.2)
      = Prod.snd := rfl
  rw [hf, List.zipIdx_map_snd, List.range_eq_range']

theorem scored_corpus_nodup :
    ((resolver.scored_corpus unicode incoming previous).map ScoredCandidate.key).Nodup := by
  apply List.Nodup.of_map RankKey.position
  rw [scored_corpus_positions]
  exact List.nodup_range

theorem bound_keys_admissible (hw : ∀ signal, 0 ≤ resolver.weights signal) :
    Ranked.Admissible
      (resolver.examine (.build unicode previous) (prepare_features unicode incoming))
      ScoredCandidate.key id
      ((BlockingCandidateIndex.build unicode previous).bound_keys
        (prepare_features unicode incoming) resolver) := by
  intro entry he
  obtain ⟨⟨features, position⟩, hm, rfl⟩ := List.mem_map.mp he
  have hg := List.mem_zipIdx_iff_getElem?.mp hm
  simp only [BlockingCandidateIndex.build, List.getElem?_map] at hg
  obtain ⟨candidate, hc, rfl⟩ := Option.map_eq_some_iff.mp hg
  have hf := features_build unicode previous (List.mem_zipIdx_iff_getElem?.mpr hc)
  have hle := score_le_upper_bound unicode resolver hw candidate incoming
  simp only [id, examine, ScoredCandidate.key, ScoredCandidate.of, RankKey.position,
    RankKey.logical_id, rank_key, ofLex_toLex, hf, score_pair_prepared_eq]
  rw [Prod.Lex.toLex_le_toLex]
  rcases hle.lt_or_eq with hlt | heq
  · exact Or.inl (neg_lt_neg hlt)
  · exact Or.inr ⟨by rw [heq], le_rfl⟩

-- The key hits with their full scores.
def scored_hits : List ScoredCandidate :=
  (resolver.scored_corpus unicode incoming previous).filter (fun candidate =>
    candidate.position ∈
      (BlockingCandidateIndex.build unicode previous).key_hits (prepare_features unicode incoming))

-- Some key hit's bound ranks after the second best hit, so the walk ends
-- there and no candidate outside the hits is ever scored.
def StopsAmongHits : Prop :=
  ∃ hit ∈ (BlockingCandidateIndex.build unicode previous).hot
      (prepare_features unicode incoming) resolver,
    ∃ second ∈ (top_two (resolver.scored_hits unicode incoming previous))[1]?, second.key < hit

theorem examine_hot_perm :
    (((BlockingCandidateIndex.build unicode previous).hot (prepare_features unicode incoming)
        resolver).map
      (resolver.examine (.build unicode previous) (prepare_features unicode incoming))).Perm
    (resolver.scored_hits unicode incoming previous) := by
  refine ((Ranked.rank_perm id _).map _).trans ?_
  rw [scored_hits, ← examine_bound_keys, List.filter_map]
  exact List.Perm.of_eq rfl

theorem settled_iff_second (top : List ScoredCandidate) (limit : RankKey)
    (hlen : top.length ≤ 2) :
    Ranked.Settled ScoredCandidate.key 2 top limit ↔
      ∃ second ∈ top[1]?, second.key < limit := by
  match top with
  | [] => simp [Ranked.Settled]
  | [_] => simp [Ranked.Settled]
  | [_, second] => simp [Ranked.Settled]
  | _ :: _ :: _ :: _ => simp at hlen

-- The walk ends with the two best hits when it stops among them, and with the
-- two best of the whole corpus otherwise.
theorem examine_in_order_build (hw : ∀ signal, 0 ≤ resolver.weights signal)
    [Decidable (resolver.StopsAmongHits unicode incoming previous)] :
    resolver.examine_in_order (.build unicode previous) (prepare_features unicode incoming) []
        ((BlockingCandidateIndex.build unicode previous).examination_order unicode incoming
          resolver).2 =
      if resolver.StopsAmongHits unicode incoming previous
      then top_two (resolver.scored_hits unicode incoming previous)
      else top_two (resolver.scored_corpus unicode incoming previous) := by
  let index := BlockingCandidateIndex.build unicode previous
  let prepared := prepare_features unicode incoming
  have hperm := index.examination_order_perm prepared resolver
  have hall : ((index.hot prepared resolver ++ index.cold prepared resolver).map
      (resolver.examine index prepared)).Perm
        (resolver.scored_corpus unicode incoming previous) := by
    rw [← examine_bound_keys]
    exact hperm.map _
  have hd : (((index.hot prepared resolver ++ index.cold prepared resolver).map
      (resolver.examine index prepared)).map ScoredCandidate.key).Nodup :=
    (hall.map _).nodup_iff.mpr (resolver.scored_corpus_nodup unicode incoming previous)
  have hd' : (((index.hot prepared resolver).map
      (resolver.examine index prepared)).map ScoredCandidate.key).Nodup :=
    hd.sublist (((List.sublist_append_left _ _).map _).map _)
  have hadm := resolver.bound_keys_admissible unicode incoming previous hw
  have hhot := Ranked.walk_append (resolver.examine index prepared) ScoredCandidate.key id 2 []
    (index.hot prepared resolver) (index.cold prepared resolver) (Ranked.rank_pairwise id _)
    (fun entry he => hadm entry (hperm.mem_iff.mp (List.mem_append_left _ he))) (by simpa using hd')
  have hcold := Ranked.walk_sorted (resolver.examine index prepared) ScoredCandidate.key id 2
    (index.hot prepared resolver) (index.cold prepared resolver) (Ranked.rank_pairwise id _)
    (fun entry he => hadm entry (hperm.mem_iff.mp (List.mem_append_right _ he))) hd
  simp only [List.nil_append, List.map_nil, Ranked.leading_nil] at hhot
  rw [hcold, Ranked.leading_eq_of_perm ScoredCandidate.key
      (resolver.examine_hot_perm unicode incoming previous) hd' 2,
    Ranked.leading_eq_of_perm ScoredCandidate.key hall hd 2] at hhot
  have hlen : (top_two (resolver.scored_hits unicode incoming previous)).length ≤ 2 := by
    rw [top_two, Ranked.leading_length]
    exact min_le_left _ _
  have hstop : (∃ next ∈ index.hot prepared resolver,
      Ranked.Settled ScoredCandidate.key 2
        (top_two (resolver.scored_hits unicode incoming previous)) (id next)) ↔
      resolver.StopsAmongHits unicode incoming previous := by
    simp only [settled_iff_second _ _ hlen, StopsAmongHits]
    rfl
  rw [examine_in_order_eq_walk]
  refine hhot.trans ?_
  simp only [← hstop]
  rfl

end Corpus

-- The rival is too close for the tie guard.
def Contested (contest : Contest) : Prop :=
  ∃ rival, contest.runner_up_id = some rival ∧
    contest.best.score - contest.runner_up < resolver.tie_band

-- The pair gets past the missing signals and the floor, so that names and rivals count.
def Eligible (best : ScoredCandidate) : Prop :=
  absent_critical best.missing = [] ∧ resolver.new_threshold ≤ best.score

-- Everything the bands read of one top two agrees with the other: the same
-- evidence, the same name where the verdict has one, the same close rival.
structure SameVerdict (first second : Contest) : Prop where
  score : first.best.score = second.best.score
  signals : first.best.signals = second.best.signals
  missing : first.best.missing = second.best.missing
  name : absent_critical first.best.missing ≠ [] ∨ resolver.new_threshold ≤ first.best.score →
    first.best.logical_id = second.best.logical_id
  contested : resolver.Eligible first.best →
    (resolver.Contested first ↔ resolver.Contested second)
  rival : resolver.Eligible first.best → resolver.Contested first →
    first.runner_up_id = second.runner_up_id ∧
      Text.fixed2 first.runner_up = Text.fixed2 second.runner_up

section Bands

variable (incoming : LogicalUnitFingerprint) (fingerprint : Nat → LogicalUnitFingerprint)
  (seed : Option String) (contest : Contest)

theorem decide_contest_of_contested (he : resolver.Eligible contest.best) (rival : String)
    (hr : contest.runner_up_id = some rival)
    (ht : contest.best.score - contest.runner_up < resolver.tie_band) :
    resolver.decide_contest unicode incoming fingerprint seed contest =
      { verdict := .AMBIGUOUS
        logical_id := none
        score := contest.best.score
        signals := contest.best.signals
        missing := contest.best.missing
        reason := "two candidates scored within " ++ Text.fixed2 resolver.tie_band ++ " (" ++
          Text.fixed2 contest.best.score ++ " and " ++ Text.fixed2 contest.runner_up ++
          "); merging would pick one history arbitrarily"
        candidates := [(fingerprint contest.best.position).logical_id, rival] } := by
  unfold decide_contest decide_pair
  simp [he.1, not_lt.mpr he.2, hr, ht]

theorem decide_contest_of_uncontested (he : resolver.Eligible contest.best)
    (hc : ¬resolver.Contested contest) :
    resolver.decide_contest unicode incoming fingerprint seed contest =
      decide_pair.banded resolver unicode incoming (fingerprint contest.best.position)
        ⟨contest.best.score, contest.best.signals, contest.best.missing⟩ := by
  unfold decide_contest decide_pair
  simp only [he.1, not_lt.mpr he.2, ne_eq, not_true, ite_false]
  cases hr : contest.runner_up_id with
  | none => rfl
  | some rival =>
      have ht : ¬contest.best.score - contest.runner_up < resolver.tie_band :=
        fun ht => hc ⟨rival, hr, ht⟩
      simp [ht]

-- Every band passes the evidence of the best candidate through.
theorem decide_contest_evidence :
    (resolver.decide_contest unicode incoming fingerprint seed contest).score =
        contest.best.score ∧
      (resolver.decide_contest unicode incoming fingerprint seed contest).signals =
        contest.best.signals ∧
      (resolver.decide_contest unicode incoming fingerprint seed contest).missing =
        contest.best.missing := by
  by_cases he : resolver.Eligible contest.best
  · by_cases hc : resolver.Contested contest
    · obtain ⟨rival, hr, ht⟩ := hc
      rw [decide_contest_of_contested resolver unicode incoming fingerprint seed contest he rival hr ht]
      exact ⟨rfl, rfl, rfl⟩
    · rw [decide_contest_of_uncontested resolver unicode incoming fingerprint seed contest he hc]
      unfold decide_pair.banded
      split_ifs <;> exact ⟨rfl, rfl, rfl⟩
  · unfold decide_contest decide_pair
    by_cases hm : absent_critical contest.best.missing = []
    · have hn : contest.best.score < resolver.new_threshold := not_le.mp (fun hn => he ⟨hm, hn⟩)
      simp [hm, hn]
    · simp [hm]

-- The verdict names the best candidate first unless the pair falls below the floor.
theorem decide_contest_head
    (h : absent_critical contest.best.missing ≠ [] ∨ resolver.new_threshold ≤ contest.best.score) :
    (resolver.decide_contest unicode incoming fingerprint seed contest).candidates.head? =
      some (fingerprint contest.best.position).logical_id := by
  by_cases hm : absent_critical contest.best.missing = []
  · have he : resolver.Eligible contest.best := ⟨hm, h.resolve_left (fun hn => hn hm)⟩
    by_cases hc : resolver.Contested contest
    · obtain ⟨rival, hr, ht⟩ := hc
      rw [decide_contest_of_contested resolver unicode incoming fingerprint seed contest he rival hr ht]
      rfl
    · rw [decide_contest_of_uncontested resolver unicode incoming fingerprint seed contest he hc]
      unfold decide_pair.banded
      split_ifs <;> rfl
  · unfold decide_contest decide_pair
    simp [hm]

theorem decide_contest_two_candidates (he : resolver.Eligible contest.best) :
    (resolver.decide_contest unicode incoming fingerprint seed contest).candidates.length = 2 ↔
      resolver.Contested contest := by
  by_cases hc : resolver.Contested contest
  · obtain ⟨rival, hr, ht⟩ := id hc
    rw [decide_contest_of_contested resolver unicode incoming fingerprint seed contest he rival hr ht]
    simpa using hc
  · rw [decide_contest_of_uncontested resolver unicode incoming fingerprint seed contest he hc]
    unfold decide_pair.banded
    split_ifs <;> simpa using hc

end Bands

theorem present_value_eq {first second : Signal → Reading} (h : present first = present second)
    (signal : Signal) : (first signal).1 = (second signal).1 := by
  have hmem (raw : Signal → Reading) (value : ℚ) :
      (signal, value) ∈ present raw ↔ (raw signal).1 = some value := by
    have hall : signal ∈ Signal.all := by cases signal <;> decide
    simp only [present, List.mem_filterMap, Option.map_eq_some_iff, Prod.mk.injEq]
    constructor
    · rintro ⟨other, _, v, hv, rfl, rfl⟩; exact hv
    · intro hv; exact ⟨signal, hall, value, hv, rfl, rfl⟩
  apply Option.ext
  intro value
  rw [← hmem first, ← hmem second, h]

theorem scored_corpus_fingerprint {incoming : LogicalUnitFingerprint}
    {previous : List LogicalUnitFingerprint} {candidate : ScoredCandidate}
    (hm : candidate ∈ resolver.scored_corpus unicode incoming previous) :
    previous[candidate.position]!.logical_id = candidate.logical_id ∧
      candidate.signals =
        present (signals unicode previous[candidate.position]! incoming) := by
  obtain ⟨⟨unit, position⟩, hu, rfl⟩ := List.mem_map.mp hm
  have hg := List.mem_zipIdx_iff_getElem?.mp hu
  simp [ScoredCandidate.of, hg, score_pair, pair_score_of]

-- The candidate has the name and the signals of its unit, however it was scored.
def Reads (incoming : LogicalUnitFingerprint) (previous : List LogicalUnitFingerprint)
    (candidate : ScoredCandidate) : Prop :=
  previous[candidate.position]!.logical_id = candidate.logical_id ∧
    candidate.signals = present (signals unicode previous[candidate.position]! incoming)

-- Two contests get one decision exactly when nothing the bands read differs.
theorem decide_contest_eq_iff_of (incoming : LogicalUnitFingerprint)
    (previous : List LogicalUnitFingerprint) (seed : Option String) (first second : Contest)
    (hf : Reads unicode incoming previous first.best)
    (hs : Reads unicode incoming previous second.best) :
    resolver.decide_contest unicode incoming (fun p => previous[p]!) seed first =
        resolver.decide_contest unicode incoming (fun p => previous[p]!) seed second ↔
      resolver.SameVerdict first second := by
  obtain ⟨hfid, hfsig⟩ := hf
  obtain ⟨hsid, hssig⟩ := hs
  constructor
  · intro h
    obtain ⟨hs1, hs2, hs3⟩ := resolver.decide_contest_evidence unicode incoming
      (fun p => previous[p]!) seed first
    obtain ⟨hscore, hsignals, hmissing⟩ := resolver.decide_contest_evidence unicode incoming
      (fun p => previous[p]!) seed second
    rw [← h, hs1] at hscore
    rw [← h, hs2] at hsignals
    rw [← h, hs3] at hmissing
    have helig (he : resolver.Eligible first.best) : resolver.Eligible second.best :=
      ⟨hmissing ▸ he.1, hscore ▸ he.2⟩
    have hcont (he : resolver.Eligible first.best) :
        resolver.Contested first ↔ resolver.Contested second := by
      rw [← resolver.decide_contest_two_candidates unicode incoming _ seed first he,
        ← resolver.decide_contest_two_candidates unicode incoming _ seed second (helig he), h]
    refine ⟨hscore, hsignals, hmissing, fun hn => ?_, hcont, fun he hc => ?_⟩
    · have h1 := resolver.decide_contest_head unicode incoming (fun p => previous[p]!) seed first hn
      have h2 := resolver.decide_contest_head unicode incoming (fun p => previous[p]!) seed second
        (by rw [← hmissing, ← hscore]; exact hn)
      rw [h, h2] at h1
      rw [← hfid, ← hsid]
      exact (Option.some.inj h1).symm
    · obtain ⟨rival, hr, ht⟩ := hc
      obtain ⟨rival', hr', ht'⟩ := (hcont he).mp ⟨rival, hr, ht⟩
      rw [resolver.decide_contest_of_contested unicode incoming _ seed first he rival hr ht,
        resolver.decide_contest_of_contested unicode incoming _ seed second (helig he) rival' hr' ht',
        LogicalIdentityDecision.mk.injEq] at h
      obtain ⟨_, _, _, _, hreason, hcand, _⟩ := h
      have hrival : rival = rival' := by simpa using (List.cons.inj hcand).2
      refine ⟨by rw [hr, hr', hrival], ?_⟩
      simpa [hscore] using hreason
  · intro h
    have hsame : first.best.score = second.best.score ∧ first.best.signals = second.best.signals ∧
        first.best.missing = second.best.missing := ⟨h.score, h.signals, h.missing⟩
    by_cases hm : absent_critical first.best.missing = []
    · by_cases hn : resolver.new_threshold ≤ first.best.score
      · have he : resolver.Eligible first.best := ⟨hm, hn⟩
        have he' : resolver.Eligible second.best := ⟨h.missing ▸ hm, h.score ▸ hn⟩
        have hid := h.name (Or.inr hn)
        by_cases hc : resolver.Contested first
        · obtain ⟨hr1, hr2⟩ := h.rival he hc
          obtain ⟨rival, hr, ht⟩ := id hc
          obtain ⟨rival', hr', ht'⟩ := (h.contested he).mp hc
          have hrival : rival = rival' := by rw [hr, hr'] at hr1; exact Option.some.inj hr1
          rw [resolver.decide_contest_of_contested unicode incoming _ seed first he rival hr ht,
            resolver.decide_contest_of_contested unicode incoming _ seed second he' rival' hr' ht']
          simp only [hsame.1, hsame.2.1, hsame.2.2, hr2, hrival, hfid.trans (hid.trans hsid.symm)]
        · have hc' : ¬resolver.Contested second := fun hc' => hc ((h.contested he).mpr hc')
          have hpath : path_agreement unicode previous[first.best.position]!.document_path
                incoming.document_path =
              path_agreement unicode previous[second.best.position]!.document_path
                incoming.document_path := by
            have hv := present_value_eq (hfsig ▸ hssig ▸ h.signals) .structural_path
            simpa [signals] using hv
          rw [resolver.decide_contest_of_uncontested unicode incoming _ seed first he hc,
            resolver.decide_contest_of_uncontested unicode incoming _ seed second he' hc']
          unfold decide_pair.banded
          simp only [hsame.1, hsame.2.1, hsame.2.2, hfid, hsid, hid, hpath]
      · unfold decide_contest decide_pair
        have hn' : second.best.score < resolver.new_threshold := h.score ▸ not_le.mp hn
        have hm' : absent_critical second.best.missing = [] := h.missing ▸ hm
        simp [hm', hn', hsame]
    · have hid := h.name (Or.inl hm)
      have hm' : absent_critical second.best.missing ≠ [] := h.missing ▸ hm
      unfold decide_contest decide_pair
      simp only [hsame.1, hsame.2.1, hsame.2.2, hm', ne_eq, not_false_eq_true, ite_true,
        hfid.trans (hid.trans hsid.symm)]

-- In particular two top twos of one corpus.
theorem decide_contest_eq_iff (incoming : LogicalUnitFingerprint)
    (previous : List LogicalUnitFingerprint) (seed : Option String) (first second : Contest)
    (hf : first.best ∈ resolver.scored_corpus unicode incoming previous)
    (hs : second.best ∈ resolver.scored_corpus unicode incoming previous) :
    resolver.decide_contest unicode incoming (fun p => previous[p]!) seed first =
        resolver.decide_contest unicode incoming (fun p => previous[p]!) seed second ↔
      resolver.SameVerdict first second :=
  resolver.decide_contest_eq_iff_of unicode incoming previous seed first second
    (resolver.scored_corpus_fingerprint unicode hf) (resolver.scored_corpus_fingerprint unicode hs)

section Agreement

variable (incoming : LogicalUnitFingerprint) (previous : List LogicalUnitFingerprint)
  (seed : Option String)

def AgreesWithScan : Prop :=
  ∃ decision,
    resolver.resolve unicode incoming previous seed (some (.build unicode previous)) =
      .ok decision ∧
    resolver.whole_corpus_scan unicode incoming previous seed = some decision

-- When the walk ends among the key hits, their top two must already carry
-- everything that the top two of the whole corpus shows to the bands.
def HitsSuffice : Prop :=
  resolver.StopsAmongHits unicode incoming previous →
    ∀ hits ∈ contest_of (top_two (resolver.scored_hits unicode incoming previous)),
      ∀ corpus ∈ contest_of (top_two (resolver.scored_corpus unicode incoming previous)),
        resolver.SameVerdict hits corpus

theorem contest_of_best {candidates : List ScoredCandidate} {contest : Contest}
    (h : contest_of (top_two candidates) = some contest) : contest.best ∈ candidates := by
  apply Ranked.leading_subset ScoredCandidate.key 2
  unfold top_two at h
  match hl : Ranked.leading ScoredCandidate.key 2 candidates, h with
  | [best], h => cases h; simp
  | best :: second :: _, h => cases h; simp

theorem contest_of_exists {candidates : List ScoredCandidate} (hne : candidates ≠ []) :
    ∃ contest, contest_of (top_two candidates) = some contest := by
  have hlen : 0 < (top_two candidates).length := by
    rw [top_two, Ranked.leading_length]
    have := List.length_pos_iff.mpr hne
    omega
  match hl : top_two candidates with
  | [] => simp [hl] at hlen
  | [best] => exact ⟨_, rfl⟩
  | best :: second :: _ => exact ⟨_, rfl⟩

theorem resolve_build (hp : previous ≠ []) :
    resolver.resolve unicode incoming previous seed (some (.build unicode previous)) =
      match contest_of (resolver.examine_in_order (.build unicode previous)
        (prepare_features unicode incoming) []
        ((BlockingCandidateIndex.build unicode previous).examination_order unicode incoming
          resolver).2) with
      | none => .error "list index out of range"
      | some contest =>
          .ok (resolver.decide_contest unicode incoming (fun p => previous[p]!) seed contest) := by
  simp only [resolve, hp, ite_false, Option.getD_some, BlockingCandidateIndex.build, ne_eq,
    not_true]
  rfl

-- Blocking reaches the decision of the whole-corpus scan exactly when either no
-- key hit cuts the walk short or nothing outside the hits changes the verdict.
theorem agrees_iff_of_named (hw : ∀ signal, 0 ≤ resolver.weights signal) (hp : previous ≠ []) :
    resolver.AgreesWithScan unicode incoming previous seed ↔
      resolver.HitsSuffice unicode incoming previous := by
  classical
  have hwalk := resolver.examine_in_order_build unicode incoming previous hw
  have hne : resolver.scored_corpus unicode incoming previous ≠ [] := by
    simpa [scored_corpus] using hp
  obtain ⟨corpus, hcorpus⟩ := contest_of_exists hne
  have hscan : resolver.whole_corpus_scan unicode incoming previous seed =
      some (resolver.decide_contest unicode incoming (fun p => previous[p]!) seed corpus) := by
    simp only [whole_corpus_scan, hcorpus, Option.map_some]
  unfold AgreesWithScan HitsSuffice
  rw [resolve_build resolver unicode incoming previous seed hp, hwalk, hscan]
  by_cases hstop : resolver.StopsAmongHits unicode incoming previous
  · obtain ⟨hit, _, second, hsecond, _⟩ := id hstop
    have hhits : resolver.scored_hits unicode incoming previous ≠ [] := by
      intro he
      simp [he, top_two] at hsecond
    obtain ⟨hits, hhits⟩ := contest_of_exists hhits
    have hf : hits.best ∈ resolver.scored_corpus unicode incoming previous :=
      List.mem_of_mem_filter (contest_of_best hhits)
    have hs := contest_of_best hcorpus
    simp only [hstop, ite_true, hhits, hcorpus, Option.mem_some_iff, forall_eq', forall_const,
      Except.ok.injEq, Option.some.injEq, exists_eq_left']
    rw [eq_comm]
    exact resolver.decide_contest_eq_iff unicode incoming previous seed hits corpus hf hs
  · simp [hstop, hcorpus]

end Agreement

def moved_unit : LogicalUnitFingerprint where
  logical_id := "ku_incoming"
  document_path := ["policies", "launch", "gates", "readiness", "owner"]
  anchor := "gate"
  normalized_text := "the readiness gate is open"
  source_lineage := "src_doc"

def crowded_corpus : List LogicalUnitFingerprint :=
  [{ moved_unit with logical_id := "ku_a", document_path := ["notes"] },
    { moved_unit with logical_id := "ku_b", document_path := ["notes"] },
    { moved_unit with
      logical_id := "ku_c", document_path := ["notes"], normalized_text := "gate" },
    { moved_unit with
      logical_id := "ku_true", anchor := "", document_path := ["policies", "launch", "gates", "readiness"] }]

end LogicalIdentityResolver

-- The resolver as the constructor takes it: any dictionary of weights whose values sum to one.
structure TableResolver where
  merge_threshold : ℚ
  new_threshold : ℚ
  tie_band : ℚ
  weights : WeightTable
  thresholds_ordered : 0 < new_threshold ∧ new_threshold < merge_threshold ∧ merge_threshold ≤ 1
  weights_sum : |weights.values.sum - 1| ≤ 1 / 1000000000

namespace TableResolver

open LogicalIdentityResolver

section Tables

variable (resolver : TableResolver) (unicode : Unicode)

-- The weights by signal. Reading one that the dictionary has not raises before it counts.
def reading : LogicalIdentityResolver where
  merge_threshold := resolver.merge_threshold
  new_threshold := resolver.new_threshold
  tie_band := resolver.tie_band
  weights := fun signal => (resolver.weights.get? signal.name).getD 0
  thresholds_ordered := resolver.thresholds_ordered

def examine (index : BlockingCandidateIndex) (prepared_incoming : PreparedFeatures)
    (entry : RankKey) : Except String ScoredCandidate := do
  let pair ← resolver.weights.score_pair_prepared (index.features entry.position) prepared_incoming
  return .of pair entry.logical_id entry.position

def examine_in_order (index : BlockingCandidateIndex) (prepared_incoming : PreparedFeatures) :
    List ScoredCandidate → List RankKey → Except String (List ScoredCandidate)
  | top, [] => .ok top
  | top, entry :: rest =>
      if past_second top entry then .ok top
      else do
        let scored ← resolver.examine index prepared_incoming entry
        examine_in_order index prepared_incoming
          ((Ranked.rank ScoredCandidate.key (top ++ [scored])).take 2) rest

variable (incoming : LogicalUnitFingerprint) (previous : List LogicalUnitFingerprint)
  (seed_logical_id : Option String)

def resolve (given_index : Option BlockingCandidateIndex) : Except String LogicalIdentityDecision :=
  if previous = [] then
    .ok { verdict := .NEW
          logical_id := some (seed_or seed_logical_id incoming.logical_id)
          score := 0
          reason := "no prior version to continue from" }
  else
    let index := given_index.getD (.build unicode previous)
    if index.fingerprints.length ≠ previous.length then
      .error "the candidate index was built over a different corpus"
    else do
      -- `examination_order` reads the seven weights before it bounds a candidate.
      let _ ← resolver.weights.bound_weights
      let (prepared_incoming, order) := index.examination_order unicode incoming resolver.reading
      let top ← resolver.examine_in_order index prepared_incoming [] order
      match contest_of top with
      | none => .error "list index out of range"
      | some contest =>
          .ok (resolver.reading.decide_contest unicode incoming index.fingerprint seed_logical_id contest)

def scored (entry : LogicalUnitFingerprint × Nat) : Except String ScoredCandidate := do
  let pair ← resolver.weights.score_pair unicode entry.1 incoming
  return .of pair entry.1.logical_id entry.2

-- The reference: it reads the weights of the signals that have values, and no others.
def whole_corpus_scan : Except String LogicalIdentityDecision := do
  let candidates ← previous.zipIdx.mapM (resolver.scored unicode incoming)
  match contest_of (top_two candidates) with
  | none => .error "list index out of range"
  | some contest =>
      .ok (resolver.reading.decide_contest unicode incoming (fun position => previous[position]!)
        seed_logical_id contest)

def AgreesWithScan : Prop :=
  ∃ decision,
    resolver.resolve unicode incoming previous seed_logical_id (some (.build unicode previous)) =
      .ok decision ∧
    resolver.whole_corpus_scan unicode incoming previous seed_logical_id = .ok decision

def NamesAll : Prop := ∀ signal : Signal, (resolver.weights.get? signal.name).isSome = true

end Tables

section Named

variable {resolver : TableResolver} (hnames : resolver.NamesAll)

theorem namesAll_of_bound {found : Signal → ℚ} (hfound : resolver.weights.bound_weights = .ok found) :
    resolver.NamesAll := by
  intro signal
  have hweight := WeightTable.bound_weights_eq_ok hfound signal
  unfold WeightTable.weight at hweight
  split at hweight
  · rename_i value hvalue
    rw [hvalue]
    rfl
  · cases hweight

include hnames

theorem weight_of_named (signal : Signal) :
    resolver.weights.weight signal = .ok (resolver.reading.weights signal) := by
  obtain ⟨value, hvalue⟩ := Option.isSome_iff_exists.mp (hnames signal)
  unfold WeightTable.weight
  rw [hvalue]
  simp [reading, hvalue]

theorem bound_of_named : ∃ found, resolver.weights.bound_weights = .ok found := by
  unfold WeightTable.bound_weights
  simp only [weight_of_named hnames]
  exact ⟨_, rfl⟩

theorem examine_of_named (index : BlockingCandidateIndex) (prepared : PreparedFeatures)
    (entry : RankKey) :
    resolver.examine index prepared entry = .ok (resolver.reading.examine index prepared entry) := by
  unfold examine WeightTable.score_pair_prepared
  rw [WeightTable.mean_score_eq (weight_of_named hnames)]
  rfl

theorem examine_in_order_of_named (index : BlockingCandidateIndex) (prepared : PreparedFeatures)
    (top : List ScoredCandidate) (order : List RankKey) :
    resolver.examine_in_order index prepared top order =
      .ok (resolver.reading.examine_in_order index prepared top order) := by
  induction order generalizing top with
  | nil => rfl
  | cons entry rest ih =>
      unfold examine_in_order LogicalIdentityResolver.examine_in_order
      split
      · rfl
      · rw [examine_of_named hnames]
        exact ih _

theorem resolve_of_named (unicode : Unicode) (incoming : LogicalUnitFingerprint)
    (previous : List LogicalUnitFingerprint) (seed : Option String)
    (given : Option BlockingCandidateIndex) :
    resolver.resolve unicode incoming previous seed given =
      resolver.reading.resolve unicode incoming previous seed given := by
  obtain ⟨found, hfound⟩ := bound_of_named hnames
  unfold resolve LogicalIdentityResolver.resolve
  dsimp only
  rw [hfound]
  split
  · rfl
  · split
    · rfl
    · simp only [examine_in_order_of_named hnames]
      rfl

theorem scan_of_named (unicode : Unicode) (incoming : LogicalUnitFingerprint)
    (previous : List LogicalUnitFingerprint) (seed : Option String)
    (decision : LogicalIdentityDecision) :
    resolver.whole_corpus_scan unicode incoming previous seed = .ok decision ↔
      resolver.reading.whole_corpus_scan unicode incoming previous seed = some decision := by
  have hscored : resolver.scored unicode incoming = fun entry =>
      .ok (.of (resolver.reading.score_pair unicode entry.1 incoming) entry.1.logical_id entry.2) := by
    funext entry
    unfold scored WeightTable.score_pair
    rw [WeightTable.mean_score_eq (weight_of_named hnames)]
    rfl
  have hcorpus : previous.zipIdx.mapM (resolver.scored unicode incoming) =
      .ok (resolver.reading.scored_corpus unicode incoming previous) := by
    rw [hscored]
    exact List.mapM_pure
  unfold whole_corpus_scan LogicalIdentityResolver.whole_corpus_scan
  rw [hcorpus]
  change (match contest_of (top_two (resolver.reading.scored_corpus unicode incoming previous)) with
    | none => _
    | some _ => _) = _ ↔ _
  cases contest_of (top_two (resolver.reading.scored_corpus unicode incoming previous)) with
  | none => simp
  | some contest => simp

end Named

-- A resolver whose dictionary lacks one of the seven names raises on every corpus, also where the
-- scan never asks for that name.
theorem resolve_agrees_iff (resolver : TableResolver) (unicode : Unicode)
    (incoming : LogicalUnitFingerprint) (previous : List LogicalUnitFingerprint) (seed : Option String)
    (hweights : ∀ value ∈ resolver.weights.values, 0 ≤ value) (hprevious : previous ≠ []) :
    resolver.AgreesWithScan unicode incoming previous seed ↔
      resolver.NamesAll ∧ resolver.reading.HitsSuffice unicode incoming previous := by
  have hnamed (hnames : resolver.NamesAll) : resolver.AgreesWithScan unicode incoming previous seed ↔
      resolver.reading.HitsSuffice unicode incoming previous := by
    have hnonneg (signal : Signal) : 0 ≤ resolver.reading.weights signal :=
      WeightTable.weight_nonneg hweights (weight_of_named hnames signal)
    rw [← agrees_iff_of_named resolver.reading unicode incoming previous seed hnonneg hprevious]
    simp only [AgreesWithScan, LogicalIdentityResolver.AgreesWithScan, resolve_of_named hnames,
      scan_of_named hnames]
  constructor
  · intro hagrees
    have hnames : resolver.NamesAll := by
      obtain ⟨decision, hresolve, -⟩ := hagrees
      unfold resolve at hresolve
      rw [if_neg hprevious] at hresolve
      dsimp only at hresolve
      split at hresolve
      · cases hresolve
      · obtain ⟨found, hfound, -⟩ := Method.except_bind_eq_ok_iff.mp hresolve
        exact namesAll_of_bound hfound
    exact ⟨hnames, (hnamed hnames).mp hagrees⟩
  · rintro ⟨hnames, hsuffice⟩
    exact (hnamed hnames).mpr hsuffice

theorem default_weights_sum : |WeightTable.default_weights.values.sum - 1| ≤ 1 / 1000000000 := by
  decide +kernel

def default : TableResolver where
  merge_threshold := MERGE_THRESHOLD
  new_threshold := NEW_IDENTITY_THRESHOLD
  tie_band := TIE_BAND
  weights := WeightTable.default_weights
  thresholds_ordered := LogicalIdentityResolver.default.thresholds_ordered
  weights_sum := default_weights_sum

theorem default_weights_nonneg : ∀ value ∈ default.weights.values, 0 ≤ value := by decide +kernel

def moved_unit : LogicalUnitFingerprint where
  logical_id := "ku_incoming"
  document_path := ["policies", "launch", "gates", "readiness", "owner"]
  anchor := "gate"
  normalized_text := "the readiness gate is open"
  source_lineage := "src_doc"

def crowded_corpus : List LogicalUnitFingerprint :=
  [{ moved_unit with logical_id := "ku_a", document_path := ["notes"] },
    { moved_unit with logical_id := "ku_b", document_path := ["notes"] },
    { moved_unit with
      logical_id := "ku_c", document_path := ["notes"], normalized_text := "gate" },
    { moved_unit with
      logical_id := "ku_true", anchor := "", document_path := ["policies", "launch", "gates", "readiness"] }]

-- Three units under the anchor of the incoming one hide its continuation.
theorem resolve_misses_continuation :
    crowded_corpus ≠ [] ∧ (∀ value ∈ default.weights.values, 0 ≤ value) ∧
      (default.resolve .ascii moved_unit crowded_corpus none
        (some (.build .ascii crowded_corpus))).toOption.map (·.verdict) = some .NEW ∧
      (default.whole_corpus_scan .ascii moved_unit crowded_corpus none).toOption.map
        (fun decision => (decision.verdict, decision.logical_id)) = some (.MATCHED, some "ku_true") ∧
      ¬default.AgreesWithScan .ascii moved_unit crowded_corpus none := by
  have hboth : (default.resolve .ascii moved_unit crowded_corpus none
      (some (.build .ascii crowded_corpus))).toOption.map (·.verdict) = some .NEW ∧
      (default.whole_corpus_scan .ascii moved_unit crowded_corpus none).toOption.map
        (fun decision => (decision.verdict, decision.logical_id)) =
          some (.MATCHED, some "ku_true") := by
    decide +kernel
  refine ⟨by simp [crowded_corpus], default_weights_nonneg, hboth.1, hboth.2, ?_⟩
  rintro ⟨decision, hresolve, hscan⟩
  rw [hresolve, hscan] at hboth
  simp only [Except.toOption, Option.map_some, Option.some.injEq, Prod.mk.injEq] at hboth
  exact absurd (hboth.1.symm.trans hboth.2.1) (by decide)

-- Two hits alone never stop the walk, and the continuation is found.
theorem resolve_agrees_two_hits :
    default.AgreesWithScan .ascii moved_unit (crowded_corpus.eraseIdx 2) none :=
  (resolve_agrees_iff default .ascii moved_unit (crowded_corpus.eraseIdx 2) none
    default_weights_nonneg (by simp [crowded_corpus])).mpr
    ⟨fun signal => by cases signal <;> rfl,
      fun hstop => absurd hstop (by unfold StopsAmongHits; decide +kernel)⟩

end TableResolver

end KnowledgeCompiler.Identity
