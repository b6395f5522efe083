import KnowledgeCompiler.Absorption.Alignment
import KnowledgeCompiler.Identity.StopRule
import Mathlib.Algebra.BigOperators.Ring.List

namespace KnowledgeCompiler.Absorption

open Lib Identity

inductive SignalName
  | core (signal : Signal)
  | alignment (name : AlignmentSignal)
deriving DecidableEq

def ALIGNMENT_SIGNAL_SHARES : AlignmentSignal → ℚ
  | .align_type => 20 / 100
  | .align_spatial => 20 / 100
  | .align_structural => 20 / 100
  | .align_content => 30 / 100
  | .align_context => 10 / 100

-- The seven core weights scaled down, and the five alignment weights.
def extended_weights (share : ℚ) : SignalName → ℚ
  | .core signal => IDENTITY_SIGNAL_WEIGHTS signal * (1 - share)
  | .alignment name => ALIGNMENT_SIGNAL_SHARES name * share

-- What `resolve` asks of the resolver it is called on.
structure Scorer where
  score_pair_prepared : PreparedFeatures → PreparedFeatures → PairScore
  score_upper_bound : PreparedFeatures → PreparedFeatures → ℚ

namespace Scorer

variable (scorer : Scorer) (unicode : Unicode)

def bound_keys (index : BlockingCandidateIndex) (incoming : PreparedFeatures) : List RankKey :=
  index.prepared.zipIdx.map fun entry =>
    rank_key (scorer.score_upper_bound entry.1 incoming) entry.1.fingerprint.logical_id entry.2

def examination_order (index : BlockingCandidateIndex) (incoming : LogicalUnitFingerprint) :
    PreparedFeatures × List RankKey :=
  let prepared_incoming := prepare_features unicode incoming
  let keys := scorer.bound_keys index prepared_incoming
  (prepared_incoming,
    Ranked.rank id (keys.filter fun key => key.position ∈ index.key_hits prepared_incoming) ++
      Ranked.rank id (keys.filter fun key => key.position ∉ index.key_hits prepared_incoming))

def examine (index : BlockingCandidateIndex) (prepared_incoming : PreparedFeatures)
    (entry : RankKey) : ScoredCandidate :=
  .of (scorer.score_pair_prepared (index.features entry.position) prepared_incoming)
    entry.logical_id entry.position

def examine_in_order (index : BlockingCandidateIndex) (prepared_incoming : PreparedFeatures) :
    List ScoredCandidate → List RankKey → List ScoredCandidate
  | top, [] => top
  | top, entry :: rest =>
      if LogicalIdentityResolver.past_second top entry then top
      else
        let scored := scorer.examine index prepared_incoming entry
        examine_in_order index prepared_incoming
          ((Ranked.rank ScoredCandidate.key (top ++ [scored])).take 2) rest

-- `LogicalIdentityResolver.resolve`, for a resolver with these bands.
def resolve (bands : LogicalIdentityResolver) (incoming : LogicalUnitFingerprint)
    (previous : List LogicalUnitFingerprint) (seed_logical_id : Option String)
    (given_index : Option BlockingCandidateIndex) : Except String LogicalIdentityDecision :=
  if previous = [] then
    .ok { verdict := .NEW
          logical_id := some (seed_or seed_logical_id incoming.logical_id)
          score := 0
          reason := "no prior version to continue from" }
  else
    let index := given_index.getD (.build unicode previous)
    if index.fingerprints.length ≠ previous.length then
      .error "the candidate index was built over a different corpus"
    else
      let (prepared_incoming, order) := scorer.examination_order unicode index incoming
      let top := scorer.examine_in_order index prepared_incoming [] order
      match LogicalIdentityResolver.contest_of top with
      | none => .error "list index out of range"
      | some contest =>
          .ok (bands.decide_contest unicode incoming index.fingerprint seed_logical_id contest)

-- What the base class answers.
def base (resolver : LogicalIdentityResolver) : Scorer where
  score_pair_prepared := resolver.score_pair_prepared
  score_upper_bound candidate incoming := pair_score_upper_bound candidate incoming resolver.weights

theorem examine_in_order_base (resolver : LogicalIdentityResolver) (index : BlockingCandidateIndex)
    (prepared_incoming : PreparedFeatures) (top : List ScoredCandidate) (order : List RankKey) :
    (base resolver).examine_in_order index prepared_incoming top order =
      resolver.examine_in_order index prepared_incoming top order := by
  induction order generalizing top with
  | nil => rfl
  | cons entry rest ih =>
    unfold examine_in_order LogicalIdentityResolver.examine_in_order
    simp only [ih]
    rfl

theorem resolve_base (resolver : LogicalIdentityResolver) (incoming : LogicalUnitFingerprint)
    (previous : List LogicalUnitFingerprint) (seed_logical_id : Option String)
    (given_index : Option BlockingCandidateIndex) :
    (base resolver).resolve unicode resolver incoming previous seed_logical_id given_index =
      resolver.resolve unicode incoming previous seed_logical_id given_index := by
  unfold resolve LogicalIdentityResolver.resolve
  simp only [examine_in_order_base]
  rfl

end Scorer

-- A decision whose evidence may name alignment signals as well.
structure AlignedDecision where
  decision : LogicalIdentityDecision
  aligned_signals : List (AlignmentSignal × ℚ)
  aligned_missing : List (AlignmentSignal × MissingReason)

structure AlignedScore where
  pair : PairScore
  aligned_signals : List (AlignmentSignal × ℚ)
  aligned_missing : List (AlignmentSignal × MissingReason)

structure AlignmentAwareResolver where
  before_index : ElementIndex
  after_index : ElementIndex
  context : AlignmentContext
  share : ℚ
  enabled : Finset AlignmentSignal
  share_bounds : 0 ≤ share ∧ share < 1

namespace AlignmentAwareResolver

variable (characters : Characters) (root : ℚ → ℚ) (resolver : AlignmentAwareResolver)

def weights : SignalName → ℚ := extended_weights resolver.share

-- The alignment layer has nothing to say about a unit it never saw.
def alignment_signals (candidate incoming : LogicalUnitFingerprint) : AlignmentSignal → Reading :=
  match resolver.before_index.by_logical_id.get? candidate.logical_id,
    resolver.after_index.by_logical_id.get? incoming.logical_id with
  | some before, some after => compatibility characters root before after resolver.before_index
      resolver.after_index resolver.context resolver.enabled
  | _, _ => fun _ => (none, some .NOT_APPLICABLE)

-- The override adds names and takes none away.
def _signals (candidate incoming : LogicalUnitFingerprint) : SignalName → Reading
  | .core signal => signals characters.toUnicode candidate incoming signal
  | .alignment name => resolver.alignment_signals characters root candidate incoming name

def aligned_present (candidate incoming : LogicalUnitFingerprint) : List (AlignmentSignal × ℚ) :=
  ALIGNMENT_SIGNAL_NAMES.filterMap fun name =>
    (resolver._signals characters root candidate incoming (.alignment name)).1.map (name, ·)

def aligned_missing (candidate incoming : LogicalUnitFingerprint) :
    List (AlignmentSignal × MissingReason) :=
  ALIGNMENT_SIGNAL_NAMES.filterMap fun name =>
    match (resolver._signals characters root candidate incoming (.alignment name)).1 with
    | some _ => none
    | none => some (name, (resolver._signals characters root candidate incoming
        (.alignment name)).2.getD .MODEL_UNAVAILABLE)

-- The base's `score_pair`, which asks the override.
def score_pair (candidate incoming : LogicalUnitFingerprint) : AlignedScore :=
  let core := fun signal => resolver._signals characters root candidate incoming (.core signal)
  let aligned := resolver.aligned_present characters root candidate incoming
  let available := ((present core).map fun value => resolver.weights (.core value.1)).sum +
    (aligned.map fun value => resolver.weights (.alignment value.1)).sum
  let weighted := ((present core).map fun value => value.2 * resolver.weights (.core value.1)).sum +
    (aligned.map fun value => value.2 * resolver.weights (.alignment value.1)).sum
  { pair := {
      score := if available ≤ 0 then 0 else weighted / available
      signals := present core
      missing := missing core }
    aligned_signals := aligned
    aligned_missing := resolver.aligned_missing characters root candidate incoming }

-- The base's prepared path and its bound read the seven names of the base alone.
def scorer : Scorer where
  score_pair_prepared candidate incoming :=
    pair_score_of (fun signal => resolver.weights (.core signal)) (signals_prepared candidate incoming)
  score_upper_bound candidate incoming :=
    pair_score_upper_bound candidate incoming fun signal => resolver.weights (.core signal)

def resolve (incoming : LogicalUnitFingerprint) (previous : List LogicalUnitFingerprint)
    (seed_logical_id : Option String) (given_index : Option BlockingCandidateIndex) :
    Except String AlignedDecision :=
  (resolver.scorer.resolve characters.toUnicode .default incoming previous seed_logical_id
    given_index).map fun decision => { decision, aligned_signals := [], aligned_missing := [] }

def scored_corpus (incoming : LogicalUnitFingerprint) (previous : List LogicalUnitFingerprint) :
    List ScoredCandidate :=
  previous.zipIdx.map fun entry =>
    .of (resolver.score_pair characters root entry.1 incoming).pair entry.1.logical_id entry.2

-- The reference: rank the whole corpus by the resolver's own score, and decide on the first two.
def whole_corpus_scan (incoming : LogicalUnitFingerprint) (previous : List LogicalUnitFingerprint)
    (seed_logical_id : Option String) : Option AlignedDecision :=
  (LogicalIdentityResolver.contest_of (LogicalIdentityResolver.top_two
    (resolver.scored_corpus characters root incoming previous))).map fun contest =>
      { decision := LogicalIdentityResolver.default.decide_contest characters.toUnicode incoming
          (fun position => previous[position]!) seed_logical_id contest
        aligned_signals := resolver.aligned_present characters root
          previous[contest.best.position]! incoming
        aligned_missing := resolver.aligned_missing characters root
          previous[contest.best.position]! incoming }

end AlignmentAwareResolver

section Scaling

theorem weighted_mean_scale {scale : ℚ} (hscale : 0 < scale) (weights : Signal → ℚ)
    (values : List (Signal × ℚ)) :
    weighted_mean (fun signal => weights signal * scale) values = weighted_mean weights values := by
  have hweights : (values.map fun value => weights value.1 * scale).sum =
      (values.map fun value => weights value.1).sum * scale := List.sum_map_mul_right _ _ _
  have hvalues : (values.map fun value => value.2 * (weights value.1 * scale)).sum =
      (values.map fun value => value.2 * weights value.1).sum * scale := by
    rw [← List.sum_map_mul_right]
    refine congrArg List.sum (List.map_congr_left fun value _ => ?_)
    exact (mul_assoc _ _ _).symm
  unfold weighted_mean
  dsimp only
  rw [hweights, hvalues, mul_div_mul_right _ _ hscale.ne']
  refine if_congr ?_ rfl rfl
  rw [← not_lt, ← not_lt, mul_pos_iff_of_pos_right hscale]

end Scaling

namespace AlignmentAwareResolver

variable (characters : Characters) (root : ℚ → ℚ) (resolver : AlignmentAwareResolver)

theorem scale_pos : 0 < 1 - resolver.share := sub_pos.mpr resolver.share_bounds.2

-- The scale of the core weights cancels.
theorem scorer_eq : resolver.scorer = .base .default := by
  have hmean (values : List (Signal × ℚ)) :
      weighted_mean (fun signal => resolver.weights (.core signal)) values =
        weighted_mean IDENTITY_SIGNAL_WEIGHTS values :=
    weighted_mean_scale resolver.scale_pos IDENTITY_SIGNAL_WEIGHTS values
  unfold scorer Scorer.base
  rw [Scorer.mk.injEq]
  constructor
  · funext candidate incoming
    unfold LogicalIdentityResolver.score_pair_prepared pair_score_of
    rw [hmean]
    rfl
  · funext candidate incoming
    exact hmean _

variable (incoming : LogicalUnitFingerprint) (previous : List LogicalUnitFingerprint)
  (seed : Option String)

-- Whatever the elements say, the resolver answers what the plain one answers.
theorem resolve_eq (given_index : Option BlockingCandidateIndex) :
    resolver.resolve characters incoming previous seed given_index =
      (LogicalIdentityResolver.default.resolve characters.toUnicode incoming previous seed
        given_index).map
          fun decision => { decision, aligned_signals := [], aligned_missing := [] } := by
  rw [resolve, scorer_eq, Scorer.resolve_base]

-- No alignment signal has a value for the pair.
def NoEvidence (candidate incoming : LogicalUnitFingerprint) : Prop :=
  ∀ name, (resolver.alignment_signals characters root candidate incoming name).1 = none

-- The evidence of the decisions is compared without the names of the alignment layer.
def DecidesByOwnEvidence : Prop :=
  (∃ decision own, resolver.resolve characters incoming previous seed none = .ok decision ∧
    resolver.whole_corpus_scan characters root incoming previous seed = some own ∧
    decision.decision = own.decision) ∧
  ((∀ unit ∈ previous, resolver.NoEvidence characters root unit incoming) →
    (resolver.resolve characters incoming previous seed none).map AlignedDecision.decision =
      LogicalIdentityResolver.default.resolve characters.toUnicode incoming previous seed none)

instance : Decidable
    (LogicalIdentityResolver.default.StopsAmongHits characters.toUnicode incoming previous) := by
  unfold LogicalIdentityResolver.StopsAmongHits
  infer_instance

-- The candidates whose two best by the core signals are decided on.
def core_candidates : List ScoredCandidate :=
  if LogicalIdentityResolver.default.StopsAmongHits characters.toUnicode incoming previous then
    LogicalIdentityResolver.default.scored_hits characters.toUnicode incoming previous
  else LogicalIdentityResolver.default.scored_corpus characters.toUnicode incoming previous

-- The two best by the core signals and the two best by all signals show the bands the same.
def CoreEvidenceSuffices : Prop :=
  ∀ core ∈ LogicalIdentityResolver.contest_of (LogicalIdentityResolver.top_two
      (core_candidates characters incoming previous)),
    ∀ own ∈ LogicalIdentityResolver.contest_of (LogicalIdentityResolver.top_two
        (resolver.scored_corpus characters root incoming previous)),
      LogicalIdentityResolver.default.SameVerdict core own

-- Without alignment evidence the scale of the core weights cancels here too.
theorem score_pair_of_no_evidence {candidate incoming : LogicalUnitFingerprint}
    (hnone : resolver.NoEvidence characters root candidate incoming) :
    (resolver.score_pair characters root candidate incoming).pair =
      LogicalIdentityResolver.default.score_pair characters.toUnicode candidate incoming := by
  have hempty : resolver.aligned_present characters root candidate incoming = [] := by
    refine List.filterMap_eq_nil_iff.mpr fun name _ => ?_
    rw [_signals, hnone name]
    rfl
  have hmean := weighted_mean_scale resolver.scale_pos IDENTITY_SIGNAL_WEIGHTS
    (present (signals characters.toUnicode candidate incoming))
  unfold score_pair
  simp only [hempty, List.map_nil, List.sum_nil, add_zero]
  unfold LogicalIdentityResolver.score_pair pair_score_of
  rw [PairScore.mk.injEq]
  exact ⟨hmean, rfl, rfl⟩

variable {incoming previous}

theorem scored_corpus_of_no_evidence
    (hnone : ∀ unit ∈ previous, resolver.NoEvidence characters root unit incoming) :
    resolver.scored_corpus characters root incoming previous =
      LogicalIdentityResolver.default.scored_corpus characters.toUnicode incoming previous := by
  refine List.map_congr_left fun entry hentry => ?_
  have hunit : entry.1 ∈ previous := List.fst_mem_of_mem_zipIdx hentry
  rw [resolver.score_pair_of_no_evidence characters root (hnone entry.1 hunit)]

-- Without evidence the core signals suffice wherever the walk does not end among the key hits.
theorem suffices_of_no_evidence
    (hnone : ∀ unit ∈ previous, resolver.NoEvidence characters root unit incoming)
    (hstops : ¬LogicalIdentityResolver.default.StopsAmongHits characters.toUnicode incoming previous) :
    resolver.CoreEvidenceSuffices characters root incoming previous := by
  intro core hcore own hown
  rw [core_candidates, if_neg hstops] at hcore
  rw [resolver.scored_corpus_of_no_evidence characters root hnone] at hown
  obtain rfl : core = own := Option.some.inj (hcore.symm.trans hown)
  exact ⟨rfl, rfl, rfl, fun _ => rfl, fun _ => .rfl, fun _ _ => ⟨rfl, rfl⟩⟩

theorem scored_corpus_reads {candidate : ScoredCandidate}
    (hmem : candidate ∈ resolver.scored_corpus characters root incoming previous) :
    LogicalIdentityResolver.Reads characters.toUnicode incoming previous candidate := by
  obtain ⟨⟨unit, position⟩, hentry, rfl⟩ := List.mem_map.mp hmem
  have hunit := List.mem_zipIdx_iff_getElem?.mp hentry
  simp [LogicalIdentityResolver.Reads, ScoredCandidate.of, hunit, score_pair, _signals]

theorem default_weights_nonneg (signal : Signal) :
    0 ≤ LogicalIdentityResolver.default.weights signal := by
  cases signal <;> decide +kernel

theorem default_resolve (hprevious : previous ≠ []) :
    ∃ core ∈ LogicalIdentityResolver.contest_of (LogicalIdentityResolver.top_two
        (core_candidates characters incoming previous)),
      LogicalIdentityResolver.Reads characters.toUnicode incoming previous core.best ∧
      LogicalIdentityResolver.default.resolve characters.toUnicode incoming previous seed none =
        .ok (LogicalIdentityResolver.default.decide_contest characters.toUnicode incoming
          (fun position => previous[position]!) seed core) := by
  have hwalk := LogicalIdentityResolver.default.examine_in_order_build characters.toUnicode incoming
    previous default_weights_nonneg
  have hcorpus : LogicalIdentityResolver.default.scored_corpus characters.toUnicode incoming previous ≠
      [] := by
    simpa [LogicalIdentityResolver.scored_corpus] using hprevious
  have hsubset : ∀ candidate ∈ core_candidates characters incoming previous,
      candidate ∈ LogicalIdentityResolver.default.scored_corpus characters.toUnicode incoming
        previous := by
    intro candidate hcandidate
    unfold core_candidates at hcandidate
    split at hcandidate
    · exact List.mem_of_mem_filter hcandidate
    · exact hcandidate
  have hnonempty : core_candidates characters incoming previous ≠ [] := by
    unfold core_candidates
    split
    · rename_i hstops
      obtain ⟨-, -, second, hsecond, -⟩ := hstops
      intro hempty
      simp [hempty, LogicalIdentityResolver.top_two] at hsecond
    · exact hcorpus
  obtain ⟨core, hcore⟩ := LogicalIdentityResolver.contest_of_exists hnonempty
  refine ⟨core, hcore, ?_, ?_⟩
  · exact LogicalIdentityResolver.default.scored_corpus_fingerprint characters.toUnicode
      (hsubset _ (LogicalIdentityResolver.contest_of_best hcore))
  · have hbuild := LogicalIdentityResolver.default.resolve_build characters.toUnicode incoming previous
      seed hprevious
    have htop : (if LogicalIdentityResolver.default.StopsAmongHits characters.toUnicode incoming previous
        then LogicalIdentityResolver.top_two
          (LogicalIdentityResolver.default.scored_hits characters.toUnicode incoming previous)
        else LogicalIdentityResolver.top_two
          (LogicalIdentityResolver.default.scored_corpus characters.toUnicode incoming previous)) =
        LogicalIdentityResolver.top_two (core_candidates characters incoming previous) := by
      unfold core_candidates
      split <;> rfl
    rw [hwalk, htop, hcore] at hbuild
    exact hbuild

theorem decides_iff (hprevious : previous ≠ []) :
    resolver.DecidesByOwnEvidence characters root incoming previous seed ↔
      resolver.CoreEvidenceSuffices characters root incoming previous := by
  obtain ⟨core, hcore, hreads, hresolve⟩ := default_resolve characters seed hprevious
  have hown : resolver.scored_corpus characters root incoming previous ≠ [] := by
    simpa [scored_corpus] using hprevious
  obtain ⟨own, hown⟩ := LogicalIdentityResolver.contest_of_exists hown
  have hreads' := resolver.scored_corpus_reads characters root
    (LogicalIdentityResolver.contest_of_best hown)
  have hsame := LogicalIdentityResolver.default.decide_contest_eq_iff_of characters.toUnicode incoming
    previous seed core own hreads hreads'
  have hsuffices : resolver.CoreEvidenceSuffices characters root incoming previous ↔
      LogicalIdentityResolver.default.SameVerdict core own := by
    unfold CoreEvidenceSuffices
    rw [Option.mem_def.mp hcore, hown]
    simp
  have hplain := resolver.resolve_eq characters incoming previous seed none
  rw [hresolve] at hplain
  rw [hsuffices, ← hsame]
  constructor
  · rintro ⟨⟨decision, found, hdecision, hfound, heq⟩, -⟩
    rw [hplain] at hdecision
    rw [whole_corpus_scan, hown] at hfound
    obtain rfl := Except.ok.inj hdecision
    obtain rfl := Option.some.inj hfound
    exact heq
  · intro heq
    refine ⟨⟨_, _, hplain, by rw [whole_corpus_scan, hown]; rfl, heq⟩, fun _ => ?_⟩
    rw [hplain, hresolve]
    rfl

section Samples

def empty_index : ElementIndex where
  version_id := "dv_empty"
  elements := []
  by_logical_id := .empty
  by_content_hash := .empty
  order := []

def unaligned : AlignmentAwareResolver where
  before_index := empty_index
  after_index := empty_index
  context := { pairs := .empty }
  share := 30 / 100
  enabled := ALIGNMENT_SIGNAL_NAMES.toFinset
  share_bounds := by decide +kernel

-- Two key hits never end the walk, and no unit has an element.
theorem unaligned_decides : unaligned.DecidesByOwnEvidence Characters.ascii id
    LogicalIdentityResolver.moved_unit (LogicalIdentityResolver.crowded_corpus.eraseIdx 2) none :=
  (unaligned.decides_iff Characters.ascii id none (by decide)).mpr
    (unaligned.suffices_of_no_evidence Characters.ascii id (fun _ _ _ => rfl) (by decide +kernel))

def index_of (elements : List DocumentElement) : ElementIndex :=
  match ElementIndex.of Characters.ascii "dv_sample" elements with
  | .ok index => index
  | .error _ => empty_index

def element (logical_id : String) (element_type : ElementType) (text : String) : DocumentElement where
  element_id := "el_" ++ logical_id
  version_id := "dv_sample"
  element_type
  logical_id
  text
  named := by simp [String.append_eq_empty_iff]
  boxed := rfl

def gate_unit (logical_id : String) : LogicalUnitFingerprint where
  logical_id
  document_path := ["policies"]
  anchor := "gate"
  normalized_text := "the gate is open"
  source_lineage := "src_doc"

def aligned : AlignmentAwareResolver where
  before_index := index_of [element "ku_a" .TEXT "The gate is open.", element "ku_b" .TABLE "Fees"]
  after_index := index_of [element "ku_new" .TEXT "The gate is open."]
  context := { pairs := Dict.empty.set "ku_new" "ku_a" }
  share := 30 / 100
  enabled := {.align_type, .align_content}
  share_bounds := by decide +kernel

-- The core signals tie, the elements tell the two units apart, and the tie is what is decided on.
theorem alignment_ignored : ¬aligned.DecidesByOwnEvidence Characters.ascii id (gate_unit "ku_new")
    [gate_unit "ku_a", gate_unit "ku_b"] none := by
  have hresolve : ((aligned.resolve Characters.ascii (gate_unit "ku_new")
      [gate_unit "ku_a", gate_unit "ku_b"] none none).map (·.decision.verdict)).toOption =
        some .AMBIGUOUS := by
    decide +kernel
  have hscan : (aligned.whole_corpus_scan Characters.ascii id (gate_unit "ku_new")
      [gate_unit "ku_a", gate_unit "ku_b"] none).map (·.decision.verdict) = some .MATCHED := by
    decide +kernel
  rintro ⟨⟨decision, own, hdecision, hown, heq⟩, -⟩
  rw [hdecision] at hresolve
  rw [hown] at hscan
  have hambiguous : decision.decision.verdict = .AMBIGUOUS := Option.some.inj hresolve
  have hmatched : own.decision.verdict = .MATCHED := Option.some.inj hscan
  rw [heq, hmatched] at hambiguous
  cases hambiguous

end Samples

end AlignmentAwareResolver

end KnowledgeCompiler.Absorption
