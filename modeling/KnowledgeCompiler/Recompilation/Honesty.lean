import KnowledgeCompiler.Recompilation.Plan

namespace KnowledgeCompiler.Recompilation

open Lib

section Honesty

variable {Time : Type} [LinearOrder Time] (diff : SemanticDiff) (graph : DependencyGraph Time)
  (artifacts : List String) (max_depth : Option Int)

-- A plan that calls an artifact CURRENT although a change or an unsettled identity
-- reaches it says that it stopped short.
def PlanHonest (plan : RecompilationPlan) : Prop :=
  (∃ artifact ∈ artifacts, plan.state_of artifact = some .CURRENT ∧
    (Stale graph none diff.changed_logical_ids artifact ∨
      Stale graph none diff.unresolved_candidates artifact)) →
  plan.truncated_at_depth = true

-- The two walks label the artifact under the limit.
def Labelled (artifact : String) : Prop :=
  (artifact ∉ diff.changed_logical_ids ∧
    Within graph none diff.changed_logical_ids max_depth artifact) ∨
  artifact ∈ diff.unresolved_candidates ∨
  Within graph none diff.unresolved_candidates max_depth artifact

-- The walk from the changed units is cut short, or nothing it cannot speak for goes
-- unlabelled: a changed unit itself, and what the unsettled identities reach.
def FlagSuffices : Prop :=
  if diff.content_changed = true then
    (∃ node next, AtLimit graph none diff.changed_logical_ids max_depth node ∧
      Propagates graph none node next) ∨
    ∀ artifact ∈ artifacts, artifact ∈ diff.changed_logical_ids ∨
      Stale graph none diff.unresolved_candidates artifact → Labelled diff graph max_depth artifact
  else
    ∀ artifact ∈ artifacts, ¬Stale graph none diff.changed_logical_ids artifact ∧
      ¬Stale graph none diff.unresolved_candidates artifact

theorem state_current_iff {state : Option ArtifactState} (hstate : ∃ found, state = some found) :
    state = some .CURRENT ↔ ¬(state = some .STALE ∨ state = some .UNRESOLVED) := by
  obtain ⟨found, rfl⟩ := hstate
  cases found <;> simp

theorem reached_of_not_cut {artifact : String}
    (hwhole : ¬∃ node next, AtLimit graph none diff.changed_logical_ids max_depth node ∧
      Propagates graph none node next)
    (hstale : Stale graph none diff.changed_logical_ids artifact)
    (hout : artifact ∉ diff.changed_logical_ids) :
    Within graph none diff.changed_logical_ids max_depth artifact := by
  obtain ⟨count, hsteps⟩ := Breadth.exists_steps_iff.mpr hstale
  rw [within_iff hout]
  by_contra hunseen
  obtain ⟨last, next, hlast, hp, _⟩ := exists_hidden hsteps hunseen
  exact hwhole ⟨last, next, hlast, hp⟩

theorem changed_plan_honest_iff {plan : RecompilationPlan}
    (htruncated : plan.truncated_at_depth = true ↔ ∃ node next,
      AtLimit graph none diff.changed_logical_ids max_depth node ∧ Propagates graph none node next)
    (hcurrent : ∀ artifact ∈ artifacts,
      plan.state_of artifact = some .CURRENT ↔ ¬Labelled diff graph max_depth artifact) :
    PlanHonest diff graph artifacts plan ↔
      (∃ node next, AtLimit graph none diff.changed_logical_ids max_depth node ∧
        Propagates graph none node next) ∨
      ∀ artifact ∈ artifacts, artifact ∈ diff.changed_logical_ids ∨
        Stale graph none diff.unresolved_candidates artifact →
        Labelled diff graph max_depth artifact := by
  rw [PlanHonest, htruncated]
  by_cases hcut : ∃ node next, AtLimit graph none diff.changed_logical_ids max_depth node ∧
      Propagates graph none node next
  · simp only [hcut, implies_true, true_or]
  · simp only [hcut, imp_false, false_or]
    constructor
    · intro hhonest artifact ha hreach
      by_contra hnot
      refine hhonest ⟨artifact, ha, (hcurrent artifact ha).mpr hnot, ?_⟩
      exact hreach.imp Explore.Reachable.seed id
    · rintro hlabelled ⟨artifact, ha, hstate, hreach⟩
      have hnot := (hcurrent artifact ha).mp hstate
      rcases hreach with hstale | hstale
      · by_cases hseed : artifact ∈ diff.changed_logical_ids
        · exact hnot (hlabelled artifact ha (Or.inl hseed))
        · have hwithin := reached_of_not_cut diff graph max_depth hcut hstale hseed
          exact hnot (Or.inl ⟨hseed, hwithin⟩)
      · exact hnot (hlabelled artifact ha (Or.inr hstale))

-- The plan keeps the flag of the first walk only.
theorem plan_honest_iff : ∃ plan, plan_recompilation diff graph artifacts max_depth = some plan ∧
    (PlanHonest diff graph artifacts plan ↔ FlagSuffices diff graph artifacts max_depth) := by
  unfold FlagSuffices
  by_cases hchanged : diff.content_changed = true
  · obtain ⟨plan, hplan, htruncated, hstates⟩ := plan_states diff graph artifacts max_depth hchanged
    refine ⟨plan, hplan, ?_⟩
    rw [if_pos hchanged]
    apply changed_plan_honest_iff diff graph artifacts max_depth htruncated
    intro artifact ha
    obtain ⟨hsome, _, hnot⟩ := hstates artifact ha
    rw [state_current_iff hsome, hnot, Labelled]
  · refine ⟨_, by simp only [plan_recompilation, Bool.not_eq_true _ ▸ hchanged, if_true]; rfl, ?_⟩
    rw [if_neg hchanged, PlanHonest]
    have hcurrent : ∀ artifact ∈ artifacts, RecompilationPlan.state_of
        { change_id := diff.change_id
          targets := (fromkeys artifacts).map unchanged_target
          total_artifacts := (fromkeys artifacts).length } artifact = some .CURRENT := fun artifact ha =>
      state_of_target _ unchanged_target _ rfl (fun _ => rfl) (mem_fromkeys.mpr ha)
    constructor
    · intro hhonest artifact ha
      have hnever := fun hreach => hhonest ⟨artifact, ha, hcurrent artifact ha, hreach⟩
      exact not_or.mp (fun hreach => Bool.false_ne_true (hnever hreach))
    · rintro hfree ⟨artifact, ha, _, hreach⟩
      exact absurd hreach (not_or.mpr (hfree artifact ha))

end Honesty

-- An unsettled identity; what depends on its candidate lies one step past the limit.
def unsettled_identity : SemanticDiff where
  level := .SEMANTIC
  content_changed := true
  changes := [{ kind := .IDENTITY_UNRESOLVED, candidates := ["ku_claim"] }]

def two_steps_from_claim : DependencyGraph Nat where
  edges := [chunk_from_claim, answer_on_chunk]

theorem shadow_cut_short_is_silent :
    ∃ plan, plan_recompilation unsettled_identity two_steps_from_claim ["answer_1"] (some 1) =
        some plan ∧
      plan.state_of "answer_1" = some .CURRENT ∧ plan.truncated_at_depth = false ∧
      ¬PlanHonest unsettled_identity two_steps_from_claim ["answer_1"] plan := by
  have hlabels : (plan_recompilation unsettled_identity two_steps_from_claim ["answer_1"]
      (some 1)).map (fun plan => (plan.state_of "answer_1", plan.truncated_at_depth)) =
        some (some .CURRENT, false) := by decide
  obtain ⟨plan, hplan, hlabel⟩ := Option.map_eq_some_iff.mp hlabels
  obtain ⟨hstate, hflag⟩ := Prod.mk.inj hlabel
  refine ⟨plan, hplan, hstate, hflag, fun hhonest => ?_⟩
  have hchunk : Propagates two_steps_from_claim none "ku_claim" "chunk_1" :=
    ⟨_, List.mem_cons_self, rfl, Or.inr ⟨rfl, rfl, rfl⟩⟩
  have hanswer : Propagates two_steps_from_claim none "chunk_1" "answer_1" :=
    ⟨_, List.mem_cons_of_mem _ List.mem_cons_self, rfl, Or.inr ⟨rfl, rfl, rfl⟩⟩
  have hseed : "ku_claim" ∈ unsettled_identity.unresolved_candidates := by decide
  have hreach := ((Explore.Reachable.seed hseed).next hchunk).next hanswer
  have htrue := hhonest ⟨"answer_1", List.mem_singleton_self _, hstate, Or.inr hreach⟩
  exact Bool.false_ne_true (hflag.symm.trans htrue)

end KnowledgeCompiler.Recompilation
