import KnowledgeCompiler.Recompilation.Distance

namespace KnowledgeCompiler.Recompilation

open Lib

inductive DiffLevel
  | BINARY
  | STRUCTURAL
  | EVIDENCE
  | SEMANTIC
  | GRAPH
deriving DecidableEq, Repr

inductive ChangeKind
  | CONTENT_UNCHANGED
  | STRUCTURE_CHANGED
  | EVIDENCE_ADDED
  | EVIDENCE_REMOVED
  | EVIDENCE_MOVED
  | UNIT_ADDED
  | UNIT_REMOVED
  | MODIFIED_CLAIM
  | ENTITY_CHANGED
  | RELATIONSHIP_ADDED
  | RELATIONSHIP_REMOVED
  | AUTHORITY_CHANGED
  | IDENTITY_UNRESOLVED
deriving DecidableEq, Repr

structure SemanticChange where
  kind : ChangeKind
  logical_id : Option String := none
  before : Option String := none
  after : Option String := none
  detail : String := ""
  candidates : List String := []
deriving DecidableEq, Repr

structure SemanticDiff where
  level : DiffLevel
  content_changed : Bool
  changes : List SemanticChange := []
  change_id : String := ""
deriving DecidableEq, Repr

namespace SemanticDiff

variable (diff : SemanticDiff)

def unresolved : List SemanticChange :=
  diff.changes.filter (fun change => change.kind = .IDENTITY_UNRESOLVED)

def changed_logical_ids : List String :=
  let settled := diff.changes.filter (fun change => change.kind ≠ .IDENTITY_UNRESOLVED)
  fromkeys (settled.filterMap (fun change => change.logical_id.filter (· ≠ "")))

def unresolved_candidates : List String := diff.unresolved.flatMap SemanticChange.candidates

end SemanticDiff

inductive ArtifactState
  | STALE
  | UNRESOLVED
  | CURRENT
deriving DecidableEq, Repr

structure RecompilationTarget where
  artifact_id : String
  state : ArtifactState
  reason : String
  depth : Nat := 0
  path : String := ""
deriving DecidableEq, Repr

structure RecompilationPlan where
  change_id : String
  targets : List RecompilationTarget
  total_artifacts : Nat
  cycles_detected : List (List String) := []
  truncated_at_depth : Bool := false
deriving DecidableEq, Repr

-- The label the plan gives an artifact of its inventory.
def RecompilationPlan.state_of (plan : RecompilationPlan) (artifact : String) :
    Option ArtifactState :=
  (plan.targets.find? (fun target => target.artifact_id = artifact)).map RecompilationTarget.state

def unchanged_target (artifact : String) : RecompilationTarget where
  artifact_id := artifact
  state := .CURRENT
  reason := "the source content did not change"

-- The nodes only an unsettled identity reaches, each with why.
def unresolved_reached (shadow : ImpactReport) (reached : Dict String ImpactPath)
    (unresolved_seeds : List String) : Dict String String :=
  let paths := shadow.affected.filter (fun path => (reached.get? path.node_id).isNone)
  let seeds := (fromkeys unresolved_seeds).filter (fun seed => (reached.get? seed).isNone)
  seeds.foldl
    (fun found seed => found.setdefault seed (seed ++ " is a candidate in an unsettled identity"))
    (.ofPairs (paths.map (fun path => (path.node_id, path.describe))))

def plan_target (reached : Dict String ImpactPath) (unresolved : Dict String String)
    (artifact : String) : RecompilationTarget :=
  match reached.get? artifact with
  | some path =>
      { artifact_id := artifact
        state := .STALE
        reason := path.describe
        depth := path.depth
        path := path.describe }
  | none =>
      match unresolved.get? artifact with
      | some why =>
          { artifact_id := artifact
            state := .UNRESOLVED
            reason := "reached only through an identity the diff could not settle: " ++ why }
      | none => { artifact_id := artifact, state := .CURRENT, reason := "no change reached it" }

section Plan

variable {Time : Type} [LinearOrder Time] (diff : SemanticDiff) (graph : DependencyGraph Time)

-- The shadow traversal runs only when some identity is unsettled.
def unresolved_of (max_depth : Option Int) (reached : Dict String ImpactPath) :
    Option (Dict String String) :=
  if diff.unresolved_candidates = [] then some .empty
  else
    (graph.impact_of (fromkeys diff.unresolved_candidates) max_depth none).map (fun shadow =>
      unresolved_reached shadow reached diff.unresolved_candidates)

def plan_recompilation (artifacts : List String) (max_depth : Option Int) :
    Option RecompilationPlan :=
  let inventory := fromkeys artifacts
  if diff.content_changed = false then
    some
      { change_id := diff.change_id
        targets := inventory.map unchanged_target
        total_artifacts := inventory.length }
  else do
    let report ← graph.impact_of diff.changed_logical_ids max_depth none
    let reached := Dict.ofPairs (report.affected.map (fun path => (path.node_id, path)))
    let unresolved ← unresolved_of diff graph max_depth reached
    some
      { change_id := diff.change_id
        targets := inventory.map (plan_target reached unresolved)
        total_artifacts := inventory.length
        cycles_detected := report.cycles_detected
        truncated_at_depth := report.truncated_at_depth }

end Plan

-- Serving the plan's CURRENT artifacts is sound: what a change makes stale is
-- STALE, and what an unsettled identity may have made stale is at least UNRESOLVED.
def PlanSound {Time : Type} [LinearOrder Time] (diff : SemanticDiff) (graph : DependencyGraph Time)
    (artifacts : List String) (plan : RecompilationPlan) : Prop :=
  (∀ artifact ∈ artifacts, Stale graph none diff.changed_logical_ids artifact →
    plan.state_of artifact = some .STALE) ∧
  (∀ artifact ∈ artifacts, Stale graph none diff.unresolved_candidates artifact →
    plan.state_of artifact = some .STALE ∨ plan.state_of artifact = some .UNRESOLVED)

theorem state_of_target (plan : RecompilationPlan) (target : String → RecompilationTarget)
    (inventory : List String) (htargets : plan.targets = inventory.map target)
    (hid : ∀ artifact, (target artifact).artifact_id = artifact) {artifact : String}
    (ha : artifact ∈ inventory) : plan.state_of artifact = some (target artifact).state := by
  rw [RecompilationPlan.state_of, htargets]
  clear htargets
  induction inventory with
  | nil => simp at ha
  | cons other rest ih =>
      rw [List.map_cons, List.find?_cons, hid]
      by_cases he : other = artifact
      · simp [he]
      · simp only [he, decide_false]
        exact ih ((List.mem_cons.mp ha).resolve_left (Ne.symm he))

theorem plan_target_id (reached : Dict String ImpactPath) (unresolved : Dict String String)
    (artifact : String) : (plan_target reached unresolved artifact).artifact_id = artifact := by
  unfold plan_target
  split
  · rfl
  · split <;> rfl

theorem plan_target_state (reached : Dict String ImpactPath) (unresolved : Dict String String)
    (artifact : String) :
    ((plan_target reached unresolved artifact).state = .STALE ↔
      ∃ path, reached.get? artifact = some path) ∧
    ((plan_target reached unresolved artifact).state = .STALE ∨
      (plan_target reached unresolved artifact).state = .UNRESOLVED ↔
      (∃ path, reached.get? artifact = some path) ∨
        ∃ why, unresolved.get? artifact = some why) := by
  unfold plan_target
  cases reached.get? artifact with
  | some path => simp
  | none =>
      cases unresolved.get? artifact with
      | some why => simp
      | none => simp

theorem exists_get?_foldl_setdefault (seeds : List String) (why : String → String)
    (found : Dict String String) (key : String) :
    (∃ value, (seeds.foldl (fun found seed => found.setdefault seed (why seed)) found).get? key =
      some value) ↔ key ∈ seeds ∨ ∃ value, found.get? key = some value := by
  induction seeds generalizing found with
  | nil => simp
  | cons seed rest ih =>
      rw [List.foldl_cons, ih, Dict.exists_get?_setdefault, List.mem_cons]
      tauto

theorem exists_get?_unresolved_reached (shadow : ImpactReport) (reached : Dict String ImpactPath)
    (seeds : List String) (key : String) :
    (∃ why, (unresolved_reached shadow reached seeds).get? key = some why) ↔
      (key ∈ seeds ∨ key ∈ shadow.affected_ids) ∧ reached.get? key = none := by
  unfold unresolved_reached
  rw [exists_get?_foldl_setdefault, Dict.exists_get?_ofPairs]
  simp only [List.mem_filter, mem_fromkeys, Option.isNone_iff_eq_none, List.map_map, List.mem_map,
    ImpactReport.affected_ids, Function.comp_apply]
  constructor
  · rintro (⟨hs, hn⟩ | ⟨path, ⟨hp, hn⟩, rfl⟩)
    · exact ⟨Or.inl hs, hn⟩
    · exact ⟨Or.inr ⟨path, hp, rfl⟩, hn⟩
  · rintro ⟨hs | ⟨path, hp, rfl⟩, hn⟩
    · exact Or.inl ⟨hs, hn⟩
    · exact Or.inr ⟨path, ⟨hp, hn⟩, rfl⟩

section Soundness

variable {Time : Type} [LinearOrder Time] (diff : SemanticDiff) (graph : DependencyGraph Time)

-- The shadow holds what the unsettled identities reach and no change does.
theorem exists_unresolved (max_depth : Option Int) (reached : Dict String ImpactPath) :
    ∃ unresolved : Dict String String,
      unresolved_of diff graph max_depth reached = some unresolved ∧
      ∀ artifact, (∃ why, unresolved.get? artifact = some why) ↔
        (artifact ∈ diff.unresolved_candidates ∨
          Within graph none diff.unresolved_candidates max_depth artifact) ∧
        reached.get? artifact = none := by
  by_cases hnil : diff.unresolved_candidates = []
  · refine ⟨.empty, by rw [unresolved_of, if_pos hnil], fun artifact => ?_⟩
    have hnever : ¬Within graph none [] max_depth artifact := by
      rintro ⟨count, hsteps, _⟩
      have hreach := Breadth.exists_steps_iff.mp ⟨count, hsteps⟩
      simp [Explore.Reachable] at hreach
    simp [hnil, hnever]
  · obtain ⟨shadow, hshadow, hspan⟩ :=
      impact_of_spanned graph none (fromkeys diff.unresolved_candidates) max_depth
    refine ⟨unresolved_reached shadow reached diff.unresolved_candidates, ?_, fun artifact => ?_⟩
    · rw [unresolved_of, if_neg hnil, hshadow, Option.map_some]
    · rw [exists_get?_unresolved_reached, hspan.mem_affected_ids, within_fromkeys, mem_fromkeys]
      refine and_congr_left fun _ => ?_
      by_cases hs : artifact ∈ diff.unresolved_candidates
      · simp [hs]
      · simp [hs]

-- What a plan under a depth limit labels, and when it says it stopped short.
theorem plan_states (artifacts : List String) (max_depth : Option Int)
    (hchanged : diff.content_changed = true) :
    ∃ plan, plan_recompilation diff graph artifacts max_depth = some plan ∧
      (plan.truncated_at_depth = true ↔ ∃ node next,
        AtLimit graph none diff.changed_logical_ids max_depth node ∧
          Propagates graph none node next) ∧
      ∀ artifact ∈ artifacts, (∃ state, plan.state_of artifact = some state) ∧
        (plan.state_of artifact = some .STALE ↔ artifact ∉ diff.changed_logical_ids ∧
          Within graph none diff.changed_logical_ids max_depth artifact) ∧
        (plan.state_of artifact = some .STALE ∨ plan.state_of artifact = some .UNRESOLVED ↔
          (artifact ∉ diff.changed_logical_ids ∧
            Within graph none diff.changed_logical_ids max_depth artifact) ∨
          artifact ∈ diff.unresolved_candidates ∨
          Within graph none diff.unresolved_candidates max_depth artifact) := by
  obtain ⟨report, hreport, hspan⟩ :=
    impact_of_spanned graph none diff.changed_logical_ids max_depth
  obtain ⟨unresolved, hunresolved, hseen⟩ := exists_unresolved diff graph max_depth
    (.ofPairs (report.affected.map (fun path => (path.node_id, path))))
  have hplan := show plan_recompilation diff graph artifacts max_depth = some _ by
    simp only [plan_recompilation, hchanged, Bool.true_eq_false, ite_false, hreport,
      hunresolved, Option.bind_eq_bind, Option.bind_some]
    rfl
  refine ⟨_, hplan, hspan.truncated, fun artifact ha => ?_⟩
  have hreached : (∃ path, (Dict.ofPairs (report.affected.map (fun path =>
      (path.node_id, path)))).get? artifact = some path) ↔
      artifact ∉ diff.changed_logical_ids ∧
        Within graph none diff.changed_logical_ids max_depth artifact := by
    rw [Dict.exists_get?_ofPairs, List.map_map, ← hspan.mem_affected_ids]
    rfl
  obtain ⟨hstale, hnot⟩ := plan_target_state
    (.ofPairs (report.affected.map (fun path => (path.node_id, path)))) unresolved artifact
  rw [state_of_target _ (plan_target _ unresolved) _ rfl (plan_target_id _ unresolved)
    (mem_fromkeys.mpr ha)]
  simp only [Option.some.injEq]
  refine ⟨⟨_, rfl⟩, hstale.trans hreached, ?_⟩
  rw [hnot, hseen, ← hreached]
  constructor
  · exact fun h => h.imp id And.left
  · intro h
    by_cases hr : ∃ path, (Dict.ofPairs (report.affected.map (fun path =>
        (path.node_id, path)))).get? artifact = some path
    · exact Or.inl hr
    · refine Or.inr ⟨h.resolve_left hr, ?_⟩
      exact Option.eq_none_iff_forall_ne_some.mpr (fun path hp => hr ⟨path, hp⟩)

-- A changed unit is a seed of the traversal, and the radius leaves its seeds out.
theorem plan_sound_iff (artifacts : List String) (hchanged : diff.content_changed = true) :
    ∃ plan, plan_recompilation diff graph artifacts none = some plan ∧
      (PlanSound diff graph artifacts plan ↔
        ∀ artifact ∈ artifacts, artifact ∉ diff.changed_logical_ids) := by
  obtain ⟨plan, hplan, _, hstates⟩ := plan_states diff graph artifacts none hchanged
  simp only [within_none_iff] at hstates
  refine ⟨plan, hplan, ?_, ?_⟩
  · intro hsound artifact ha hseed
    have hstale := hsound.1 artifact ha (Explore.Reachable.seed hseed)
    exact (((hstates artifact ha).2.1).mp hstale).1 hseed
  · intro hfree
    refine ⟨fun artifact ha hs => ?_, fun artifact ha hs => ?_⟩
    · exact ((hstates artifact ha).2.1).mpr ⟨hfree artifact ha, hs⟩
    · exact ((hstates artifact ha).2.2).mpr (Or.inr (Or.inr hs))

end Soundness

-- A claim was edited; the inventory lists the claim and a chunk made from it.
def edited_claim : SemanticDiff where
  level := .SEMANTIC
  content_changed := true
  changes := [{ kind := .MODIFIED_CLAIM, logical_id := some "ku_claim" }]

def chunk_of_claim : DependencyGraph Nat where
  edges := [chunk_from_claim]

theorem plan_sound_iff_chunk :
    ∃ plan, plan_recompilation edited_claim chunk_of_claim ["chunk_1"] none = some plan ∧
      (PlanSound edited_claim chunk_of_claim ["chunk_1"] plan ↔
        ∀ artifact ∈ ["chunk_1"], artifact ∉ edited_claim.changed_logical_ids) :=
  plan_sound_iff edited_claim chunk_of_claim ["chunk_1"] rfl

theorem plan_leaves_changed_unit_current :
    ∃ plan, plan_recompilation edited_claim chunk_of_claim ["ku_claim", "chunk_1"] none = some plan ∧
      plan.state_of "ku_claim" = some .CURRENT ∧
      ¬PlanSound edited_claim chunk_of_claim ["ku_claim", "chunk_1"] plan := by
  have hcurrent : ((plan_recompilation edited_claim chunk_of_claim ["ku_claim", "chunk_1"] none).map
      (fun plan => plan.state_of "ku_claim")) = some (some .CURRENT) := by decide
  obtain ⟨plan, hplan, hstate⟩ := Option.map_eq_some_iff.mp hcurrent
  refine ⟨plan, hplan, hstate, fun hsound => ?_⟩
  have hstale := hsound.1 "ku_claim" (by decide) (Explore.Reachable.seed (by decide))
  rw [hstate] at hstale
  cases hstale

end KnowledgeCompiler.Recompilation
