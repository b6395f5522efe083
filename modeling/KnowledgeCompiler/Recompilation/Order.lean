import KnowledgeCompiler.Recompilation.Equivalence

namespace KnowledgeCompiler.Recompilation

open Lib

namespace RecompilationPlan

variable (plan : RecompilationPlan)

def depth_of : Dict String Nat :=
  .ofPairs (plan.targets.map (fun target => (target.artifact_id, target.depth)))

-- `depth_of.get(artifact, 0)`
def depth (artifact : String) : Nat := (plan.depth_of.get? artifact).getD 0

def cycle_members : List String := plan.cycles_detected.flatten

-- The order of the sort keys `(depth, artifact)`.
def shallower (first second : String) : Bool :=
  plan.depth first < plan.depth second ||
    plan.depth first == plan.depth second && first ≤ second

end RecompilationPlan

-- The loop's body: an artifact is placed while it remains.
def place (state : List String × List String) (artifact : String) : List String × List String :=
  if artifact ∈ state.2 then (state.1 ++ [artifact], state.2.erase artifact) else state

def rebuild_order (plan : RecompilationPlan) : List String :=
  let targets := plan.to_rebuild
  let queue := targets.insertionSort (fun first second => plan.shallower first second = true)
  let ordered := (queue.foldl place ([], targets)).1
  let tail := ordered.filter (· ∈ plan.cycle_members)
  let head := ordered.filter (· ∉ plan.cycle_members)
  head ++ tail

section Order

variable {Time : Type} [LinearOrder Time] (graph : DependencyGraph Time) (plan : RecompilationPlan)

def DependsOn (later earlier : String) : Prop :=
  Relation.ReflTransGen (Propagates graph none) earlier later

-- Two artifacts that each depend on the other lie on a common cycle.
def OrderSound (order : List String) : Prop :=
  order.Perm plan.to_rebuild ∧
  ∀ earlier ∈ plan.to_rebuild, ∀ later ∈ plan.to_rebuild,
    DependsOn graph later earlier → ¬DependsOn graph earlier later →
    order.idxOf earlier < order.idxOf later

-- The plan's own fields put the first artifact in front: it is off the detected
-- cycles and the second is on one, or else it is shallower, or its id is smaller.
def RanksBefore (first second : String) : Prop :=
  (first ∉ plan.cycle_members ∧ second ∈ plan.cycle_members) ∨
  ((first ∈ plan.cycle_members ↔ second ∈ plan.cycle_members) ∧
    (plan.depth first < plan.depth second ∨
      plan.depth first = plan.depth second ∧ first < second))

end Order

theorem idxOf_lt_iff {α : Type*} [DecidableEq α] {order : List α} {before : α → α → Prop}
    (hpairs : order.Pairwise before) {first second : α}
    (hasymm : before first second → ¬before second first) (hfirst : first ∈ order)
    (hsecond : second ∈ order) (hne : first ≠ second) :
    order.idxOf first < order.idxOf second ↔ before first second := by
  have hget := List.pairwise_iff_getElem.mp hpairs
  have hfirst_lt := List.idxOf_lt_length_of_mem hfirst
  have hsecond_lt := List.idxOf_lt_length_of_mem hsecond
  constructor
  · intro hlt
    simpa using hget _ _ hfirst_lt hsecond_lt hlt
  · intro hbefore
    rcases Nat.lt_trichotomy (order.idxOf first) (order.idxOf second) with hlt | heq | hlt
    · exact hlt
    · exact absurd ((List.idxOf_inj hfirst).mp heq) hne
    · have hback : before second first := by simpa using hget _ _ hsecond_lt hfirst_lt hlt
      exact absurd hback (hasymm hbefore)

theorem foldl_place (queue placed remaining : List String) (hn : queue.Nodup)
    (hin : ∀ artifact ∈ queue, artifact ∈ remaining) :
    (queue.foldl place (placed, remaining)).1 = placed ++ queue := by
  induction queue generalizing placed remaining with
  | nil => simp
  | cons artifact rest ih =>
      obtain ⟨hout, hrest⟩ := List.nodup_cons.mp hn
      have hplace : place (placed, remaining) artifact =
          (placed ++ [artifact], remaining.erase artifact) := by
        simp [place, hin artifact List.mem_cons_self]
      rw [List.foldl_cons, hplace, ih _ _ hrest ?_]
      · simp
      · intro other ho
        have hne : other ≠ artifact := fun h => hout (h ▸ ho)
        exact (List.mem_erase_of_ne hne).mpr (hin other (List.mem_cons_of_mem _ ho))

section Order

variable (plan : RecompilationPlan)

theorem shallower_total (first second : String) :
    plan.shallower first second = true ∨ plan.shallower second first = true := by
  simp only [RecompilationPlan.shallower, Bool.or_eq_true, Bool.and_eq_true, decide_eq_true_eq,
    beq_iff_eq]
  rcases Nat.lt_trichotomy (plan.depth first) (plan.depth second) with h | h | h
  · exact Or.inl (Or.inl h)
  · exact (le_total first second).imp (fun hle => Or.inr ⟨h, hle⟩) (fun hle => Or.inr ⟨h.symm, hle⟩)
  · exact Or.inr (Or.inl h)

theorem shallower_trans (first second third : String) (hfirst : plan.shallower first second = true)
    (hsecond : plan.shallower second third = true) : plan.shallower first third = true := by
  simp only [RecompilationPlan.shallower, Bool.or_eq_true, Bool.and_eq_true, decide_eq_true_eq,
    beq_iff_eq] at *
  rcases hfirst with hfirst | ⟨hfirst, hle⟩ <;> rcases hsecond with hsecond | ⟨hsecond, hle'⟩
  · exact Or.inl (by omega)
  · exact Or.inl (by omega)
  · exact Or.inl (by omega)
  · exact Or.inr ⟨by omega, le_trans hle hle'⟩

-- The artifacts in the order of `shallower`, those on the detected cycles last.
theorem rebuild_order_pairs : (rebuild_order plan).Perm plan.to_rebuild ∧
    (rebuild_order plan).Pairwise (RanksBefore plan) := by
  have hnodup : plan.to_rebuild.Nodup := nodup_fromkeys _
  have hperm := List.perm_insertionSort
    (fun first second => plan.shallower first second = true) plan.to_rebuild
  have hsorted_nodup := hperm.nodup_iff.mpr hnodup
  have : Std.Total (fun first second => plan.shallower first second = true) :=
    ⟨shallower_total plan⟩
  have : IsTrans String (fun first second => plan.shallower first second = true) :=
    ⟨shallower_trans plan⟩
  have hsorted := (List.pairwise_insertionSort
    (fun first second => plan.shallower first second = true) plan.to_rebuild).and hsorted_nodup
  have hplaced := foldl_place _ [] plan.to_rebuild hsorted_nodup (fun _ h => hperm.mem_iff.mp h)
  simp only [rebuild_order, hplaced, List.nil_append]
  have hrank : ∀ first second, plan.shallower first second = true ∧ first ≠ second →
      (first ∈ plan.cycle_members ↔ second ∈ plan.cycle_members) → RanksBefore plan first second := by
    intro first second ⟨hle, hne⟩ hsame
    simp only [RecompilationPlan.shallower, Bool.or_eq_true, Bool.and_eq_true, decide_eq_true_eq,
      beq_iff_eq] at hle
    exact Or.inr ⟨hsame, hle.imp id (fun h => ⟨h.1, lt_of_le_of_ne h.2 hne⟩)⟩
  constructor
  · refine (List.perm_append_comm.trans ?_).trans hperm
    simpa using List.filter_append_perm (· ∈ plan.cycle_members)
      (plan.to_rebuild.insertionSort (fun first second => plan.shallower first second = true))
  · refine List.pairwise_append.mpr ⟨?_, ?_, ?_⟩
    · refine (List.pairwise_filter.mpr (hsorted.imp ?_))
      intro first second h hfirst hsecond
      exact hrank first second h (iff_of_false (by simpa using hfirst) (by simpa using hsecond))
    · refine (List.pairwise_filter.mpr (hsorted.imp ?_))
      intro first second h hfirst hsecond
      exact hrank first second h (iff_of_true (by simpa using hfirst) (by simpa using hsecond))
    · intro first hfirst second hsecond
      simp only [List.mem_filter, decide_eq_true_eq] at hfirst hsecond
      exact Or.inl ⟨hfirst.2, hsecond.2⟩

theorem ranksBefore_asymm {first second : String} (h : RanksBefore plan first second) :
    ¬RanksBefore plan second first := by
  rintro (⟨hout, hin⟩ | ⟨hsame, hback⟩)
  · rcases h with ⟨_, hin'⟩ | ⟨hsame, _⟩
    · exact hout hin'
    · exact hout (hsame.mp hin)
  · rcases h with ⟨hout, hin⟩ | ⟨_, hlt⟩
    · exact hout (hsame.mp hin)
    · rcases hlt with hlt | ⟨heq, hlt⟩ <;> rcases hback with hback | ⟨hback, hback_lt⟩
      · omega
      · omega
      · omega
      · exact lt_asymm hlt hback_lt

-- A breadth-first depth is no topological rank, and the order has nothing else.
theorem rebuild_order_sound_iff {Time : Type} [LinearOrder Time] (graph : DependencyGraph Time) :
    OrderSound graph plan (rebuild_order plan) ↔
      ∀ earlier ∈ plan.to_rebuild, ∀ later ∈ plan.to_rebuild,
        DependsOn graph later earlier → ¬DependsOn graph earlier later →
        RanksBefore plan earlier later := by
  obtain ⟨hperm, hpairs⟩ := rebuild_order_pairs plan
  have hplace : ∀ earlier ∈ plan.to_rebuild, ∀ later ∈ plan.to_rebuild,
      DependsOn graph later earlier → ¬DependsOn graph earlier later →
      ((rebuild_order plan).idxOf earlier < (rebuild_order plan).idxOf later ↔
        RanksBefore plan earlier later) := by
    intro earlier he later hl hdep hnot
    have hne : earlier ≠ later := fun h => hnot (by subst h; exact Relation.ReflTransGen.refl)
    exact idxOf_lt_iff hpairs (ranksBefore_asymm plan) (hperm.mem_iff.mpr he)
      (hperm.mem_iff.mpr hl) hne
  constructor
  · rintro ⟨_, hsound⟩ earlier he later hl hdep hnot
    exact (hplace earlier he later hl hdep hnot).mp (hsound earlier he later hl hdep hnot)
  · intro hranks
    refine ⟨hperm, fun earlier he later hl hdep hnot => ?_⟩
    exact (hplace earlier he later hl hdep hnot).mpr (hranks earlier he later hl hdep hnot)

end Order

-- The answer depends on the claim directly and on the chunk as well.
def answer_by_two_ways : DependencyGraph Nat where
  edges := [chunk_from_claim, answer_on_claim, answer_on_chunk]

theorem answer_rebuilt_before_its_chunk :
    ∃ plan, plan_recompilation edited_claim answer_by_two_ways ["chunk_1", "answer_1"] none =
        some plan ∧
      rebuild_order plan = ["answer_1", "chunk_1"] ∧
      ¬OrderSound answer_by_two_ways plan (rebuild_order plan) := by
  have hplanned : (plan_recompilation edited_claim answer_by_two_ways ["chunk_1", "answer_1"]
      none).map (fun plan => (plan.to_rebuild, rebuild_order plan)) =
        some (["chunk_1", "answer_1"], ["answer_1", "chunk_1"]) := by decide
  obtain ⟨plan, hplan, hfields⟩ := Option.map_eq_some_iff.mp hplanned
  obtain ⟨htargets, horder⟩ := Prod.mk.inj hfields
  refine ⟨plan, hplan, horder, fun hsound => ?_⟩
  have hstep : Propagates answer_by_two_ways none "chunk_1" "answer_1" :=
    ⟨_, List.mem_cons_of_mem _ (List.mem_cons_of_mem _ List.mem_cons_self), rfl,
      Or.inr ⟨rfl, rfl, rfl⟩⟩
  have hnone (next : String) : ¬Propagates answer_by_two_ways none "answer_1" next := by
    rw [← answer_by_two_ways.mem_successors]
    have hnil : answer_by_two_ways.successors "answer_1" none = [] := by decide
    simp [hnil]
  have hnot : ¬DependsOn answer_by_two_ways "chunk_1" "answer_1" := by
    intro hback
    rcases Relation.ReflTransGen.cases_head hback with heq | ⟨next, hnext, _⟩
    · exact absurd heq (by decide)
    · exact hnone next hnext
  have hlt := hsound.2 "chunk_1" (by simp [htargets]) "answer_1" (by simp [htargets])
    (Relation.ReflTransGen.single hstep) hnot
  rw [horder] at hlt
  exact absurd hlt (by decide)

end KnowledgeCompiler.Recompilation
