import KnowledgeCompiler.Lib.FirstPath
import KnowledgeCompiler.Recompilation.Distance

namespace KnowledgeCompiler.Recompilation

open Lib FirstPath

section Loops

variable {Time : Type} [LinearOrder Time] (graph : DependencyGraph Time) (as_of : Option Time)
  (changed : List String)

-- A cycle as the report writes it, with its first node again at the end.
structure Loop (cycle : List String) : Prop where
  returns : ∃ node between, cycle = node :: between ++ [node]
  hops : cycle.IsChain (Propagates graph as_of)

def LoopReached : Prop :=
  ∃ cycle, Loop graph as_of cycle ∧ ∀ node ∈ cycle, Stale graph as_of changed node

-- What a reader of the report takes its cycles to say.
structure CyclesReported (report : ImpactReport) : Prop where
  sound : ∀ cycle ∈ report.cycles_detected, Loop graph as_of cycle
  complete : LoopReached graph as_of changed → report.cycles_detected ≠ []

-- Some edge leads from a node back onto the first path there is to that node.
def BackHop : Prop :=
  ∃ path last next, First (Propagates graph as_of) (fromkeys changed) path ∧
    path.getLast? = some last ∧ Propagates graph as_of last next ∧ next ∈ path

end Loops

section Walk

theorem foldl_queue (visit : Visit) (hops : List (String × EdgeType)) (walk : Traversal) :
    ∃ taken : List (String × EdgeType), taken.Sublist hops ∧
      (hops.foldl (Traversal.follow visit) walk).queue = walk.queue ++ taken.map visit.child := by
  induction hops generalizing walk with
  | nil => exact ⟨[], List.Sublist.refl _, by simp⟩
  | cons hop rest ih =>
    obtain ⟨taken, hsub, hqueue⟩ := ih (walk.follow visit hop)
    rw [List.foldl_cons, hqueue]
    unfold Traversal.follow
    split_ifs with hlineage hvisited
    · exact ⟨taken, hsub.cons hop, by simp⟩
    · exact ⟨taken, hsub.cons hop, rfl⟩
    · exact ⟨hop :: taken, hsub.cons_cons hop, by simp [Visit.child]⟩

theorem mem_report_cycle (walk : Traversal) (cycle other : List String) :
    other ∈ (walk.report_cycle cycle).cycles ↔ other ∈ walk.cycles ∨ other = cycle := by
  unfold Traversal.report_cycle
  split_ifs with hknown
  · exact ⟨Or.inl, fun hor => hor.elim id (fun heq => heq ▸ hknown)⟩
  · simp

theorem mem_foldl_cycles (visit : Visit) (hops : List (String × EdgeType)) (walk : Traversal)
    (cycle : List String) : cycle ∈ (hops.foldl (Traversal.follow visit) walk).cycles ↔
      cycle ∈ walk.cycles ∨ ∃ hop ∈ hops, hop.1 ∈ visit.lineage ∧
        cycle = visit.lineage.dropWhile (· ≠ hop.1) ++ [hop.1] := by
  induction hops generalizing walk with
  | nil => simp
  | cons hop rest ih =>
    rw [List.foldl_cons, ih, List.exists_mem_cons_iff, ← or_assoc]
    refine or_congr ?_ Iff.rfl
    unfold Traversal.follow
    split_ifs with hlineage hvisited
    · rw [mem_report_cycle]
      simp [hlineage]
    · simp [hlineage]
    · simp [hlineage]

end Walk

section Trees

variable {Time : Type} [LinearOrder Time] {graph : DependencyGraph Time} {as_of : Option Time}
  {seeds changed : List String}

-- The visits behind the walk and those in its queue are a breadth-first tree of lineages,
-- and each cycle was closed by a hop out of a visit behind it.
structure Lined (graph : DependencyGraph Time) (as_of : Option Time) (seeds : List String)
    (done : List Visit) (walk : Traversal) : Prop where
  tree : Tree (Propagates graph as_of) seeds (done.map Visit.lineage) (walk.queue.map Visit.lineage)
  ends : ∀ visit ∈ done ++ walk.queue, visit.lineage.getLast? = some visit.node
  visited : (done ++ walk.queue).map Visit.node = walk.visited
  closed : ∀ cycle, cycle ∈ walk.cycles ↔ ∃ visit ∈ done, ∃ next,
    Propagates graph as_of visit.node next ∧ next ∈ visit.lineage ∧
      cycle = visit.lineage.dropWhile (· ≠ next) ++ [next]

theorem Lined.start (hseeds : seeds.Nodup) : Lined graph as_of seeds [] (.start seeds) where
  tree := by
    have hstart : Tree (Propagates graph as_of) seeds [] (seeds.map fun seed => [seed]) :=
      Tree.start hseeds
    simpa [Traversal.start, Function.comp_def] using hstart
  ends := by
    intro visit hvisit
    obtain ⟨seed, -, rfl⟩ := List.mem_map.mp hvisit
    rfl
  visited := by simp [Traversal.start, Function.comp_def]
  closed := by simp [Traversal.start]

theorem successor_le_total (first second : String × EdgeType) :
    DependencyGraph.successor_le first second = true ∨
      DependencyGraph.successor_le second first = true := by
  simp only [DependencyGraph.successor_le, Bool.or_eq_true, Bool.and_eq_true, beq_iff_eq,
    decide_eq_true_eq]
  rcases lt_trichotomy first.1 second.1 with hlt | heq | hgt
  · exact Or.inl (Or.inl hlt)
  · rcases le_total first.2.value second.2.value with hle | hle
    · exact Or.inl (Or.inr ⟨heq, hle⟩)
    · exact Or.inr (Or.inr ⟨heq.symm, hle⟩)
  · exact Or.inr (Or.inl hgt)

theorem successor_le_trans {first second third : String × EdgeType}
    (hfirst : DependencyGraph.successor_le first second = true)
    (hsecond : DependencyGraph.successor_le second third = true) :
    DependencyGraph.successor_le first third = true := by
  simp only [DependencyGraph.successor_le, Bool.or_eq_true, Bool.and_eq_true, beq_iff_eq,
    decide_eq_true_eq] at *
  rcases hfirst with hlt | ⟨heq, hle⟩ <;> rcases hsecond with hlt' | ⟨heq', hle'⟩
  · exact Or.inl (hlt.trans hlt')
  · exact Or.inl (heq' ▸ hlt)
  · exact Or.inl (heq ▸ hlt')
  · exact Or.inr ⟨heq.trans heq', hle.trans hle'⟩

theorem le_of_successor_le {first second : String × EdgeType}
    (hle : DependencyGraph.successor_le first second = true) : first.1 ≤ second.1 := by
  simp only [DependencyGraph.successor_le, Bool.or_eq_true, Bool.and_eq_true, beq_iff_eq,
    decide_eq_true_eq] at hle
  rcases hle with hlt | ⟨heq, -⟩
  · exact hlt.le
  · exact heq.le

theorem successors_sorted (graph : DependencyGraph Time) (node_id : String)
    (as_of : Option Time) :
    ((graph.successors node_id as_of).map Prod.fst).Pairwise (· ≤ ·) := by
  have htotal : Std.Total fun first second => DependencyGraph.successor_le first second = true :=
    ⟨successor_le_total⟩
  have htrans : IsTrans _ fun first second => DependencyGraph.successor_le first second = true :=
    ⟨fun _ _ _ => successor_le_trans⟩
  rw [List.pairwise_map]
  exact (List.pairwise_insertionSort _ _).imp le_of_successor_le

-- The successors come sorted, so those taken at one visit come in strictly rising order.
theorem taken_sorted {node_id : String} {taken : List (String × EdgeType)}
    (hsub : taken.Sublist (graph.successors node_id as_of)) (hnodup : (taken.map Prod.fst).Nodup) :
    (taken.map Prod.fst).Pairwise (· < ·) := by
  have hle := (successors_sorted graph node_id as_of).sublist (hsub.map Prod.fst)
  exact (hle.and hnodup).imp fun ⟨hle, hne⟩ => lt_of_le_of_ne hle hne

theorem child_injective (visit : Visit) : Function.Injective visit.child := by
  intro first second heq
  simp only [Visit.child, Visit.mk.injEq, List.append_cancel_left_eq, List.cons.injEq,
    Prod.mk.injEq] at heq
  exact Prod.ext heq.1 heq.2.2.1.1.2

theorem expand_all (visit : Visit) (walk : Traversal) :
    graph.expand none as_of visit walk =
      (graph.successors visit.node as_of).foldl (Traversal.follow visit) walk := rfl

theorem Lined.expand {popped : Nat} {walk : Traversal} {visit : Visit} {rest : List Visit}
    {done : List Visit} (hlined : Lined graph as_of seeds done walk)
    (hwalked : Walked graph seeds popped walk) (hqueue : walk.queue = visit :: rest) :
    Lined graph as_of seeds (done ++ [visit])
      (graph.expand none as_of visit { walk with queue := rest }) := by
  obtain ⟨taken, hfollowed⟩ := hwalked.sweep hqueue as_of
  obtain ⟨others, hsub, hothers⟩ :=
    foldl_queue visit (graph.successors visit.node as_of) { walk with queue := rest }
  rw [hfollowed.queue, List.append_cancel_left_eq] at hothers
  obtain rfl := List.map_injective_iff.mpr (child_injective visit) hothers
  rw [expand_all]
  have hends := hlined.ends
  have hvisited := hlined.visited
  have htree := hlined.tree
  rw [hqueue] at hends hvisited htree
  have hlast := hends visit (by simp)
  -- Another entry of the tree ends at a visited node.
  have hfound (next : String) : next ∈ walk.visited ↔
      ∃ other ∈ done.map Visit.lineage ++ (visit :: rest).map Visit.lineage,
        other.getLast? = some next := by
    rw [← hvisited, ← List.map_append]
    simp only [List.mem_map, exists_exists_and_eq_and]
    refine exists_congr fun entry => and_congr_right fun hentry => ?_
    rw [hends entry hentry, Option.some_inj]
  refine ⟨?_, ?_, ?_, ?_⟩
  · have hexpand := htree.expand hlast (taken_sorted hsub hfollowed.nodup) ?_ ?_ ?_
    · rw [hfollowed.queue]
      simpa [Visit.child, Function.comp_def] using hexpand
    · intro next hnext
      obtain ⟨hop, hhop, rfl⟩ := List.mem_map.mp hnext
      exact (graph.mem_successors visit.node as_of hop.1).mp ⟨hop.2, hsub.subset hhop⟩
    · intro next hnext other hother hother_last
      obtain ⟨hop, hhop, rfl⟩ := List.mem_map.mp hnext
      exact hfollowed.disjoint hop hhop ((hfound hop.1).mpr ⟨other, hother, hother_last⟩)
    · intro next hstep
      obtain ⟨edge_type, hhop⟩ := (graph.mem_successors visit.node as_of next).mpr hstep
      have hseen := hfollowed.all_hops _ hhop
      rw [hfollowed.visited] at hseen
      rcases List.mem_append.mp hseen with hold | hnew
      · exact Or.inr ((hfound next).mp hold)
      · exact Or.inl hnew
  · intro entry hentry
    rw [hfollowed.queue] at hentry
    simp only [List.mem_append, List.mem_singleton, List.mem_map] at hentry
    rcases hentry with (hdone | rfl) | hrest | ⟨hop, -, rfl⟩
    · exact hends entry (by simp [hdone])
    · exact hlast
    · exact hends entry (by simp [hrest])
    · simp [Visit.child]
  · rw [hfollowed.queue, hfollowed.visited, ← hvisited]
    simp [Visit.child, Function.comp_def]
  · intro cycle
    rw [mem_foldl_cycles]
    simp only [List.mem_append, List.mem_singleton, or_and_right, exists_or, exists_eq_left]
    refine or_congr (hlined.closed cycle) ?_
    constructor
    · rintro ⟨hop, hhop, hback⟩
      exact ⟨hop.1, (graph.mem_successors visit.node as_of hop.1).mp ⟨hop.2, hhop⟩, hback⟩
    · rintro ⟨next, hstep, hback⟩
      obtain ⟨edge_type, hhop⟩ := (graph.mem_successors visit.node as_of next).mpr hstep
      exact ⟨(next, edge_type), hhop, hback⟩

-- What a finished walk says of its cycles.
def Told (graph : DependencyGraph Time) (as_of : Option Time) (changed : List String)
    (cycles : List (List String)) : Prop :=
  ∀ cycle, cycle ∈ cycles ↔ ∃ path last next,
    First (Propagates graph as_of) (fromkeys changed) path ∧ path.getLast? = some last ∧
      Propagates graph as_of last next ∧ next ∈ path ∧
        cycle = path.dropWhile (· ≠ next) ++ [next]

theorem Lined.told {done : List Visit} {walk : Traversal}
    (hlined : Lined graph as_of (fromkeys changed) done walk) (hqueue : walk.queue = []) :
    Told graph as_of changed walk.cycles := by
  have htree := hlined.tree
  have hends := hlined.ends
  rw [hqueue, List.map_nil] at htree
  rw [hqueue, List.append_nil] at hends
  intro cycle
  refine (hlined.closed cycle).trans ⟨?_, ?_⟩
  · rintro ⟨visit, hvisit, next, hstep, hback, hcycle⟩
    have hfirst := (htree.mem_done_iff_first _).mp (List.mem_map_of_mem hvisit)
    exact ⟨visit.lineage, visit.node, next, hfirst, hends visit hvisit, hstep, hback, hcycle⟩
  · rintro ⟨path, last, next, hfirst, hlast, hstep, hback, hcycle⟩
    obtain ⟨visit, hvisit, rfl⟩ := List.mem_map.mp ((htree.mem_done_iff_first path).mpr hfirst)
    obtain rfl := Option.some.inj ((hends visit hvisit).symm.trans hlast)
    exact ⟨visit, hvisit, next, hstep, hback, hcycle⟩

theorem impact_of_told (graph : DependencyGraph Time) (changed : List String)
    (as_of : Option Time) :
    ∃ report, graph.impact_of changed none as_of = some report ∧
      Told graph as_of changed report.cycles_detected := by
  have hstart : Walked graph (fromkeys changed) 0 (.start (fromkeys changed)) :=
    Walked.start (nodup_fromkeys changed)
  obtain ⟨final, _, hrun, hqueue, -, done, hlined⟩ := traverse_keeps none as_of
    (fun walk => ∃ done, Lined graph as_of (fromkeys changed) done walk)
    (fun _ _ visit _ hwalked hqueue ⟨done, hlined⟩ =>
      ⟨done ++ [visit], hlined.expand hwalked hqueue⟩)
    ((fromkeys changed).length + graph.nodes.length) 0 _ hstart (by omega)
    ⟨[], Lined.start (nodup_fromkeys changed)⟩
  refine ⟨{ changed := fromkeys changed
            affected := final.affected
            truncated_at_depth := final.truncated
            cycles_detected := final.cycles
            unknown_nodes := (fromkeys changed).filter (· ∉ graph.nodes) }, ?_, hlined.told hqueue⟩
  simp [DependencyGraph.impact_of, hrun]

-- The part of a path from a node on, and one hop back to that node.
theorem loop_of_back_hop {path : List String} {last next : String}
    (hpath : path.IsChain (Propagates graph as_of)) (hlast : path.getLast? = some last)
    (hstep : Propagates graph as_of last next) (hback : next ∈ path) :
    Loop graph as_of (path.dropWhile (· ≠ next) ++ [next]) := by
  obtain ⟨before, after, rfl, hfresh⟩ := List.eq_append_cons_of_mem hback
  have hdrop : (before ++ next :: after).dropWhile (· ≠ next) = next :: after := by
    rw [List.dropWhile_append_of_pos, List.dropWhile_cons_of_neg (by simp)]
    exact fun node hnode => decide_eq_true (fun heq => hfresh (heq ▸ hnode))
  rw [hdrop]
  refine ⟨⟨next, after, rfl⟩, hpath.right_of_append.append (List.isChain_singleton next) ?_⟩
  intro node hnode other hother
  rw [List.getLast?_append_cons] at hlast
  obtain rfl := Option.some.inj (hlast.symm.trans hnode)
  obtain rfl := Option.some.inj hother
  exact hstep

theorem Told.sound {cycles : List (List String)} (htold : Told graph as_of changed cycles)
    {cycle : List String} (hcycle : cycle ∈ cycles) : Loop graph as_of cycle := by
  obtain ⟨path, last, next, hfirst, hlast, hstep, hback, rfl⟩ := (htold cycle).mp hcycle
  exact loop_of_back_hop hfirst.leads.steps hlast hstep hback

theorem Told.nonempty_iff {cycles : List (List String)} (htold : Told graph as_of changed cycles) :
    cycles ≠ [] ↔ BackHop graph as_of changed := by
  constructor
  · intro hne
    obtain ⟨cycle, hcycle⟩ := List.exists_mem_of_ne_nil cycles hne
    obtain ⟨path, last, next, hfirst, hlast, hstep, hback, -⟩ := (htold cycle).mp hcycle
    exact ⟨path, last, next, hfirst, hlast, hstep, hback⟩
  · rintro ⟨path, last, next, hfirst, hlast, hstep, hback⟩
    exact List.ne_nil_of_mem
      ((htold _).mpr ⟨path, last, next, hfirst, hlast, hstep, hback, rfl⟩)

-- A loop shows only where an edge leads back onto the one path recorded for a node.
theorem cycles_reported_iff (graph : DependencyGraph Time) (changed : List String)
    (as_of : Option Time) :
    ∃ report, graph.impact_of changed none as_of = some report ∧
      (CyclesReported graph as_of changed report ↔
        (LoopReached graph as_of changed → BackHop graph as_of changed)) := by
  obtain ⟨report, hreport, htold⟩ := impact_of_told graph changed as_of
  refine ⟨report, hreport, ?_, ?_⟩
  · exact fun hreported hloop => htold.nonempty_iff.mp (hreported.complete hloop)
  · exact fun hback => ⟨fun _ => htold.sound, fun hloop => htold.nonempty_iff.mpr (hback hloop)⟩

end Trees

-- Both ends of the loop are seeds, and neither has the other on its path.
theorem seeded_loop_missed :
    ∃ report, mutual_invalidation.impact_of ["ku_claim", "chunk_1"] none none = some report ∧
      ¬CyclesReported mutual_invalidation none ["ku_claim", "chunk_1"] report := by
  have hnone : (mutual_invalidation.impact_of ["ku_claim", "chunk_1"] none none).map
      (fun report => report.cycles_detected) = some [] := by decide
  obtain ⟨report, hreport, hcycles⟩ := Option.map_eq_some_iff.mp hnone
  refine ⟨report, hreport, fun hreported => hreported.complete ?_ hcycles⟩
  have hthere : Propagates mutual_invalidation none "ku_claim" "chunk_1" :=
    ⟨_, List.mem_cons_self, rfl, Or.inl ⟨rfl, rfl, rfl⟩⟩
  have hback : Propagates mutual_invalidation none "chunk_1" "ku_claim" :=
    ⟨_, List.mem_cons_of_mem _ List.mem_cons_self, rfl, Or.inl ⟨rfl, rfl, rfl⟩⟩
  refine ⟨["ku_claim", "chunk_1", "ku_claim"], ⟨⟨"ku_claim", ["chunk_1"], rfl⟩, ?_⟩, ?_⟩
  · exact List.isChain_cons_cons.mpr ⟨hthere, List.isChain_pair.mpr hback⟩
  · have hseeds : ["ku_claim", "chunk_1", "ku_claim"] ⊆ ["ku_claim", "chunk_1"] := by simp
    exact fun node hnode => .seed (hseeds hnode)

end KnowledgeCompiler.Recompilation
