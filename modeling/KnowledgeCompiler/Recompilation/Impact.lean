import KnowledgeCompiler.Lib.Breadth
import KnowledgeCompiler.Recompilation.Dependency

namespace KnowledgeCompiler.Recompilation

open Lib

variable {Time : Type} [LinearOrder Time]

-- What the graph is for: a change of one node makes the other one stale.
def Propagates (graph : DependencyGraph Time) (as_of : Option Time) (changed stale : String) :
    Prop :=
  ∃ edge ∈ graph.edges, edge.live_at as_of = true ∧
    (edge.edge_type.propagation = .DOWNSTREAM ∧ edge.source_id = changed ∧
        edge.target_id = stale ∨
      edge.edge_type.propagation = .UPSTREAM ∧ edge.target_id = changed ∧ edge.source_id = stale)

def PropagatesBy (graph : DependencyGraph Time) (as_of : Option Time) (edge_type : EdgeType)
    (changed stale : String) : Prop :=
  ∃ edge ∈ graph.edges, edge.edge_type = edge_type ∧ edge.live_at as_of = true ∧
    (edge_type.propagation = .DOWNSTREAM ∧ edge.source_id = changed ∧ edge.target_id = stale ∨
      edge_type.propagation = .UPSTREAM ∧ edge.target_id = changed ∧ edge.source_id = stale)

abbrev Stale (graph : DependencyGraph Time) (as_of : Option Time) (changed : List String)
    (node : String) : Prop :=
  Explore.Reachable (Propagates graph as_of) changed node

namespace DependencyGraph

variable (graph : DependencyGraph Time)

theorem mem_successors_by (node_id : String) (as_of : Option Time) (hop : String × EdgeType) :
    hop ∈ graph.successors node_id as_of ↔ PropagatesBy graph as_of hop.2 node_id hop.1 := by
  simp only [successors, (List.perm_insertionSort _ _).mem_iff, List.mem_dedup, List.mem_append,
    List.mem_map, List.mem_filter, edges_out, edges_in, Bool.and_eq_true, decide_eq_true_eq]
  constructor
  · rintro (⟨edge, ⟨⟨he, hs⟩, hp, hl⟩, rfl⟩ | ⟨edge, ⟨⟨he, ht⟩, hp, hl⟩, rfl⟩)
    · exact ⟨edge, he, rfl, hl, Or.inl ⟨hp, hs, rfl⟩⟩
    · exact ⟨edge, he, rfl, hl, Or.inr ⟨hp, ht, rfl⟩⟩
  · obtain ⟨next, edge_type⟩ := hop
    rintro ⟨edge, he, rfl, hl, ⟨hp, hs, rfl⟩ | ⟨hp, ht, rfl⟩⟩
    · exact Or.inl ⟨edge, ⟨⟨he, hs⟩, hp, hl⟩, rfl⟩
    · exact Or.inr ⟨edge, ⟨⟨he, ht⟩, hp, hl⟩, rfl⟩

theorem propagates_iff (as_of : Option Time) (changed stale : String) :
    Propagates graph as_of changed stale ↔
      ∃ edge_type, PropagatesBy graph as_of edge_type changed stale := by
  constructor
  · exact fun ⟨edge, he, hl, hends⟩ => ⟨edge.edge_type, edge, he, rfl, hl, hends⟩
  · rintro ⟨_, edge, he, rfl, hl, hends⟩
    exact ⟨edge, he, hl, hends⟩

theorem mem_successors (node_id : String) (as_of : Option Time) (next : String) :
    (∃ edge_type, (next, edge_type) ∈ graph.successors node_id as_of) ↔
      Propagates graph as_of node_id next := by
  simp only [mem_successors_by, propagates_iff]

theorem mem_nodes_of_propagates {as_of : Option Time} {changed stale : String}
    (hp : Propagates graph as_of changed stale) : stale ∈ graph.nodes := by
  obtain ⟨edge, he, _, hends⟩ := hp
  refine List.mem_dedup.mpr (List.mem_flatMap.mpr ⟨edge, he, ?_⟩)
  rcases hends with ⟨_, _, rfl⟩ | ⟨_, _, rfl⟩ <;> simp

end DependencyGraph

@[simp] theorem report_cycle_visited (walk : Traversal) (cycle : List String) :
    (walk.report_cycle cycle).visited = walk.visited := by
  unfold Traversal.report_cycle
  split <;> rfl

@[simp] theorem report_cycle_queue (walk : Traversal) (cycle : List String) :
    (walk.report_cycle cycle).queue = walk.queue := by
  unfold Traversal.report_cycle
  split <;> rfl

@[simp] theorem report_cycle_affected (walk : Traversal) (cycle : List String) :
    (walk.report_cycle cycle).affected = walk.affected := by
  unfold Traversal.report_cycle
  split <;> rfl

@[simp] theorem report_cycle_truncated (walk : Traversal) (cycle : List String) :
    (walk.report_cycle cycle).truncated = walk.truncated := by
  unfold Traversal.report_cycle
  split <;> rfl

-- The path and the queue entry a hop out of a visit leads to.
def Visit.toward (visit : Visit) (hop : String × EdgeType) : ImpactPath :=
  ⟨hop.1, visit.depth + 1, visit.via ++ [(visit.node, hop.2)]⟩

def Visit.child (visit : Visit) (hop : String × EdgeType) : Visit :=
  ⟨hop.1, visit.depth + 1, visit.via ++ [(visit.node, hop.2)], visit.lineage ++ [hop.1]⟩

-- What following some hops of one visit adds: the hops taken lead to fresh nodes,
-- in one order in the visited nodes, the affected paths and the queue.
structure Followed (visit : Visit) (hops : List (String × EdgeType)) (before after : Traversal)
    (taken : List (String × EdgeType)) : Prop where
  visited : after.visited = before.visited ++ taken.map Prod.fst
  affected : after.affected = before.affected ++ taken.map visit.toward
  queue : after.queue = before.queue ++ taken.map visit.child
  truncated : after.truncated = before.truncated
  nodup : (taken.map Prod.fst).Nodup
  disjoint : ∀ hop ∈ taken, hop.1 ∉ before.visited
  from_hops : ∀ hop ∈ taken, hop ∈ hops
  all_hops : ∀ hop ∈ hops, hop.1 ∈ after.visited

theorem follow_followed (visit : Visit) (walk : Traversal) (hop : String × EdgeType)
    (hlineage : ∀ node ∈ visit.lineage, node ∈ walk.visited) :
    ∃ taken, Followed visit [hop] walk (walk.follow visit hop) taken := by
  unfold Traversal.follow
  by_cases hcycle : hop.1 ∈ visit.lineage
  · rw [if_pos hcycle]
    refine ⟨[], by simp, by simp, by simp, by simp, List.nodup_nil, by simp, by simp, ?_⟩
    intro other ho
    obtain rfl := List.mem_singleton.mp ho
    simpa using hlineage _ hcycle
  · rw [if_neg hcycle]
    by_cases hseen : hop.1 ∈ walk.visited
    · rw [if_pos hseen]
      refine ⟨[], by simp, by simp, by simp, rfl, List.nodup_nil, by simp, by simp, ?_⟩
      intro other ho
      obtain rfl := List.mem_singleton.mp ho
      exact hseen
    · rw [if_neg hseen]
      refine ⟨[hop], rfl, rfl, rfl, rfl, by simp, ?_, fun _ ho => ho, ?_⟩
      · intro other ho
        obtain rfl := List.mem_singleton.mp ho
        exact hseen
      · intro other ho
        obtain rfl := List.mem_singleton.mp ho
        simp

theorem foldl_followed (visit : Visit) (hops : List (String × EdgeType)) (walk : Traversal)
    (hlineage : ∀ node ∈ visit.lineage, node ∈ walk.visited) :
    ∃ taken, Followed visit hops walk (hops.foldl (Traversal.follow visit) walk) taken := by
  induction hops generalizing walk with
  | nil =>
      exact ⟨[], by simp, by simp, by simp, rfl, List.nodup_nil, by simp, by simp, by simp⟩
  | cons hop rest ih =>
      obtain ⟨first, hfirst⟩ := follow_followed visit walk hop hlineage
      have hgrow : ∀ node ∈ walk.visited, node ∈ (walk.follow visit hop).visited := fun node hn => by
        rw [hfirst.visited]
        exact List.mem_append_left _ hn
      obtain ⟨later, hlater⟩ := ih (walk.follow visit hop)
        (fun node hn => hgrow node (hlineage node hn))
      rw [List.foldl_cons]
      refine ⟨first ++ later, ?_, ?_, ?_, ?_, ?_, ?_, ?_, ?_⟩
      · rw [hlater.visited, hfirst.visited, List.map_append, List.append_assoc]
      · rw [hlater.affected, hfirst.affected, List.map_append, List.append_assoc]
      · rw [hlater.queue, hfirst.queue, List.map_append, List.append_assoc]
      · rw [hlater.truncated, hfirst.truncated]
      · rw [List.map_append]
        refine List.nodup_append.mpr ⟨hfirst.nodup, hlater.nodup, ?_⟩
        rintro node hn _ hm rfl
        obtain ⟨other, ho, rfl⟩ := List.mem_map.mp hm
        refine hlater.disjoint other ho ?_
        rw [hfirst.visited]
        exact List.mem_append_right _ hn
      · intro other ho
        rcases List.mem_append.mp ho with ho | ho
        · exact hfirst.disjoint other ho
        · exact fun h => hlater.disjoint other ho (hgrow _ h)
      · intro other ho
        rcases List.mem_append.mp ho with ho | ho
        · obtain rfl := List.mem_singleton.mp (hfirst.from_hops other ho)
          exact List.mem_cons_self
        · exact List.mem_cons_of_mem _ (hlater.from_hops other ho)
      · intro other ho
        rcases List.mem_cons.mp ho with rfl | ho
        · rw [hlater.visited]
          exact List.mem_append_left _ (hfirst.all_hops other (List.mem_singleton.mpr rfl))
        · exact hlater.all_hops other ho

-- Between two turns of the outer loop, with `popped` visits behind it.
structure Walked (graph : DependencyGraph Time) (seeds : List String) (popped : Nat)
    (walk : Traversal) : Prop where
  visited : walk.visited = seeds ++ walk.affected.map ImpactPath.node_id
  nodup : walk.visited.Nodup
  count : popped + walk.queue.length = walk.visited.length
  known : ∀ node ∈ walk.visited, node ∈ seeds ∨ node ∈ graph.nodes
  lineage : ∀ entry ∈ walk.queue, ∀ node ∈ entry.lineage, node ∈ walk.visited

section Walk

variable {graph : DependencyGraph Time} {seeds : List String} {as_of : Option Time}

theorem Walked.start (hn : seeds.Nodup) : Walked graph seeds 0 (.start seeds) := by
  refine ⟨by simp [Traversal.start], hn, by simp [Traversal.start], fun _ h => Or.inl h, ?_⟩
  intro entry he node hm
  obtain ⟨seed, hs, rfl⟩ := List.mem_map.mp he
  exact List.mem_singleton.mp hm ▸ hs

theorem Walked.followed {popped : Nat} {walk after : Traversal} {visit : Visit}
    {rest : List Visit} {taken : List (String × EdgeType)} (hinv : Walked graph seeds popped walk)
    (hqueue : walk.queue = visit :: rest)
    (hf : Followed visit (graph.successors visit.node as_of) { walk with queue := rest } after
      taken) : Walked graph seeds (popped + 1) after := by
  have hcount := hinv.count
  have hlen := congrArg List.length hf.queue
  have hvlen := congrArg List.length hf.visited
  simp only [hqueue, List.length_cons, List.length_map, List.length_append] at hcount hlen hvlen
  refine ⟨?_, ?_, by omega, ?_, ?_⟩
  · rw [hf.visited, hf.affected, List.map_append, List.map_map, ← List.append_assoc,
      ← hinv.visited]
    rfl
  · rw [hf.visited]
    refine List.nodup_append.mpr ⟨hinv.nodup, hf.nodup, ?_⟩
    rintro node hn _ hm rfl
    obtain ⟨hop, hh, rfl⟩ := List.mem_map.mp hm
    exact hf.disjoint hop hh hn
  · intro node hn
    rw [hf.visited] at hn
    rcases List.mem_append.mp hn with hn | hn
    · exact hinv.known node hn
    · obtain ⟨hop, hh, rfl⟩ := List.mem_map.mp hn
      have hp := (graph.mem_successors visit.node as_of hop.1).mp ⟨hop.2, hf.from_hops hop hh⟩
      exact Or.inr (graph.mem_nodes_of_propagates hp)
  · intro entry he node hm
    rw [hf.visited]
    rw [hf.queue] at he
    rcases List.mem_append.mp he with he | hnew
    · refine List.mem_append_left _ (hinv.lineage entry ?_ node hm)
      rw [hqueue]
      exact List.mem_cons_of_mem _ he
    · obtain ⟨hop, hh, rfl⟩ := List.mem_map.mp hnew
      rcases List.mem_append.mp hm with hold | hfresh
      · refine List.mem_append_left _ (hinv.lineage visit ?_ node hold)
        rw [hqueue]
        exact List.mem_cons_self
      · obtain rfl := List.mem_singleton.mp hfresh
        exact List.mem_append_right _ (List.mem_map.mpr ⟨hop, hh, rfl⟩)

theorem Walked.cut {popped : Nat} {walk : Traversal} {visit : Visit} {rest : List Visit}
    (hinv : Walked graph seeds popped walk) (hqueue : walk.queue = visit :: rest)
    (truncated : Bool) :
    Walked graph seeds (popped + 1) { walk with queue := rest, truncated := truncated } := by
  have hcount := hinv.count
  simp only [hqueue, List.length_cons] at hcount
  refine ⟨hinv.visited, hinv.nodup, by simp only; omega, hinv.known, ?_⟩
  intro entry he
  refine hinv.lineage entry ?_
  rw [hqueue]
  exact List.mem_cons_of_mem _ he

theorem Walked.sweep {popped : Nat} {walk : Traversal} {visit : Visit} {rest : List Visit}
    (hinv : Walked graph seeds popped walk) (hqueue : walk.queue = visit :: rest)
    (as_of : Option Time) :
    ∃ taken, Followed visit (graph.successors visit.node as_of) { walk with queue := rest }
      ((graph.successors visit.node as_of).foldl (Traversal.follow visit)
        { walk with queue := rest }) taken := by
  refine foldl_followed visit _ _ (hinv.lineage visit ?_)
  rw [hqueue]
  exact List.mem_cons_self

theorem Walked.expand {popped : Nat} {walk : Traversal} {visit : Visit} {rest : List Visit}
    (hinv : Walked graph seeds popped walk) (hqueue : walk.queue = visit :: rest)
    (max_depth : Option Int) (as_of : Option Time) :
    Walked graph seeds (popped + 1)
      (graph.expand max_depth as_of visit { walk with queue := rest }) := by
  unfold DependencyGraph.expand
  split
  · split
    · exact hinv.cut hqueue walk.truncated
    · exact hinv.cut hqueue true
  · obtain ⟨taken, hf⟩ := hinv.sweep hqueue as_of
    exact hinv.followed hqueue hf

theorem Walked.length_le {popped : Nat} {walk : Traversal} (hinv : Walked graph seeds popped walk) :
    walk.visited.length ≤ seeds.length + graph.nodes.length := by
  have hsub : walk.visited ⊆ seeds ++ graph.nodes := fun node hn =>
    List.mem_append.mpr (hinv.known node hn)
  have := (List.subperm_of_subset hinv.nodup hsub).length_le
  simpa using this

-- The run: what every turn of the outer loop keeps holds once the queue is empty.
theorem traverse_keeps (max_depth : Option Int) (as_of : Option Time) (keeps : Traversal → Prop)
    (hstep : ∀ popped walk visit rest, Walked graph seeds popped walk → walk.queue = visit :: rest →
      keeps walk → keeps (graph.expand max_depth as_of visit { walk with queue := rest }))
    (fuel popped : Nat) (walk : Traversal) (hinv : Walked graph seeds popped walk)
    (hfuel : seeds.length + graph.nodes.length ≤ popped + fuel) (hkeeps : keeps walk) :
    ∃ final after, graph.traverse max_depth as_of fuel walk = some final ∧ final.queue = [] ∧
      Walked graph seeds after final ∧ keeps final := by
  induction fuel generalizing popped walk with
  | zero =>
      have hle := hinv.length_le
      have hcount := hinv.count
      have hnil : walk.queue = [] := List.length_eq_zero_iff.mp (by omega)
      exact ⟨walk, popped, by simp [DependencyGraph.traverse, hnil], hnil, hinv, hkeeps⟩
  | succ fuel ih =>
      cases hqueue : walk.queue with
      | nil => exact ⟨walk, popped, by simp [DependencyGraph.traverse, hqueue], hqueue, hinv, hkeeps⟩
      | cons visit rest =>
          obtain ⟨final, after, hrun, hdone⟩ := ih (popped + 1) _
            (hinv.expand hqueue max_depth as_of) (by omega) (hstep popped walk visit rest hinv hqueue hkeeps)
          exact ⟨final, after, by simpa [DependencyGraph.traverse, hqueue] using hrun, hdone⟩

end Walk

namespace DependencyGraph

variable (graph : DependencyGraph Time)

theorem impact_of_keeps (changed : List String) (max_depth : Option Int) (as_of : Option Time)
    (keeps : Traversal → Prop)
    (hstep : ∀ popped walk visit rest, Walked graph (fromkeys changed) popped walk →
      walk.queue = visit :: rest → keeps walk →
      keeps (graph.expand max_depth as_of visit { walk with queue := rest }))
    (hkeeps : keeps (.start (fromkeys changed))) :
    ∃ report final after, graph.impact_of changed max_depth as_of = some report ∧
      report.affected = final.affected ∧ report.truncated_at_depth = final.truncated ∧
      final.queue = [] ∧ Walked graph (fromkeys changed) after final ∧ keeps final := by
  have hstart : Walked graph (fromkeys changed) 0 (.start (fromkeys changed)) :=
    Walked.start (nodup_fromkeys changed)
  obtain ⟨final, after, hrun, hqueue, hdone⟩ := traverse_keeps max_depth as_of keeps hstep
    ((fromkeys changed).length + graph.nodes.length) 0 _ hstart (by omega) hkeeps
  refine ⟨{ changed := fromkeys changed
            affected := final.affected
            truncated_at_depth := final.truncated
            cycles_detected := final.cycles
            unknown_nodes := (fromkeys changed).filter (· ∉ graph.nodes) }, final, after, ?_, rfl, rfl,
    hqueue, hdone⟩
  simp [impact_of, hrun]

end DependencyGraph

end KnowledgeCompiler.Recompilation
