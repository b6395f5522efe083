import KnowledgeCompiler.Recompilation.Impact

namespace KnowledgeCompiler.Recompilation

open Lib Breadth

section Radius

variable {Time : Type} [LinearOrder Time] (graph : DependencyGraph Time) (as_of : Option Time)
  (changed : List String)

-- The limit lets a node at this depth be expanded.
def Below (max_depth : Option Int) (depth : Nat) : Prop := ∀ limit ∈ max_depth, (depth : Int) < limit

def Within (max_depth : Option Int) (node : String) : Prop :=
  ∃ count, Steps (Propagates graph as_of) (· ∈ changed) count node ∧
    ∀ limit ∈ max_depth, (count : Int) ≤ limit

-- A node the walk visits, with its shortest distance from the seeds.
def Visited (max_depth : Option Int) (node : String) (depth : Nat) : Prop :=
  Distance (Propagates graph as_of) (· ∈ changed) depth node ∧
    ∀ closer < depth, Below max_depth closer

-- A node the walk visits and does not expand.
def AtLimit (max_depth : Option Int) (node : String) : Prop :=
  ∃ depth, Visited graph as_of changed max_depth node depth ∧ ¬Below max_depth depth

-- The hops of a real path from a seed, each written with the node it leaves.
inductive Route : List (String × EdgeType) → String → Prop
  | seed {node : String} (hs : node ∈ changed) : Route [] node
  | hop {via : List (String × EdgeType)} {node next : String} {edge_type : EdgeType}
      (hr : Route via node) (hp : PropagatesBy graph as_of edge_type node next) :
      Route (via ++ [(node, edge_type)]) next

def RaisingAdds (max_depth : Option Int) (report : ImpactReport) : Prop :=
  ∃ limit ∈ max_depth, ∃ raised : Option Int, (∀ higher ∈ raised, limit < higher) ∧
    ∃ larger, graph.impact_of changed raised as_of = some larger ∧
      ∃ node ∈ larger.affected_ids, node ∉ report.affected_ids

-- What a report promises a reader who acts on it.
structure ImpactExact (max_depth : Option Int) (report : ImpactReport) : Prop where
  once : report.affected_ids.Nodup
  affected : ∀ node, node ∈ report.affected_ids ↔
    node ∉ changed ∧ Within graph as_of changed max_depth node
  shortest : ∀ path ∈ report.affected,
    Distance (Propagates graph as_of) (· ∈ changed) path.depth path.node_id
  routed : ∀ path ∈ report.affected,
    Route graph as_of changed path.via path.node_id ∧ path.via.length = path.depth
  truncated : report.truncated_at_depth = true ↔ RaisingAdds graph as_of changed max_depth report

-- Where the limit stops the walk in front of some edge, some such edge leads to a
-- node beyond the limit.
def LimitTold (max_depth : Option Int) : Prop :=
  (∃ node next, AtLimit graph as_of changed max_depth node ∧ Propagates graph as_of node next) →
    ∃ node next, AtLimit graph as_of changed max_depth node ∧ Propagates graph as_of node next ∧
      next ∉ changed ∧ ¬Within graph as_of changed max_depth next

end Radius

-- The nodes seen so far and those waiting, each with its depth.
def Traversal.seen (seeds : List String) (walk : Traversal) : List (String × Nat) :=
  seeds.map (·, 0) ++ walk.affected.map (fun path => (path.node_id, path.depth))

def Traversal.waiting (walk : Traversal) : List (String × Nat) :=
  walk.queue.map (fun visit => (visit.node, visit.depth))

section Spread

variable {Time : Type} [LinearOrder Time] {graph : DependencyGraph Time} {as_of : Option Time}
  {seeds : List String} {max_depth : Option Int}

theorem below_iff (depth : Nat) :
    max_depth.any (fun limit => limit ≤ (depth : Int)) = true ↔ ¬Below max_depth depth := by
  cases max_depth with
  | none => simp [Below]
  | some limit => simp [Below]

-- Between two turns of the outer loop.
structure Spread (graph : DependencyGraph Time) (as_of : Option Time) (seeds : List String)
    (max_depth : Option Int) (walk : Traversal) : Prop where
  layered : Layered (Propagates graph as_of) (· ∈ seeds) (Below max_depth) (walk.seen seeds)
    walk.waiting
  routed_path : ∀ path ∈ walk.affected,
    Route graph as_of seeds path.via path.node_id ∧ path.via.length = path.depth
  routed_visit : ∀ visit ∈ walk.queue,
    Route graph as_of seeds visit.via visit.node ∧ visit.via.length = visit.depth
  cut : walk.truncated = true → ∃ entry ∈ walk.seen seeds, ¬Below max_depth entry.2 ∧
    ∃ next, Propagates graph as_of entry.1 next
  told : ∀ entry ∈ walk.seen seeds, entry ∉ walk.waiting → ¬Below max_depth entry.2 →
    ∀ next, Propagates graph as_of entry.1 next → walk.truncated = true

theorem Spread.start : Spread graph as_of seeds max_depth (.start seeds) := by
  have hseen : (Traversal.start seeds).seen seeds = seeds.map (·, 0) := by
    simp [Traversal.seen, Traversal.start]
  have hwaiting : (Traversal.start seeds).waiting = seeds.map (·, 0) := by
    simp [Traversal.waiting, Traversal.start, Function.comp_def]
  refine ⟨?_, by simp [Traversal.start], ?_, by simp [Traversal.start], ?_⟩
  · rw [hseen, hwaiting]
    exact Layered.start seeds (fun _ => Iff.rfl)
  · intro visit hv
    obtain ⟨seed, hs, rfl⟩ := List.mem_map.mp hv
    exact ⟨.seed hs, rfl⟩
  · rw [hseen, hwaiting]
    exact fun entry he hnot => absurd he hnot

theorem mem_visited_of_seen {popped : Nat} {walk : Traversal}
    (hwalked : Walked graph seeds popped walk) (node : String) :
    (∃ depth, (node, depth) ∈ walk.seen seeds) ↔ node ∈ walk.visited := by
  simp only [hwalked.visited, Traversal.seen, List.mem_append, List.mem_map, Prod.mk.injEq]
  constructor
  · rintro ⟨depth, ⟨seed, hs, rfl, _⟩ | ⟨path, hp, rfl, _⟩⟩
    · exact Or.inl hs
    · exact Or.inr ⟨path, hp, rfl⟩
  · rintro (hs | ⟨path, hp, rfl⟩)
    · exact ⟨0, Or.inl ⟨node, hs, rfl, rfl⟩⟩
    · exact ⟨path.depth, Or.inr ⟨path, hp, rfl, rfl⟩⟩

theorem Spread.skip {walk : Traversal} {visit : Visit} {rest : List Visit}
    (hinv : Spread graph as_of seeds max_depth walk) (hqueue : walk.queue = visit :: rest)
    (hcut : ¬Below max_depth visit.depth) (truncated : Bool)
    (htold : truncated = true ↔ walk.truncated = true ∨ ∃ next, Propagates graph as_of visit.node next) :
    Spread graph as_of seeds max_depth { walk with queue := rest, truncated := truncated } := by
  have hwaiting : walk.waiting = (visit.node, visit.depth) ::
      { walk with queue := rest, truncated := truncated }.waiting := by
    simp [Traversal.waiting, hqueue]
  have hlayered := hinv.layered
  rw [hwaiting] at hlayered
  have hhead := hlayered.waiting_seen _ List.mem_cons_self
  refine ⟨hlayered.skip hcut, hinv.routed_path, fun other ho => hinv.routed_visit other ?_, ?_, ?_⟩
  · rw [hqueue]
    exact List.mem_cons_of_mem _ ho
  · intro htrue
    rcases htold.mp htrue with hold | hnext
    · exact hinv.cut hold
    · exact ⟨_, hhead, hcut, hnext⟩
  · intro entry he hnot hbelow next hp
    by_cases heq : entry = (visit.node, visit.depth)
    · subst heq
      exact htold.mpr (Or.inr ⟨next, hp⟩)
    · refine htold.mpr (Or.inl (hinv.told entry he (fun hm => ?_) hbelow next hp))
      rw [hwaiting] at hm
      exact (List.mem_cons.mp hm).elim heq hnot

theorem Spread.followed {popped : Nat} {walk after : Traversal} {visit : Visit} {rest : List Visit}
    {taken : List (String × EdgeType)} (hinv : Spread graph as_of seeds max_depth walk)
    (hwalked : Walked graph seeds popped walk) (hqueue : walk.queue = visit :: rest)
    (hopen : Below max_depth visit.depth)
    (hf : Followed visit (graph.successors visit.node as_of) { walk with queue := rest } after
      taken) : Spread graph as_of seeds max_depth after := by
  have hlayered := hinv.layered
  have hwaiting : walk.waiting = (visit.node, visit.depth) ::
      rest.map (fun visit => (visit.node, visit.depth)) := by
    simp [Traversal.waiting, hqueue]
  rw [hwaiting] at hlayered
  have hseen_after : after.seen seeds =
      walk.seen seeds ++ (taken.map Prod.fst).map (·, visit.depth + 1) := by
    simp [Traversal.seen, hf.affected, Visit.toward, Function.comp_def]
  have hwaiting_after : after.waiting = rest.map (fun visit => (visit.node, visit.depth)) ++
      (taken.map Prod.fst).map (·, visit.depth + 1) := by
    simp [Traversal.waiting, hf.queue, Visit.child, Function.comp_def]
  obtain ⟨hroute, hlength⟩ := hinv.routed_visit visit (by rw [hqueue]; exact List.mem_cons_self)
  have hhop : ∀ hop ∈ taken, Route graph as_of seeds (visit.via ++ [(visit.node, hop.2)]) hop.1 ∧
      (visit.via ++ [(visit.node, hop.2)]).length = visit.depth + 1 := by
    intro hop hh
    refine ⟨hroute.hop ?_, by simp [hlength]⟩
    exact (graph.mem_successors_by visit.node as_of hop).mp (hf.from_hops hop hh)
  refine ⟨?_, ?_, ?_, ?_, ?_⟩
  · rw [hseen_after, hwaiting_after]
    apply hlayered.expand hopen
    · intro next hn
      obtain ⟨hop, hh, rfl⟩ := List.mem_map.mp hn
      refine ⟨(graph.mem_successors visit.node as_of hop.1).mp ⟨hop.2, hf.from_hops hop hh⟩, ?_⟩
      intro count hm
      exact hf.disjoint hop hh ((mem_visited_of_seen hwalked hop.1).mp ⟨count, hm⟩)
    · intro next hp
      obtain ⟨edge_type, he⟩ := (graph.mem_successors visit.node as_of next).mpr hp
      have hvisited := hf.all_hops _ he
      rw [hf.visited] at hvisited
      exact (List.mem_append.mp hvisited).imp (mem_visited_of_seen hwalked next).mpr id
  · intro path hp
    rw [hf.affected] at hp
    rcases List.mem_append.mp hp with hp | hp
    · exact hinv.routed_path path hp
    · obtain ⟨hop, hh, rfl⟩ := List.mem_map.mp hp
      exact hhop hop hh
  · intro other ho
    rw [hf.queue] at ho
    rcases List.mem_append.mp ho with ho | ho
    · exact hinv.routed_visit other (by rw [hqueue]; exact List.mem_cons_of_mem _ ho)
    · obtain ⟨hop, hh, rfl⟩ := List.mem_map.mp ho
      exact hhop hop hh
  · intro htrue
    obtain ⟨entry, he, hentry⟩ := hinv.cut (hf.truncated ▸ htrue)
    refine ⟨entry, ?_, hentry⟩
    rw [hseen_after]
    exact List.mem_append_left _ he
  · intro entry he hnot hbelow next hp
    rw [hseen_after] at he
    rw [hwaiting_after] at hnot
    have hout := not_or.mp (fun h => hnot (List.mem_append.mpr h))
    rcases List.mem_append.mp he with he | he
    · have htold := hinv.told entry he (fun hm => ?_) hbelow next hp
      · rw [hf.truncated]
        exact htold
      · rw [hwaiting] at hm
        rcases List.mem_cons.mp hm with rfl | hm
        · exact hbelow hopen
        · exact hout.1 hm
    · exact absurd he hout.2

theorem Spread.expand {popped : Nat} {walk : Traversal} {visit : Visit} {rest : List Visit}
    (hinv : Spread graph as_of seeds max_depth walk) (hwalked : Walked graph seeds popped walk)
    (hqueue : walk.queue = visit :: rest) :
    Spread graph as_of seeds max_depth
      (graph.expand max_depth as_of visit { walk with queue := rest }) := by
  have hnext : graph.successors visit.node as_of = [] ↔
      ¬∃ next, Propagates graph as_of visit.node next := by
    simp only [← graph.mem_successors, List.eq_nil_iff_forall_not_mem]
    exact ⟨fun h ⟨next, edge_type, hm⟩ => h _ hm, fun h hop hm => h ⟨hop.1, hop.2, hm⟩⟩
  unfold DependencyGraph.expand
  by_cases hlimit : max_depth.any (fun limit => limit ≤ (visit.depth : Int)) = true
  · have hcut := (below_iff visit.depth).mp hlimit
    rw [if_pos hlimit]
    by_cases hnil : graph.successors visit.node as_of = []
    · rw [if_pos hnil]
      exact hinv.skip hqueue hcut walk.truncated (by simp [hnext.mp hnil])
    · rw [if_neg hnil]
      exact hinv.skip hqueue hcut true (by simp [not_not.mp (mt hnext.mpr hnil)])
  · have hopen := not_not.mp (mt (below_iff visit.depth).mpr hlimit)
    rw [if_neg hlimit]
    obtain ⟨taken, hf⟩ := hwalked.sweep hqueue as_of
    exact hinv.followed hwalked hqueue hopen hf

end Spread

section Radius

variable {Time : Type} [LinearOrder Time] {graph : DependencyGraph Time} {as_of : Option Time}
  {changed : List String} {max_depth : Option Int}

theorem mem_fromkeys_eq : (fun node => node ∈ fromkeys changed) = (fun node => node ∈ changed) :=
  funext fun _ => propext mem_fromkeys

theorem Route.of_fromkeys {via : List (String × EdgeType)} {node : String}
    (hr : Route graph as_of (fromkeys changed) via node) : Route graph as_of changed via node := by
  induction hr with
  | seed hs => exact .seed (mem_fromkeys.mp hs)
  | hop _ hp ih => exact ih.hop hp

theorem within_fromkeys (node : String) : Within graph as_of (fromkeys changed) max_depth node ↔
    Within graph as_of changed max_depth node := by
  rw [Within, mem_fromkeys_eq]
  rfl

-- With no limit, whatever is reachable is within it.
theorem within_none_iff (node : String) :
    Within graph as_of changed none node ↔ Stale graph as_of changed node := by
  rw [Stale, ← exists_steps_iff]
  simp [Within]

theorem visited_of_mem {node : String} (hs : node ∈ changed) :
    Visited graph as_of changed max_depth node 0 :=
  ⟨⟨.source hs, fun _ _ => Nat.zero_le _⟩, fun _ h => absurd h (Nat.not_lt_zero _)⟩

theorem within_iff {node : String} (hout : node ∉ changed) :
    Within graph as_of changed max_depth node ↔
      ∃ depth, Visited graph as_of changed max_depth node depth := by
  constructor
  · rintro ⟨count, hsteps, hlimit⟩
    obtain ⟨least, hle, hd⟩ := exists_distance hsteps
    refine ⟨least, hd, fun closer hlt limit hl => ?_⟩
    have := hlimit limit hl
    omega
  · rintro ⟨depth, hd, hbelow⟩
    refine ⟨depth, hd.1, fun limit hl => ?_⟩
    cases depth with
    | zero => exact absurd (steps_zero.mp hd.1) hout
    | succ depth =>
        have := hbelow depth (Nat.lt_succ_self _) limit hl
        omega

-- A walk to an unvisited node leaves the visited ones somewhere, at the limit.
theorem exists_hidden {count : Nat} {node : String}
    (hsteps : Steps (Propagates graph as_of) (· ∈ changed) count node)
    (hnot : ¬∃ depth, Visited graph as_of changed max_depth node depth) :
    ∃ last next, AtLimit graph as_of changed max_depth last ∧ Propagates graph as_of last next ∧
      ¬∃ depth, Visited graph as_of changed max_depth next depth := by
  induction hsteps with
  | source hs => exact absurd ⟨0, visited_of_mem hs⟩ hnot
  | next hbefore hstep ih =>
      rename_i last node
      by_cases hlast : ∃ depth, Visited graph as_of changed max_depth last depth
      · obtain ⟨depth, hvisited⟩ := hlast
        refine ⟨last, node, ⟨depth, hvisited, fun hbelow => hnot ?_⟩, hstep, hnot⟩
        obtain ⟨least, hle, hd⟩ := exists_distance (hvisited.1.1.next hstep)
        refine ⟨least, hd, fun closer hlt => ?_⟩
        rcases Nat.lt_or_ge closer depth with hcloser | hcloser
        · exact hvisited.2 closer hcloser
        · rwa [show closer = depth by omega]
      · exact ih hlast

theorem visited_one_further {limit : Int} {depth count : Nat} {node : String}
    (hd : Distance (Propagates graph as_of) (· ∈ changed) depth node) (hle : depth ≤ count + 1)
    (hlimit : limit ≤ count) :
    Visited graph as_of changed (some (count + 1)) node depth ∧
      ∀ higher ∈ some ((count : Int) + 1), limit < higher := by
  refine ⟨⟨hd, fun closer hlt higher hh => ?_⟩, fun higher hh => ?_⟩
  · obtain rfl := Option.some.inj hh
    omega
  · obtain rfl := Option.some.inj hh
    omega

variable (graph as_of changed max_depth)

-- What the walk establishes about its report.
structure Spanned (report : ImpactReport) : Prop where
  once : report.affected_ids.Nodup
  covers : ∀ node depth, (∃ path ∈ report.affected, path.node_id = node ∧ path.depth = depth) ↔
    node ∉ changed ∧ Visited graph as_of changed max_depth node depth
  routed : ∀ path ∈ report.affected,
    Route graph as_of changed path.via path.node_id ∧ path.via.length = path.depth
  truncated : report.truncated_at_depth = true ↔
    ∃ node next, AtLimit graph as_of changed max_depth node ∧ Propagates graph as_of node next

theorem impact_of_spanned : ∃ report, graph.impact_of changed max_depth as_of = some report ∧
    Spanned graph as_of changed max_depth report := by
  obtain ⟨report, final, _, hrun, haffected, htruncated, hqueue, hwalked, hspread⟩ :=
    graph.impact_of_keeps changed max_depth as_of
      (Spread graph as_of (fromkeys changed) max_depth)
      (fun _ _ _ _ hwalked hqueue hspread => hspread.expand hwalked hqueue) Spread.start
  have hwaiting : final.waiting = [] := by simp [Traversal.waiting, hqueue]
  have hlayered := hspread.layered
  rw [hwaiting] at hlayered
  have hdone (node : String) (depth : Nat) : (node, depth) ∈ final.seen (fromkeys changed) ↔
      Visited graph as_of changed max_depth node depth := by
    rw [hlayered.done node depth, mem_fromkeys_eq]
    rfl
  have hnodup := hwalked.nodup
  rw [hwalked.visited, List.nodup_append] at hnodup
  refine ⟨report, hrun, ?_, ?_, ?_, ?_⟩
  · rw [ImpactReport.affected_ids, haffected]
    exact hnodup.2.1
  · intro node depth
    rw [← hdone, haffected]
    simp only [Traversal.seen, List.mem_append, List.mem_map, Prod.mk.injEq]
    constructor
    · rintro ⟨path, hp, rfl, rfl⟩
      refine ⟨fun hs => ?_, Or.inr ⟨path, hp, rfl, rfl⟩⟩
      exact hnodup.2.2 _ (mem_fromkeys.mpr hs) _ (List.mem_map.mpr ⟨path, hp, rfl⟩) rfl
    · rintro ⟨hout, ⟨seed, hs, rfl, _⟩ | hpath⟩
      · exact absurd (mem_fromkeys.mp hs) hout
      · exact hpath
  · intro path hp
    rw [haffected] at hp
    exact ⟨(hspread.routed_path path hp).1.of_fromkeys, (hspread.routed_path path hp).2⟩
  · rw [htruncated]
    constructor
    · intro htrue
      obtain ⟨⟨node, depth⟩, hseen, hcut, next, hp⟩ := hspread.cut htrue
      exact ⟨node, next, ⟨depth, (hdone node depth).mp hseen, hcut⟩, hp⟩
    · rintro ⟨node, next, ⟨depth, hvisited, hcut⟩, hp⟩
      exact hspread.told (node, depth) ((hdone node depth).mpr hvisited) (by simp [hwaiting]) hcut
        next hp

variable {graph as_of changed max_depth}

theorem Spanned.mem_affected_ids {report : ImpactReport}
    (hspan : Spanned graph as_of changed max_depth report) (node : String) :
    node ∈ report.affected_ids ↔ node ∉ changed ∧ Within graph as_of changed max_depth node := by
  have hcovers := hspan.covers node
  simp only [ImpactReport.affected_ids, List.mem_map]
  constructor
  · rintro ⟨path, hp, hnode⟩
    obtain ⟨hout, hvisited⟩ := (hcovers path.depth).mp ⟨path, hp, hnode, rfl⟩
    exact ⟨hout, (within_iff hout).mpr ⟨_, hvisited⟩⟩
  · rintro ⟨hout, hwithin⟩
    obtain ⟨depth, hvisited⟩ := (within_iff hout).mp hwithin
    obtain ⟨path, hp, hnode, _⟩ := (hcovers depth).mpr ⟨hout, hvisited⟩
    exact ⟨path, hp, hnode⟩

theorem Spanned.raising_adds_iff {report : ImpactReport}
    (hspan : Spanned graph as_of changed max_depth report) :
    RaisingAdds graph as_of changed max_depth report ↔
      ∃ node next, AtLimit graph as_of changed max_depth node ∧ Propagates graph as_of node next ∧
        next ∉ changed ∧ ¬Within graph as_of changed max_depth next := by
  constructor
  · rintro ⟨limit, _, raised, _, larger, hlarger, node, hin, hnot⟩
    obtain ⟨found, hfound, hlarger_span⟩ := impact_of_spanned graph as_of changed raised
    obtain rfl := Option.some.inj (hlarger.symm.trans hfound)
    obtain ⟨hout, count, hsteps, _⟩ := (hlarger_span.mem_affected_ids node).mp hin
    have hunseen : ¬∃ depth, Visited graph as_of changed max_depth node depth := fun hvisited =>
      hnot ((hspan.mem_affected_ids node).mpr ⟨hout, (within_iff hout).mpr hvisited⟩)
    obtain ⟨last, next, hlast, hp, hnext⟩ := exists_hidden hsteps hunseen
    have hnext_out : next ∉ changed := fun hs => hnext ⟨0, visited_of_mem hs⟩
    exact ⟨last, next, hlast, hp, hnext_out, fun hw => hnext ((within_iff hnext_out).mp hw)⟩
  · rintro ⟨node, next, ⟨depth, hvisited, hcut⟩, hp, hout, hbeyond⟩
    simp only [Below, not_forall, Int.not_lt] at hcut
    obtain ⟨limit, hlimit, hle⟩ := hcut
    obtain ⟨least, hleast, hd⟩ := exists_distance (hvisited.1.1.next hp)
    obtain ⟨hfurther, hraised⟩ := visited_one_further hd hleast hle
    obtain ⟨larger, hlarger, hlarger_span⟩ :=
      impact_of_spanned graph as_of changed (some ((depth : Int) + 1))
    refine ⟨limit, hlimit, some ((depth : Int) + 1), hraised, larger, hlarger, next, ?_, ?_⟩
    · exact (hlarger_span.mem_affected_ids next).mpr ⟨hout, (within_iff hout).mpr ⟨least, hfurther⟩⟩
    · exact fun hin => hbeyond ((hspan.mem_affected_ids next).mp hin).2

-- Any edge out of a node at the limit raises the flag, also one back to a visited node.
theorem impact_exact_iff (graph : DependencyGraph Time) (changed : List String)
    (max_depth : Option Int) (as_of : Option Time) :
    ∃ report, graph.impact_of changed max_depth as_of = some report ∧
      (ImpactExact graph as_of changed max_depth report ↔
        LimitTold graph as_of changed max_depth) := by
  obtain ⟨report, hreport, hspan⟩ := impact_of_spanned graph as_of changed max_depth
  refine ⟨report, hreport, ?_, ?_⟩
  · intro hexact hcut
    exact hspan.raising_adds_iff.mp (hexact.truncated.mp (hspan.truncated.mpr hcut))
  · intro htold
    refine ⟨hspan.once, hspan.mem_affected_ids, ?_, hspan.routed, ?_⟩
    · exact fun path hp => ((hspan.covers _ _).mp ⟨path, hp, rfl, rfl⟩).2.1
    · rw [hspan.truncated, hspan.raising_adds_iff]
      exact ⟨htold, fun ⟨node, next, hnode, hp, _⟩ => ⟨node, next, hnode, hp⟩⟩

end Radius

-- Two units that invalidate each other: at depth one, the edge out leads back.
def mutual_invalidation : DependencyGraph Nat where
  edges := [claim_invalidates_chunk, chunk_invalidates_claim]

theorem cycle_claims_truncation :
    ∃ report, mutual_invalidation.impact_of ["ku_claim"] (some 1) none = some report ∧
      report.truncated_at_depth = true ∧
      ¬ImpactExact mutual_invalidation none ["ku_claim"] (some 1) report := by
  have hflag : (mutual_invalidation.impact_of ["ku_claim"] (some 1) none).map
      (fun report => report.truncated_at_depth) = some true := by decide
  obtain ⟨report, hreport, htrue⟩ := Option.map_eq_some_iff.mp hflag
  refine ⟨report, hreport, htrue, fun hexact => ?_⟩
  obtain ⟨found, hfound, hspan⟩ := impact_of_spanned mutual_invalidation none ["ku_claim"] (some 1)
  obtain rfl := Option.some.inj (hreport.symm.trans hfound)
  obtain ⟨node, next, _, hp, hout, hbeyond⟩ :=
    hspan.raising_adds_iff.mp (hexact.truncated.mp htrue)
  have hnodes : mutual_invalidation.nodes = ["chunk_1", "ku_claim"] := by decide
  have hnext := mutual_invalidation.mem_nodes_of_propagates hp
  rw [hnodes] at hnext
  have hchunk : next = "chunk_1" := by simpa [List.mem_singleton.not.mp hout] using hnext
  subst hchunk
  have hstep : Propagates mutual_invalidation none "ku_claim" "chunk_1" :=
    ⟨_, List.mem_cons_self, rfl, Or.inl ⟨rfl, rfl, rfl⟩⟩
  exact hbeyond ⟨1, (Steps.source (List.mem_singleton_self _)).next hstep, by simp⟩

end KnowledgeCompiler.Recompilation
