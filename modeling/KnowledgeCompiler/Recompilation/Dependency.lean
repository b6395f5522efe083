import KnowledgeCompiler.Lib.Dict
import Mathlib.Data.List.Sort
import Mathlib.Data.String.Basic
import Mathlib.Order.Basic

namespace KnowledgeCompiler.Recompilation

inductive Propagation
  | UPSTREAM
  | DOWNSTREAM
  | INERT
deriving DecidableEq, Repr

inductive EdgeType
  | DERIVED_FROM
  | DEPENDS_ON
  | SUPPORTS
  | SUPERSEDES
  | REFERENCES
  | CONSUMED_BY
  | EXPORTS_TO
  | INVALIDATES
deriving DecidableEq, Repr

def EdgeType.value : EdgeType → String
  | DERIVED_FROM => "DERIVED_FROM"
  | DEPENDS_ON => "DEPENDS_ON"
  | SUPPORTS => "SUPPORTS"
  | SUPERSEDES => "SUPERSEDES"
  | REFERENCES => "REFERENCES"
  | CONSUMED_BY => "CONSUMED_BY"
  | EXPORTS_TO => "EXPORTS_TO"
  | INVALIDATES => "INVALIDATES"

def EdgeType.propagation : EdgeType → Propagation
  | DERIVED_FROM => .UPSTREAM
  | DEPENDS_ON => .UPSTREAM
  | SUPPORTS => .DOWNSTREAM
  | REFERENCES => .INERT
  | SUPERSEDES => .INERT
  | CONSUMED_BY => .DOWNSTREAM
  | EXPORTS_TO => .DOWNSTREAM
  | INVALIDATES => .DOWNSTREAM

-- The proofs are what `__post_init__` checks.
structure DependencyEdge (Time : Type) [LinearOrder Time] where
  source_id : String
  target_id : String
  edge_type : EdgeType
  valid_from : Option Time := none
  valid_to : Option Time := none
  ends_named : source_id ≠ "" ∧ target_id ≠ ""
  ends_differ : source_id ≠ target_id
  ordered : ∀ start ∈ valid_from, ∀ stop ∈ valid_to, start ≤ stop

variable {Time : Type} [LinearOrder Time]

def DependencyEdge.live_at (edge : DependencyEdge Time) : Option Time → Bool
  | none => true
  | some moment =>
      edge.valid_from.all (fun start => start ≤ moment) &&
        edge.valid_to.all (fun stop => moment < stop)

structure ImpactPath where
  node_id : String
  depth : Nat
  via : List (String × EdgeType)
deriving DecidableEq, Repr

def ImpactPath.describe (path : ImpactPath) : String :=
  if path.via = [] then path.node_id ++ " (changed directly)"
  else
    " -> ".intercalate (path.via.map (fun hop => hop.1 ++ " [" ++ hop.2.value ++ "]")) ++ " -> " ++
      path.node_id

structure ImpactReport where
  changed : List String
  affected : List ImpactPath := []
  truncated_at_depth : Bool := false
  cycles_detected : List (List String) := []
  unknown_nodes : List String := []
deriving DecidableEq, Repr

def ImpactReport.affected_ids (report : ImpactReport) : List String :=
  report.affected.map ImpactPath.node_id

-- `_out` and `_in` hold the edges of a node in the order they were added.
structure DependencyGraph (Time : Type) [LinearOrder Time] where
  edges : List (DependencyEdge Time)

namespace DependencyGraph

variable (graph : DependencyGraph Time)

def nodes : List String :=
  (graph.edges.flatMap (fun edge => [edge.source_id, edge.target_id])).dedup

def edges_out (node_id : String) : List (DependencyEdge Time) :=
  graph.edges.filter (fun edge => edge.source_id = node_id)

def edges_in (node_id : String) : List (DependencyEdge Time) :=
  graph.edges.filter (fun edge => edge.target_id = node_id)

-- Python's order on the pairs `(node, edge type)`.
def successor_le (first second : String × EdgeType) : Bool :=
  first.1 < second.1 || first.1 == second.1 && first.2.value ≤ second.2.value

def successors (node_id : String) (moment : Option Time) : List (String × EdgeType) :=
  let down := (graph.edges_out node_id).filter (fun edge =>
    edge.edge_type.propagation = .DOWNSTREAM && edge.live_at moment)
  let up := (graph.edges_in node_id).filter (fun edge =>
    edge.edge_type.propagation = .UPSTREAM && edge.live_at moment)
  let found := down.map (fun edge => (edge.target_id, edge.edge_type)) ++
    up.map (fun edge => (edge.source_id, edge.edge_type))
  found.dedup.insertionSort (fun first second => successor_le first second = true)

end DependencyGraph

-- One entry of the queue.
structure Visit where
  node : String
  depth : Nat
  via : List (String × EdgeType)
  lineage : List String

structure Traversal where
  queue : List Visit
  visited : List String
  affected : List ImpactPath := []
  cycles : List (List String) := []
  truncated : Bool := false

def Traversal.start (seeds : List String) : Traversal where
  queue := seeds.map (fun seed => ⟨seed, 0, [], [seed]⟩)
  visited := seeds

def Traversal.report_cycle (walk : Traversal) (cycle : List String) : Traversal :=
  if cycle ∈ walk.cycles then walk else { walk with cycles := walk.cycles ++ [cycle] }

-- The body of the inner loop for one `(neighbour, edge_type)`.
def Traversal.follow (visit : Visit) (walk : Traversal) (hop : String × EdgeType) : Traversal :=
  if hop.1 ∈ visit.lineage then
    walk.report_cycle (visit.lineage.dropWhile (· ≠ hop.1) ++ [hop.1])
  else if hop.1 ∈ walk.visited then walk
  else
    let trail := visit.via ++ [(visit.node, hop.2)]
    { walk with
      visited := walk.visited ++ [hop.1]
      affected := walk.affected ++ [⟨hop.1, visit.depth + 1, trail⟩]
      queue := walk.queue ++ [⟨hop.1, visit.depth + 1, trail, visit.lineage ++ [hop.1]⟩] }

namespace DependencyGraph

variable (graph : DependencyGraph Time)

def expand (max_depth : Option Int) (as_of : Option Time) (visit : Visit) (walk : Traversal) :
    Traversal :=
  if max_depth.any (fun limit => limit ≤ (visit.depth : Int)) then
    if graph.successors visit.node as_of = [] then walk else { walk with truncated := true }
  else (graph.successors visit.node as_of).foldl (Traversal.follow visit) walk

def traverse (max_depth : Option Int) (as_of : Option Time) : Nat → Traversal → Option Traversal
  | 0, walk => if walk.queue.isEmpty then some walk else none
  | fuel + 1, walk =>
      match walk.queue with
      | [] => some walk
      | visit :: rest =>
          traverse max_depth as_of fuel
            (graph.expand max_depth as_of visit { walk with queue := rest })

-- A node enters the queue once, so the fuel counts the nodes there are.
def impact_of (changed : List String) (max_depth : Option Int) (as_of : Option Time) :
    Option ImpactReport := do
  let seeds := Lib.fromkeys changed
  let walk ← graph.traverse max_depth as_of (seeds.length + graph.nodes.length) (.start seeds)
  some
    { changed := seeds
      affected := walk.affected
      truncated_at_depth := walk.truncated
      cycles_detected := walk.cycles
      unknown_nodes := seeds.filter (· ∉ graph.nodes) }

end DependencyGraph

section Sample

-- A chunk made from a claim, and an answer that depends on both.

def chunk_from_claim : DependencyEdge Nat where
  source_id := "chunk_1"
  target_id := "ku_claim"
  edge_type := .DERIVED_FROM
  ends_named := by decide
  ends_differ := by decide
  ordered := by simp

def answer_on_chunk : DependencyEdge Nat where
  source_id := "answer_1"
  target_id := "chunk_1"
  edge_type := .DEPENDS_ON
  ends_named := by decide
  ends_differ := by decide
  ordered := by simp

def answer_on_claim : DependencyEdge Nat where
  source_id := "answer_1"
  target_id := "ku_claim"
  edge_type := .DEPENDS_ON
  ends_named := by decide
  ends_differ := by decide
  ordered := by simp

def claim_invalidates_chunk : DependencyEdge Nat where
  source_id := "ku_claim"
  target_id := "chunk_1"
  edge_type := .INVALIDATES
  ends_named := by decide
  ends_differ := by decide
  ordered := by simp

def chunk_invalidates_claim : DependencyEdge Nat where
  source_id := "chunk_1"
  target_id := "ku_claim"
  edge_type := .INVALIDATES
  ends_named := by decide
  ends_differ := by decide
  ordered := by simp

end Sample

end KnowledgeCompiler.Recompilation
