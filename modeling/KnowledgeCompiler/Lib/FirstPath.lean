import Mathlib.Data.List.Chain
import Mathlib.Data.List.Lex
import Mathlib.Data.Prod.Lex

namespace KnowledgeCompiler.Lib.FirstPath

variable {α : Type*}

section Paths

variable (step : α → α → Prop) (seeds : List α)

structure Path (path : List α) : Prop where
  source : ∃ seed ∈ seeds, path.head? = some seed
  steps : path.IsChain step

variable {step seeds}

theorem Path.ne_nil {path : List α} (hpath : Path step seeds path) : path ≠ [] := by
  rintro rfl
  obtain ⟨seed, -, hhead⟩ := hpath.source
  cases hhead

theorem Path.single {seed : α} (hseed : seed ∈ seeds) : Path step seeds [seed] where
  source := ⟨seed, hseed, rfl⟩
  steps := List.isChain_singleton seed

theorem Path.extend {path : List α} {last next : α} (hpath : Path step seeds path)
    (hlast : path.getLast? = some last) (hstep : step last next) : Path step seeds (path ++ [next]) where
  source := by
    rw [List.head?_append_of_ne_nil _ hpath.ne_nil]
    exact hpath.source
  steps := by
    refine hpath.steps.append (List.isChain_singleton next) ?_
    intro item hitem other hother
    rw [hlast] at hitem
    obtain rfl := Option.some.inj hitem
    obtain rfl := Option.some.inj hother
    exact hstep

-- Every path is a seed or a shorter path and one step.
theorem Path.shorten {path : List α} {last : α} (hpath : Path step seeds (path ++ [last])) :
    path = [] ∧ last ∈ seeds ∨
      Path step seeds path ∧ ∃ before, path.getLast? = some before ∧ step before last := by
  rcases List.eq_nil_or_concat path with rfl | ⟨front, before, rfl⟩
  · obtain ⟨seed, hseed, hhead⟩ := hpath.source
    obtain rfl := Option.some.inj hhead
    exact Or.inl ⟨rfl, hseed⟩
  · rw [List.concat_eq_append] at *
    refine Or.inr ⟨⟨?_, hpath.steps.left_of_append⟩, before, by simp, ?_⟩
    · have hsource := hpath.source
      rwa [List.head?_append_of_ne_nil _ (by simp)] at hsource
    · have hsteps := hpath.steps
      rw [List.append_assoc, List.singleton_append] at hsteps
      exact List.isChain_iff_forall_rel_of_append_cons_cons.mp hsteps rfl

end Paths

variable [LinearOrder α] (step : α → α → Prop) (seeds : List α)

-- Short paths come first, then those of an early seed, then those with small nodes.
def rank (path : List α) : ℕ ×ₗ ℕ ×ₗ List α :=
  toLex (path.length, toLex ((path.head?.map fun seed => seeds.idxOf seed).getD 0, path))

-- The first of the paths to the node where it ends.
structure First (path : List α) : Prop where
  leads : Path step seeds path
  least : ∀ other, Path step seeds other → other.getLast? = path.getLast? →
    rank seeds path ≤ rank seeds other

variable {step seeds}

section Ranks

theorem append_lt_append {first second : List α} (hlength : first.length = second.length)
    (hlt : first < second) (after other : List α) : first ++ after < second ++ other := by
  induction first generalizing second with
  | nil =>
    obtain rfl := List.length_eq_zero_iff.mp hlength.symm
    exact absurd hlt (List.lt_irrefl [])
  | cons item first ih =>
    cases second with
    | nil => cases hlength
    | cons next second =>
      rw [List.cons_append, List.cons_append, List.cons_lt_cons_iff]
      rcases List.cons_lt_cons_iff.mp hlt with hitem | ⟨rfl, hrest⟩
      · exact Or.inl hitem
      · exact Or.inr ⟨rfl, ih (Nat.succ.inj hlength) hrest⟩

theorem rank_injective {first second : List α} (hrank : rank seeds first = rank seeds second) :
    first = second := congrArg (fun rank => (ofLex (ofLex rank).2).2) hrank

theorem rank_lt_iff {first second : List α} : rank seeds first < rank seeds second ↔
    first.length < second.length ∨ first.length = second.length ∧
      ((first.head?.map fun seed => seeds.idxOf seed).getD 0 <
          (second.head?.map fun seed => seeds.idxOf seed).getD 0 ∨
        (first.head?.map fun seed => seeds.idxOf seed).getD 0 =
          (second.head?.map fun seed => seeds.idxOf seed).getD 0 ∧ first < second) := by
  rw [rank, rank, Prod.Lex.toLex_lt_toLex, Prod.Lex.toLex_lt_toLex]

theorem rank_append_lt {first second : List α} (hfirst : first ≠ []) (hsecond : second ≠ [])
    (hlt : rank seeds first < rank seeds second) (item other : α) :
    rank seeds (first ++ [item]) < rank seeds (second ++ [other]) := by
  rw [rank_lt_iff] at hlt ⊢
  rw [List.head?_append_of_ne_nil _ hfirst, List.head?_append_of_ne_nil _ hsecond,
    List.length_append, List.length_append]
  rcases hlt with hshort | ⟨hlength, hseed | ⟨hsame, hless⟩⟩
  · exact Or.inl (Nat.add_lt_add_right hshort 1)
  · exact Or.inr ⟨congrArg (· + 1) hlength, Or.inl hseed⟩
  · exact Or.inr ⟨congrArg (· + 1) hlength, Or.inr ⟨hsame, append_lt_append hlength hless _ _⟩⟩

theorem rank_append_lt_of_lt {first : List α} {item other : α} (hfirst : first ≠ [])
    (hlt : item < other) : rank seeds (first ++ [item]) < rank seeds (first ++ [other]) := by
  rw [rank_lt_iff, List.head?_append_of_ne_nil _ hfirst, List.head?_append_of_ne_nil _ hfirst]
  refine Or.inr ⟨by simp, Or.inr ⟨rfl, List.append_left_lt ?_⟩⟩
  exact List.cons_lt_cons_iff.mpr (Or.inl hlt)

theorem rank_append_le {first second : List α} (hfirst : first ≠ []) (hsecond : second ≠ [])
    (hle : rank seeds first ≤ rank seeds second) (item : α) :
    rank seeds (first ++ [item]) ≤ rank seeds (second ++ [item]) := by
  rcases lt_or_eq_of_le hle with hlt | heq
  · exact (rank_append_lt hfirst hsecond hlt item item).le
  · rw [rank_injective heq]

theorem rank_singleton_lt {seed item : α} {first : List α} (hfirst : first ≠ []) :
    rank seeds [seed] < rank seeds (first ++ [item]) := by
  have hlength := List.length_pos_iff.mpr hfirst
  rw [rank_lt_iff, List.length_append]
  exact Or.inl (by simpa using hlength)

end Ranks

-- A breadth-first walk: the paths to the nodes that it has left, and to those that
-- wait, in the order in which it found them.
structure Tree (step : α → α → Prop) (seeds : List α) (done queue : List (List α)) : Prop where
  seeded : ∀ seed ∈ seeds, [seed] ∈ done ++ queue
  paths : ∀ path ∈ done ++ queue, Path step seeds path
  sorted : (done ++ queue).Pairwise fun first second => rank seeds first < rank seeds second
  apart : (done ++ queue).Pairwise fun first second => first.getLast? ≠ second.getLast?
  grown : ∀ path ∈ done ++ queue,
    (∃ seed, path = [seed]) ∨ ∃ parent ∈ done, ∃ node, path = parent ++ [node]
  closed : ∀ path ∈ done, ∀ last next, path.getLast? = some last → step last next →
    ∃ other ∈ done ++ queue, other.getLast? = some next ∧ rank seeds other ≤ rank seeds (path ++ [next])

namespace Tree

variable {done queue : List (List α)}

theorem start (hseeds : seeds.Nodup) : Tree step seeds [] (seeds.map fun seed => [seed]) where
  seeded seed hseed := List.mem_map_of_mem hseed
  paths := by
    intro path hpath
    obtain ⟨seed, hseed, rfl⟩ := List.mem_map.mp hpath
    exact Path.single hseed
  sorted := by
    rw [List.nil_append, List.pairwise_map, List.pairwise_iff_getElem]
    intro i j hi hj hlt
    rw [rank_lt_iff]
    refine Or.inr ⟨rfl, Or.inl ?_⟩
    simpa [hseeds.idxOf_getElem] using hlt
  apart := by
    rw [List.nil_append, List.pairwise_map]
    exact hseeds.imp fun hne heq => hne (Option.some.inj heq)
  grown := by
    intro path hpath
    obtain ⟨seed, -, rfl⟩ := List.mem_map.mp hpath
    exact Or.inl ⟨seed, rfl⟩
  closed path hpath := absurd hpath List.not_mem_nil

-- Everything found so far comes before what the walk finds next.
theorem rank_lt_child {path : List α} {rest : List (List α)}
    (htree : Tree step seeds done (path :: rest)) {other : List α} (hother : other ∈ done ++ path :: rest)
    (next : α) : rank seeds other < rank seeds (path ++ [next]) := by
  have hpath := (htree.paths path (by simp)).ne_nil
  rcases htree.grown other hother with ⟨seed, rfl⟩ | ⟨parent, hparent, node, rfl⟩
  · exact rank_singleton_lt hpath
  · have hbefore := (List.pairwise_append.mp htree.sorted).2.2 parent hparent path List.mem_cons_self
    exact rank_append_lt (htree.paths parent (List.mem_append_left _ hparent)).ne_nil hpath hbefore node
      next

-- The walk leaves the first node that waits and takes, in order, the new nodes one step
-- away from it.
theorem expand {path : List α} {rest : List (List α)} {last : α} {taken : List α}
    (htree : Tree step seeds done (path :: rest)) (hlast : path.getLast? = some last)
    (hsorted : taken.Pairwise (· < ·)) (hsteps : ∀ next ∈ taken, step last next)
    (hfresh : ∀ next ∈ taken, ∀ other ∈ done ++ path :: rest, other.getLast? ≠ some next)
    (hall : ∀ next, step last next →
      next ∈ taken ∨ ∃ other ∈ done ++ path :: rest, other.getLast? = some next) :
    Tree step seeds (done ++ [path]) (rest ++ taken.map fun next => path ++ [next]) := by
  have hmem : path ∈ done ++ path :: rest := by simp
  have hpath := htree.paths path hmem
  have hentries : done ++ [path] ++ (rest ++ taken.map fun next => path ++ [next]) =
      done ++ path :: rest ++ taken.map fun next => path ++ [next] := by simp
  refine ⟨?_, ?_, ?_, ?_, ?_, ?_⟩
  · intro seed hseed
    rw [hentries]
    exact List.mem_append_left _ (htree.seeded seed hseed)
  · intro other hother
    rw [hentries] at hother
    rcases List.mem_append.mp hother with hother | hother
    · exact htree.paths other hother
    · obtain ⟨next, hnext, rfl⟩ := List.mem_map.mp hother
      exact hpath.extend hlast (hsteps next hnext)
  · rw [hentries, List.pairwise_append, List.pairwise_map]
    refine ⟨htree.sorted, hsorted.imp fun hlt => rank_append_lt_of_lt hpath.ne_nil hlt, ?_⟩
    intro other hother child hchild
    obtain ⟨next, -, rfl⟩ := List.mem_map.mp hchild
    exact htree.rank_lt_child hother next
  · rw [hentries, List.pairwise_append, List.pairwise_map]
    refine ⟨htree.apart, hsorted.imp fun hlt => ?_, ?_⟩
    · simpa using hlt.ne
    · intro other hother child hchild
      obtain ⟨next, hnext, rfl⟩ := List.mem_map.mp hchild
      simpa using hfresh next hnext other hother
  · intro other hother
    rw [hentries] at hother
    rcases List.mem_append.mp hother with hother | hother
    · refine (htree.grown other hother).imp id ?_
      rintro ⟨parent, hparent, node, hnode⟩
      exact ⟨parent, List.mem_append_left _ hparent, node, hnode⟩
    · obtain ⟨next, -, rfl⟩ := List.mem_map.mp hother
      exact Or.inr ⟨path, by simp, next, rfl⟩
  · intro left hleft end_node next hend hstep
    rw [hentries]
    rcases List.mem_append.mp hleft with hleft | hleft
    · obtain ⟨other, hother, hfound⟩ := htree.closed left hleft end_node next hend hstep
      exact ⟨other, List.mem_append_left _ hother, hfound⟩
    · obtain rfl := List.mem_singleton.mp hleft
      obtain rfl := Option.some.inj (hlast.symm.trans hend)
      rcases hall next hstep with htaken | ⟨other, hother, hfound⟩
      · refine ⟨left ++ [next], List.mem_append_right _ ?_, by simp, le_rfl⟩
        exact List.mem_map.mpr ⟨next, htaken, rfl⟩
      · exact ⟨other, List.mem_append_left _ hother, hfound, (htree.rank_lt_child hother next).le⟩

variable (hdone : Tree step seeds done [])
include hdone

-- Once nothing waits, each path has a rival among those found that is no later than it.
theorem least {path : List α} (hpath : Path step seeds path) :
    ∃ found ∈ done, found.getLast? = path.getLast? ∧ rank seeds found ≤ rank seeds path := by
  induction path using List.reverseRecOn with
  | nil => exact absurd rfl hpath.ne_nil
  | append_singleton path last ih =>
    rcases hpath.shorten with ⟨rfl, hseed⟩ | ⟨hbefore, before, hend, hstep⟩
    · have hmem := hdone.seeded last hseed
      rw [List.append_nil] at hmem
      exact ⟨[last], hmem, rfl, le_rfl⟩
    · obtain ⟨found, hfound, hsame, hle⟩ := ih hbefore
      obtain ⟨other, hother, hlast, hrank⟩ :=
        hdone.closed found hfound before last (hsame.trans hend) hstep
      rw [List.append_nil] at hother
      have hparent := (hdone.paths found (by simpa using hfound)).ne_nil
      refine ⟨other, hother, by simpa using hlast, hrank.trans ?_⟩
      exact rank_append_le hparent hbefore.ne_nil hle last

-- Two paths found to one node are the same path.
theorem found_once {first second : List α} (hfirst : first ∈ done) (hsecond : second ∈ done)
    (hlast : first.getLast? = second.getLast?) : first = second := by
  have hapart := hdone.apart
  rw [List.append_nil] at hapart
  by_contra hne
  have hsymm : Std.Symm fun first second : List α => first.getLast? ≠ second.getLast? :=
    ⟨fun _ _ hdiff => hdiff.symm⟩
  exact hapart.forall hfirst hsecond hne hlast

-- A finished walk has found the first path to each node, and no other one.
theorem mem_done_iff_first (path : List α) : path ∈ done ↔ First step seeds path := by
  constructor
  · intro hmem
    refine ⟨hdone.paths path (by simpa using hmem), fun other hother hlast => ?_⟩
    obtain ⟨found, hfound, hsame, hle⟩ := hdone.least hother
    rw [hdone.found_once hmem hfound (hlast.symm.trans hsame.symm)]
    exact hle
  · intro hfirst
    obtain ⟨found, hfound, hsame, hle⟩ := hdone.least hfirst.leads
    have hge := hfirst.least found (hdone.paths found (by simpa using hfound)) hsame
    rwa [rank_injective (le_antisymm hge hle)]

end Tree

end KnowledgeCompiler.Lib.FirstPath
