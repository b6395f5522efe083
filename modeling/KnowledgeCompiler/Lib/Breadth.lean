import Mathlib.Data.List.Basic
import Mathlib.Data.Nat.Find
import Mathlib.Logic.Relation
import Mathlib.Order.Nat

namespace KnowledgeCompiler.Lib.Explore

variable {α : Type*} (step : α → α → Prop) (seeds : List α)

def Reachable (node : α) : Prop := ∃ seed ∈ seeds, Relation.ReflTransGen step seed node

variable {step seeds}

theorem Reachable.seed {node : α} (hs : node ∈ seeds) : Reachable step seeds node :=
  ⟨node, hs, Relation.ReflTransGen.refl⟩

theorem Reachable.next {node next : α} (hr : Reachable step seeds node) (hstep : step node next) :
    Reachable step seeds next := by
  obtain ⟨seed, hs, hpath⟩ := hr
  exact ⟨seed, hs, hpath.tail hstep⟩

end KnowledgeCompiler.Lib.Explore

namespace KnowledgeCompiler.Lib.Breadth

variable {α : Type*} (step : α → α → Prop) (source : α → Prop)

inductive Steps : ℕ → α → Prop
  | source {node : α} (hs : source node) : Steps 0 node
  | next {count : ℕ} {node other : α} (hs : Steps count node) (hstep : step node other) :
      Steps (count + 1) other

def Distance (count : ℕ) (node : α) : Prop :=
  Steps step source count node ∧ ∀ other, Steps step source other node → count ≤ other

-- What a breadth-first walk knows between two nodes, when it expands the nodes
-- at the distances `expands` holds of: `waiting` is its queue.
structure Layered (expands : ℕ → Prop) (seen waiting : List (α × ℕ)) : Prop where
  distance : ∀ entry ∈ seen, Distance step source entry.2 entry.1
  seeded : ∀ node, source node → (node, 0) ∈ seen
  opened : ∀ entry ∈ seen, ∀ count < entry.2, expands count
  waiting_seen : ∀ entry ∈ waiting, entry ∈ seen
  ordered : waiting.Pairwise (fun first second => first.2 ≤ second.2)
  near : ∀ first ∈ waiting, ∀ second ∈ waiting, second.2 ≤ first.2 + 1
  closed : ∀ entry ∈ seen, entry ∉ waiting → expands entry.2 →
    ∀ next, step entry.1 next → ∃ count, (next, count) ∈ seen

variable {step source}

theorem steps_zero {node : α} : Steps step source 0 node ↔ source node :=
  ⟨fun h => by cases h; assumption, Steps.source⟩

theorem exists_steps_iff {seeds : List α} {node : α} :
    (∃ count, Steps step (· ∈ seeds) count node) ↔ Explore.Reachable step seeds node := by
  constructor
  · rintro ⟨count, hsteps⟩
    induction hsteps with
    | source hs => exact Explore.Reachable.seed hs
    | next _ hstep ih => exact ih.next hstep
  · rintro ⟨seed, hs, hpath⟩
    induction hpath with
    | refl => exact ⟨0, .source hs⟩
    | tail _ hstep ih =>
        obtain ⟨count, hsteps⟩ := ih
        exact ⟨count + 1, hsteps.next hstep⟩

theorem Distance.unique {count other : ℕ} {node : α} (hfirst : Distance step source count node)
    (hsecond : Distance step source other node) : count = other :=
  Nat.le_antisymm (hfirst.2 other hsecond.1) (hsecond.2 count hfirst.1)

theorem exists_distance {count : ℕ} {node : α} (hsteps : Steps step source count node) :
    ∃ least ≤ count, Distance step source least node := by
  classical
  have hex : ∃ other, Steps step source other node := ⟨count, hsteps⟩
  exact ⟨Nat.find hex, Nat.find_min' hex hsteps, Nat.find_spec hex, fun _ h => Nat.find_min' hex h⟩

theorem Distance.pred {count : ℕ} {node : α} (hd : Distance step source (count + 1) node) :
    ∃ before, Distance step source count before ∧ step before node := by
  obtain ⟨hsteps, hleast⟩ := hd
  cases hsteps with
  | next hbefore hstep =>
      refine ⟨_, ⟨hbefore, fun other hother => ?_⟩, hstep⟩
      have := hleast (other + 1) (hother.next hstep)
      omega

namespace Layered

variable {expands : ℕ → Prop} {seen waiting : List (α × ℕ)}

-- Everything at most as far as the front of the queue has been seen.
theorem covered (hinv : Layered step source expands seen waiting) (front : ℕ)
    (hwaiting : ∀ entry ∈ waiting, front ≤ entry.2) (hopen : ∀ count < front, expands count)
    (count : ℕ) (hle : count ≤ front) (node : α) (hd : Distance step source count node) :
    (node, count) ∈ seen := by
  induction count generalizing node with
  | zero => exact hinv.seeded node (steps_zero.mp hd.1)
  | succ count ih =>
      obtain ⟨before, hbefore, hstep⟩ := hd.pred
      have hseen := ih (by omega) before hbefore
      have hnot : (before, count) ∉ waiting := fun hm => by
        have := hwaiting _ hm
        simp only at this
        omega
      obtain ⟨other, hother⟩ := hinv.closed _ hseen hnot (hopen count (by omega)) node hstep
      rwa [hd.unique (hinv.distance _ hother)]

theorem start (seeds : List α) (hseeds : ∀ node, source node ↔ node ∈ seeds) :
    Layered step source expands (seeds.map (·, 0)) (seeds.map (·, 0)) := by
  refine ⟨?_, ?_, ?_, fun _ h => h, ?_, ?_, fun _ h hnot => absurd h hnot⟩
  · intro entry he
    obtain ⟨node, hn, rfl⟩ := List.mem_map.mp he
    exact ⟨.source ((hseeds node).mpr hn), fun _ _ => Nat.zero_le _⟩
  · exact fun node hs => List.mem_map.mpr ⟨node, (hseeds node).mp hs, rfl⟩
  · intro entry he count hlt
    obtain ⟨node, _, rfl⟩ := List.mem_map.mp he
    exact absurd hlt (Nat.not_lt_zero _)
  · exact List.pairwise_map.mpr (List.pairwise_of_forall (fun _ _ => Nat.le_refl _))
  · intro first hfirst second hsecond
    obtain ⟨node, _, rfl⟩ := List.mem_map.mp hsecond
    exact Nat.zero_le _

theorem skip {node : α} {front : ℕ} {rest : List (α × ℕ)}
    (hinv : Layered step source expands seen ((node, front) :: rest)) (hcut : ¬expands front) :
    Layered step source expands seen rest := by
  refine ⟨hinv.distance, hinv.seeded, hinv.opened,
    fun entry he => hinv.waiting_seen entry (List.mem_cons_of_mem _ he),
    (List.pairwise_cons.mp hinv.ordered).2,
    fun first hfirst second hsecond => hinv.near first (List.mem_cons_of_mem _ hfirst) second
      (List.mem_cons_of_mem _ hsecond), ?_⟩
  intro entry he hnot hexpands
  refine hinv.closed entry he (fun hm => ?_) hexpands
  rcases List.mem_cons.mp hm with rfl | hm
  · exact hcut hexpands
  · exact hnot hm

theorem expand {node : α} {front : ℕ} {rest : List (α × ℕ)} {fresh : List α}
    (hinv : Layered step source expands seen ((node, front) :: rest)) (hexpands : expands front)
    (hfresh : ∀ next ∈ fresh, step node next ∧ ∀ count, (next, count) ∉ seen)
    (hall : ∀ next, step node next → (∃ count, (next, count) ∈ seen) ∨ next ∈ fresh) :
    Layered step source expands (seen ++ fresh.map (·, front + 1))
      (rest ++ fresh.map (·, front + 1)) := by
  have hhead := hinv.waiting_seen _ List.mem_cons_self
  obtain ⟨hbehind, hordered⟩ := List.pairwise_cons.mp hinv.ordered
  have hopen : ∀ count < front, expands count := hinv.opened _ hhead
  have hahead : ∀ entry ∈ (node, front) :: rest, front ≤ entry.2 := by
    intro entry he
    rcases List.mem_cons.mp he with rfl | he
    · exact Nat.le_refl _
    · exact hbehind entry he
  have hnear : ∀ entry ∈ rest, entry.2 ≤ front + 1 := fun entry he =>
    hinv.near _ List.mem_cons_self entry (List.mem_cons_of_mem _ he)
  have hnew : ∀ next ∈ fresh, Distance step source (front + 1) next := by
    intro next hn
    refine ⟨(hinv.distance _ hhead).1.next (hfresh next hn).1, fun other hother => ?_⟩
    by_contra hlt
    obtain ⟨least, hle, hd⟩ := exists_distance hother
    exact (hfresh next hn).2 least (hinv.covered front hahead hopen least (by omega) next hd)
  refine ⟨?_, ?_, ?_, ?_, ?_, ?_, ?_⟩
  · intro entry he
    rcases List.mem_append.mp he with he | he
    · exact hinv.distance entry he
    · obtain ⟨next, hn, rfl⟩ := List.mem_map.mp he
      exact hnew next hn
  · exact fun other hs => List.mem_append_left _ (hinv.seeded other hs)
  · intro entry he count hlt
    rcases List.mem_append.mp he with he | he
    · exact hinv.opened entry he count hlt
    · obtain ⟨next, _, rfl⟩ := List.mem_map.mp he
      rcases Nat.lt_succ_iff_lt_or_eq.mp hlt with hlt | rfl
      · exact hopen count hlt
      · exact hexpands
  · intro entry he
    rcases List.mem_append.mp he with he | he
    · exact List.mem_append_left _ (hinv.waiting_seen entry (List.mem_cons_of_mem _ he))
    · exact List.mem_append_right _ he
  · refine List.pairwise_append.mpr ⟨hordered, ?_, ?_⟩
    · exact List.pairwise_map.mpr (List.pairwise_of_forall (fun _ _ => Nat.le_refl _))
    · intro entry he other ho
      obtain ⟨next, _, rfl⟩ := List.mem_map.mp ho
      exact hnear entry he
  · have hlow : ∀ entry ∈ rest ++ fresh.map (·, front + 1), front ≤ entry.2 := by
      intro entry he
      rcases List.mem_append.mp he with he | he
      · exact hbehind entry he
      · obtain ⟨next, _, rfl⟩ := List.mem_map.mp he
        exact Nat.le_succ _
    intro first hfirst second hsecond
    have := hlow first hfirst
    rcases List.mem_append.mp hsecond with hs | hs
    · have := hnear second hs
      omega
    · obtain ⟨next, _, rfl⟩ := List.mem_map.mp hs
      simp only
      omega
  · intro entry he hnot hopened next hstep
    have hout := not_or.mp (fun h => hnot (List.mem_append.mpr h))
    rcases List.mem_append.mp he with he | he
    · by_cases heq : entry = (node, front)
      · subst heq
        rcases hall next hstep with ⟨count, hc⟩ | hn
        · exact ⟨count, List.mem_append_left _ hc⟩
        · exact ⟨front + 1, List.mem_append_right _ (List.mem_map.mpr ⟨next, hn, rfl⟩)⟩
      · obtain ⟨count, hc⟩ := hinv.closed entry he
          (fun hm => (List.mem_cons.mp hm).elim heq hout.1) hopened next hstep
        exact ⟨count, List.mem_append_left _ hc⟩
    · exact absurd he hout.2

theorem done (hinv : Layered step source expands seen []) (node : α) (count : ℕ) :
    (node, count) ∈ seen ↔ Distance step source count node ∧ ∀ other < count, expands other := by
  constructor
  · exact fun hm => ⟨hinv.distance _ hm, hinv.opened _ hm⟩
  · rintro ⟨hd, hopen⟩
    exact hinv.covered count (by simp) hopen count (Nat.le_refl _) node hd

end Layered

end KnowledgeCompiler.Lib.Breadth
