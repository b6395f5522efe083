import KnowledgeCompiler.Identity.Matching
import Mathlib.Data.Finset.Card
import Mathlib.Order.Interval.Finset.Nat
import Mathlib.Tactic.Ring

namespace KnowledgeCompiler.Identity.Matching

-- A search's columns, latest first: each was reached over `edge` from one
-- reached before it, and the first is the virtual column.
inductive Trail (way : Nat → Nat) (edge : Nat → Nat → Prop) : List Nat → Prop
  | root : Trail way edge [0]
  | step (j : Nat) (rest : List Nat) (hnew : j ∉ rest) (hway : way j ∈ rest)
      (hedge : edge (way j) j) (htrail : Trail way edge rest) : Trail way edge (j :: rest)

section Trail

variable {way : Nat → Nat} {edge : Nat → Nat → Prop} {columns : List Nat}

theorem Trail.nodup (htrail : Trail way edge columns) : columns.Nodup := by
  induction htrail with
  | root => simp
  | step j rest hnew _ _ _ ih => exact List.nodup_cons.mpr ⟨hnew, ih⟩

theorem Trail.zero_mem (htrail : Trail way edge columns) : 0 ∈ columns := by
  induction htrail with
  | root => simp
  | step j rest _ _ _ _ ih => exact List.mem_cons_of_mem _ ih

theorem Trail.transport {way' : Nat → Nat} {edge' : Nat → Nat → Prop}
    (htrail : Trail way edge columns) (hway : ∀ j ∈ columns, way' j = way j)
    (hedge : ∀ w ∈ columns, ∀ j ∈ columns, j ≠ 0 → edge w j → edge' w j) :
    Trail way' edge' columns := by
  induction htrail with
  | root => exact Trail.root
  | step j rest hnew hw he htrail ih =>
      have hj := hway j List.mem_cons_self
      have hzero : j ≠ 0 := fun h => hnew (h ▸ htrail.zero_mem)
      refine Trail.step j rest hnew (hj ▸ hw) ?_ (ih ?_ ?_)
      · rw [hj]
        exact hedge _ (List.mem_cons_of_mem _ hw) _ List.mem_cons_self hzero he
      · exact fun k hk => hway k (List.mem_cons_of_mem _ hk)
      · exact fun w hw' k hk => hedge w (List.mem_cons_of_mem _ hw') k (List.mem_cons_of_mem _ hk)

theorem Trail.suffix (htrail : Trail way edge columns) {w : Nat} (hw : w ∈ columns) :
    ∃ rest, w :: rest <:+ columns ∧ Trail way edge (w :: rest) := by
  induction htrail with
  | root =>
      obtain rfl := List.mem_singleton.mp hw
      exact ⟨[], List.suffix_refl _, Trail.root⟩
  | step j rest hnew hway hedge htrail ih =>
      rcases List.mem_cons.mp hw with rfl | hw
      · exact ⟨rest, List.suffix_refl _, Trail.step _ rest hnew hway hedge htrail⟩
      · obtain ⟨before, hs, ht⟩ := ih hw
        exact ⟨before, hs.trans (List.suffix_cons _ _), ht⟩

end Trail

def Row (size i : Nat) : Prop := 1 ≤ i ∧ i ≤ size

def Feasible (cost : Nat → Nat → ℚ) (size rows : Nat) (u v : Nat → ℚ) : Prop :=
  ∀ i j, Row rows i → Row size j → 0 ≤ reduced cost u v i j

def Tight (cost : Nat → Nat → ℚ) (u v : Nat → ℚ) (parent : Nat → Nat) (w j : Nat) : Prop :=
  reduced cost u v (parent w) j = 0

-- The rows the columns hold while row `n + 1` waits in the virtual column.
structure Seated (size n : Nat) (parent : Nat → Nat) : Prop where
  root : parent 0 = n + 1
  bound : ∀ j ≤ size, parent j ≤ n + 1
  inj : ∀ j ≤ size, ∀ k ≤ size, parent j ≠ 0 → parent j = parent k → j = k
  free : ∃ j, Row size j ∧ parent j = 0

-- Costs may be negative, so the new row's prices become feasible only with the
-- first round, whose `delta` has any sign.
structure Searching (cost : Nat → Nat → ℚ) (size n : Nat) (parent : Nat → Nat) (s : Search)
    (visited : List Nat) : Prop where
  trail : Trail s.way (Tight cost s.u s.v parent) (s.j0 :: visited)
  used : ∀ j, s.used j = true ↔ j ∈ visited
  bound : ∀ j ∈ s.j0 :: visited, j ≤ size
  held : ∀ j ∈ visited, parent j ≠ 0
  feasible : Feasible cost size (if visited = [] then n else n + 1) s.u s.v
  tight : ∀ j, Row size j → parent j ≠ 0 → Tight cost s.u s.v parent j j
  label : ∀ j, Row size j → j ∉ visited → visited = [] ∧ s.minv j = none ∨
    ∃ value, s.minv j = some value ∧ s.way j ∈ visited ∧
      value = reduced cost s.u s.v (parent (s.way j)) j ∧
      ∀ k ∈ visited, value ≤ reduced cost s.u s.v (parent k) j

section Round

variable {cost : Nat → Nat → ℚ} {size n : Nat} {parent : Nat → Nat} {s : Search}
  {visited : List Nat}

def Search.enter (s : Search) : Search :=
  { s with used := Function.update s.used s.j0 true }

theorem Searching.entered (hinv : Searching cost size n parent s visited) (j : Nat) :
    s.enter.used j = true ↔ j ∈ s.j0 :: visited := by
  unfold Search.enter
  by_cases hj : j = s.j0
  · simp [hj]
  · simp [hj, hinv.used j]

theorem Searching.row_of_entered (hrows : Seated size n parent)
    (hinv : Searching cost size n parent s visited) (hlive : parent s.j0 ≠ 0) {k : Nat}
    (hk : k ∈ s.j0 :: visited) : Row (n + 1) (parent k) := by
  have hne : parent k ≠ 0 := by
    rcases List.mem_cons.mp hk with rfl | hk
    · exact hlive
    · exact hinv.held k hk
  exact ⟨Nat.one_le_iff_ne_zero.mpr hne, hrows.bound k (hinv.bound k hk)⟩

abbrev Search.scanned (cost : Nat → Nat → ℚ) (size : Nat) (parent : Nat → Nat) (s : Search) : Scan :=
  (List.range' 1 size).foldl (scan_column cost s.enter (parent s.j0)) ⟨s.minv, s.way, none⟩

theorem Search.scan (cost : Nat → Nat → ℚ) (size : Nat) (parent : Nat → Nat) (s : Search) :
    Scanned cost s.enter (parent s.j0) (List.range' 1 size) ⟨s.minv, s.way, none⟩
      (s.scanned cost size parent) :=
  foldl_scanned cost s.enter (parent s.j0) (List.range' 1 size) (List.nodup_range' ..) _

theorem mem_columns {size j : Nat} : j ∈ List.range' 1 size ↔ Row size j := by
  unfold Row
  rw [List.mem_range'_1]
  omega

-- After the scan every free column's label is its least reduced cost from a
-- row of the trail, and `way` names the column that attains it.
theorem Searching.labelled (hinv : Searching cost size n parent s visited) {j : Nat}
    (hj : Row size j) (hnew : j ∉ s.j0 :: visited) :
    ∃ value, (s.scanned cost size parent).minv j = some value ∧
      (s.scanned cost size parent).way j ∈ s.j0 :: visited ∧
      value = reduced cost s.u s.v (parent ((s.scanned cost size parent).way j)) j ∧
      ∀ k ∈ s.j0 :: visited, value ≤ reduced cost s.u s.v (parent k) j := by
  have hfree : s.enter.used j = false :=
    Bool.eq_false_iff.mpr (fun h => hnew ((hinv.entered j).mp h))
  obtain ⟨⟨value, hv, hle, hold⟩, hsource⟩ := (s.scan cost size parent).relabelled j (mem_columns.mpr hj) hfree
  have hold' := hinv.label j hj (fun h => hnew (List.mem_cons_of_mem _ h))
  refine ⟨value, hv, ?_⟩
  rcases hsource with ⟨hcur, hway⟩ | ⟨hkeep, hway⟩
  · have hvalue : value = reduced cost s.u s.v (parent s.j0) j :=
      Option.some.inj (hv.symm.trans hcur)
    refine ⟨hway ▸ List.mem_cons_self, ?_, ?_⟩
    · rw [hway]; exact hvalue
    · intro k hk
      rcases List.mem_cons.mp hk with rfl | hk
      · exact hle
      · rcases hold' with ⟨hnil, _⟩ | ⟨old, ho, _, _, hmin⟩
        · simp [hnil] at hk
        · exact (hold old ho).trans (hmin k hk)
  · rcases hold' with ⟨_, hnone⟩ | ⟨old, ho, hin, hattain, hmin⟩
    · rw [hv] at hkeep
      exact absurd (hkeep.trans hnone) (by simp)
    · have he : value = old := Option.some.inj ((hv.symm.trans hkeep).trans ho)
      refine ⟨hway ▸ List.mem_cons_of_mem _ hin, ?_, ?_⟩
      · rw [hway, he]; exact hattain
      · intro k hk
        rcases List.mem_cons.mp hk with rfl | hk
        · exact hle
        · exact he ▸ hmin k hk

theorem Searching.free_column (hrows : Seated size n parent)
    (hinv : Searching cost size n parent s visited) (hlive : parent s.j0 ≠ 0) :
    ∃ j, Row size j ∧ j ∉ s.j0 :: visited := by
  obtain ⟨j, hj, hp⟩ := hrows.free
  refine ⟨j, hj, fun hm => ?_⟩
  have := (hinv.row_of_entered hrows hlive hm).1
  omega

-- The column the scan chooses carries the least label.
theorem Searching.chosen (hrows : Seated size n parent)
    (hinv : Searching cost size n parent s visited) (hlive : parent s.j0 ≠ 0) :
    ∃ delta j1, (s.scanned cost size parent).best = some (delta, j1) ∧ Row size j1 ∧
      j1 ∉ s.j0 :: visited ∧ (s.scanned cost size parent).minv j1 = some delta ∧
      ∀ j, Row size j → j ∉ s.j0 :: visited →
        ∀ label, (s.scanned cost size parent).minv j = some label → delta ≤ label := by
  have hfree : ∀ j, j ∉ s.j0 :: visited → s.enter.used j = false := fun j hj =>
    Bool.eq_false_iff.mpr (fun h => hj ((hinv.entered j).mp h))
  obtain ⟨j, hj, hnew⟩ := hinv.free_column hrows hlive
  obtain ⟨⟨delta, j1⟩, hbest, _⟩ := (s.scan cost size parent).best_le j (mem_columns.mpr hj) (hfree j hnew)
  refine ⟨delta, j1, hbest, ?_⟩
  rcases (s.scan cost size parent).best_mem _ hbest with h | ⟨hm, hu, hl⟩
  · cases h
  · refine ⟨mem_columns.mp hm, ?_, hl, ?_⟩
    · intro h
      rw [(hinv.entered j1).mpr h] at hu
      cases hu
    · intro k hk hknew label hlabel
      obtain ⟨new, hnew', hle⟩ := (s.scan cost size parent).best_le k (mem_columns.mpr hk) (hfree k hknew)
      rw [hbest] at hnew'
      obtain rfl := Option.some.inj hnew'
      exact hle label hlabel

-- The prices after the second inner loop, as reduced costs.
theorem Searching.reduced_shifted (hinv : Searching cost size n parent s visited) {delta : ℚ}
    {after : Search}
    (hshift : Shifted parent delta (List.range (size + 1))
      { s.enter with
        minv := (s.scanned cost size parent).minv, way := (s.scanned cost size parent).way } after)
    (i j : Nat) (hj : Row size j) :
    (i ∈ (s.j0 :: visited).map parent → j ∈ s.j0 :: visited →
      reduced cost after.u after.v i j = reduced cost s.u s.v i j) ∧
    (i ∈ (s.j0 :: visited).map parent → j ∉ s.j0 :: visited →
      reduced cost after.u after.v i j = reduced cost s.u s.v i j - delta) ∧
    (i ∉ (s.j0 :: visited).map parent → j ∈ s.j0 :: visited →
      reduced cost after.u after.v i j = reduced cost s.u s.v i j + delta) ∧
    (i ∉ (s.j0 :: visited).map parent → j ∉ s.j0 :: visited →
      reduced cost after.u after.v i j = reduced cost s.u s.v i j) := by
  have hrow : (∃ k ∈ List.range (size + 1), s.enter.used k = true ∧ parent k = i) ↔
      i ∈ (s.j0 :: visited).map parent := by
    rw [List.mem_map]
    constructor
    · rintro ⟨k, _, hu, hp⟩
      exact ⟨k, (hinv.entered k).mp hu, hp⟩
    · rintro ⟨k, hk, hp⟩
      exact ⟨k, List.mem_range.mpr (Nat.lt_succ_of_le (hinv.bound k hk)), (hinv.entered k).mpr hk, hp⟩
  have hcolumn : (j ∈ List.range (size + 1) ∧ s.enter.used j = true) ↔ j ∈ s.j0 :: visited := by
    rw [hinv.entered j, List.mem_range]
    exact ⟨fun h => h.2, fun h => ⟨Nat.lt_succ_of_le hj.2, h⟩⟩
  have hu := hshift.row i
  have hv := hshift.column j
  simp only [hrow] at hu
  simp only [hcolumn] at hv
  refine ⟨?_, ?_, ?_, ?_⟩ <;> intro hi hm
  · rw [if_pos hi] at hu
    rw [if_pos hm] at hv
    simp only [reduced, hu, hv, Search.enter]
    ring
  · rw [if_pos hi] at hu
    rw [if_neg hm] at hv
    simp only [reduced, hu, hv, Search.enter]
    ring
  · rw [if_neg hi] at hu
    rw [if_pos hm] at hv
    simp only [reduced, hu, hv, Search.enter]
    ring
  · rw [if_neg hi] at hu
    rw [if_neg hm] at hv
    simp only [reduced, hu, hv, Search.enter]

theorem Searching.first_column (hinv : Searching cost size n parent s visited)
    (hnil : visited = []) {j : Nat} (hj : Row size j) : j ∉ s.j0 :: visited := by
  intro hm
  have hzero := hinv.trail.zero_mem
  subst hnil
  have h0 := List.mem_singleton.mp hzero
  have hj0 := List.mem_singleton.mp hm
  have := hj.1
  omega

-- Off the trail's rows feasibility is never in doubt: before the first round
-- the one infeasible row is the trail's own.
theorem Searching.old_row (hrows : Seated size n parent)
    (hinv : Searching cost size n parent s visited) {i j : Nat}
    (hr : i ∉ (s.j0 :: visited).map parent) (hi : Row (n + 1) i) (hj : Row size j) :
    0 ≤ reduced cost s.u s.v i j := by
  refine hinv.feasible i j ?_ hj
  split
  · have hne : i ≠ n + 1 := by
      rintro rfl
      exact hr (List.mem_map.mpr ⟨0, hinv.trail.zero_mem, hrows.root⟩)
    have := hi.1
    have := hi.2
    exact ⟨by omega, by omega⟩
  · exact hi

theorem Searching.advance (hrows : Seated size n parent)
    (hinv : Searching cost size n parent s visited) (hlive : parent s.j0 ≠ 0) :
    ∃ next, advance cost size parent s = some next ∧ Row size next.j0 ∧
      Searching cost size n parent next (s.j0 :: visited) := by
  obtain ⟨delta, j1, hbest, hj1, hnew, hdelta, hleast⟩ := hinv.chosen hrows hlive
  have hshift := foldl_shifted parent delta (List.range (size + 1)) List.nodup_range
    { s.enter with
      minv := (s.scanned cost size parent).minv, way := (s.scanned cost size parent).way }
    (by
      intro j _ k _ hj hk hp
      have hj' := (hinv.entered j).mp hj
      have hk' := (hinv.entered k).mp hk
      have hrow := (hinv.row_of_entered hrows hlive hj').1
      exact hrows.inj j (hinv.bound j hj') k (hinv.bound k hk') (by omega) hp)
  set after := (List.range (size + 1)).foldl (shift_column parent delta)
    { s.enter with
      minv := (s.scanned cost size parent).minv, way := (s.scanned cost size parent).way } with hafter
  have hprices := fun i j => hinv.reduced_shifted hshift i j
  have hseen : ∀ k ∈ s.j0 :: visited, parent k ∈ (s.j0 :: visited).map parent :=
    fun k hk => List.mem_map_of_mem hk
  have hfree : ∀ j, j ∉ s.j0 :: visited → s.enter.used j = false := fun j hj =>
    Bool.eq_false_iff.mpr (fun h => hj ((hinv.entered j).mp h))
  have hway : ∀ k ∈ s.j0 :: visited, after.way k = s.way k := by
    intro k hk
    rw [hshift.way]
    exact ((s.scan cost size parent).other k (Or.inr ((hinv.entered k).mpr hk))).2
  have hwayNew : after.way = (s.scanned cost size parent).way := hshift.way
  have hpos : visited ≠ [] → 0 ≤ delta := by
    intro hne
    obtain ⟨value, hv, hin, hattain, _⟩ := hinv.labelled hj1 hnew
    rw [Option.some.inj (hdelta.symm.trans hv), hattain]
    exact hinv.feasible _ j1 (by rw [if_neg hne]; exact hinv.row_of_entered hrows hlive hin) hj1
  have hfirst : ∀ j, Row size j → j ∈ s.j0 :: visited → visited ≠ [] :=
    fun j hj hc hnil => hinv.first_column hnil hj hc
  refine ⟨{ after with j0 := j1 }, ?_, hj1, ?_⟩
  · simp only [Matching.advance]
    rw [show (List.range' 1 size).foldl (scan_column cost
        { s with used := Function.update s.used s.j0 true } (parent s.j0)) ⟨s.minv, s.way, none⟩ =
      s.scanned cost size parent from rfl, hbest]
    rfl
  · refine ⟨?_, ?_, ?_, ?_, ?_, ?_, ?_⟩
    · obtain ⟨value, hv, hin, hattain, _⟩ := hinv.labelled hj1 hnew
      refine Trail.step j1 _ hnew (by rw [hwayNew]; exact hin) ?_ ?_
      · simp only [Tight]
        rw [(hprices _ j1 hj1).2.1 (by rw [hwayNew]; exact hseen _ hin) hnew, hwayNew, ← hattain,
          Option.some.inj (hdelta.symm.trans hv), sub_self]
      · refine hinv.trail.transport hway ?_
        intro w hw j hj hzero hedge
        have hrow : Row size j := ⟨Nat.one_le_iff_ne_zero.mpr hzero, hinv.bound j hj⟩
        simp only [Tight] at hedge ⊢
        rw [(hprices _ j hrow).1 (hseen w hw) hj, hedge]
    · intro j
      rw [hshift.used]
      exact hinv.entered j
    · intro j hj
      rcases List.mem_cons.mp hj with rfl | hj
      · exact hj1.2
      · exact hinv.bound j hj
    · intro j hj
      have := (hinv.row_of_entered hrows hlive hj).1
      omega
    · intro i j hi hj
      rw [if_neg (by simp)] at hi
      have hold : visited ≠ [] → 0 ≤ reduced cost s.u s.v i j :=
        fun hne => hinv.feasible i j (by rw [if_neg hne]; exact hi) hj
      obtain ⟨h1, h2, h3, h4⟩ := hprices i j hj
      by_cases hr : i ∈ (s.j0 :: visited).map parent
      · by_cases hc : j ∈ s.j0 :: visited
        · rw [h1 hr hc]
          exact hold (hfirst j hj hc)
        · obtain ⟨value, hv, _, _, hmin⟩ := hinv.labelled hj hc
          obtain ⟨k, hk, rfl⟩ := List.mem_map.mp hr
          rw [h2 hr hc]
          have := hleast j hj hc value hv
          have := hmin k hk
          linarith
      · by_cases hc : j ∈ s.j0 :: visited
        · rw [h3 hr hc]
          exact add_nonneg (hold (hfirst j hj hc)) (hpos (hfirst j hj hc))
        · rw [h4 hr hc]
          exact hinv.old_row hrows hr hi hj
    · intro j hj hp
      have hold := hinv.tight j hj hp
      simp only [Tight] at hold ⊢
      by_cases hc : j ∈ s.j0 :: visited
      · rw [(hprices _ j hj).1 (hseen j hc) hc, hold]
      · have hr : parent j ∉ (s.j0 :: visited).map parent := by
          intro hm
          obtain ⟨k, hk, he⟩ := List.mem_map.mp hm
          exact hc (hrows.inj j hj.2 k (hinv.bound k hk) hp he.symm ▸ hk)
        rw [(hprices _ j hj).2.2.2 hr hc, hold]
    · intro j hj hc
      obtain ⟨value, hv, hin, hattain, hmin⟩ := hinv.labelled hj hc
      refine Or.inr ⟨value - delta, ?_, ?_, ?_, ?_⟩
      · have hlabel := hshift.label j
        rw [if_pos ⟨List.mem_range.mpr (Nat.lt_succ_of_le hj.2), hfree j hc⟩] at hlabel
        simpa only [hv, Option.map_some] using hlabel
      · show after.way j ∈ _
        rw [hwayNew]
        exact hin
      · show value - delta = reduced cost after.u after.v (parent (after.way j)) j
        rw [hwayNew, (hprices _ j hj).2.1 (hseen _ hin) hc, ← hattain]
      · intro k hk
        show value - delta ≤ reduced cost after.u after.v (parent k) j
        rw [(hprices _ j hj).2.1 (hseen k hk) hc]
        linarith [hmin k hk]

end Round

end KnowledgeCompiler.Identity.Matching
