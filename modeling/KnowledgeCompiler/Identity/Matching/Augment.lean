import KnowledgeCompiler.Identity.Matching.Search
import Mathlib.Combinatorics.Pigeonhole

namespace KnowledgeCompiler.Identity.Matching

variable {cost : Nat → Nat → ℚ} {size n : Nat}

theorem Searching.length_le {parent : Nat → Nat} {s : Search} {visited : List Nat}
    (hinv : Searching cost size n parent s visited) : visited.length ≤ size := by
  have hsub : s.j0 :: visited ⊆ List.range (size + 1) := fun j hj =>
    List.mem_range.mpr (Nat.lt_succ_of_le (hinv.bound j hj))
  have := (List.subperm_of_subset hinv.trail.nodup hsub).length_le
  simpa using this

-- Every round visits one more column, so the fuel of `place` lasts until a
-- free column is reached.
theorem Searching.search {parent : Nat → Nat} (hrows : Seated size n parent) (fuel : Nat)
    (s : Search) (visited : List Nat) (hinv : Searching cost size n parent s visited)
    (hlive : parent s.j0 ≠ 0) (hbudget : visited.length + fuel = size + 1) :
    ∃ final reached, search cost size parent fuel s = some final ∧ Row size final.j0 ∧
      parent final.j0 = 0 ∧ Searching cost size n parent final reached := by
  induction fuel generalizing s visited with
  | zero => have := hinv.length_le; omega
  | succ fuel ih =>
      obtain ⟨next, hstep, hrow, hnext⟩ := hinv.advance hrows hlive
      by_cases hfree : parent next.j0 = 0
      · exact ⟨next, _, by simp [Matching.search, hstep, hfree], hrow, hfree, hnext⟩
      · obtain ⟨final, reached, hs, hfinal⟩ :=
          ih next _ hnext hfree (by simp only [List.length_cons]; omega)
        exact ⟨final, reached, by simpa [Matching.search, hstep, hfree] using hs, hfinal⟩

-- Between two moves of the augmenting loop one column, the hole, is about to
-- be overwritten; the others hold every row placed so far exactly once.
structure Hole (cost : Nat → Nat → ℚ) (size n : Nat) (u v : Nat → ℚ) (parent : Nat → Nat)
    (hole : Nat) : Prop where
  bound : ∀ j ≤ size, parent j ≤ n
  tight : ∀ j, Row size j → j ≠ hole → parent j ≠ 0 → Tight cost u v parent j j
  inj : ∀ j ≤ size, ∀ k ≤ size, j ≠ hole → k ≠ hole → parent j ≠ 0 → parent j = parent k → j = k
  onto : ∀ i, Row n i → ∃ j ≤ size, j ≠ hole ∧ parent j = i

theorem Hole.move {hole : Nat} {u v : Nat → ℚ} {parent : Nat → Nat}
    (hinv : Hole cost size n u v parent hole) (hle : hole ≤ size) (w : Nat) (hw : w ≤ size)
    (hne : w ≠ hole) (hedge : Tight cost u v parent w hole) :
    Hole cost size n u v (Function.update parent hole (parent w)) w := by
  refine ⟨?_, ?_, ?_, ?_⟩
  · intro j hj
    by_cases he : j = hole
    · simpa [he] using hinv.bound w hw
    · simpa [he] using hinv.bound j hj
  · intro j hj hjw hp
    by_cases he : j = hole
    · subst he
      simpa [Tight] using hedge
    · simp only [Function.update_of_ne he, Tight] at hp ⊢
      exact hinv.tight j hj he hp
  · intro j hj k hk hjw hkw hp heq
    by_cases hjh : j = hole
    · by_cases hkh : k = hole
      · exact hjh.trans hkh.symm
      · simp only [hjh, Function.update_self, Function.update_of_ne hkh] at hp heq
        exact absurd (hinv.inj w hw k hk hne hkh hp heq).symm hkw
    · by_cases hkh : k = hole
      · simp only [hkh, Function.update_self, Function.update_of_ne hjh] at hp heq
        exact absurd (hinv.inj j hj w hw hjh hne hp heq) hjw
      · simp only [Function.update_of_ne hjh, Function.update_of_ne hkh] at hp heq
        exact hinv.inj j hj k hk hjh hkh hp heq
  · intro i hi
    obtain ⟨j, hj, hjh, hp⟩ := hinv.onto i hi
    by_cases hjw : j = w
    · exact ⟨hole, hle, hne.symm, by rw [Function.update_self, ← hjw, hp]⟩
    · exact ⟨j, hj, hjw, by rw [Function.update_of_ne hjh, hp]⟩

-- The loop follows `way` back along the trail, which shortens at every move.
theorem Hole.augment {u v : Nat → ℚ} {way : Nat → Nat} (fuel : Nat)
    (parent : Nat → Nat) (hole : Nat) (rest : List Nat)
    (hinv : Hole cost size n u v parent hole)
    (htrail : Trail way (Tight cost u v parent) (hole :: rest))
    (hbound : ∀ j ∈ hole :: rest, j ≤ size) (hfuel : rest.length ≤ fuel) :
    ∃ final, augment way fuel parent hole = some final ∧ Hole cost size n u v final 0 := by
  induction fuel generalizing parent hole rest with
  | zero =>
      cases htrail with
      | root => exact ⟨parent, rfl, hinv⟩
      | step _ _ _ hway _ _ =>
          rw [List.length_eq_zero_iff.mp (Nat.le_zero.mp hfuel)] at hway
          simp at hway
  | succ fuel ih =>
      cases htrail with
      | root => exact ⟨parent, rfl, hinv⟩
      | step _ _ hnew hway hedge htrail =>
          have hzero : hole ≠ 0 := fun h => hnew (h ▸ htrail.zero_mem)
          obtain ⟨before, hsuffix, hback⟩ := htrail.suffix hway
          have hmem : ∀ k ∈ way hole :: before, k ∈ rest := fun k hk => hsuffix.mem hk
          have hne : way hole ≠ hole := fun h => hnew (h ▸ hway)
          have hmoved := hinv.move (hbound hole List.mem_cons_self) (way hole)
            (hbound _ (List.mem_cons_of_mem _ hway)) hne hedge
          have hback' : Trail way
              (Tight cost u v (Function.update parent hole (parent (way hole))))
              (way hole :: before) := by
            refine hback.transport (fun _ _ => rfl) ?_
            intro w hw j _ _ he
            have hwne : w ≠ hole := fun h => hnew (h ▸ hmem w hw)
            simpa [Tight, Function.update_of_ne hwne] using he
          have hlen := hsuffix.length_le
          simp only [List.length_cons] at hlen
          obtain ⟨final, hf, hfinal⟩ := ih _ _ before hmoved hback'
            (fun k hk => hbound k (List.mem_cons_of_mem _ (hmem k hk))) (by omega)
          exact ⟨final, by simpa [Matching.augment, hzero] using hf, hfinal⟩

-- Between two rows of the outer loop: the first `n` rows hold one column each
-- along edges of zero reduced cost.
structure Placed (cost : Nat → Nat → ℚ) (size n : Nat) (labels : Labels) : Prop where
  feasible : Feasible cost size n labels.u labels.v
  bound : ∀ j, Row size j → labels.parent j ≤ n
  tight : ∀ j, Row size j → labels.parent j ≠ 0 → Tight cost labels.u labels.v labels.parent j j
  inj : ∀ j k, Row size j → Row size k → labels.parent j ≠ 0 →
    labels.parent j = labels.parent k → j = k
  onto : ∀ i, Row n i → ∃ j, Row size j ∧ labels.parent j = i

theorem Placed.free {labels : Labels} (hinv : Placed cost size n labels)
    (hn : n < size) : ∃ j, Row size j ∧ labels.parent j = 0 := by
  by_contra hall
  push Not at hall
  have hmaps : ∀ j ∈ Finset.Icc 1 size, labels.parent j ∈ Finset.Icc 1 n := by
    intro j hj
    have hrow : Row size j := Finset.mem_Icc.mp hj
    exact Finset.mem_Icc.mpr ⟨Nat.one_le_iff_ne_zero.mpr (hall j hrow), hinv.bound j hrow⟩
  obtain ⟨j, hj, k, hk, hne, he⟩ :=
    Finset.exists_ne_map_eq_of_card_lt_of_maps_to (by simpa using hn) hmaps
  have hjr : Row size j := Finset.mem_Icc.mp hj
  exact hne (hinv.inj j k hjr (Finset.mem_Icc.mp hk) (hall j hjr) he)

theorem Placed.seated {labels : Labels} (hinv : Placed cost size n labels)
    (hn : n < size) : Seated size n (Function.update labels.parent 0 (n + 1)) := by
  have hrow : ∀ j, j ≤ size → j ≠ 0 → Row size j := fun j hj h0 =>
    ⟨Nat.one_le_iff_ne_zero.mpr h0, hj⟩
  refine ⟨Function.update_self .., ?_, ?_, ?_⟩
  · intro j hj
    by_cases h0 : j = 0
    · rw [h0, Function.update_self]
    · have := hinv.bound j (hrow j hj h0)
      simp only [Function.update_of_ne h0]
      omega
  · intro j hj k hk hp he
    by_cases hj0 : j = 0 <;> by_cases hk0 : k = 0
    · exact hj0.trans hk0.symm
    · have := hinv.bound k (hrow k hk hk0)
      simp only [hj0, Function.update_self, Function.update_of_ne hk0] at he
      omega
    · have := hinv.bound j (hrow j hj hj0)
      simp only [hk0, Function.update_self, Function.update_of_ne hj0] at he
      omega
    · simp only [Function.update_of_ne hj0, Function.update_of_ne hk0] at hp he
      exact hinv.inj j k (hrow j hj hj0) (hrow k hk hk0) hp he
  · obtain ⟨j, hj, hp⟩ := hinv.free hn
    have h0 : j ≠ 0 := Nat.one_le_iff_ne_zero.mp hj.1
    exact ⟨j, hj, by simpa [h0] using hp⟩

theorem Placed.searching {labels : Labels} (hinv : Placed cost size n labels) :
    Searching cost size n (Function.update labels.parent 0 (n + 1))
      { u := labels.u
        v := labels.v
        minv := fun _ => none
        way := labels.way
        used := fun _ => false
        j0 := 0 } [] := by
  refine ⟨Trail.root, by simp, by simp, by simp, by simpa using hinv.feasible, ?_, by simp⟩
  intro j hj hp
  have h0 : j ≠ 0 := Nat.one_le_iff_ne_zero.mp hj.1
  simp only [Function.update_of_ne h0, Tight] at hp ⊢
  exact hinv.tight j hj hp

theorem Placed.place {labels : Labels} (hinv : Placed cost size n labels)
    (hn : n < size) : ∃ next, place cost size labels (n + 1) = some next ∧
      Placed cost size (n + 1) next := by
  have hrows := hinv.seated hn
  obtain ⟨final, reached, hsearch, hrow, hfree, hfinal⟩ :=
    Searching.search hrows (size + 1) _ [] hinv.searching (by simp) (by simp)
  have hhole : Hole cost size (n + 1) final.u final.v
      (Function.update labels.parent 0 (n + 1)) final.j0 := by
    have hj0 : final.j0 ≠ 0 := Nat.one_le_iff_ne_zero.mp hrow.1
    refine ⟨?_, fun j hj _ hp => hfinal.tight j hj hp, ?_, ?_⟩
    · intro j hj
      by_cases h0 : j = 0
      · simp [h0]
      · have := hinv.bound j ⟨Nat.one_le_iff_ne_zero.mpr h0, hj⟩
        simp only [Function.update_of_ne h0]
        omega
    · exact fun j hj k hk _ _ hp he => hrows.inj j hj k hk hp he
    · intro i hi
      by_cases hlast : i = n + 1
      · exact ⟨0, Nat.zero_le _, hj0.symm, by simp [hlast]⟩
      · have hi' : Row n i := ⟨hi.1, by have := hi.2; omega⟩
        obtain ⟨j, hj, hp⟩ := hinv.onto i hi'
        have h0 : j ≠ 0 := Nat.one_le_iff_ne_zero.mp hj.1
        refine ⟨j, hj.2, ?_, by simpa [h0] using hp⟩
        rintro rfl
        simp only [Function.update_of_ne h0] at hfree
        have := hi.1
        omega
  obtain ⟨parent, haugment, hdone⟩ := hhole.augment (size + 1) _ _ reached
    hfinal.trail hfinal.bound (by have := hfinal.length_le; omega)
  refine ⟨{ u := final.u, v := final.v, parent := parent, way := final.way }, ?_, ?_⟩
  · simp [Matching.place, hsearch, haugment]
  · have hzero : ∀ j, Row size j → j ≠ 0 := fun j hj => Nat.one_le_iff_ne_zero.mp hj.1
    have hvisited : reached ≠ [] := fun hnil => hfinal.first_column hnil hrow List.mem_cons_self
    refine ⟨by simpa [hvisited] using hfinal.feasible, fun j hj => hdone.bound j hj.2, fun j hj hp =>
      hdone.tight j hj (hzero j hj) hp, fun j k hj hk hp he =>
      hdone.inj j hj.2 k hk.2 (hzero j hj) (hzero k hk) hp he, ?_⟩
    intro i hi
    obtain ⟨j, hj, h0, hp⟩ := hdone.onto i hi
    exact ⟨j, ⟨Nat.one_le_iff_ne_zero.mpr h0, hj⟩, hp⟩

theorem Placed.rows (k n : Nat) (labels : Labels) (hinv : Placed cost size n labels)
    (hsize : n + k = size) : ∃ final,
      (List.range' (n + 1) k).foldlM (Matching.place cost size) labels = some final ∧
        Placed cost size size final := by
  induction k generalizing n labels with
  | zero => exact ⟨labels, rfl, by simpa [← hsize] using hinv⟩
  | succ k ih =>
      obtain ⟨next, hplace, hnext⟩ := hinv.place (by omega)
      obtain ⟨final, hrest, hfinal⟩ := ih (n + 1) next hnext (by omega)
      exact ⟨final, by simp [List.range'_succ, hplace, hrest], hfinal⟩

end KnowledgeCompiler.Identity.Matching
