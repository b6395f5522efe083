import KnowledgeCompiler.Lib.Dict
import Mathlib.Algebra.Order.Ring.Rat
import Mathlib.Data.List.Nodup
import Mathlib.Logic.Function.Basic
import Mathlib.Tactic.Linarith

namespace KnowledgeCompiler.Identity.Matching

open Lib

-- The arrays of one search. Rows and columns count from 1; column 0 is the
-- virtual column that holds the row to be placed. `none` in `minv` is infinity.
structure Search where
  u : Nat → ℚ
  v : Nat → ℚ
  minv : Nat → Option ℚ
  way : Nat → Nat
  used : Nat → Bool
  j0 : Nat

-- The inner loop's running values: `best` pairs `delta` with `j1`.
structure Scan where
  minv : Nat → Option ℚ
  way : Nat → Nat
  best : Option (ℚ × Nat)

def lower (value : ℚ) : Option ℚ → Bool
  | none => true
  | some other => value < other

def reduced (cost : Nat → Nat → ℚ) (u v : Nat → ℚ) (i j : Nat) : ℚ :=
  cost (i - 1) (j - 1) - u i - v j

-- `if cur < minv[j]: minv[j] = cur; way[j] = j0`
def relabel (j0 j : Nat) (cur : ℚ) (scan : Scan) : Scan :=
  if lower cur (scan.minv j) then
    { scan with
      minv := Function.update scan.minv j (some cur)
      way := Function.update scan.way j j0 }
  else scan

-- `if minv[j] < delta: delta = minv[j]; j1 = j`
def offer (j : Nat) (scan : Scan) : Scan :=
  match scan.minv j with
  | none => scan
  | some label =>
      if lower label (scan.best.map Prod.fst) then { scan with best := some (label, j) } else scan

def scan_column (cost : Nat → Nat → ℚ) (s : Search) (i0 : Nat) (scan : Scan) (j : Nat) : Scan :=
  if s.used j then scan
  else offer j (relabel s.j0 j (reduced cost s.u s.v i0 j) scan)

def shift_column (parent : Nat → Nat) (delta : ℚ) (s : Search) (j : Nat) : Search :=
  if s.used j then
    { s with
      u := Function.update s.u (parent j) (s.u (parent j) + delta)
      v := Function.update s.v j (s.v j - delta) }
  else { s with minv := Function.update s.minv j ((s.minv j).map (· - delta)) }

-- One round of the `while True` loop, up to its exit test. With no free column
-- `delta` would stay infinite and the loop would spin on column 0.
def advance (cost : Nat → Nat → ℚ) (size : Nat) (parent : Nat → Nat) (s : Search) :
    Option Search :=
  let s := { s with used := Function.update s.used s.j0 true }
  let scan := (List.range' 1 size).foldl (scan_column cost s (parent s.j0)) ⟨s.minv, s.way, none⟩
  match scan.best with
  | none => none
  | some (delta, j1) =>
      let s := { s with minv := scan.minv, way := scan.way }
      let s := (List.range (size + 1)).foldl (shift_column parent delta) s
      some { s with j0 := j1 }

def search (cost : Nat → Nat → ℚ) (size : Nat) (parent : Nat → Nat) : Nat → Search →
    Option Search
  | 0, _ => none
  | fuel + 1, s =>
      match advance cost size parent s with
      | none => none
      | some next =>
          if parent next.j0 = 0 then some next else search cost size parent fuel next

-- `while j0: j1 = way[j0]; parent[j0] = parent[j1]; j0 = j1`
def augment (way : Nat → Nat) : Nat → (Nat → Nat) → Nat → Option (Nat → Nat)
  | 0, parent, j0 => if j0 = 0 then some parent else none
  | fuel + 1, parent, j0 =>
      if j0 = 0 then some parent
      else augment way fuel (Function.update parent j0 (parent (way j0))) (way j0)

structure Labels where
  u : Nat → ℚ
  v : Nat → ℚ
  parent : Nat → Nat
  way : Nat → Nat

-- One row of the outer loop.
def place (cost : Nat → Nat → ℚ) (size : Nat) (labels : Labels) (i : Nat) : Option Labels := do
  let parent := Function.update labels.parent 0 i
  let s ← search cost size parent (size + 1)
    { u := labels.u
      v := labels.v
      minv := fun _ => none
      way := labels.way
      used := fun _ => false
      j0 := 0 }
  let parent ← augment s.way (size + 1) parent s.j0
  some { u := s.u, v := s.v, parent := parent, way := s.way }

def padded (weights : List (List ℚ)) (rows cols : Nat) (i j : Nat) : ℚ :=
  if i < rows ∧ j < cols then (weights[i]!)[j]! else 0

def collect_column (parent : Nat → Nat) (rows cols : Nat) (assignment : Dict Nat Nat) (j : Nat) :
    Dict Nat Nat :=
  let row := parent j - 1
  let col := j - 1
  if row < rows ∧ col < cols then assignment.set row col else assignment

-- `None` when a loop outlives its fuel, which the theorems rule out.
def max_weight_matching (weights : List (List ℚ)) : Option (Dict Nat Nat) :=
  let rows := weights.length
  let cols := (weights.headD []).length
  if rows = 0 ∨ cols = 0 then some .empty
  else do
    let size := max rows cols
    let cost := fun i j => -padded weights rows cols i j
    let labels ← (List.range' 1 size).foldlM (place cost size)
      { u := fun _ => 0, v := fun _ => 0, parent := fun _ => 0, way := fun _ => 0 }
    -- every column of the square holds a row by now, so no parent is 0
    some ((List.range' 1 size).foldl (collect_column labels.parent rows cols) .empty)

example : (max_weight_matching [[1, 1/2], [1, 0], [1/3, 1]]).map Dict.entries =
    some [(1, 0), (2, 1)] := by decide +kernel

section Scan

variable (cost : Nat → Nat → ℚ) (s : Search) (i0 : Nat)

-- What the scan leaves at a free column: the better of its old label and the
-- reduced cost from the row just reached.
structure Relabelled (before after : Scan) (j : Nat) : Prop where
  label : ∃ label, after.minv j = some label ∧ label ≤ reduced cost s.u s.v i0 j ∧
    ∀ old, before.minv j = some old → label ≤ old
  source : (after.minv j = some (reduced cost s.u s.v i0 j) ∧ after.way j = s.j0) ∨
    (after.minv j = before.minv j ∧ after.way j = before.way j)

@[simp] theorem offer_minv (j : Nat) (scan : Scan) : (offer j scan).minv = scan.minv := by
  unfold offer
  split
  · rfl
  · split <;> rfl

@[simp] theorem offer_way (j : Nat) (scan : Scan) : (offer j scan).way = scan.way := by
  unfold offer
  split
  · rfl
  · split <;> rfl

@[simp] theorem relabel_best (j0 j : Nat) (cur : ℚ) (scan : Scan) :
    (relabel j0 j cur scan).best = scan.best := by
  unfold relabel
  split <;> rfl

theorem relabel_other (j0 : Nat) (cur : ℚ) (scan : Scan) {j k : Nat} (hk : k ≠ j) :
    (relabel j0 j cur scan).minv k = scan.minv k ∧ (relabel j0 j cur scan).way k = scan.way k := by
  unfold relabel
  split
  · simp [Function.update_of_ne hk]
  · exact ⟨rfl, rfl⟩

theorem scan_column_other (scan : Scan) {j k : Nat} (hk : k ≠ j ∨ s.used k = true) :
    (scan_column cost s i0 scan j).minv k = scan.minv k ∧
      (scan_column cost s i0 scan j).way k = scan.way k := by
  unfold scan_column
  split
  · exact ⟨rfl, rfl⟩
  · rename_i hu
    have hne : k ≠ j := hk.elim id (fun h he => hu (he ▸ h))
    simpa using relabel_other s.j0 (reduced cost s.u s.v i0 j) scan hne

theorem scan_column_relabelled (scan : Scan) (j : Nat) (hu : s.used j = false) :
    Relabelled cost s i0 scan (scan_column cost s i0 scan j) j := by
  have hminv : (scan_column cost s i0 scan j).minv j =
      (relabel s.j0 j (reduced cost s.u s.v i0 j) scan).minv j := by simp [scan_column, hu]
  have hway : (scan_column cost s i0 scan j).way j =
      (relabel s.j0 j (reduced cost s.u s.v i0 j) scan).way j := by simp [scan_column, hu]
  cases hold : scan.minv j with
  | none =>
      simp only [relabel, hold, lower, ite_true, Function.update_self] at hminv hway
      exact ⟨⟨_, hminv, le_rfl, by simp [hold]⟩, Or.inl ⟨hminv, hway⟩⟩
  | some old =>
      by_cases hlt : reduced cost s.u s.v i0 j < old
      · simp only [relabel, hold, lower, hlt, decide_true, ite_true, Function.update_self]
          at hminv hway
        refine ⟨⟨_, hminv, le_rfl, ?_⟩, Or.inl ⟨hminv, hway⟩⟩
        intro other ho
        rw [hold] at ho
        exact Option.some.inj ho ▸ hlt.le
      · simp only [relabel, hold, lower, hlt, decide_false, Bool.false_eq_true, ite_false]
          at hminv hway
        refine ⟨⟨old, hminv, not_lt.mp hlt, ?_⟩, Or.inr ⟨hminv.trans hold.symm, hway⟩⟩
        intro other ho
        rw [hold] at ho
        exact (Option.some.inj ho).le

theorem scan_column_best (scan : Scan) (j : Nat) (hu : s.used j = false) :
    ∃ delta j1, (scan_column cost s i0 scan j).best = some (delta, j1) ∧
      (∀ label, (scan_column cost s i0 scan j).minv j = some label → delta ≤ label) ∧
      (∀ old, scan.best = some old → delta ≤ old.1) ∧
      (scan.best = some (delta, j1) ∨
        j1 = j ∧ (scan_column cost s i0 scan j).minv j = some delta) := by
  obtain ⟨⟨label, hlabel, _, _⟩, _⟩ := scan_column_relabelled cost s i0 scan j hu
  have hscan : scan_column cost s i0 scan j =
      offer j (relabel s.j0 j (reduced cost s.u s.v i0 j) scan) := by simp [scan_column, hu]
  have hrel : (relabel s.j0 j (reduced cost s.u s.v i0 j) scan).minv j = some label := by
    simpa [hscan] using hlabel
  cases hb : scan.best with
  | none =>
      refine ⟨label, j, ?_, ?_, by simp, Or.inr ⟨rfl, hlabel⟩⟩
      · simp [hscan, offer, hrel, hb, lower]
      · intro other ho
        exact (Option.some.inj (hlabel.symm.trans ho)).le
  | some old =>
      by_cases hlt : label < old.1
      · refine ⟨label, j, ?_, ?_, ?_, Or.inr ⟨rfl, hlabel⟩⟩
        · simp [hscan, offer, hrel, hb, lower, hlt]
        · intro other ho
          exact (Option.some.inj (hlabel.symm.trans ho)).le
        · intro other ho
          exact Option.some.inj ho ▸ hlt.le
      · refine ⟨old.1, old.2, ?_, ?_, ?_, Or.inl rfl⟩
        · simp [hscan, offer, hrel, hb, lower, hlt]
        · intro other ho
          exact (Option.some.inj (hlabel.symm.trans ho)) ▸ not_lt.mp hlt
        · intro other ho
          exact (Option.some.inj ho) ▸ le_rfl

-- The whole inner loop: every free column is relabelled, and `best` is the least label.
structure Scanned (columns : List Nat) (before after : Scan) : Prop where
  other : ∀ k, k ∉ columns ∨ s.used k = true →
    after.minv k = before.minv k ∧ after.way k = before.way k
  relabelled : ∀ j ∈ columns, s.used j = false → Relabelled cost s i0 before after j
  best_old : ∀ old, before.best = some old → ∃ new, after.best = some new ∧ new.1 ≤ old.1
  best_le : ∀ j ∈ columns, s.used j = false →
    ∃ new, after.best = some new ∧ ∀ label, after.minv j = some label → new.1 ≤ label
  best_mem : ∀ new, after.best = some new → before.best = some new ∨
    new.2 ∈ columns ∧ s.used new.2 = false ∧ after.minv new.2 = some new.1

theorem foldl_scanned (columns : List Nat) (hn : columns.Nodup) (before : Scan) :
    Scanned cost s i0 columns before (columns.foldl (scan_column cost s i0) before) := by
  induction columns generalizing before with
  | nil =>
      exact ⟨fun _ _ => ⟨rfl, rfl⟩, by simp, fun old ho => ⟨old, ho, le_rfl⟩, by simp,
        fun new hn => Or.inl hn⟩
  | cons j rest ih =>
      obtain ⟨hj, hrest⟩ := List.nodup_cons.mp hn
      have hs := ih hrest (scan_column cost s i0 before j)
      rw [List.foldl_cons]
      have hkeep := hs.other j (Or.inl hj)
      refine ⟨?_, ?_, ?_, ?_, ?_⟩
      · intro k hk
        have hkr : k ∉ rest ∨ s.used k = true :=
          hk.imp_left (fun h hm => h (List.mem_cons_of_mem _ hm))
        have hkj : k ≠ j ∨ s.used k = true := hk.imp_left (fun h he => h (he ▸ List.mem_cons_self))
        have h1 := hs.other k hkr
        have h2 := scan_column_other cost s i0 before hkj
        exact ⟨h1.1.trans h2.1, h1.2.trans h2.2⟩
      · intro k hk hu
        rcases List.mem_cons.mp hk with rfl | hk
        · obtain ⟨hl, hsrc⟩ := scan_column_relabelled cost s i0 before k hu
          exact ⟨by rw [hkeep.1]; exact hl, by rw [hkeep.1, hkeep.2]; exact hsrc⟩
        · obtain ⟨hl, hsrc⟩ := hs.relabelled k hk hu
          have hne : k ≠ j := fun he => hj (he ▸ hk)
          have h2 := scan_column_other cost s i0 before (Or.inl hne)
          exact ⟨by rw [h2.1] at hl; exact hl, by rw [h2.1, h2.2] at hsrc; exact hsrc⟩
      · intro old ho
        by_cases hu : s.used j = true
        · simp only [scan_column, hu, ite_true] at hs ⊢
          exact hs.best_old old ho
        · obtain ⟨delta, j1, hb, _, hle, _⟩ :=
            scan_column_best cost s i0 before j (Bool.eq_false_iff.mpr hu)
          obtain ⟨new, hnew, hle'⟩ := hs.best_old _ hb
          exact ⟨new, hnew, hle'.trans (hle old ho)⟩
      · intro k hk hu
        rcases List.mem_cons.mp hk with rfl | hk
        · obtain ⟨delta, j1, hb, hle, _, _⟩ := scan_column_best cost s i0 before k hu
          obtain ⟨new, hnew, hle'⟩ := hs.best_old _ hb
          exact ⟨new, hnew, fun label hl => hle'.trans (hle label (hkeep.1 ▸ hl))⟩
        · exact hs.best_le k hk hu
      · intro new hnew
        rcases hs.best_mem new hnew with hb | ⟨hm, hu, hl⟩
        · by_cases hu : s.used j = true
          · simp only [scan_column, hu, ite_true] at hb
            exact Or.inl hb
          · have hu' := Bool.eq_false_iff.mpr hu
            obtain ⟨delta, j1, hb', _, _, hsrc⟩ := scan_column_best cost s i0 before j hu'
            have he : new = (delta, j1) := Option.some.inj (hb.symm.trans hb')
            subst he
            rcases hsrc with hsrc | ⟨rfl, hl⟩
            · exact Or.inl hsrc
            · exact Or.inr ⟨List.mem_cons_self, hu', hkeep.1.trans hl⟩
        · exact Or.inr ⟨List.mem_cons_of_mem _ hm, hu, hl⟩

end Scan

section Shift

variable (parent : Nat → Nat) (delta : ℚ)

-- The second inner loop moves the prices of the used columns and their rows
-- by `delta` and lowers every other label by it.
structure Shifted (columns : List Nat) (before after : Search) : Prop where
  row : ∀ r, after.u r =
    if ∃ j ∈ columns, before.used j = true ∧ parent j = r then before.u r + delta else before.u r
  column : ∀ j, after.v j =
    if j ∈ columns ∧ before.used j = true then before.v j - delta else before.v j
  label : ∀ j, after.minv j =
    if j ∈ columns ∧ before.used j = false then (before.minv j).map (· - delta) else before.minv j
  way : after.way = before.way
  used : after.used = before.used

theorem foldl_shifted (columns : List Nat) (hn : columns.Nodup) (before : Search)
    (hinj : ∀ j ∈ columns, ∀ k ∈ columns, before.used j = true → before.used k = true →
      parent j = parent k → j = k) :
    Shifted parent delta columns before (columns.foldl (shift_column parent delta) before) := by
  induction columns generalizing before with
  | nil => exact ⟨by simp, by simp, by simp, rfl, rfl⟩
  | cons j rest ih =>
      obtain ⟨hj, hrest⟩ := List.nodup_cons.mp hn
      rw [List.foldl_cons]
      by_cases hu : before.used j = true
      · have hstep : shift_column parent delta before j =
            { before with
              u := Function.update before.u (parent j) (before.u (parent j) + delta)
              v := Function.update before.v j (before.v j - delta) } := by
          simp [shift_column, hu]
        rw [hstep]
        have hs := ih hrest
          { before with
            u := Function.update before.u (parent j) (before.u (parent j) + delta)
            v := Function.update before.v j (before.v j - delta) }
          (fun a ha b hb => hinj a (List.mem_cons_of_mem _ ha) b (List.mem_cons_of_mem _ hb))
        refine ⟨?_, ?_, ?_, hs.way, hs.used⟩
        · intro r
          rw [hs.row r]
          by_cases hr : parent j = r
          · have hno : ¬∃ k ∈ rest, before.used k = true ∧ parent k = r := by
              rintro ⟨k, hk, huk, hpk⟩
              have he := hinj j (by simp) k (List.mem_cons_of_mem _ hk) hu huk (hr.trans hpk.symm)
              exact hj (he ▸ hk)
            simp [hno, hr, hu]
          · simp [hr, Ne.symm hr]
        · intro k
          rw [hs.column k]
          by_cases hk : k = j
          · subst hk; simp [hj, hu]
          · simp [hk]
        · intro k
          rw [hs.label k]
          by_cases hk : k = j
          · subst hk; simp [hu]
          · simp [hk]
      · have hf : before.used j = false := Bool.eq_false_iff.mpr hu
        have hstep : shift_column parent delta before j =
            { before with
              minv := Function.update before.minv j ((before.minv j).map (· - delta)) } := by
          simp [shift_column, hf]
        rw [hstep]
        have hs := ih hrest
          { before with
            minv := Function.update before.minv j ((before.minv j).map (· - delta)) }
          (fun a ha b hb => hinj a (List.mem_cons_of_mem _ ha) b (List.mem_cons_of_mem _ hb))
        refine ⟨?_, ?_, ?_, hs.way, hs.used⟩
        · intro r
          rw [hs.row r]
          simp [hf]
        · intro k
          rw [hs.column k]
          by_cases hk : k = j
          · subst hk; simp [hf]
          · simp [hk]
        · intro k
          rw [hs.label k]
          by_cases hk : k = j
          · subst hk; simp [hj, hf]
          · simp [hk]

end Shift

end KnowledgeCompiler.Identity.Matching
