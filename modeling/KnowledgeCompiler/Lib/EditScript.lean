import Mathlib.Data.List.Basic
import Mathlib.Data.List.Lemmas
import Mathlib.Data.List.Pairwise
import Mathlib.Tactic.Push

namespace KnowledgeCompiler.Lib

-- The items from `start` up to `stop` give way to the replacement.
structure Edit (α : Type) where
  start : ℕ
  stop : ℕ
  replacement : List α
deriving DecidableEq

variable {α : Type}

-- `items[edit.start:edit.stop] = edit.replacement`
def setSlice (items : List α) (edit : Edit α) : List α :=
  items.take edit.start ++ edit.replacement ++ items.drop (max edit.start edit.stop)

namespace Edit

-- The first lies before the second, and they are not two insertions at one place.
def Before (first second : Edit α) : Prop :=
  first.stop ≤ second.start ∧ first.start < second.stop

structure Within (length : ℕ) (edit : Edit α) : Prop where
  forward : edit.start ≤ edit.stop
  inside : edit.stop ≤ length

theorem Before.ne {first second : Edit α} (hbefore : first.Before second) : first ≠ second := by
  rintro rfl
  exact absurd hbefore.2 (not_lt.mpr hbefore.1)

-- What the edits make of the items from a position on, all at the same time.
def weaveFrom (base : List α) : ℕ → List (Edit α) → List α
  | position, [] => base.drop position
  | position, edit :: rest =>
      (base.take edit.start).drop position ++ edit.replacement ++ weaveFrom base edit.stop rest

def weave (base : List α) (edits : List (Edit α)) : List α := weaveFrom base 0 edits

theorem drop_take_split (base : List α) {position middle stop : ℕ} (hfirst : position ≤ middle)
    (hsecond : middle ≤ stop) :
    (base.take stop).drop position =
      (base.take middle).drop position ++ (base.take stop).drop middle := by
  have hbase : base.take stop = base.take middle ++ (base.take stop).drop middle := by
    have htake := List.take_append_drop middle (base.take stop)
    rwa [List.take_take, min_eq_left hsecond, eq_comm] at htake
  by_cases hlength : middle ≤ base.length
  · conv_lhs => rw [hbase]
    rw [List.drop_append_of_le_length]
    rw [List.length_take, min_eq_left hlength]
    exact hfirst
  · have hmiddle : base.length ≤ middle := (not_le.mp hlength).le
    rw [List.take_of_length_le (hmiddle.trans hsecond), List.take_of_length_le hmiddle,
      List.drop_of_length_le hmiddle, List.append_nil]

-- What comes before every edit stays as it is.
theorem weaveFrom_split (base : List α) {edits : List (Edit α)} {position middle : ℕ}
    (hposition : position ≤ middle) (hstart : ∀ edit ∈ edits.head?, middle ≤ edit.start) :
    weaveFrom base position edits =
      (base.take middle).drop position ++ weaveFrom base middle edits := by
  cases edits with
  | nil =>
      have hsplit := drop_take_split base hposition (le_max_left middle base.length)
      rwa [List.take_of_length_le (le_max_right _ _)] at hsplit
  | cons edit rest =>
      have hedit : middle ≤ edit.start := hstart edit rfl
      rw [weaveFrom, weaveFrom, drop_take_split base hposition hedit]
      simp only [List.append_assoc]

theorem setSlice_append (first second : List α) (edit : Edit α) (hforward : edit.start ≤ edit.stop)
    (hlength : first.length = edit.stop) :
    setSlice (first ++ second) edit = first.take edit.start ++ edit.replacement ++ second := by
  unfold setSlice
  rw [max_eq_right hforward, List.take_append_of_le_length (hlength ▸ hforward), ← hlength,
    List.drop_left]

-- The edits applied in place from the last one back do not disturb each other.
theorem foldr_setSlice (base : List α) {edits : List (Edit α)} (hordered : edits.Pairwise Before)
    (hwithin : ∀ edit ∈ edits, edit.Within base.length) :
    edits.foldr (fun edit items => setSlice items edit) base = weave base edits := by
  induction edits with
  | nil => rfl
  | cons edit rest ih =>
      obtain ⟨hfirst, hrest⟩ := List.pairwise_cons.mp hordered
      obtain ⟨hedit, hothers⟩ := List.forall_mem_cons.mp hwithin
      have hlength : (base.take edit.stop).length = edit.stop := by
        rw [List.length_take, min_eq_left hedit.inside]
      have hhead : ∀ next ∈ rest.head?, edit.stop ≤ next.start := fun next hnext =>
        (hfirst next (List.mem_of_mem_head? hnext)).1
      rw [List.foldr_cons, ih hrest hothers, weave, weaveFrom_split base (Nat.zero_le _) hhead,
        List.drop_zero, setSlice_append _ _ edit hedit.forward hlength, List.take_take,
        min_eq_left hedit.forward]
      rfl

end Edit

inductive Tag
  | equal
  | replace
  | delete
  | insert
deriving DecidableEq

-- `SequenceMatcher.get_opcodes()` lists these.
structure Opcode where
  tag : Tag
  i1 : ℕ
  i2 : ℕ
  j1 : ℕ
  j2 : ℕ

namespace Opcode

def edit (variant : List α) (opcode : Opcode) : Edit α where
  start := opcode.i1
  stop := opcode.i2
  replacement := (variant.take opcode.j2).drop opcode.j1

def edits (variant : List α) (opcodes : List Opcode) : List (Edit α) :=
  (opcodes.filter (fun opcode => opcode.tag ≠ .equal)).map (edit variant)

-- Each opcode begins where the one before it ends, in both sequences, the last
-- ends with them, and the ranges of an equal one hold the same items.
def Tiles (base variant : List α) : ℕ → ℕ → List Opcode → Prop
  | i, j, [] => i = base.length ∧ j = variant.length
  | i, j, opcode :: rest =>
      opcode.i1 = i ∧ opcode.j1 = j ∧ i ≤ opcode.i2 ∧ j ≤ opcode.j2 ∧
        (opcode.tag = .equal →
          (base.take opcode.i2).drop i = (variant.take opcode.j2).drop j) ∧
        Tiles base variant opcode.i2 opcode.j2 rest

variable {base variant : List α} {i j : ℕ} {opcodes : List Opcode}

theorem Tiles.le_length (htiles : Tiles base variant i j opcodes) : i ≤ base.length := by
  induction opcodes generalizing i j with
  | nil => exact htiles.1.le
  | cons opcode rest ih =>
      obtain ⟨-, -, hforward, -, -, hrest⟩ := htiles
      exact hforward.trans (ih hrest)

theorem Tiles.within (htiles : Tiles base variant i j opcodes) :
    ∀ edit ∈ edits variant opcodes, i ≤ edit.start ∧ edit.Within base.length := by
  induction opcodes generalizing i j with
  | nil => exact fun edit hedit => absurd hedit List.not_mem_nil
  | cons opcode rest ih =>
      obtain ⟨hi, -, hforward, -, -, hrest⟩ := htiles
      intro found hfound
      rw [edits, List.filter_cons] at hfound
      split at hfound
      · rcases List.mem_cons.mp hfound with rfl | hlater
        · exact ⟨hi.ge, ⟨hi.trans_le hforward, hrest.le_length⟩⟩
        · obtain ⟨hstart, hwithin⟩ := ih hrest found hlater
          exact ⟨hforward.trans hstart, hwithin⟩
      · obtain ⟨hstart, hwithin⟩ := ih hrest found hfound
        exact ⟨hforward.trans hstart, hwithin⟩

-- The edits of a valid script turn the base into the variant.
theorem Tiles.weaveFrom_edits (htiles : Tiles base variant i j opcodes) :
    Edit.weaveFrom base i (edits variant opcodes) = variant.drop j := by
  induction opcodes generalizing i j with
  | nil =>
      obtain ⟨rfl, rfl⟩ := htiles
      rw [edits, List.filter_nil, List.map_nil, Edit.weaveFrom, List.drop_length, List.drop_length]
  | cons opcode rest ih =>
      obtain ⟨hi, hj, hforward, hforward', hequal, hrest⟩ := htiles
      have hvariant := Edit.drop_take_split variant hforward' (le_max_left _ variant.length)
      rw [List.take_of_length_le (le_max_right _ _)] at hvariant
      rw [hvariant, ← ih hrest, edits, List.filter_cons]
      split
      · rw [List.map_cons, Edit.weaveFrom]
        simp only [edit, hi, hj]
        rw [List.drop_of_length_le (List.length_take_le i base), List.nil_append]
        rfl
      · rename_i htag
        rw [← hequal (by simpa using htag)]
        refine Edit.weaveFrom_split base hforward fun next hnext => ?_
        exact (hrest.within next (List.mem_of_mem_head? hnext)).1

end Opcode

end KnowledgeCompiler.Lib
