import KnowledgeCompiler.Lib.EditScript
import KnowledgeCompiler.Lib.Text
import Mathlib.Data.List.Sort

namespace KnowledgeCompiler.Service

open Lib

inductive MergeStatus
  | unchanged
  | model_replaced
  | kept_user
  | auto_merged
  | conflict
deriving DecidableEq

abbrev Line := List Char

abbrev TextEdit := Edit Line

structure ThreeWayMerge where
  status : MergeStatus
  merged : Option (List Char)
  conflict_count : ℕ
deriving DecidableEq

section Merge

-- `difflib.SequenceMatcher(a=base, b=variant, autojunk=False).get_opcodes()`
variable (get_opcodes : List Line → List Line → List Opcode)

def _edits (base variant : List Line) : List TextEdit :=
  ((get_opcodes base variant).filter (fun opcode => opcode.tag ≠ .equal)).map
    (Opcode.edit variant)

def _same_edit (left right : TextEdit) : Bool :=
  left.start = right.start && left.stop = right.stop && left.replacement = right.replacement

def _overlaps (left right : TextEdit) : Bool :=
  if _same_edit left right then false
  else if left.start = left.stop ∧ right.start = right.stop then left.start = right.start
  else if left.start = left.stop then right.start ≤ left.start && left.start ≤ right.stop
  else if right.start = right.stop then left.start ≤ right.start && right.start ≤ left.stop
  else max left.start right.start < min left.stop right.stop

-- The order of the keys `(value.start, value.end)`, the greatest first.
def no_earlier (first second : TextEdit) : Prop :=
  second.start < first.start ∨ second.start = first.start ∧ second.stop ≤ first.stop

instance : DecidableRel no_earlier := fun _ _ => inferInstanceAs (Decidable (_ ∨ _))

def splitlines (text : List Char) : List Line := Text.keptLines [] text

def conflicts (user_edits model_edits : List TextEdit) : ℕ :=
  (user_edits.map (fun user_edit => model_edits.countP (_overlaps user_edit))).sum

def combined (user_edits model_edits : List TextEdit) : List TextEdit :=
  user_edits ++ model_edits.filter (fun model_edit => !user_edits.any (_same_edit model_edit))

def three_way_merge (base user new_model : List Char) (user_locked : Bool) : ThreeWayMerge :=
  if user_locked = false then
    ⟨if user = new_model then .unchanged else .model_replaced, some new_model, 0⟩
  else if user = new_model then ⟨.unchanged, some user, 0⟩
  else if user = base then ⟨.model_replaced, some new_model, 0⟩
  else if new_model = base then ⟨.kept_user, some user, 0⟩
  else
    let user_edits := _edits get_opcodes (splitlines base) (splitlines user)
    let model_edits := _edits get_opcodes (splitlines base) (splitlines new_model)
    if conflicts user_edits model_edits ≠ 0 then
      ⟨.conflict, none, conflicts user_edits model_edits⟩
    else
      let merged_lines := ((combined user_edits model_edits).insertionSort no_earlier).foldl
        setSlice (splitlines base)
      ⟨.auto_merged, some merged_lines.flatten, 0⟩

end Merge

-- What `get_opcodes` is documented to return: a script that tiles both sequences,
-- whose equal blocks are not adjacent, and which for equal sequences is one block.
structure Difflib (get_opcodes : List Line → List Line → List Opcode) : Prop where
  tiles : ∀ base variant, Opcode.Tiles base variant 0 0 (get_opcodes base variant)
  apart : ∀ base variant, (_edits get_opcodes base variant).Pairwise
    (fun first second => first.stop < second.start)
  unchanged : ∀ base, _edits get_opcodes base base = []

-- The insertion is made within the range of the edit or at one of its ends.
def Touches (insertion edited : TextEdit) : Prop :=
  insertion.start = insertion.stop ∧ edited.start ≤ insertion.start ∧ insertion.start ≤ edited.stop

-- Two different edits of one line, or an insertion at a range that the other side edits.
def Clash (left right : TextEdit) : Prop :=
  left ≠ right ∧
    ((∃ line, left.start ≤ line ∧ line < left.stop ∧ right.start ≤ line ∧ line < right.stop) ∨
      Touches left right ∨ Touches right left)

-- The edits of both sides, each once and in the order of the base, applied to it together.
def Woven (base : List Line) (user_edits model_edits : List TextEdit) (lines : List Line) : Prop :=
  ∃ edits, edits.Pairwise Edit.Before ∧
    (∀ edit, edit ∈ edits ↔ edit ∈ user_edits ∨ edit ∈ model_edits) ∧
      lines = Edit.weave base edits

section Pairs

theorem same_edit_iff {left right : TextEdit} : _same_edit left right = true ↔ left = right := by
  cases left
  cases right
  simp [_same_edit, and_assoc]

theorem overlaps_iff {left right : TextEdit} (hleft : left.start ≤ left.stop)
    (hright : right.start ≤ right.stop) : _overlaps left right = true ↔ Clash left right := by
  have hlines : (∃ line, left.start ≤ line ∧ line < left.stop ∧ right.start ≤ line ∧
      line < right.stop) ↔ max left.start right.start < min left.stop right.stop := by
    rw [max_lt_iff, lt_min_iff, lt_min_iff]
    constructor
    · rintro ⟨line, h⟩
      omega
    · intro h
      exact ⟨max left.start right.start, by omega⟩
  unfold _overlaps Clash Touches
  rw [hlines]
  split
  · rename_i hsame
    simp [same_edit_iff.mp hsame]
  rename_i hsame
  have hne : left ≠ right := fun heq => hsame (same_edit_iff.mpr heq)
  rw [and_iff_right hne]
  split
  · simp only [decide_eq_true_eq]
    omega
  split
  · simp only [Bool.and_eq_true, decide_eq_true_eq]
    omega
  split
  · simp only [Bool.and_eq_true, decide_eq_true_eq]
    omega
  · simp only [decide_eq_true_eq]
    omega

theorem Clash.symm {left right : TextEdit} (hclash : Clash left right) : Clash right left := by
  obtain ⟨hne, ⟨line, h⟩ | htouches | htouches⟩ := hclash
  · exact ⟨hne.symm, .inl ⟨line, h.2.2.1, h.2.2.2, h.1, h.2.1⟩⟩
  · exact ⟨hne.symm, .inr (.inr htouches)⟩
  · exact ⟨hne.symm, .inr (.inl htouches)⟩

-- Two different edits that do not clash lie one before the other.
theorem before_or_before {left right : TextEdit} (hleft : left.start ≤ left.stop)
    (hright : right.start ≤ right.stop) (hne : left ≠ right) (hclear : ¬Clash left right) :
    left.Before right ∨ right.Before left := by
  have hlines : ¬(max left.start right.start < left.stop ∧
      max left.start right.start < right.stop) := fun hlt =>
    hclear ⟨hne, .inl ⟨max left.start right.start, le_max_left _ _, hlt.1, le_max_right _ _, hlt.2⟩⟩
  have hfirst : ¬Touches left right := fun htouches => hclear ⟨hne, .inr (.inl htouches)⟩
  have hsecond : ¬Touches right left := fun htouches => hclear ⟨hne, .inr (.inr htouches)⟩
  unfold Touches at hfirst hsecond
  unfold Edit.Before
  omega

end Pairs

section Combined

variable {user_edits model_edits : List TextEdit}

theorem mem_combined {edit : TextEdit} :
    edit ∈ combined user_edits model_edits ↔ edit ∈ user_edits ∨ edit ∈ model_edits := by
  unfold combined
  simp only [List.mem_append, List.mem_filter, Bool.not_eq_true', List.any_eq_false, same_edit_iff]
  constructor
  · rintro (huser | ⟨hmodel, -⟩)
    · exact .inl huser
    · exact .inr hmodel
  · rintro (huser | hmodel)
    · exact .inl huser
    · by_cases huser : edit ∈ user_edits
      · exact .inl huser
      · exact .inr ⟨hmodel, fun other hother heq => huser (heq ▸ hother)⟩

theorem nodup_combined (huser : user_edits.Nodup) (hmodel : model_edits.Nodup) :
    (combined user_edits model_edits).Nodup := by
  refine huser.append (hmodel.filter _) fun edit hedit hrest => ?_
  have hfresh := (List.mem_filter.mp hrest).2
  rw [Bool.not_eq_true', List.any_eq_false] at hfresh
  exact hfresh edit hedit (same_edit_iff.mpr rfl)

theorem conflicts_eq_zero_iff : conflicts user_edits model_edits = 0 ↔
    ∀ user_edit ∈ user_edits, ∀ model_edit ∈ model_edits, _overlaps user_edit model_edit = false := by
  simp only [conflicts, List.sum_eq_zero_iff_forall_eq_nat, List.forall_mem_map, List.countP_eq_zero,
    Bool.not_eq_true]

theorem overlaps_comm (left right : TextEdit) : _overlaps left right = _overlaps right left := by
  have hsame : _same_edit left right = _same_edit right left := by
    rw [Bool.eq_iff_iff, same_edit_iff, same_edit_iff, eq_comm]
  unfold _overlaps
  rw [hsame, max_comm, min_comm]
  grind

theorem conflicts_cons_right (model_edit : TextEdit) :
    conflicts user_edits (model_edit :: model_edits) =
      user_edits.countP (fun user_edit => _overlaps user_edit model_edit) +
        conflicts user_edits model_edits := by
  induction user_edits with
  | nil => rfl
  | cons user_edit rest ih =>
      simp only [conflicts, List.map_cons, List.sum_cons, List.countP_cons] at ih ⊢
      omega

theorem conflicts_comm (user_edits model_edits : List TextEdit) :
    conflicts user_edits model_edits = conflicts model_edits user_edits := by
  induction user_edits with
  | nil =>
      have hnone : conflicts model_edits [] = 0 :=
        conflicts_eq_zero_iff.mpr fun _ _ _ hnone => absurd hnone List.not_mem_nil
      exact hnone.symm
  | cons user_edit rest ih =>
      rw [conflicts_cons_right, ← ih]
      simp only [conflicts, List.map_cons, List.sum_cons, overlaps_comm _ user_edit]

instance : IsTrans TextEdit no_earlier := ⟨fun first second third h h' => by
  unfold no_earlier at *
  omega⟩

instance : Std.Total no_earlier := ⟨fun first second => by
  unfold no_earlier
  omega⟩

-- The last edit first: read backwards, the sorted edits go up the base.
theorem before_of_sorted {edits : List TextEdit} (hnodup : edits.Nodup)
    (hcomparable : ∀ first ∈ edits, ∀ second ∈ edits, first ≠ second →
      first.Before second ∨ second.Before first)
    (hforward : ∀ edit ∈ edits, edit.start ≤ edit.stop) :
    (edits.insertionSort no_earlier).reverse.Pairwise Edit.Before := by
  have hmem {edit : TextEdit} : edit ∈ edits.insertionSort no_earlier ↔ edit ∈ edits :=
    (List.perm_insertionSort no_earlier edits).mem_iff
  have hdistinct := (List.perm_insertionSort no_earlier edits).nodup_iff.mpr hnodup
  have hsorted := List.pairwise_insertionSort no_earlier edits
  rw [List.pairwise_reverse]
  refine (hsorted.and hdistinct).imp_of_mem fun {first second} hfirst hsecond h => ?_
  rcases hcomparable first (hmem.mp hfirst) second (hmem.mp hsecond) h.2 with hbefore | hbefore
  · have hforward' := hforward first (hmem.mp hfirst)
    have hlater := h.1
    unfold Edit.Before at hbefore
    unfold no_earlier at hlater
    omega
  · exact hbefore

end Combined

theorem Woven.symm {base : List Line} {user_edits model_edits : List TextEdit} {lines : List Line}
    (hwoven : Woven base user_edits model_edits lines) :
    Woven base model_edits user_edits lines := by
  obtain ⟨edits, hordered, hmem, hlines⟩ := hwoven
  exact ⟨edits, hordered, fun edit => (hmem edit).trans or_comm, hlines⟩

theorem Woven.unique {base : List Line} {user_edits model_edits : List TextEdit}
    {first second : List Line} (hfirst : Woven base user_edits model_edits first)
    (hsecond : Woven base user_edits model_edits second) : first = second := by
  obtain ⟨edits, hordered, hmem, rfl⟩ := hfirst
  obtain ⟨others, hordered', hmem', rfl⟩ := hsecond
  have hperm : edits.Perm others :=
    (List.perm_ext_iff_of_nodup (hordered.imp Edit.Before.ne) (hordered'.imp Edit.Before.ne)).mpr
      fun edit => (hmem edit).trans (hmem' edit).symm
  have hasymm : ∀ left right : TextEdit, left.Before right → right.Before left → left = right := by
    intro left right hbefore hafter
    unfold Edit.Before at hbefore hafter
    omega
  rw [hperm.eq_of_pairwise (fun left right _ _ => hasymm left right) hordered hordered']

section Correct

variable {get_opcodes : List Line → List Line → List Opcode} (hdifflib : Difflib get_opcodes)

include hdifflib

theorem edits_within (base variant : List Line) :
    ∀ edit ∈ _edits get_opcodes base variant, edit.Within base.length := fun edit hedit =>
  ((hdifflib.tiles base variant).within edit hedit).2

theorem edits_before (base variant : List Line) :
    (_edits get_opcodes base variant).Pairwise Edit.Before := by
  refine (hdifflib.apart base variant).imp_of_mem fun {first second} hfirst hsecond hapart => ?_
  have hforward := (edits_within hdifflib base variant first hfirst).forward
  have hforward' := (edits_within hdifflib base variant second hsecond).forward
  exact ⟨hapart.le, by omega⟩

-- Two edits of one script are far enough apart not to clash.
theorem not_clash_of_script (base variant : List Line) {first second : TextEdit}
    (hfirst : first ∈ _edits get_opcodes base variant)
    (hsecond : second ∈ _edits get_opcodes base variant) : ¬Clash first second := by
  have hsymmetric : Std.Symm (fun first second : TextEdit => ¬Clash first second) :=
    ⟨fun _ _ hclear hclash => hclear hclash.symm⟩
  refine List.Pairwise.forall_of_forall (R := fun first second => ¬Clash first second)
    (fun _ _ hclash => hclash.1 rfl) ?_ hfirst hsecond
  refine (hdifflib.apart base variant).imp_of_mem fun {first second} hfirst hsecond hapart => ?_
  have hforward := (edits_within hdifflib base variant first hfirst).forward
  have hforward' := (edits_within hdifflib base variant second hsecond).forward
  rintro ⟨-, ⟨line, h⟩ | htouches | htouches⟩
  · omega
  · unfold Touches at htouches
    omega
  · unfold Touches at htouches
    omega

theorem weave_edits (base variant : List Line) :
    Edit.weave base (_edits get_opcodes base variant) = variant :=
  (hdifflib.tiles base variant).weaveFrom_edits

theorem edits_comparable (base variant : List Line) {first second : TextEdit}
    (hfirst : first ∈ _edits get_opcodes base variant)
    (hsecond : second ∈ _edits get_opcodes base variant) (hne : first ≠ second) :
    first.Before second ∨ second.Before first :=
  before_or_before (edits_within hdifflib base variant first hfirst).forward
    (edits_within hdifflib base variant second hsecond).forward hne
    (not_clash_of_script hdifflib base variant hfirst hsecond)

-- One side's script alone.
theorem woven_script (base variant : List Line) :
    Woven base (_edits get_opcodes base variant) (_edits get_opcodes base variant) variant :=
  ⟨_, edits_before hdifflib base variant, fun _ => (or_self_iff).symm,
    (weave_edits hdifflib base variant).symm⟩

theorem woven_unchanged (base variant : List Line) :
    Woven base (_edits get_opcodes base base) (_edits get_opcodes base variant) variant := by
  rw [hdifflib.unchanged]
  exact ⟨_, edits_before hdifflib base variant, fun _ => by simp,
    (weave_edits hdifflib base variant).symm⟩

-- Without a conflict, applying the sorted edits backwards applies both scripts together.
theorem woven_combined (base user new_model : List Line)
    (hclear : conflicts (_edits get_opcodes base user) (_edits get_opcodes base new_model) = 0) :
    Woven base (_edits get_opcodes base user) (_edits get_opcodes base new_model)
      (((combined (_edits get_opcodes base user) (_edits get_opcodes base new_model)).insertionSort
        no_earlier).foldl setSlice base) := by
  have hwithin : ∀ edit ∈ combined (_edits get_opcodes base user) (_edits get_opcodes base new_model),
      edit.Within base.length := by
    intro edit hedit
    rcases mem_combined.mp hedit with huser | hmodel
    · exact edits_within hdifflib base user edit huser
    · exact edits_within hdifflib base new_model edit hmodel
  have hcross : ∀ user_edit ∈ _edits get_opcodes base user,
      ∀ model_edit ∈ _edits get_opcodes base new_model, user_edit ≠ model_edit →
        user_edit.Before model_edit ∨ model_edit.Before user_edit := by
    intro user_edit huser model_edit hmodel hne
    have hforward := (edits_within hdifflib base user user_edit huser).forward
    have hforward' := (edits_within hdifflib base new_model model_edit hmodel).forward
    refine before_or_before hforward hforward' hne fun hclash => ?_
    have hoverlaps := conflicts_eq_zero_iff.mp hclear user_edit huser model_edit hmodel
    rw [(overlaps_iff hforward hforward').mpr hclash] at hoverlaps
    cases hoverlaps
  have hcomparable : ∀ first ∈ combined (_edits get_opcodes base user)
      (_edits get_opcodes base new_model), ∀ second ∈ combined (_edits get_opcodes base user)
        (_edits get_opcodes base new_model), first ≠ second →
          first.Before second ∨ second.Before first := by
    intro first hfirst second hsecond hne
    rcases mem_combined.mp hfirst with huser | hmodel <;>
      rcases mem_combined.mp hsecond with huser' | hmodel'
    · exact edits_comparable hdifflib base user huser huser' hne
    · exact hcross first huser second hmodel' hne
    · exact (hcross second huser' first hmodel hne.symm).symm
    · exact edits_comparable hdifflib base new_model hmodel hmodel' hne
  have hnodup := nodup_combined ((edits_before hdifflib base user).imp Edit.Before.ne)
    ((edits_before hdifflib base new_model).imp Edit.Before.ne)
  have hordered := before_of_sorted hnodup hcomparable fun edit hedit => (hwithin edit hedit).forward
  have hmem {edit : TextEdit} : edit ∈ ((combined (_edits get_opcodes base user)
      (_edits get_opcodes base new_model)).insertionSort no_earlier).reverse ↔
        edit ∈ combined (_edits get_opcodes base user) (_edits get_opcodes base new_model) := by
    rw [List.mem_reverse, (List.perm_insertionSort no_earlier _).mem_iff]
  refine ⟨_, hordered, fun edit => hmem.trans mem_combined, ?_⟩
  rw [← Edit.foldr_setSlice base hordered fun edit hedit => hwithin edit (hmem.mp hedit),
    List.foldr_reverse]

theorem conflicts_ne_zero_iff (base user new_model : List Line) :
    conflicts (_edits get_opcodes base user) (_edits get_opcodes base new_model) ≠ 0 ↔
      ∃ user_edit ∈ _edits get_opcodes base user, ∃ model_edit ∈ _edits get_opcodes base new_model,
        Clash user_edit model_edit := by
  rw [ne_eq, conflicts_eq_zero_iff]
  push Not
  refine exists_congr fun user_edit => and_congr_right fun huser => exists_congr fun model_edit =>
    and_congr_right fun hmodel => ?_
  rw [Bool.ne_false_iff]
  exact overlaps_iff (edits_within hdifflib base user user_edit huser).forward
    (edits_within hdifflib base new_model model_edit hmodel).forward

end Correct

-- What a merge of locked user text is to give.
structure Merges (get_opcodes : List Line → List Line → List Opcode)
    (base user new_model : List Char) (result : ThreeWayMerge) : Prop where
  woven : ∀ merged, result.merged = some merged → ∃ lines,
    Woven (splitlines base) (_edits get_opcodes (splitlines base) (splitlines user))
      (_edits get_opcodes (splitlines base) (splitlines new_model)) lines ∧ merged = lines.flatten
  conflict_iff : result.status = .conflict ↔
    ∃ user_edit ∈ _edits get_opcodes (splitlines base) (splitlines user),
      ∃ model_edit ∈ _edits get_opcodes (splitlines base) (splitlines new_model),
        Clash user_edit model_edit
  refused_iff : result.merged = none ↔ result.status = .conflict
  counted_iff : result.conflict_count ≠ 0 ↔ result.status = .conflict

section Correct

variable {get_opcodes : List Line → List Line → List Opcode}

theorem flatten_splitlines (text : List Char) : (splitlines text).flatten = text :=
  Text.flatten_keptLines [] text

theorem merges_settled {base user new_model merged : List Char} {lines : List Line}
    {status : MergeStatus} (hstatus : status ≠ .conflict) (hmerged : merged = lines.flatten)
    (hwoven : Woven (splitlines base) (_edits get_opcodes (splitlines base) (splitlines user))
      (_edits get_opcodes (splitlines base) (splitlines new_model)) lines)
    (hclear : ¬∃ user_edit ∈ _edits get_opcodes (splitlines base) (splitlines user),
      ∃ model_edit ∈ _edits get_opcodes (splitlines base) (splitlines new_model),
        Clash user_edit model_edit) :
    Merges get_opcodes base user new_model ⟨status, some merged, 0⟩ where
  woven := by
    rintro _ ⟨⟩
    exact ⟨lines, hwoven, hmerged⟩
  conflict_iff := iff_of_false hstatus hclear
  refused_iff := iff_of_false (Option.some_ne_none _) hstatus
  counted_iff := iff_of_false (not_not.mpr rfl) hstatus

theorem three_way_merge_merges (hdifflib : Difflib get_opcodes) (base user new_model : List Char) :
    Merges get_opcodes base user new_model
      (three_way_merge get_opcodes base user new_model true) := by
  unfold three_way_merge
  rw [if_neg (by decide)]
  split
  · rename_i hsame
    subst hsame
    refine merges_settled (by decide) (flatten_splitlines _).symm (woven_script hdifflib _ _) ?_
    rintro ⟨first, hfirst, second, hsecond, hclash⟩
    exact not_clash_of_script hdifflib _ _ hfirst hsecond hclash
  split
  · rename_i hbase
    subst hbase
    refine merges_settled (by decide) (flatten_splitlines _).symm (woven_unchanged hdifflib _ _) ?_
    rintro ⟨first, hfirst, -⟩
    rw [hdifflib.unchanged] at hfirst
    cases hfirst
  split
  · rename_i hbase
    subst hbase
    refine merges_settled (by decide) (flatten_splitlines _).symm (woven_unchanged hdifflib _ _).symm ?_
    rintro ⟨first, -, second, hsecond, -⟩
    rw [hdifflib.unchanged] at hsecond
    cases hsecond
  have hclash := conflicts_ne_zero_iff hdifflib (splitlines base) (splitlines user)
    (splitlines new_model)
  dsimp only
  split
  · rename_i hconflicts
    exact
      { woven := by rintro _ ⟨⟩
        conflict_iff := iff_of_true rfl (hclash.mp hconflicts)
        refused_iff := iff_of_true rfl rfl
        counted_iff := iff_of_true hconflicts rfl }
  · rename_i hconflicts
    have hwoven := woven_combined hdifflib (splitlines base) (splitlines user)
      (splitlines new_model) (not_not.mp hconflicts)
    exact merges_settled (by decide) rfl hwoven (mt hclash.mpr hconflicts)

theorem three_way_merge_swap (hdifflib : Difflib get_opcodes) (base user new_model : List Char) :
    (three_way_merge get_opcodes base new_model user true).merged =
        (three_way_merge get_opcodes base user new_model true).merged ∧
      (three_way_merge get_opcodes base new_model user true).conflict_count =
        (three_way_merge get_opcodes base user new_model true).conflict_count := by
  have hlocked : ¬(true = false) := by decide
  by_cases hsame : user = new_model
  · subst hsame
    exact ⟨rfl, rfl⟩
  by_cases huser : user = base
  · subst huser
    simp [three_way_merge, Ne.symm hsame, hsame]
  by_cases hmodel : new_model = base
  · subst hmodel
    simp [three_way_merge, Ne.symm hsame, hsame]
  unfold three_way_merge
  simp only [if_neg hlocked, if_neg hsame, if_neg (Ne.symm hsame), if_neg huser, if_neg hmodel]
  rw [conflicts_comm]
  split
  · exact ⟨rfl, rfl⟩
  · rename_i hconflicts
    have hclear := not_not.mp hconflicts
    have hswapped := hclear
    rw [conflicts_comm] at hswapped
    refine ⟨congrArg some (congrArg List.flatten ?_), rfl⟩
    exact (woven_combined hdifflib _ _ _ hswapped).symm.unique (woven_combined hdifflib _ _ _ hclear)

theorem three_way_merge_correct (hdifflib : Difflib get_opcodes) (base user new_model : List Char) :
    Merges get_opcodes base user new_model (three_way_merge get_opcodes base user new_model true) ∧
      (three_way_merge get_opcodes base new_model user true).merged =
        (three_way_merge get_opcodes base user new_model true).merged ∧
      (three_way_merge get_opcodes base new_model user true).conflict_count =
        (three_way_merge get_opcodes base user new_model true).conflict_count :=
  ⟨three_way_merge_merges hdifflib base user new_model,
    three_way_merge_swap hdifflib base user new_model⟩

end Correct

section OneBlock

def common : List Line → List Line → ℕ
  | first :: rest, second :: others => if first = second then common rest others + 1 else 0
  | _, _ => 0

theorem common_le (first second : List Line) :
    common first second ≤ first.length ∧ common first second ≤ second.length := by
  fun_induction common first second with
  | case1 first rest second ih => simpa using ih
  | case2 first rest second others hne => simp
  | case3 first second hne => simp

theorem take_common (first second : List Line) :
    first.take (common first second) = second.take (common first second) := by
  fun_induction common first second with
  | case1 first rest second ih => simpa using ih
  | case2 first rest second others hne => rfl
  | case3 first second hne => rfl

theorem common_self (lines : List Line) : common lines lines = lines.length := by
  induction lines with
  | nil => rfl
  | cons line rest ih => simp [common, ih]

-- The lines that two texts end with after a common beginning.
def common_end (base variant : List Line) : ℕ :=
  common (base.drop (common base variant)).reverse (variant.drop (common base variant)).reverse

theorem common_end_le (base variant : List Line) :
    common base variant + common_end base variant ≤ base.length ∧
      common base variant + common_end base variant ≤ variant.length := by
  have hbegin := common_le base variant
  have hend := common_le (base.drop (common base variant)).reverse
    (variant.drop (common base variant)).reverse
  simp only [List.length_reverse, List.length_drop] at hend
  unfold common_end
  omega

theorem drop_common_end (base variant : List Line) :
    base.drop (base.length - common_end base variant) =
      variant.drop (variant.length - common_end base variant) := by
  have hle := common_end_le base variant
  have hsame : _ = _ := take_common (base.drop (common base variant)).reverse
    (variant.drop (common base variant)).reverse
  rw [List.take_reverse, List.take_reverse, List.reverse_inj, List.drop_drop, List.drop_drop,
    List.length_drop, List.length_drop] at hsame
  have hbase : common base variant + (base.length - common base variant - common_end base variant) =
      base.length - common_end base variant := by omega
  have hvariant : common base variant +
      (variant.length - common base variant - common_end base variant) =
        variant.length - common_end base variant := by omega
  rwa [← common_end, hbase, hvariant] at hsame

-- Scripts with one changed block: what is between the common beginning and the common end.
def one_block (base variant : List Line) : List Opcode :=
  ⟨.equal, 0, common base variant, 0, common base variant⟩ ::
    ((if base = variant then []
      else [⟨.replace, common base variant, base.length - common_end base variant,
        common base variant, variant.length - common_end base variant⟩]) ++
      [⟨.equal, base.length - common_end base variant, base.length,
        variant.length - common_end base variant, variant.length⟩])

theorem difflib_one_block : Difflib one_block where
  tiles base variant := by
    have hle := common_end_le base variant
    have hbegin := take_common base variant
    have hend := drop_common_end base variant
    unfold one_block
    split
    · rename_i hsame
      subst hsame
      have hnone : common_end base base = 0 := by
        rw [common_self] at hle
        omega
      simp [Opcode.Tiles, common_self, hnone]
    · simp only [List.singleton_append, Opcode.Tiles, List.drop_zero, hbegin, hend,
        List.take_length, reduceCtorEq, false_implies, true_implies, and_true, true_and]
      omega
  apart base variant := by
    unfold _edits one_block
    split <;> simp
  unchanged base := by
    simp [_edits, one_block]

end OneBlock

theorem two_ends_merged :
    Merges one_block "a\nb\nc\n".toList "x\nb\nc\n".toList "a\nb\ny\n".toList
        (three_way_merge one_block "a\nb\nc\n".toList "x\nb\nc\n".toList "a\nb\ny\n".toList true) ∧
      three_way_merge one_block "a\nb\nc\n".toList "x\nb\nc\n".toList "a\nb\ny\n".toList true =
        ⟨.auto_merged, some "x\nb\ny\n".toList, 0⟩ :=
  ⟨(three_way_merge_correct difflib_one_block _ _ _).1, by decide⟩

end KnowledgeCompiler.Service
