import KnowledgeCompiler.Lib.Dict
import Mathlib.Algebra.Order.Group.Defs
import Mathlib.Algebra.BigOperators.Group.List.Basic

namespace KnowledgeCompiler.Lib

section Bins

variable {κ β : Type*} [DecidableEq κ]

-- `bins[key].append(item)`
def Dict.appendTo (bins : Dict κ (List β)) (key : κ) (item : β) : Dict κ (List β) :=
  bins.set key ((bins.get? key).getD [] ++ [item])

theorem Dict.keys_set_of_mem (dict : Dict κ β) {key : κ} (value : β) (hkey : key ∈ dict.keys) :
    (dict.set key value).keys = dict.keys := by
  have hentries (entries : List (κ × β)) (hmem : key ∈ entries.map Prod.fst) :
      (setEntries key value entries).map Prod.fst = entries.map Prod.fst := by
    induction entries with
    | nil => cases hmem
    | cons entry rest ih =>
        rw [setEntries]
        split
        · rename_i heq
          rw [List.map_cons, List.map_cons, heq]
        · rename_i hne
          rcases List.mem_cons.mp hmem with heq | hrest
          · exact absurd heq.symm hne
          · rw [List.map_cons, List.map_cons, ih hrest]
  exact hentries dict.entries hkey

variable (bins : Dict κ (List β)) {key : κ} (item : β)

theorem Dict.keys_appendTo (hkey : key ∈ bins.keys) : (bins.appendTo key item).keys = bins.keys :=
  bins.keys_set_of_mem _ hkey

theorem Dict.get?_appendTo (other : κ) :
    (bins.appendTo key item).get? other =
      if other = key then some ((bins.get? key).getD [] ++ [item]) else bins.get? other :=
  bins.get?_set key other _

-- One item more in one bin is one item more in all.
theorem Dict.flatten_appendTo (hkey : key ∈ bins.keys) :
    (bins.appendTo key item).values.flatten.Perm (item :: bins.values.flatten) := by
  obtain ⟨filled, hfilled⟩ := (bins.mem_keys_iff key).mp hkey
  have hmem := (bins.mem_entries_iff key filled).mpr hfilled
  rw [appendTo, hfilled, Option.getD_some]
  have hentries (entries : List (κ × List β)) (hnodup : (entries.map Prod.fst).Nodup)
      (hin : (key, filled) ∈ entries) :
      ((setEntries key (filled ++ [item]) entries).map Prod.snd).flatten.Perm
        (item :: (entries.map Prod.snd).flatten) := by
    induction entries with
    | nil => cases hin
    | cons entry rest ih =>
        obtain ⟨hfresh, hrest⟩ := List.nodup_cons.mp hnodup
        rw [setEntries]
        split
        · rename_i heq
          have hentry : entry = (key, filled) := by
            rcases List.mem_cons.mp hin with h | h
            · exact h.symm
            · exact absurd (List.mem_map.mpr ⟨_, h, heq.symm⟩) hfresh
          rw [hentry, List.map_cons, List.flatten_cons, List.map_cons, List.flatten_cons,
            List.append_assoc]
          exact List.perm_middle
        · rename_i hne
          have hlater : (key, filled) ∈ rest := by
            rcases List.mem_cons.mp hin with h | h
            · exact absurd (congrArg Prod.fst h).symm hne
            · exact h
          rw [List.map_cons, List.flatten_cons, List.map_cons, List.flatten_cons]
          exact ((ih hrest hlater).append_left _).trans List.perm_middle
  exact hentries bins.entries bins.nodup hmem

end Bins

section Balance

variable {ι α : Type*} [AddCommGroup α] [LinearOrder α] [IsOrderedAddMonoid α]

-- No load of the bins is over another by more than the bound.
def Balanced (bins : List ι) (bound : α) (load : ι → α) : Prop :=
  ∀ first ∈ bins, ∀ second ∈ bins, load first ≤ load second + bound

omit [IsOrderedAddMonoid α] in
theorem Balanced.congr {bins : List ι} {bound : α} {load other : ι → α}
    (hbalanced : Balanced bins bound load) (heq : ∀ bin ∈ bins, other bin = load bin) :
    Balanced bins bound other := by
  intro first hfirst second hsecond
  rw [heq first hfirst, heq second hsecond]
  exact hbalanced first hfirst second hsecond

theorem Balanced.const {bins : List ι} {bound : α} (hbound : 0 ≤ bound) (level : α) :
    Balanced bins bound fun _ => level :=
  fun _ _ _ _ => le_add_of_nonneg_right hbound

-- What goes onto a least load keeps the balance, if it is within the bound itself.
theorem Balanced.add [DecidableEq ι] {bins : List ι} {bound : α} {load : ι → α}
    (hbalanced : Balanced bins bound load) {least : ι} (hleast : ∀ bin ∈ bins, load least ≤ load bin)
    {size : α} (hsize : 0 ≤ size) (hbound : size ≤ bound) :
    Balanced bins bound (Function.update load least (load least + size)) := by
  intro first hfirst second hsecond
  by_cases hf : first = least
  · by_cases hs : second = least
    · rw [hf, hs]
      exact le_add_of_nonneg_right (hsize.trans hbound)
    · rw [hf, Function.update_self, Function.update_of_ne hs]
      exact add_le_add (hleast second hsecond) hbound
  · rw [Function.update_of_ne hf]
    by_cases hs : second = least
    · rw [hs, Function.update_self, add_assoc, add_comm size bound, ← add_assoc]
      exact (hbalanced first hfirst least (hs ▸ hsecond)).trans (le_add_of_nonneg_right hsize)
    · rw [Function.update_of_ne hs]
      exact hbalanced first hfirst second hsecond

end Balance

end KnowledgeCompiler.Lib
