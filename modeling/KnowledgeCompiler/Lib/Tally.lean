import KnowledgeCompiler.Lib.Dict
import Mathlib.Algebra.BigOperators.Group.List.Lemmas
import Mathlib.Tactic.Abel

namespace KnowledgeCompiler.Lib.Dict

variable {α β M : Type*} [DecidableEq α] [AddCommMonoid M]

-- What the values of a dictionary weigh together.
def tally (weigh : β → M) (dict : Dict α β) : M := (dict.values.map weigh).sum

def weight_at (weigh : β → M) (dict : Dict α β) (key : α) : M :=
  ((dict.get? key).map weigh).getD 0

omit [DecidableEq α] in
@[simp] theorem tally_empty (weigh : β → M) : (empty : Dict α β).tally weigh = 0 := rfl

theorem weight_at_of_get? {weigh : β → M} {dict : Dict α β} {key : α} {value : β}
    (hget : dict.get? key = some value) : dict.weight_at weigh key = weigh value := by
  simp [weight_at, hget]

theorem weight_at_set_of_ne (weigh : β → M) (dict : Dict α β) {key other : α} (value : β)
    (hne : other ≠ key) : (dict.set key value).weight_at weigh other = dict.weight_at weigh other := by
  rw [weight_at, get?_set_of_ne _ _ hne, weight_at]

-- Assigning puts the new weight in the place of the old one.
theorem tally_set (weigh : β → M) (dict : Dict α β) (key : α) (value : β) :
    (dict.set key value).tally weigh + dict.weight_at weigh key = dict.tally weigh + weigh value := by
  have h (entries : List (α × β)) :
      ((setEntries key value entries).map (fun entry => weigh entry.2)).sum +
          (((entries.find? (fun entry => entry.1 = key)).map Prod.snd).map weigh).getD 0 =
        (entries.map (fun entry => weigh entry.2)).sum + weigh value := by
    induction entries with
    | nil => simp [setEntries]
    | cons entry rest ih =>
        by_cases hkey : entry.1 = key
        · simp only [setEntries, hkey, if_true, List.map_cons, List.sum_cons, decide_true,
            List.find?_cons_of_pos, Option.map_some, Option.getD_some]
          abel
        · simp only [setEntries, hkey, if_false, List.map_cons, List.sum_cons, decide_false,
            List.find?_cons_of_neg, Bool.false_eq_true, not_false_eq_true]
          rw [add_assoc, ih, add_assoc]
  simpa [tally, weight_at, values, set, get?, Function.comp_def] using h dict.entries

-- Deleting takes the key's own weight out.
theorem tally_erase (weigh : β → M) (dict : Dict α β) (key : α) :
    (dict.erase key).tally weigh + dict.weight_at weigh key = dict.tally weigh := by
  have h (entries : List (α × β)) (hn : (entries.map Prod.fst).Nodup) :
      ((entries.filter (fun entry => entry.1 ≠ key)).map (fun entry => weigh entry.2)).sum +
          (((entries.find? (fun entry => entry.1 = key)).map Prod.snd).map weigh).getD 0 =
        (entries.map (fun entry => weigh entry.2)).sum := by
    induction entries with
    | nil => simp
    | cons entry rest ih =>
        rw [List.map_cons, List.nodup_cons] at hn
        by_cases hkey : entry.1 = key
        · have hkeep : rest.filter (fun entry => entry.1 ≠ key) = rest := by
            rw [List.filter_eq_self]
            intro other hother
            simp only [ne_eq, decide_eq_true_eq]
            intro he
            exact hn.1 (List.mem_map.mpr ⟨other, hother, by rw [he, hkey]⟩)
          rw [List.filter_cons_of_neg (by simp [hkey]), hkeep]
          simp only [hkey, decide_true, List.find?_cons_of_pos, Option.map_some, Option.getD_some,
            List.map_cons, List.sum_cons]
          abel
        · rw [List.filter_cons_of_pos (by simp [hkey]),
            List.find?_cons_of_neg (by simp [hkey]), List.map_cons, List.sum_cons, add_assoc,
            ih hn.2, List.map_cons, List.sum_cons]
  simpa [tally, weight_at, values, erase, get?, Function.comp_def] using h dict.entries dict.nodup

end KnowledgeCompiler.Lib.Dict
