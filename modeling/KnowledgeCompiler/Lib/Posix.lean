import Mathlib.Data.List.Induction
import Mathlib.Data.List.TakeDrop

namespace KnowledgeCompiler.Lib.Posix

abbrev Name := List Char

def up : Name := ['.', '.']

-- The names between the slashes of a path; an empty one and a single dot stand for nothing.
def parts (path : List Char) : List Name :=
  (path.splitOnP (· = '/')).filter fun part => part ≠ [] ∧ part ≠ ['.']

theorem not_slash {name : List Char} (hname : '/' ∉ name) :
    ∀ c ∈ name, decide (c = '/') = false := by
  intro c hc
  rw [decide_eq_false_iff_not]
  rintro rfl
  exact hname hc

theorem parts_slash {name : List Char} (hname : '/' ∉ name) (hne : name ≠ []) (hdot : name ≠ ['.'])
    (rest : List Char) : parts (name ++ '/' :: rest) = name :: parts rest := by
  rw [parts, List.splitOnP_append_cons_of_forall_mem (not_slash hname) '/' rfl,
    List.filter_cons_of_pos (by simp [hne, hdot])]
  rfl

theorem parts_name {name : List Char} (hname : '/' ∉ name) (hne : name ≠ []) (hdot : name ≠ ['.']) :
    parts name = [name] := by
  rw [parts, List.splitOnP_eq_singleton (not_slash hname),
    List.filter_cons_of_pos (by simp [hne, hdot]), List.filter_nil]

end KnowledgeCompiler.Lib.Posix
