import KnowledgeCompiler.Lib.Posix
import Mathlib.Data.String.Basic

namespace KnowledgeCompiler.Exporters

open Lib Posix

inductive PathRaised
  | value_error (message : String)
  | index_error
deriving DecidableEq

-- `path.replace("\\", "/")`
def with_slashes (path : List Char) : List Char := path.map (fun c => if c = '\\' then '/' else c)

-- `PurePosixPath(...).as_posix()` of relative names
def joined (names : List Name) : List Char := ['/'].intercalate names

def unsafe_path : PathRaised := .value_error "path must be a normalized relative path"

-- A path of dots and slashes alone has no parts, and `parts[0]` raises.
def safe_relative_path (path : String) : Except PathRaised String :=
  let normalized := with_slashes path.toList
  if normalized = [] ∨ normalized.head? = some '/' ∨ up ∈ parts normalized then .error unsafe_path
  else
    match parts normalized with
    | [] => .error .index_error
    | first :: rest =>
        if ':' ∈ first then .error unsafe_path else .ok (String.ofList (joined (first :: rest)))

-- What comes out: names that a path keeps, the first without a colon.
structure SafeNames (names : List Name) : Prop where
  nonempty : names ≠ []
  plain : ∀ name ∈ names, name ≠ [] ∧ name ≠ ['.'] ∧ name ≠ up ∧ '/' ∉ name ∧ '\\' ∉ name
  no_colon : ∀ name ∈ names.head?, ':' ∉ name

section Parts

theorem mem_splitOnP {separates : Char → Bool} {text piece : List Char}
    (hpiece : piece ∈ text.splitOnP separates) : ∀ c ∈ piece, separates c = false ∧ c ∈ text := by
  induction text generalizing piece with
  | nil =>
      rw [List.splitOnP_nil, List.mem_singleton] at hpiece
      subst hpiece
      exact fun c hc => absurd hc List.not_mem_nil
  | cons c rest ih =>
      rw [List.splitOnP_cons_eq_if_modifyHead] at hpiece
      split at hpiece
      · rcases List.mem_cons.mp hpiece with rfl | hlater
        · exact fun c hc => absurd hc List.not_mem_nil
        · exact fun d hd => ⟨(ih hlater d hd).1, List.mem_cons_of_mem c (ih hlater d hd).2⟩
      · rename_i hkept
        obtain ⟨first, more, hsplit⟩ := List.exists_cons_of_ne_nil (List.splitOnP_ne_nil separates rest)
        rw [hsplit, List.modifyHead_cons] at hpiece
        rcases List.mem_cons.mp hpiece with rfl | hlater
        · intro d hd
          rcases List.mem_cons.mp hd with rfl | htail
          · exact ⟨Bool.not_eq_true _ ▸ hkept, List.mem_cons_self⟩
          · have hfirst := ih (hsplit ▸ List.mem_cons_self) d htail
            exact ⟨hfirst.1, List.mem_cons_of_mem c hfirst.2⟩
        · have hmore := ih (hsplit ▸ List.mem_cons_of_mem first hlater)
          exact fun d hd => ⟨(hmore d hd).1, List.mem_cons_of_mem c (hmore d hd).2⟩

theorem mem_parts {path : List Char} {name : Name} (hname : name ∈ parts path) :
    name ≠ [] ∧ name ≠ ['.'] ∧ '/' ∉ name ∧ ∀ c ∈ name, c ∈ path := by
  obtain ⟨hsplit, hkept⟩ := List.mem_filter.mp hname
  rw [decide_eq_true_eq] at hkept
  have hchars := mem_splitOnP hsplit
  refine ⟨hkept.1, hkept.2, fun hslash => ?_, fun c hc => (hchars c hc).2⟩
  have hseparates := (hchars '/' hslash).1
  simp at hseparates

theorem joined_cons (name second : Name) (rest : List Name) :
    joined (name :: second :: rest) = name ++ '/' :: joined (second :: rest) := by
  simp [joined, List.intercalate]

theorem parts_joined {names : List Name}
    (hnames : ∀ name ∈ names, name ≠ [] ∧ name ≠ ['.'] ∧ '/' ∉ name) :
    parts (joined names) = names := by
  induction names with
  | nil => rfl
  | cons name rest ih =>
      obtain ⟨⟨hne, hdot, hslash⟩, hrest⟩ := List.forall_mem_cons.mp hnames
      cases rest with
      | nil =>
          rw [joined, List.intercalate_singleton]
          exact parts_name hslash hne hdot
      | cons second others => rw [joined_cons, parts_slash hslash hne hdot, ih hrest]

theorem mem_joined {names : List Name} {c : Char} (hc : c ∈ joined names) :
    c = '/' ∨ ∃ name ∈ names, c ∈ name := by
  induction names with
  | nil => cases hc
  | cons name rest ih =>
      cases rest with
      | nil =>
          rw [joined, List.intercalate_singleton] at hc
          exact .inr ⟨name, List.mem_cons_self, hc⟩
      | cons second others =>
          rw [joined_cons] at hc
          rcases List.mem_append.mp hc with hname | hlater
          · exact .inr ⟨name, List.mem_cons_self, hname⟩
          rcases List.mem_cons.mp hlater with rfl | hjoined
          · exact .inl rfl
          rcases ih hjoined with hslash | ⟨found, hfound, hmem⟩
          · exact .inl hslash
          · exact .inr ⟨found, List.mem_cons_of_mem name hfound, hmem⟩

end Parts

section Safe

variable {names : List Name}

theorem SafeNames.names_plain (hsafe : SafeNames names) :
    ∀ name ∈ names, name ≠ [] ∧ name ≠ ['.'] ∧ '/' ∉ name := fun name hname =>
  have hplain := hsafe.plain name hname
  ⟨hplain.1, hplain.2.1, hplain.2.2.2.1⟩

theorem SafeNames.backslash_notMem (hsafe : SafeNames names) : '\\' ∉ joined names := by
  intro hback
  rcases mem_joined hback with hslash | ⟨name, hname, hmem⟩
  · cases hslash
  · exact (hsafe.plain name hname).2.2.2.2 hmem

theorem with_slashes_of_notMem {path : List Char} (hback : '\\' ∉ path) : with_slashes path = path := by
  conv_rhs => rw [← List.map_id path]
  refine List.map_congr_left fun c hc => if_neg ?_
  rintro rfl
  exact hback hc

theorem SafeNames.head_ne_slash (hsafe : SafeNames names) :
    joined names ≠ [] ∧ (joined names).head? ≠ some '/' := by
  obtain ⟨first, rest, rfl⟩ := List.exists_cons_of_ne_nil hsafe.nonempty
  obtain ⟨hne, -, -, hslash, -⟩ := hsafe.plain first List.mem_cons_self
  obtain ⟨c, chars, rfl⟩ := List.exists_cons_of_ne_nil hne
  have hc : c ≠ '/' := fun h => hslash (h ▸ List.mem_cons_self)
  cases rest with
  | nil => simpa [joined] using hc
  | cons second others =>
      rw [joined_cons]
      simpa using hc

theorem exists_names {path safe : String} (hsafe : safe_relative_path path = .ok safe) :
    ∃ names, SafeNames names ∧ safe = String.ofList (joined names) := by
  unfold safe_relative_path at hsafe
  dsimp only at hsafe
  split at hsafe
  · cases hsafe
  rename_i hnormal
  rw [not_or, not_or] at hnormal
  split at hsafe
  · cases hsafe
  rename_i first rest hparts
  split at hsafe
  · cases hsafe
  rename_i hcolon
  cases hsafe
  refine ⟨first :: rest, ⟨List.cons_ne_nil _ _, ?_, ?_⟩, rfl⟩
  · intro name hname
    rw [← hparts] at hname
    obtain ⟨hne, hdot, hslash, hchars⟩ := mem_parts hname
    refine ⟨hne, hdot, fun hup => hnormal.2.2 (hup ▸ hname), hslash, fun hback => ?_⟩
    obtain ⟨c, -, hc⟩ := List.mem_map.mp (hchars _ hback)
    split at hc
    · cases hc
    · rename_i hother
      exact hother hc
  · rintro name ⟨⟩
    exact hcolon

theorem safe_joined (hsafe : SafeNames names) :
    safe_relative_path (String.ofList (joined names)) = .ok (String.ofList (joined names)) := by
  have hparts := parts_joined hsafe.names_plain
  obtain ⟨hne, hhead⟩ := hsafe.head_ne_slash
  have hup : up ∉ names := fun hmem => (hsafe.plain up hmem).2.2.1 rfl
  have hnormal := with_slashes_of_notMem hsafe.backslash_notMem
  unfold safe_relative_path
  dsimp only
  rw [String.toList_ofList, hnormal, hparts, if_neg (by simp [hne, hhead, hup])]
  obtain ⟨first, rest, rfl⟩ := List.exists_cons_of_ne_nil hsafe.nonempty
  exact if_neg (hsafe.no_colon first rfl)

end Safe

end KnowledgeCompiler.Exporters
