import Mathlib.Data.List.Basic

namespace KnowledgeCompiler.Lib

-- Marks that open and close a label, which holds neither.
structure Wrapper (α κ : Type*) where
  opening : α
  closing : α
  label : κ → Bool → List α
  apart : opening ≠ closing
  label_clear : ∀ kind ends, opening ∉ label kind ends ∧ closing ∉ label kind ends

namespace Wrapper

variable {α κ : Type*} (wrapper : Wrapper α κ)

-- A label between its marks, of the start or of the end of a passage.
def mark (kind : κ) (ends : Bool) : List α :=
  wrapper.opening :: wrapper.label kind ends ++ [wrapper.closing]

def Clear (text : List α) : Prop := wrapper.opening ∉ text ∧ wrapper.closing ∉ text

-- Labels come in pairs, and a pair holds whole pairs.
inductive Nested : List α → Prop
  | text {text : List α} (htext : wrapper.Clear text) : Nested text
  | passage (kind : κ) {inner : List α} (hinner : Nested inner) :
      Nested (wrapper.mark kind false ++ inner ++ wrapper.mark kind true)
  | append {first second : List α} (hfirst : Nested first) (hsecond : Nested second) :
      Nested (first ++ second)

-- The first label of the list outermost.
def opened (kinds : List κ) : List α := kinds.flatMap (wrapper.mark · false)

def closed (kinds : List κ) : List α := kinds.reverse.flatMap (wrapper.mark · true)

section Nesting

variable {wrapper}

theorem Clear.of_subset {text more : List α} (hmore : wrapper.Clear more) (hsub : text ⊆ more) :
    wrapper.Clear text :=
  ⟨fun hmem => hmore.1 (hsub hmem), fun hmem => hmore.2 (hsub hmem)⟩

theorem closed_cons (kind : κ) (kinds : List κ) :
    wrapper.closed (kind :: kinds) = wrapper.closed kinds ++ wrapper.mark kind true := by
  simp [closed]

theorem opened_append (first second : List κ) :
    wrapper.opened (first ++ second) = wrapper.opened first ++ wrapper.opened second := by
  simp [opened]

theorem closed_append (first second : List κ) :
    wrapper.closed (first ++ second) = wrapper.closed second ++ wrapper.closed first := by
  simp [closed]

theorem nested_enclosed (kinds : List κ) {passage : List α} (hpassage : wrapper.Clear passage) :
    wrapper.Nested (wrapper.opened kinds ++ passage ++ wrapper.closed kinds) := by
  induction kinds with
  | nil => simpa [opened, closed] using Nested.text hpassage
  | cons kind kinds ih =>
      have hinner := Nested.passage kind ih
      rw [closed_cons]
      simpa [opened] using hinner

end Nesting

variable [DecidableEq α]

-- The text without its marked labels.
def eraseFrom (within : Bool) : List α → List α
  | [] => []
  | c :: rest =>
      if within then eraseFrom (c ≠ wrapper.closing) rest
      else if c = wrapper.opening then eraseFrom true rest
      else c :: eraseFrom false rest

def erase (text : List α) : List α := wrapper.eraseFrom false text

section Erasing

variable {wrapper}

theorem erase_clear_append {text : List α} (htext : wrapper.Clear text) (rest : List α) :
    wrapper.erase (text ++ rest) = text ++ wrapper.erase rest := by
  induction text with
  | nil => rfl
  | cons c text ih =>
      obtain ⟨hopening, hclosing⟩ := htext
      simp only [List.mem_cons, not_or] at hopening hclosing
      have hrest := ih ⟨hopening.2, hclosing.2⟩
      unfold erase at hrest ⊢
      simp [eraseFrom, Ne.symm hopening.1, hrest]

theorem eraseFrom_label {label : List α} (hlabel : wrapper.closing ∉ label) (rest : List α) :
    wrapper.eraseFrom true (label ++ wrapper.closing :: rest) = wrapper.erase rest := by
  induction label with
  | nil => simp [eraseFrom, erase]
  | cons c label ih =>
      simp only [List.mem_cons, not_or] at hlabel
      simpa [eraseFrom, Ne.symm hlabel.1] using ih hlabel.2

theorem erase_mark_append (kind : κ) (ends : Bool) (rest : List α) :
    wrapper.erase (wrapper.mark kind ends ++ rest) = wrapper.erase rest := by
  have hlabel := eraseFrom_label (wrapper.label_clear kind ends).2 rest
  simpa [mark, erase, eraseFrom] using hlabel

theorem erase_marks_append (kinds : List κ) (ends : Bool) (rest : List α) :
    wrapper.erase (kinds.flatMap (wrapper.mark · ends) ++ rest) = wrapper.erase rest := by
  induction kinds with
  | nil => rfl
  | cons kind kinds ih => rw [List.flatMap_cons, List.append_assoc, erase_mark_append, ih]

theorem erase_clear {text : List α} (htext : wrapper.Clear text) : wrapper.erase text = text := by
  have herase := erase_clear_append htext []
  rwa [List.append_nil, show wrapper.erase [] = [] from rfl, List.append_nil] at herase

theorem erase_enclosed_append (kinds : List κ) {passage : List α} (hpassage : wrapper.Clear passage)
    (rest : List α) :
    wrapper.erase (wrapper.opened kinds ++ passage ++ wrapper.closed kinds ++ rest) =
      passage ++ wrapper.erase rest := by
  unfold opened closed
  rw [List.append_assoc, List.append_assoc, erase_marks_append, erase_clear_append hpassage,
    erase_marks_append]

theorem erase_enclosed (kinds : List κ) {passage : List α} (hpassage : wrapper.Clear passage) :
    wrapper.erase (wrapper.opened kinds ++ passage ++ wrapper.closed kinds) = passage := by
  have herase := erase_enclosed_append kinds hpassage []
  rwa [List.append_nil, show wrapper.erase [] = [] from rfl, List.append_nil] at herase

theorem erase_clear_opened {text : List α} (htext : wrapper.Clear text) (kinds : List κ) :
    wrapper.erase (text ++ wrapper.opened kinds) = text := by
  have herase := @erase_marks_append _ _ wrapper _ kinds false []
  rw [List.append_nil] at herase
  rw [erase_clear_append htext, opened, herase, show wrapper.erase [] = [] from rfl, List.append_nil]

end Erasing

end Wrapper

end KnowledgeCompiler.Lib
