import KnowledgeCompiler.Lib.Binary64
import KnowledgeCompiler.Lib.Dict

namespace KnowledgeCompiler.Trust

open Lib

-- A value with its mappings keyed by `str(key)`; `other` is of any type that has no branch.
inductive Payload
  | null
  | boolean (value : Bool)
  | integer (value : ℤ)
  | float (value : Binary64)
  | text (value : String)
  | binary (value : List UInt8)
  | mapping (entries : List (String × Payload))
  | sequence (items : List Payload)
  | other (type_name : String)

namespace Payload

def is_none : Payload → Bool
  | null => true
  | _ => false

end Payload

def _SENSITIVE_KEYS : List String :=
  ["api_key", "apikey", "authorization", "body", "content", "cookie", "credential", "decrypted",
    "document", "document_text", "password", "prompt", "raw_output", "raw_text", "secret",
    "source_text", "token"]

def isCapital (c : Char) : Bool := 'A' ≤ c && c ≤ 'Z'

-- `re.sub(r"(?<!^)(?=[A-Z])", "_", value)`
def underscored : List Char → List Char
  | [] => []
  | first :: rest => first :: rest.flatMap fun c => if isCapital c then ['_', c] else [c]

section Guard

-- `str.casefold`, which works character by character.
variable (casefold : Char → List Char)

def _canonical_key (value : String) : List Char := (underscored value.toList).flatMap casefold

def _sensitive_key (value : String) : Bool :=
  let canonical := _canonical_key casefold value
  _SENSITIVE_KEYS.any (fun key => key.toList = canonical) ||
    ["_api_key", "_credential", "_password", "_secret"].any
      (fun suffix => suffix.toList.isSuffixOf canonical) ||
    ["raw_output", "raw_text", "source_text"].any (fun start => start.toList.isPrefixOf canonical)

mutual
def validate_public_payload (path : String) : Payload → Except String Payload
  | .mapping entries => (validate_entries path [] entries).map .mapping
  | .sequence items =>
      if items.length > 1000 then .error s!"public payload sequence is too large at {path}"
      else (validate_items path 0 items).map .sequence
  | .text value =>
      if value.length > 2048 then .error s!"public payload string is too long at {path}"
      else .ok (.text value)
  | .binary _ => .error s!"binary public payload value is forbidden at {path}"
  | .float (.finite value) => .ok (.float (.finite value))
  | .float _ => .error s!"non-finite public payload number at {path}"
  | .null => .ok .null
  | .boolean value => .ok (.boolean value)
  | .integer value => .ok (.integer value)
  | .other _ => .error s!"unsupported public payload type at {path}"

def validate_entries (path : String) (result : List (String × Payload)) :
    List (String × Payload) → Except String (List (String × Payload))
  | [] => .ok result
  | (text_key, item) :: rest =>
      if _sensitive_key casefold text_key && !item.is_none then
        .error s!"sensitive public payload key at {path}.{text_key}"
      else
        match validate_public_payload s!"{path}.{text_key}" item with
        | .ok value => validate_entries path (Dict.setEntries text_key value result) rest
        | .error message => .error message

def validate_items (path : String) (index : ℕ) : List Payload → Except String (List Payload)
  | [] => .ok []
  | item :: rest =>
      match validate_public_payload s!"{path}[{index}]" item with
      | .ok value => (validate_items path (index + 1) rest).map (value :: ·)
      | .error message => .error message
end

end Guard

-- The keys, at any depth, of the values that are not None.
mutual
def exposed : Payload → List String
  | .mapping entries => exposed_entries entries
  | .sequence items => exposed_items items
  | _ => []

def exposed_entries : List (String × Payload) → List String
  | [] => []
  | (key, item) :: rest =>
      (if item.is_none then [] else [key]) ++ (exposed item ++ exposed_entries rest)

def exposed_items : List Payload → List String
  | [] => []
  | item :: rest => exposed item ++ exposed_items rest
end

-- Every value is of a type that may be public, and no larger than is allowed.
mutual
def bounded : Payload → Bool
  | .mapping entries => bounded_entries entries
  | .sequence items => items.length ≤ 1000 && bounded_items items
  | .text value => value.length ≤ 2048
  | .float (.finite _) => true
  | .null => true
  | .boolean _ => true
  | .integer _ => true
  | .float _ => false
  | .binary _ => false
  | .other _ => false

def bounded_entries : List (String × Payload) → Bool
  | [] => true
  | (_, item) :: rest => bounded item && bounded_entries rest

def bounded_items : List Payload → Bool
  | [] => true
  | item :: rest => bounded item && bounded_items rest
end

section Guard

variable (casefold : Char → List Char)

theorem isOk_map {α β : Type} (change : α → β) (result : Except String α) :
    (result.map change).isOk = result.isOk := by
  cases result <;> rfl

-- What is accepted does not depend on the path, nor on what has been read before.
mutual
theorem validate_isOk (path : String) (value : Payload) :
    (validate_public_payload casefold path value).isOk = true ↔
      (∀ key ∈ exposed value, _sensitive_key casefold key = false) ∧ bounded value = true := by
  cases value with
  | null => simp [validate_public_payload, exposed, bounded, Except.isOk, Except.toBool]
  | boolean value => simp [validate_public_payload, exposed, bounded, Except.isOk, Except.toBool]
  | integer value => simp [validate_public_payload, exposed, bounded, Except.isOk, Except.toBool]
  | float value =>
      cases value <;> simp [validate_public_payload, exposed, bounded, Except.isOk, Except.toBool]
  | text value =>
      simp only [validate_public_payload, exposed, bounded, decide_eq_true_eq]
      split
      · simp [Except.isOk, Except.toBool]
        omega
      · simp [Except.isOk, Except.toBool]
        omega
  | binary value => simp [validate_public_payload, bounded, Except.isOk, Except.toBool]
  | mapping entries =>
      simp only [validate_public_payload, exposed, bounded, isOk_map]
      exact validate_entries_isOk path [] entries
  | sequence items =>
      simp only [validate_public_payload, exposed, bounded, Bool.and_eq_true, decide_eq_true_eq]
      have hitems := validate_items_isOk path 0 items
      split
      · rename_i hlong
        simp only [Except.isOk, Except.toBool, Bool.false_eq_true, false_iff]
        omega
      · rename_i hshort
        rw [isOk_map, hitems]
        have hlength : items.length ≤ 1000 := by omega
        tauto
  | other type_name => simp [validate_public_payload, bounded, Except.isOk, Except.toBool]

theorem validate_entries_isOk (path : String) (result : List (String × Payload))
    (entries : List (String × Payload)) :
    (validate_entries casefold path result entries).isOk = true ↔
      (∀ key ∈ exposed_entries entries, _sensitive_key casefold key = false) ∧
        bounded_entries entries = true := by
  match entries with
  | [] => simp [validate_entries, exposed_entries, bounded_entries, Except.isOk, Except.toBool]
  | (text_key, item) :: rest =>
      have hitem := validate_isOk s!"{path}.{text_key}" item
      simp only [validate_entries, exposed_entries, bounded_entries, List.mem_append, Bool.and_eq_true]
      split
      · rename_i hrefused
        simp only [Bool.not_eq_true'] at hrefused
        simp only [Except.isOk, Except.toBool, Bool.false_eq_true, false_iff]
        intro hclear
        have hkey := hclear.1 text_key (Or.inl (by simp [hrefused.2]))
        simp [hrefused.1] at hkey
      · rename_i hpassed
        have hkey : ∀ key ∈ (if item.is_none = true then [] else [text_key]),
            _sensitive_key casefold key = false := by
          intro key hmem
          split at hmem
          · simp at hmem
          · rename_i hsome
            rw [List.mem_singleton] at hmem
            subst hmem
            simpa [hsome] using hpassed
        cases hresult : validate_public_payload casefold s!"{path}.{text_key}" item with
        | ok value =>
            have hrest := validate_entries_isOk path (Dict.setEntries text_key value result) rest
            rw [hresult] at hitem
            obtain ⟨hclear, hbound⟩ := hitem.mp rfl
            simp only [hrest]
            constructor
            · intro hboth
              refine ⟨?_, hbound, hboth.2⟩
              rintro key (hmem | hmem | hmem)
              · exact hkey key hmem
              · exact hclear key hmem
              · exact hboth.1 key hmem
            · intro hboth
              exact ⟨fun key hmem => hboth.1 key (Or.inr (Or.inr hmem)), hboth.2.2⟩
        | error message =>
            rw [hresult] at hitem
            simp only [Except.isOk, Except.toBool, Bool.false_eq_true, false_iff] at hitem ⊢
            intro hboth
            exact hitem ⟨fun key hmem => hboth.1 key (Or.inr (Or.inl hmem)), hboth.2.1⟩

theorem validate_items_isOk (path : String) (index : ℕ) (items : List Payload) :
    (validate_items casefold path index items).isOk = true ↔
      (∀ key ∈ exposed_items items, _sensitive_key casefold key = false) ∧
        bounded_items items = true := by
  match items with
  | [] => simp [validate_items, exposed_items, bounded_items, Except.isOk, Except.toBool]
  | item :: rest =>
      have hitem := validate_isOk s!"{path}[{index}]" item
      have hrest := validate_items_isOk path (index + 1) rest
      simp only [validate_items, exposed_items, bounded_items, List.mem_append, Bool.and_eq_true]
      cases hresult : validate_public_payload casefold s!"{path}[{index}]" item with
      | ok value =>
          rw [hresult] at hitem
          obtain ⟨hclear, hbound⟩ := hitem.mp rfl
          simp only [isOk_map, hrest]
          constructor
          · intro hboth
            refine ⟨?_, hbound, hboth.2⟩
            rintro key (hmem | hmem)
            · exact hclear key hmem
            · exact hboth.1 key hmem
          · intro hboth
            exact ⟨fun key hmem => hboth.1 key (Or.inr hmem), hboth.2.2⟩
      | error message =>
          rw [hresult] at hitem
          simp only [Except.isOk, Except.toBool, Bool.false_eq_true, false_iff] at hitem ⊢
          intro hboth
          exact hitem ⟨fun key hmem => hboth.1 key (Or.inl hmem), hboth.2.1⟩
end

-- What is left of a key when neither letter case nor how its words are joined matters.
def compact (key : String) : List Char :=
  (key.toList.flatMap casefold).filter fun c => c ≠ '_' && c ≠ '-'

def Spells (key : String) : Prop := ∃ name ∈ _SENSITIVE_KEYS, compact casefold key = compact casefold name

-- Nothing that is accepted has a value under a spelling of a sensitive key.
def Guarded (path : String) (value : Payload) : Prop :=
  ∀ accepted, validate_public_payload casefold path value = .ok accepted →
    ∀ key ∈ exposed value, ¬Spells casefold key

-- The guard knows every spelling there is, or refuses the payload on some other ground.
theorem guarded_iff (path : String) (value : Payload) :
    Guarded casefold path value ↔
      (∀ key ∈ exposed value, Spells casefold key → _sensitive_key casefold key = true) ∨
        (∃ key ∈ exposed value, _sensitive_key casefold key = true) ∨ bounded value = false := by
  have haccepts := validate_isOk casefold path value
  constructor
  · intro hguarded
    by_cases hsensitive : ∃ key ∈ exposed value, _sensitive_key casefold key = true
    · exact Or.inr (Or.inl hsensitive)
    · by_cases hbound : bounded value = true
      · have hclear : ∀ key ∈ exposed value, _sensitive_key casefold key = false := by
          intro key hmem
          by_contra hkey
          exact hsensitive ⟨key, hmem, by simpa using hkey⟩
        cases hresult : validate_public_payload casefold path value with
        | ok accepted =>
            exact Or.inl fun key hmem hspells => absurd hspells (hguarded accepted hresult key hmem)
        | error message =>
            rw [hresult] at haccepts
            have hok := haccepts.mpr ⟨hclear, hbound⟩
            simp [Except.isOk, Except.toBool] at hok
      · exact Or.inr (Or.inr (by simpa using hbound))
  · intro hground accepted hresult key hmem hspells
    rw [hresult] at haccepts
    obtain ⟨hclear, hbound⟩ := haccepts.mp rfl
    rcases hground with hknown | ⟨other, hother, hsensitive⟩ | hlarge
    · have hkey := hknown key hmem hspells
      simp [hclear key hmem] at hkey
    · simp [hclear other hother] at hsensitive
    · simp [hbound] at hlarge

-- `str.casefold` of an ASCII character.
def ascii_casefold (c : Char) : List Char := [c.toLower]

theorem capitals_unguarded :
    ¬Guarded ascii_casefold "$" (.mapping [("PASSWORD", .text "hunter2")]) := by
  intro hguarded
  refine hguarded (.mapping [("PASSWORD", .text "hunter2")]) rfl "PASSWORD" (by decide) ?_
  exact ⟨"password", by decide, by decide⟩

end Guard

end KnowledgeCompiler.Trust
