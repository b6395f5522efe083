import KnowledgeCompiler.Exporters.Digests
import KnowledgeCompiler.Exporters.SafePath
import KnowledgeCompiler.Lib.Json.Bytes
import KnowledgeCompiler.Lib.Text

namespace KnowledgeCompiler.Exporters

open Lib Posix

inductive MergePolicy
  | ERROR
  | KEEP_EXISTING
  | RENAME_INCOMING
  | REPLACE_SAME_SOURCE
  | UPDATE_MANAGED
deriving DecidableEq

structure VaultConflict where
  existing_path : String
  incoming_path : String
  reason : String
  resolution : Option String := none
  resolved_path : Option String := none
deriving DecidableEq

-- `VaultConflict(...)` strips its texts; nothing reads them before the plan is made.
def VaultConflict.validated (conflict : VaultConflict) : VaultConflict where
  existing_path := Text.trim conflict.existing_path
  incoming_path := Text.trim conflict.incoming_path
  reason := Text.trim conflict.reason
  resolution := conflict.resolution.map Text.trim
  resolved_path := conflict.resolved_path.map Text.trim

structure BrokenVaultLink where
  source_path : String
  target : String
  resolved_path : Option String
  reason : String
deriving DecidableEq

structure VaultMergePlan where
  files : Dict String Bytes
  conflicts : List VaultConflict
  broken_links : List BrokenVaultLink
  safe_to_apply : Bool

-- The last is the search for a free name that has not ended within the fuel.
inductive MergeRaised
  | path_raised (raised : PathRaised)
  | value_error (message : String)
  | link_raised
  | endless
deriving DecidableEq

-- Positions at which a line starts.
def line_starts (text : List Char) : List Nat :=
  (List.range (text.length + 1)).filter (fun position =>
    position = 0 || text[position - 1]? = some '\n')

def MANAGED_START : List Char := "<!-- AKC:managed:start hash=".toList

def MANAGED_CLOSE : List Char := " -->\n".toList

def MANAGED_END : List Char := "<!-- AKC:managed:end -->".toList

-- `_MANAGED_START` at one position: the hash that it names.
def managed_start_at (text : List Char) (position : Nat) : Option String :=
  let rest := text.drop position
  let hash := String.ofList ((rest.drop MANAGED_START.length).take 71)
  if MANAGED_START.isPrefixOf rest && is_sha256_id hash &&
      MANAGED_CLOSE.isPrefixOf (rest.drop (MANAGED_START.length + 71)) then some hash
  else none

def managed_starts (text : List Char) : List (Nat × String) :=
  (line_starts text).filterMap (fun position => (managed_start_at text position).map (position, ·))

-- `$` holds before a line end and at the end of the text.
def managed_ends (text : List Char) : List Nat :=
  (line_starts text).filter (fun position =>
    MANAGED_END.isPrefixOf (text.drop position) &&
      match text[position + MANAGED_END.length]? with
      | none => true
      | some c => c = '\n')

structure ManagedSection where
  text : List Char
  start : Nat
  stop : Nat
  declared_hash : String
  actual_hash : String
deriving DecidableEq

def ManagedSection.is_valid (managed : ManagedSection) : Bool :=
  managed.declared_hash = managed.actual_hash

-- `text[start:end]`
def ManagedSection.slice (managed : ManagedSection) : List Char :=
  (managed.text.take managed.stop).drop managed.start

section Merge

-- `nfc` and `casefold` are what `unicodedata.normalize("NFC", text)` and `str.casefold` give.
variable (hasher : Hasher) (nfc casefold : String → String)

def decode (content : Bytes) : Option (List Char) := Utf8.decode ⟨content.toArray⟩

def _managed_section (content : Bytes) : Option ManagedSection :=
  match decode content with
  | none => none
  | some text =>
      match managed_starts text, managed_ends text with
      | [(start, declared_hash)], [close] =>
          let body_start := start + (MANAGED_START.length + 71 + MANAGED_CLOSE.length)
          if close < body_start then none
          else
            let stop := close + MANAGED_END.length
            some
              { text := text
                start := start
                stop := if text[stop]? = some '\n' then stop + 1 else stop
                declared_hash := declared_hash
                actual_hash := sha256_digest hasher (Json.utf8 ((text.take close).drop body_start)) }
      | _, _ => none

def SOURCE_KEY : List Char := "source_sha256:".toList

-- `source_sha256:\s*["']?([^"'\s]+)`: the blanks and the quote are taken as far as they go.
def source_hash_at (text : List Char) (position : Nat) : Option (List Char) :=
  let rest := text.drop position
  if SOURCE_KEY.isPrefixOf rest then
    let value := (rest.drop SOURCE_KEY.length).dropWhile Text.isSpace
    let unquoted :=
      match value with
      | '"' :: more | '\'' :: more => more
      | other => other
    let hash := unquoted.takeWhile (fun c => c ≠ '"' && c ≠ '\'' && !Text.isSpace c)
    if hash = [] then none else some hash
  else none

def _source_hash (content : Bytes) : Option (List Char) :=
  (decode content).bind (fun text => (line_starts text).findSome? (source_hash_at text))

def safe_path (path : String) : Except MergeRaised String :=
  (safe_relative_path path).mapError .path_raised

def collision_key (path : String) : Except MergeRaised String := do
  let safe ← safe_path path
  .ok (casefold (nfc safe))

-- `PurePath.stem` and `PurePath.suffix` of a name.
def split_name (name : Name) : Name × Name :=
  let tail := (name.reverse.takeWhile (· ≠ '.')).length
  let dot := name.length - 1 - tail
  if '.' ∈ name ∧ 0 < dot ∧ dot < name.length - 1 then (name.take dot, name.drop dot) else (name, [])

def with_collision_suffix (path seed : String) : Except MergeRaised String := do
  let safe ← safe_path path
  let names := parts safe.toList
  let (stem, extension) := split_name (names.getLastD [])
  let suffix := ((sha256_digest hasher (Json.utf8 seed.toList)).toList.drop 7).take 8
  .ok (String.ofList (joined (names.dropLast ++ [stem ++ ['-', '-'] ++ suffix ++ extension])))

structure Merging where
  merged : Dict String Bytes
  key_to_path : Dict String String
  conflicts : List VaultConflict

def Merging.listed (merging : Merging) (conflict : VaultConflict) : Merging :=
  { merging with conflicts := merging.conflicts ++ [conflict] }

def Merging.stored (merging : Merging) (path : String) (content : Bytes) : Merging :=
  { merging with merged := merging.merged.set path content }

def Merging.indexed (merging : Merging) (key path : String) : Merging :=
  { merging with key_to_path := merging.key_to_path.set key path }

-- `while collision_key(renamed) in key_to_path`
def free_name (key_to_path : Dict String String) : Nat → String → Except MergeRaised (String × String)
  | 0, _ => .error .endless
  | fuel + 1, renamed => do
      let key ← collision_key nfc casefold renamed
      if key ∈ key_to_path.keys then do
        let longer ← with_collision_suffix hasher renamed renamed
        free_name key_to_path fuel longer
      else .ok (key, renamed)

def update_managed (merging : Merging) (existing_path safe : String) (old content : Bytes) : Merging :=
  let conflict : VaultConflict := { existing_path, incoming_path := safe, reason := "" }
  match _managed_section hasher content with
  | none => merging.listed { conflict with reason := "incoming_managed_section_invalid" }
  | some incoming_section =>
      if incoming_section.is_valid = false then
        merging.listed { conflict with reason := "incoming_managed_section_invalid" }
      else
        match _managed_section hasher old with
        | none => merging.listed { conflict with reason := "existing_file_not_managed" }
        | some existing_section =>
            if existing_section.is_valid = false then
              merging.listed { conflict with reason := "managed_section_modified" }
            else
              let updated := Json.utf8 (existing_section.text.take existing_section.start ++
                incoming_section.slice ++ existing_section.text.drop existing_section.stop)
              (merging.stored existing_path updated).listed
                { conflict with
                  reason := "managed_section_update"
                  resolution := some "updated_managed_section"
                  resolved_path := some existing_path }

def rename_incoming (fuel : Nat) (merging : Merging) (existing_path safe : String) (content : Bytes) :
    Except MergeRaised Merging := do
  let first ← with_collision_suffix hasher safe (sha256_digest hasher content)
  let (key, renamed) ← free_name hasher nfc casefold merging.key_to_path fuel first
  .ok (((merging.stored renamed content).indexed key renamed).listed
    { existing_path
      incoming_path := safe
      reason := "content_differs"
      resolution := some "renamed_incoming"
      resolved_path := some renamed })

def unresolved_conflict (merging : Merging) (existing_path safe : String) : Merging :=
  merging.listed { existing_path, incoming_path := safe, reason := "unresolved_content_conflict" }

-- A hash that is there is not empty.
def replace_same_source (merging : Merging) (existing_path safe : String) (old content : Bytes) :
    Merging :=
  if (_source_hash old).isSome = true ∧ _source_hash old = _source_hash content then
    (merging.stored existing_path content).listed
      { existing_path
        incoming_path := safe
        reason := "same_source_revision"
        resolution := some "replaced_existing"
        resolved_path := some existing_path }
  else unresolved_conflict merging existing_path safe

def merge_file (policy : MergePolicy) (fuel : Nat) (merging : Merging) (entry : String × Bytes) :
    Except MergeRaised Merging := do
  let safe ← safe_path entry.1
  let key ← collision_key nfc casefold safe
  match merging.key_to_path.get? key with
  | none => .ok ((merging.stored safe entry.2).indexed key safe)
  | some existing_path =>
      let old := (merging.merged.get? existing_path).getD []
      if old = entry.2 then .ok merging
      else
        match policy with
        | .UPDATE_MANAGED => .ok (update_managed hasher merging existing_path safe old entry.2)
        | .KEEP_EXISTING => .ok (merging.listed
            { existing_path
              incoming_path := safe
              reason := "content_differs"
              resolution := some "kept_existing"
              resolved_path := some existing_path })
        | .RENAME_INCOMING => rename_incoming hasher nfc casefold fuel merging existing_path safe entry.2
        | .REPLACE_SAME_SOURCE => .ok (replace_same_source merging existing_path safe old entry.2)
        | .ERROR => .ok (unresolved_conflict merging existing_path safe)

def take_existing (merging : Merging) (entry : String × Bytes) : Except MergeRaised Merging := do
  let safe ← safe_path entry.1
  let key ← collision_key nfc casefold safe
  if key ∈ merging.key_to_path.keys then
    .error (.value_error "existing Vault already has a case-insensitive path collision")
  else .ok ((merging.stored safe entry.2).indexed key safe)

def by_path (files : Dict String Bytes) : List (String × Bytes) :=
  files.entries.insertionSort (fun first second => first.1 ≤ second.1)

def merge_files (policy : MergePolicy) (fuel : Nat) (existing incoming : Dict String Bytes) :
    Except MergeRaised Merging := do
  let start ← (by_path existing).foldlM (take_existing nfc casefold)
    { merged := .empty, key_to_path := .empty, conflicts := [] }
  (by_path incoming).foldlM (merge_file hasher nfc casefold policy fuel) start

-- The keys of `VaultMergePlan.files` are texts of the model too, and stripped.
def validated_files (files : List (String × Bytes)) : Dict String Bytes :=
  Dict.ofPairs (files.map (fun entry => (Text.trim entry.1, entry.2)))

-- `validate_internal_links` reads the files, and may raise.
def plan_vault_merge (validate_internal_links : Dict String Bytes → Except MergeRaised (List BrokenVaultLink))
    (policy : MergePolicy) (fuel : Nat) (existing incoming : Dict String Bytes) :
    Except MergeRaised VaultMergePlan := do
  let merging ← merge_files hasher nfc casefold policy fuel existing incoming
  let unresolved := merging.conflicts.any (fun conflict => conflict.resolution.isNone)
  let existing_broken ← validate_internal_links existing
  let broken ← validate_internal_links merging.merged
  let broken_links := broken.filter (· ∉ existing_broken)
  .ok
    { files := validated_files (by_path merging.merged)
      conflicts := merging.conflicts.map VaultConflict.validated
      broken_links := broken_links
      safe_to_apply := !unresolved && broken_links = [] }

end Merge

end KnowledgeCompiler.Exporters
