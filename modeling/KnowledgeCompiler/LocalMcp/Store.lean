import KnowledgeCompiler.Lib.Binary64.Order
import KnowledgeCompiler.Lib.Json.Bytes
import KnowledgeCompiler.Lib.Method
import KnowledgeCompiler.Recompilation.Dependency
import Mathlib.Data.Prod.Lex

namespace KnowledgeCompiler.LocalMcp

open Lib
open Recompilation (EdgeType)

abbrev Members := List (String × Json)

structure WorldManifest where
  world_id : String
  workspace_id : String
  status : String
  compiler_version : String
  built_at : String
  manifest_hash : String
  artifact_hashes : List (String × String)
deriving DecidableEq

-- What is no `StoreError`.
inductive Escape
  | type_error | value_error | overflow_error | recursion_error
deriving DecidableEq

inductive Fault
  | unknown_world (message : String)
  | world_document (message : String)
  | escape (kind : Escape)
deriving DecidableEq

-- What the interpreter brings: which values are nested too deeply to be read, how many digits
-- an integer may have, and the spelling of values and texts in messages, where it has one.
structure Host where
  too_deep : Json → Bool
  max_str_digits : Nat
  repr : Json → Option String
  quoted : String → String

-- A file that is there: one that cannot be read or holds no JSON, or a value.
inductive Stored
  | unreadable (reason : String)
  | document (value : Json)

structure WorldFiles where
  manifest : Option Stored
  state : Option Stored

mutual
def has_long_int (digits : Nat) : Json → Bool
  | .int value => 10 ^ digits ≤ value.natAbs
  | .arr items => item_has_long_int digits items
  | .obj members => member_has_long_int digits members
  | _ => false

def item_has_long_int (digits : Nat) : List Json → Bool
  | [] => false
  | item :: rest => has_long_int digits item || item_has_long_int digits rest

def member_has_long_int (digits : Nat) : List (String × Json) → Bool
  | [] => false
  | (_, value) :: rest => has_long_int digits value || member_has_long_int digits rest
end

def is_blank (text : String) : Bool := (Text.strip text.toList).isEmpty

section Readers

variable (host : Host)

def _read_json (path : String) : Stored → Except Fault Json
  | .unreadable reason => .error (.world_document s!"{path}: {reason}")
  | .document value =>
      if host.too_deep value then .error (.escape .recursion_error)
      else if has_long_int host.max_str_digits value then .error (.escape .value_error)
      else .ok value

def _require_object (context : String) : Json → Except Fault Members
  | .obj members => .ok members
  | _ => .error (.world_document s!"{context}: expected a JSON object")

def _require_schema (document : Members) (expected path : String) : Except Fault Unit :=
  match Json.get? document "schema" with
  | some (.str found) =>
      if found = expected then .ok ()
      else .error (.world_document
        s!"{path}: schema {host.quoted found} is not supported (expected {host.quoted expected})")
  | found =>
      match host.repr (found.getD .null) with
      | none => .error (.escape .recursion_error)
      | some spelled => .error (.world_document
          s!"{path}: schema {spelled} is not supported (expected {host.quoted expected})")

def _require_str (document : Members) (key context : String) : Except Fault String :=
  match Json.get? document key with
  | some (.str value) =>
      if is_blank value then
        .error (.world_document s!"{context}: '{key}' must be a non-empty string")
      else .ok value
  | _ => .error (.world_document s!"{context}: '{key}' must be a non-empty string")

def text? : Json → Option String
  | .str value => some value
  | _ => none

def artifact_hash? (member : String × Json) : Option (String × String) :=
  (text? member.2).map (fun hash => (member.1, hash))

def _artifact_hashes (document : Members) (context : String) :
    Except Fault (List (String × String)) :=
  match (Json.get? document "artifact_hashes").getD (.obj []) with
  | .obj members =>
      if members.any (fun member => (text? member.2).isNone) then
        .error (.world_document
          s!"{context}: 'artifact_hashes' must map artifact names to hash strings")
      else .ok (members.filterMap artifact_hash?)
  | _ => .error (.world_document
      s!"{context}: 'artifact_hashes' must map artifact names to hash strings")

-- `directory` is `path.parent.name`.
def manifest_record (path directory : String) (document : Members) : Except Fault WorldManifest := do
  let artifact_hashes ← _artifact_hashes document path
  let world_id ← _require_str document "world_id" path
  let workspace_id ← _require_str document "workspace_id" path
  let status ← _require_str document "status" path
  let compiler_version ← _require_str document "compiler_version" path
  let built_at ← _require_str document "built_at" path
  let manifest_hash ← _require_str document "manifest_hash" path
  if world_id ≠ directory then
    .error (.world_document (s!"{path}: world_id {host.quoted world_id} does not match its " ++
      s!"directory {host.quoted directory}"))
  else
    .ok ⟨world_id, workspace_id, status, compiler_version, built_at, manifest_hash, artifact_hashes⟩

def _parse_manifest (path directory : String) (stored : Stored) : Except Fault WorldManifest := do
  let value ← _read_json host path stored
  let document ← _require_object path value
  _require_schema host document "akc.local-world-manifest/1" path
  manifest_record host path directory document

end Readers

-- The directories below the root, by their names.
structure LocalWorldStore where
  root : String
  is_dir : Bool
  worlds : Dict String WorldFiles

end KnowledgeCompiler.LocalMcp
