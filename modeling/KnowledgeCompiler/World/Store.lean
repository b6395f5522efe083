import KnowledgeCompiler.World.Registry
import Std.Data.String.ToNat

namespace KnowledgeCompiler.World

open Lib Recompilation

def STORE_VERSION : Nat := 1

-- 2026-01-01T00:00:00Z
def EPOCH : Moment := 1767225600

def next_deterministic_time (sequence : Nat) : Moment := EPOCH + 3600 * sequence

structure MetaFile where
  version : Nat
  sequence : Nat
  workspace_id : String
deriving DecidableEq

-- What `worlds/<id>.json` holds.
structure WorldFile where
  world_state_id : String
  workspace_id : String
  compiler_version : String
  built_at : Moment
  activated_at : Option Moment
  parent_world_state_id : Option String
  manifest : PublicationManifest
  receipt : ValidationReceipt
  artifact_hashes : Dict String String
deriving DecidableEq

-- What `claims/<id>.json` holds; the rows themselves are the compiler's business.
structure ClaimsFile (Row Evidence Review : Type) where
  claims : Dict String Row
  evidence_index : Dict String Evidence
  review_queue : List Review
  cursor : Dict String String

structure StoredWorld (Row Evidence Review : Type) where
  world_state_id : String
  workspace_id : String
  manifest : PublicationManifest
  receipt : ValidationReceipt
  artifact_hashes : Dict String String
  claims : Dict String Row
  evidence_index : Dict String Evidence
  review_queue : List Review
  cursor : Dict String String
  built_at : Moment

-- The directory of one workspace. A file is written under another name and
-- renamed, so a crash leaves it as it was or as it was to be.
structure Disk (Row Evidence Review : Type) where
  meta_file : Option MetaFile := none
  worlds : Dict String WorldFile := .empty
  claims : Dict String (ClaimsFile Row Evidence Review) := .empty
  pointer : Option String := none

variable {Row Evidence Review : Type}

def world_id (sequence : Nat) : String := "WS-" ++ toString sequence

-- The number after the last dash, and 0 for a name without one.
def sequence_of (world_state_id : String) : Nat :=
  let suffix := (world_state_id.toList.reverse.takeWhile (· ≠ '-')).reverse
  if suffix ≠ [] ∧ suffix.all Char.isDigit then Nat.ofDigitChars 10 suffix 0 else 0

namespace Disk

variable (disk : Disk Row Evidence Review)

def load_world (workspace_id : String) (world_state_id : Option String) :
    Option (StoredWorld Row Evidence Review) := do
  let target ← if truthy world_state_id then world_state_id else disk.pointer
  let world ← disk.worlds.get? target
  let claims ← disk.claims.get? target
  some
    { world_state_id := target
      workspace_id := workspace_id
      manifest := world.manifest
      receipt := world.receipt
      artifact_hashes := world.artifact_hashes
      claims := claims.claims
      evidence_index := claims.evidence_index
      review_queue := claims.review_queue
      cursor := claims.cursor
      built_at := world.built_at }

def history_ids : List String :=
  disk.worlds.keys.insertionSort (fun first second => sequence_of first ≤ sequence_of second)

-- One turn of the replay loop; a world without both files is passed over.
def replay (registry : WorldStateRegistry) (world_state_id : String) :
    Except String WorldStateRegistry :=
  match disk.worlds.get? world_state_id, disk.claims.get? world_state_id with
  | some world, some _ =>
      match registry.stage world_state_id world.compiler_version world.built_at none with
      | (.error refused, _) => .error refused
      | (.ok _, staged) =>
          match world.activated_at with
          | none => .error "fromisoformat: argument must be str"
          | some activated_at =>
              match staged.publish world_state_id world.manifest world.receipt
                world.artifact_hashes activated_at none with
              | (.error refused, _) => .error refused
              | (.ok _, published) => .ok published
  | _, _ => .ok registry

def load_registry (workspace_id : String) : Except String WorldStateRegistry :=
  if disk.pointer.isNone then .ok { workspace_id }
  else disk.history_ids.foldlM disk.replay { workspace_id }

end Disk

-- The handle of a running process: the store's counter and the live registry.
structure Handle where
  workspace_id : String
  sequence : Nat
  registry : WorldStateRegistry
deriving DecidableEq

def Handle.next_world_state_id (handle : Handle) : String := world_id (handle.sequence + 1)

def Disk.reopen (disk : Disk Row Evidence Review) (workspace_id : String) : Except String Handle := do
  let registry ← disk.load_registry workspace_id
  .ok
    { workspace_id
      sequence := (disk.meta_file.map MetaFile.sequence).getD 0
      registry }

-- A build as `_publish_build` hands it to the store: its manifest describes its
-- artifacts and its receipt passed.
structure Candidate (Row Evidence Review : Type) where
  compiler_version : String
  manifest : PublicationManifest
  receipt : ValidationReceipt
  artifacts : Dict String String
  contents : ClaimsFile Row Evidence Review
  verified : manifest.verify artifacts = []
  passed : receipt.passed = true

section Publish

variable (candidate : Candidate Row Evidence Review)

-- `_receipt_from` restores everything but the notes, which are not written.
def ValidationReceipt.restored (receipt : ValidationReceipt) : ValidationReceipt :=
  { receipt with notes := [] }

def world_file (sequence : Nat) (result : PublishResult) : WorldFile where
  world_state_id := result.world_state.world_state_id
  workspace_id := result.world_state.workspace_id
  compiler_version := candidate.compiler_version
  built_at := next_deterministic_time sequence
  activated_at := result.world_state.activated_at
  parent_world_state_id := result.world_state.parent_world_state_id
  manifest := candidate.manifest
  receipt := candidate.receipt.restored
  artifact_hashes := candidate.artifacts

-- The four files of one publish, in the order they are written.
def publish_writes (workspace_id : String) (sequence : Nat) (world_state_id : String)
    (result : PublishResult) : List (Disk Row Evidence Review → Disk Row Evidence Review) :=
  [ fun disk => { disk with meta_file := some ⟨STORE_VERSION, sequence, workspace_id⟩ },
    fun disk => { disk with
      worlds := disk.worlds.set world_state_id (world_file candidate sequence result) },
    fun disk => { disk with claims := disk.claims.set world_state_id candidate.contents },
    fun disk => { disk with pointer := some world_state_id } ]

-- `_publish_build`: stage the candidate, publish it in the live registry, then
-- write. The process stops after `writes` files; four of them are all.
def publish_build (disk : Disk Row Evidence Review) (handle : Handle) (writes : Nat) :
    Except String (Handle × Disk Row Evidence Review) :=
  let world_state_id := handle.next_world_state_id
  match handle.registry.stage world_state_id candidate.compiler_version
    (next_deterministic_time (handle.sequence + 1)) none with
  | (.error refused, _) => .error refused
  | (.ok _, staged) =>
      let sequence := handle.sequence + 1
      match staged.publish world_state_id candidate.manifest candidate.receipt
        candidate.artifacts (next_deterministic_time sequence) none with
      | (.error refused, _) => .error refused
      | (.ok result, published) =>
          let files := publish_writes candidate handle.workspace_id sequence world_state_id result
          .ok ({ handle with sequence := sequence, registry := published },
            (files.take writes).foldl (fun disk write => write disk) disk)

end Publish

end KnowledgeCompiler.World
