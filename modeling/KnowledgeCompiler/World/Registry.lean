import KnowledgeCompiler.Recompilation.Equivalence

namespace KnowledgeCompiler.World

open Lib Recompilation

-- Seconds since the Unix epoch.
abbrev Moment := Int

inductive WorldStateStatus
  | BUILDING
  | CANDIDATE
  | ACTIVE
  | SUPERSEDED
  | REJECTED
  | ROLLED_BACK
deriving DecidableEq, Repr

def WorldStateStatus.value : WorldStateStatus → String
  | BUILDING => "BUILDING"
  | CANDIDATE => "CANDIDATE"
  | ACTIVE => "ACTIVE"
  | SUPERSEDED => "SUPERSEDED"
  | REJECTED => "REJECTED"
  | ROLLED_BACK => "ROLLED_BACK"

structure ValidationReceipt where
  receipt_id : String
  checksums_verified : Bool
  permission_checked : Bool
  integrity_passed : Bool
  equivalence : Option EquivalenceReport := none
  notes : List String := []
deriving DecidableEq, Repr

def ValidationReceipt.passed (receipt : ValidationReceipt) : Bool :=
  receipt.checksums_verified && receipt.permission_checked && receipt.integrity_passed &&
    receipt.equivalence.all EquivalenceReport.equivalent

def ValidationReceipt.failures (receipt : ValidationReceipt) : List String :=
  (if receipt.checksums_verified then [] else ["artifact checksums were not verified"]) ++
  (if receipt.permission_checked then [] else ["the permission check did not run"]) ++
  (if receipt.integrity_passed then [] else ["integrity validation failed"]) ++
  match receipt.equivalence with
  | none => []
  | some equivalence =>
      if equivalence.equivalent then []
      else
        ["the selective build does not match a full rebuild: " ++
          toString equivalence.diverged.length ++ " artifact(s) diverged, " ++
          toString equivalence.stale_left_behind.length ++ " left stale"]

structure PublicationManifest where
  world_state_id : String
  compiler_version : String
  artifact_hashes : Dict String String
  manifest_hash : String
deriving DecidableEq

def PublicationManifest.verify (manifest : PublicationManifest) (artifacts : Dict String String) :
    List String :=
  let names := sorted_names manifest.artifact_hashes.keys
  let mismatched := names.filter (fun name =>
    artifacts.get? name ≠ manifest.artifact_hashes.get? name)
  let missing := names.filter (· ∉ artifacts.keys)
  fromkeys (mismatched ++ missing)

structure WorldState where
  world_state_id : String
  workspace_id : String
  status : WorldStateStatus
  compiler_version : String
  built_at : Moment
  parent_world_state_id : Option String := none
  change_set_id : Option String := none
  activated_at : Option Moment := none
  manifest : Option PublicationManifest := none
  validation_receipt_id : Option String := none
deriving DecidableEq

structure PublishResult where
  world_state : WorldState
  previous_world_state_id : Option String
  outbox : List (List (String × Option String))
deriving DecidableEq

structure WorldStateRegistry where
  workspace_id : String
  states : Dict String WorldState := .empty
  current_id : Option String := none
  history : List String := []
deriving DecidableEq

-- Python's truth of an optional string.
def truthy (text : Option String) : Bool := text.any (· ≠ "")

namespace WorldStateRegistry

variable (registry : WorldStateRegistry)

def current : Option WorldState :=
  if truthy registry.current_id then registry.current_id.bind registry.states.get? else none

def set_status (world_state_id : String) (status : WorldStateStatus) : WorldStateRegistry :=
  match registry.states.get? world_state_id with
  | none => registry
  | some state => { registry with states := registry.states.set world_state_id { state with status } }

-- `if previous_id: ...`
def retire_current (status : WorldStateStatus) : WorldStateRegistry :=
  match registry.current_id with
  | none => registry
  | some previous_id =>
      if previous_id = "" then registry else registry.set_status previous_id status

def stage (world_state_id compiler_version : String) (built_at : Moment)
    (change_set_id : Option String) : Except String WorldState × WorldStateRegistry :=
  if (registry.states.get? world_state_id).isSome then
    (.error (world_state_id ++ " already exists"), registry)
  else
    let candidate : WorldState :=
      { world_state_id := world_state_id
        workspace_id := registry.workspace_id
        status := .CANDIDATE
        compiler_version := compiler_version
        built_at := built_at
        parent_world_state_id := registry.current_id
        change_set_id := change_set_id }
    (.ok candidate, { registry with states := registry.states.set world_state_id candidate })

-- The swap: the current state steps down and the candidate takes its place.
def activate (world_state_id : String) (candidate : WorldState) (manifest : PublicationManifest)
    (receipt : ValidationReceipt) (activated_at : Moment) :
    Except String PublishResult × WorldStateRegistry :=
  let previous_id := registry.current_id
  let retired := registry.retire_current .SUPERSEDED
  let published : WorldState :=
    { candidate with
      status := .ACTIVE
      activated_at := some activated_at
      manifest := some manifest
      validation_receipt_id := some receipt.receipt_id }
  (.ok
    { world_state := published
      previous_world_state_id := previous_id
      outbox :=
        [[("type", some "world_state.published"), ("workspace_id", some registry.workspace_id),
          ("world_state_id", some world_state_id),
          ("previous_world_state_id", previous_id),
          ("manifest_hash", some manifest.manifest_hash),
          ("validation_receipt_id", some receipt.receipt_id)]] },
    { retired with
      states := retired.states.set world_state_id published
      current_id := some world_state_id
      history := registry.history ++ [world_state_id] })

def publish (world_state_id : String) (manifest : PublicationManifest)
    (receipt : ValidationReceipt) (artifacts : Dict String String) (activated_at : Moment)
    (plan : Option RecompilationPlan) : Except String PublishResult × WorldStateRegistry :=
  match registry.states.get? world_state_id with
  | none => (.error (world_state_id ++ " was never staged"), registry)
  | some candidate =>
      if candidate.status ≠ .CANDIDATE then
        (.error (world_state_id ++ " is " ++ candidate.status.value ++
          ", not a candidate; another publish already claimed it"), registry)
      else
        let mismatched := manifest.verify artifacts
        if mismatched ≠ [] then
          (.error ("artifact checksum mismatch for " ++ ", ".intercalate mismatched ++
            "; publishing would serve content the manifest does not describe"),
            registry.set_status world_state_id .REJECTED)
        else if plan.isSome && receipt.equivalence.isNone then
          (.error ("a selective build has no equivalence check. A missing check is not a " ++
            "passing one -- it is the absence of what would have caught a stale artifact."),
            registry.set_status world_state_id .REJECTED)
        else if receipt.passed = false then
          (.error ("validation did not pass: " ++ "; ".intercalate receipt.failures),
            registry.set_status world_state_id .REJECTED)
        else registry.activate world_state_id candidate manifest receipt activated_at

def rollback (target_id : String) (at_moment : Moment) :
    Except String PublishResult × WorldStateRegistry :=
  match registry.states.get? target_id with
  | none => (.error (target_id ++ " does not exist"), registry)
  | some target =>
      if target_id ∉ registry.history then
        (.error (target_id ++ " was never published; rolling back to it would publish an " ++
          "unvalidated state through the rollback path"), registry)
      else if registry.current_id = some target_id then (.error (target_id ++ " is already current"), registry)
      else
        let retired := registry.retire_current .ROLLED_BACK
        let restored : WorldState :=
          { target with status := .ACTIVE, activated_at := some at_moment }
        (.ok
          { world_state := restored
            previous_world_state_id := registry.current_id
            outbox :=
              [[("type", some "world_state.rolled_back"),
                ("workspace_id", some registry.workspace_id), ("world_state_id", some target_id),
                ("from_world_state_id", registry.current_id)]] },
          { retired with
            states := retired.states.set target_id restored
            current_id := some target_id
            history := registry.history ++ [target_id] })

end WorldStateRegistry

end KnowledgeCompiler.World
