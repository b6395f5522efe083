import KnowledgeCompiler.Lib.Json.RoundTrip
import KnowledgeCompiler.Lib.Method
import KnowledgeCompiler.Lib.Sha256
import KnowledgeCompiler.Lib.Text
import KnowledgeCompiler.Lib.Utf8
import Mathlib.Data.Finset.Sort

namespace KnowledgeCompiler.Reuse

open Lib

inductive StoreFault
  | value_error (message : String)
  | type_error (message : String)
  | key_error (key : String)
deriving DecidableEq

-- What the language makes of values that no `put` writes.
structure Builtins where
  -- `str(value)` of what is no string
  str : Json → String
  -- `repr(value)`
  repr : Json → String
  -- `dict(value)` of what is no dictionary, where it does not raise
  dict : Json → Option (Dict String Json)

def Builtins.text (builtins : Builtins) : Json → String
  | .str value => value
  | value => builtins.str value

-- `for item in value`, where it does not raise
def iterate : Json → Option (List Json)
  | .arr items => some items
  | .str value => some (value.toList.map fun character => .str (String.singleton character))
  | .obj members => some ((fromkeys (members.map Prod.fst)).map .str)
  | _ => none

-- `members[key]`: of two members of one key the last one counts.
def lookup (members : List (String × Json)) (key : String) : Option Json :=
  (Dict.ofPairs members).get? key

def item (members : List (String × Json)) (key : String) : Except StoreFault Json :=
  match lookup members key with
  | some value => .ok value
  | none => .error (.key_error key)

inductive ReuseFailureReason
  | MISSING_INPUT
  | POLICY_CHANGED
  | PERMISSION_NARROWED
  | CORRUPT_ARTIFACT
  | STALE_DEP
  | MODEL_CHANGED
  | PROMPT_CHANGED
deriving DecidableEq

-- `not value.strip()`
def is_blank (value : String) : Bool := (Text.strip value.toList).isEmpty

structure ExecutionContract where
  compiler_revision : String
  parser_revision : String
  schema_revision : String
  policy_revision : String
  permission_scope : Finset String
  tenant_id : String
  params : Dict String Json := .empty
  model_revision : Option String := none
  prompt_revision : Option String := none
  named : ∀ value ∈ [compiler_revision, parser_revision, schema_revision, policy_revision,
    tenant_id], is_blank value = false
  granted : permission_scope.Nonempty ∧ ∀ scope ∈ permission_scope, is_blank scope = false
  revised : ∀ revision ∈ [model_revision, prompt_revision], ∀ value ∈ revision,
    is_blank value = false

abbrev InputPair : Type := String × String

-- `[0-9a-f]{64}`
def is_digest (value : List Char) : Bool :=
  value.length = 64 && value.all fun character => character ∈ "0123456789abcdef".toList

-- `value.strip().lower()`; a letter beyond ASCII is no digit in either case.
def cleaned (value : String) : List Char := (Text.strip value.toList).map Char.toLower

def _normalize_digest (digest : String) : Except StoreFault String :=
  let plain := cleaned digest
  let plain := if "sha256:".toList.isPrefixOf plain then plain.drop 7 else plain
  if is_digest plain then .ok (String.ofList plain)
  else .error (.value_error "input digest must be sha256 hex")

def normalize_pair (seen : Dict String String) (pair : InputPair) :
    Except StoreFault (Dict String String) :=
  if is_blank pair.1 then .error (.value_error "input path must be a non-empty string")
  else do
    let digest ← _normalize_digest pair.2
    if (seen.get? pair.1).any (· ≠ digest) then
      .error (.value_error "conflicting digests supplied for input")
    else .ok (seen.set pair.1 digest)

-- The paths are distinct, so the digests take no part in the order.
def _normalize_inputs (inputs : List InputPair) : Except StoreFault (List InputPair) := do
  let seen ← inputs.foldlM normalize_pair .empty
  .ok (seen.entries.insertionSort fun first second => first.1 ≤ second.1)

def contract_members (contract : ExecutionContract) : List (String × Json) :=
  [("compiler_revision", .str contract.compiler_revision),
    ("parser_revision", .str contract.parser_revision),
    ("schema_revision", .str contract.schema_revision),
    ("policy_revision", .str contract.policy_revision),
    ("permission_scope", .arr ((contract.permission_scope.sort).map .str)),
    ("tenant_id", .str contract.tenant_id), ("params", .obj contract.params.entries)]

def _contract_identity (contract : ExecutionContract) : Json := .obj (contract_members contract)

def pair_json (pair : InputPair) : Json := .arr [.str pair.1, .str pair.2]

def preimage (inputs : List InputPair) (contract : ExecutionContract) : Json :=
  .obj [("version", .int 1), ("kind", .str "akc.compilation.action-key.v1"),
    ("contract", _contract_identity contract), ("inputs", .arr (inputs.map pair_json))]

-- A float that is no number is refused.
def canonical_json (value : Json) : Except StoreFault String :=
  if value.Printable then .ok (String.ofList (Json.dumps value))
  else .error (.value_error "Out of range float values are not JSON compliant")

def _preimage_text (inputs : List InputPair) (contract : ExecutionContract) :
    Except StoreFault String := do
  let normalized ← _normalize_inputs inputs
  canonical_json (preimage normalized contract)

def _validated_key (key : String) : Except StoreFault String :=
  if is_digest (cleaned key) then .ok (String.ofList (cleaned key))
  else .error (.value_error "malformed action key")

section Guard

variable (builtins : Builtins)

-- A text that the contract's constructor takes.
def named_text (value : Json) : Except StoreFault { text : String // is_blank text = false } :=
  match value with
  | .str text =>
      if h : is_blank text = false then .ok ⟨text, h⟩
      else .error (.value_error "ExecutionContract field must be a non-empty string")
  | _ => .error (.value_error "ExecutionContract field must be a non-empty string")

def revision (value : Option Json) :
    Except StoreFault { revision : Option String // ∀ text ∈ revision, is_blank text = false } :=
  match value with
  | none => .ok ⟨none, by simp⟩
  | some .null => .ok ⟨none, by simp⟩
  | some value => do
      let text ← named_text value
      .ok ⟨some text.1, by simpa using text.2⟩

def params_of : Json → Except StoreFault (Dict String Json)
  | .obj members => .ok (Dict.ofPairs members)
  | value =>
      match builtins.dict value with
      | some params => .ok params
      | none => .error (.type_error "params is no mapping")

-- `guard` is a dictionary; the contract in it may be anything.
def _contract_from_guard (guard : List (String × Json)) : Except StoreFault ExecutionContract := do
  match ← item guard "contract" with
  | .obj identity => do
      let compiler_revision ← item identity "compiler_revision"
      let parser_revision ← item identity "parser_revision"
      let schema_revision ← item identity "schema_revision"
      let policy_revision ← item identity "policy_revision"
      let scopes ← item identity "permission_scope"
      match iterate scopes with
      | none => .error (.type_error "permission_scope is not iterable")
      | some scopes => do
          let permission_scope := (scopes.map builtins.text).toFinset
          let tenant_id ← item identity "tenant_id"
          let params := (lookup identity "params").getD (.obj [])
          let compiler_revision ← named_text compiler_revision
          let parser_revision ← named_text parser_revision
          let schema_revision ← named_text schema_revision
          let policy_revision ← named_text policy_revision
          let tenant_id ← named_text tenant_id
          if granted : permission_scope.Nonempty ∧
              ∀ scope ∈ permission_scope, is_blank scope = false then do
            let model_revision ← revision (lookup guard "model_revision")
            let prompt_revision ← revision (lookup guard "prompt_revision")
            let params ← params_of builtins params
            .ok {
              compiler_revision := compiler_revision.1
              parser_revision := parser_revision.1
              schema_revision := schema_revision.1
              policy_revision := policy_revision.1
              permission_scope
              tenant_id := tenant_id.1
              params
              model_revision := model_revision.1
              prompt_revision := prompt_revision.1
              named := by
                simp [compiler_revision.2, parser_revision.2, schema_revision.2,
                  policy_revision.2, tenant_id.2]
              granted
              revised := by
                intro revision hrevision
                simp only [List.mem_cons, List.not_mem_nil, or_false] at hrevision
                rcases hrevision with rfl | rfl
                · exact model_revision.2
                · exact prompt_revision.2 }
          else .error (.value_error
            "ExecutionContract.permission_scope must grant at least one scope")
  | _ => .error (.type_error "the contract cannot be indexed by name")

def input_pair (value : Json) : Except StoreFault InputPair :=
  match iterate value with
  | some [path, digest] => .ok (builtins.text path, builtins.text digest)
  | some _ => .error (.value_error "expected 2 values to unpack")
  | none => .error (.type_error "cannot unpack the input")

-- `[(str(path), str(digest)) for path, digest in inputs]`
def input_pairs (inputs : Json) : Except StoreFault (List InputPair) :=
  match iterate inputs with
  | some items => items.mapM (input_pair builtins)
  | none => .error (.type_error "inputs are not iterable")

end Guard

-- An entry as `get` returns it: the artifact, and the members of the envelope.
structure Entry where
  artifact : ByteArray
  envelope : List (String × Json)

-- The files by the keys in their names; an envelope is what is read from its text.
structure ActionKeyStore where
  artifacts : Dict String ByteArray := .empty
  envelopes : Dict String Json := .empty

-- An artifact is read after its envelope.
def fetched (envelope : Option Json) (artifact : Option ByteArray) : Option Entry :=
  match envelope, artifact with
  | some (.obj envelope), some artifact => some { artifact, envelope }
  | _, _ => none

section Store

variable (hasher : Hasher)

def text_digest (text : String) : String := hasher.hexdigest (Utf8.encode text.toList)

def sha256_digest (bytes : ByteArray) : String := "sha256:" ++ hasher.hexdigest bytes

def compute_action_key (inputs : List InputPair) (contract : ExecutionContract) :
    Except StoreFault String := do
  let normalized ← _normalize_inputs inputs
  match _preimage_text normalized contract with
  | .ok text => .ok (text_digest hasher text)
  | .error _ => .error (.type_error "action key inputs are not deterministically serializable")

structure Publication where
  key : String
  artifact : ByteArray
  receipt : List (String × Json)
  contract : Option ExecutionContract := none
  inputs : List InputPair := []
  validations : List (String × Json) := []

def guard_json (contract : ExecutionContract) (inputs : List InputPair) : Json :=
  .obj [("contract", _contract_identity contract),
    ("model_revision", (contract.model_revision.map Json.str).getD .null),
    ("prompt_revision", (contract.prompt_revision.map Json.str).getD .null),
    ("inputs", .arr (inputs.map pair_json))]

def envelope_of (publication : Publication) (key : String) (preimage guard : Json) :
    List (String × Json) :=
  [("format", .str "akc.action-key-store.v1"), ("key", .str key),
    ("artifact_sha256", .str (sha256_digest hasher publication.artifact)),
    ("preimage", preimage), ("guard", guard), ("validations", .obj publication.validations),
    ("receipt", .obj publication.receipt)]

-- The key and the envelope that `put` goes on to write, after all its checks.
def prepared (publication : Publication) : Except StoreFault (String × List (String × Json)) := do
  let clean_key ← _validated_key publication.key
  match publication.contract with
  | none => .ok (clean_key, envelope_of hasher publication clean_key .null .null)
  | some contract => do
      let normalized ← _normalize_inputs publication.inputs
      let expected ← compute_action_key hasher normalized contract
      if expected ≠ clean_key then .error (.value_error "action key mismatch")
      else do
        let text ← _preimage_text normalized contract
        .ok (clean_key, envelope_of hasher publication clean_key (.str text)
          (guard_json contract normalized))

end Store

namespace ActionKeyStore

-- The two writes of a `put`, each of which replaces a whole file.

def replace_artifact (store : ActionKeyStore) (key : String) (artifact : ByteArray) :
    ActionKeyStore :=
  { store with artifacts := store.artifacts.set key artifact }

def replace_envelope (store : ActionKeyStore) (key : String) (envelope : List (String × Json)) :
    ActionKeyStore :=
  { store with envelopes := store.envelopes.set key (.obj envelope) }

def put (hasher : Hasher) (store : ActionKeyStore) (publication : Publication) :
    Except StoreFault ActionKeyStore := do
  let (key, envelope) ← prepared hasher publication
  .ok ((store.replace_artifact key publication.artifact).replace_envelope key envelope)

-- What lives under a key that has been checked.
def entry (store : ActionKeyStore) (key : String) : Option Entry :=
  fetched (store.envelopes.get? key) (store.artifacts.get? key)

def get (store : ActionKeyStore) (key : String) : Except StoreFault (Option Entry) := do
  let clean_key ← _validated_key key
  .ok (store.entry clean_key)

end ActionKeyStore

structure ReuseDecision where
  hit : Bool
  reason : Option ReuseFailureReason
  detail : String
  artifact : Option ByteArray := none
  receipt : Option Json := none

def _miss (reason : ReuseFailureReason) (detail : String) : ReuseDecision :=
  { hit := false, reason := some reason, detail }

section Reuse

variable (hasher : Hasher) (builtins : Builtins)

-- Every link between the name, the envelope, the preimage and the bytes.
def verified (clean_key : String) (entry : Entry) : Except StoreFault Bool :=
  let field := lookup entry.envelope
  match field "key", field "artifact_sha256", field "preimage", field "guard" with
  | some (.str key), some (.str artifact_sha256), some (.str preimage), some (.obj guard) =>
      if key ≠ clean_key then .ok false
      else if sha256_digest hasher entry.artifact ≠ artifact_sha256 then .ok false
      else if text_digest hasher preimage ≠ clean_key then .ok false
      else
        -- what goes wrong in taking the guard apart is caught
        match (do
          let stored_contract ← _contract_from_guard builtins guard
          let stored_inputs ← input_pairs builtins (← item guard "inputs")
          .ok (stored_inputs, stored_contract)) with
        | .error _ => .ok false
        | .ok (stored_inputs, stored_contract) => do
            let key ← compute_action_key hasher stored_inputs stored_contract
            .ok (decide (key = clean_key))
  | _, _, _, _ => .ok false

def verify_fetched (clean_key : String) : Option Entry → Except StoreFault Bool
  | none => .ok false
  | some entry => verified hasher builtins clean_key entry

-- The digest of a file as it is now.
def _file_digest (disk : String → Option ByteArray) (path : String) : Option String :=
  (disk path).map hasher.hexdigest

def stale_input (disk : String → Option ByteArray) (pair : InputPair) : Option ReuseDecision :=
  match _file_digest hasher disk pair.1 with
  | none => some (_miss .MISSING_INPUT s!"input vanished since the build: {pair.1}")
  | some current =>
      if current ≠ pair.2 then
        some (_miss .STALE_DEP s!"input changed since the build: {pair.1}")
      else none

def failed_validation (recorded : List (String × Json)) (kind : String) : Option ReuseDecision :=
  match lookup recorded kind with
  | some (.obj record) =>
      match lookup record "status" with
      | some (.str "passed") => none
      | status => some (_miss .STALE_DEP
          (s!"required validation {builtins.repr (.str kind)} is recorded as " ++
            s!"{builtins.repr (status.getD .null)}, not 'passed'"))
  | _ => some (_miss .MISSING_INPUT
      s!"no recorded evidence for required validation {builtins.repr (.str kind)}")

def revision_json (revision : Option String) : Json := (revision.map Json.str).getD .null

-- What has moved between the contract of the build and the one asked for.
def moved (stored contract : ExecutionContract) : Option ReuseDecision :=
  let told (name : String) (first second : Json) :=
    s!"{name} moved: stored {builtins.repr first} != requested {builtins.repr second}"
  let lost_scopes := (stored.permission_scope \ contract.permission_scope).sort
  if stored.policy_revision ≠ contract.policy_revision then
    some (_miss .POLICY_CHANGED
      (told "policy" (.str stored.policy_revision) (.str contract.policy_revision)))
  else if lost_scopes ≠ [] then
    some (_miss .PERMISSION_NARROWED ("scopes no longer granted since the build: " ++
      builtins.repr (.arr (lost_scopes.map .str))))
  else if stored.model_revision ≠ contract.model_revision then
    some (_miss .MODEL_CHANGED
      (told "model" (revision_json stored.model_revision) (revision_json contract.model_revision)))
  else if stored.prompt_revision ≠ contract.prompt_revision then
    some (_miss .PROMPT_CHANGED (told "prompt" (revision_json stored.prompt_revision)
      (revision_json contract.prompt_revision)))
  else none

def recorded_validations (entry : Entry) : List (String × Json) :=
  match lookup entry.envelope "validations" with
  | some (.obj recorded) => recorded
  | _ => []

-- The guard's judgement of an entry whose integrity it has had verified.
def judged (disk : String → Option ByteArray) (contract : ExecutionContract)
    (required_validations : List String) (entry : Entry) : Except StoreFault ReuseDecision :=
  match lookup entry.envelope "guard" with
  | some (.obj guard) =>
      match lookup guard "contract" with
      | some (.obj _) => do
          let stored ← _contract_from_guard builtins guard
          match moved builtins stored contract with
          | some decision => .ok decision
          | none => do
              let inputs ← input_pairs builtins ((lookup guard "inputs").getD (.arr []))
              match inputs.findSome? (stale_input hasher disk) with
              | some decision => .ok decision
              | none =>
                  match required_validations.findSome?
                      (failed_validation builtins (recorded_validations entry)) with
                  | some decision => .ok decision
                  | none => .ok {
                      hit := true
                      reason := none
                      detail := "entry intact and every guard passed"
                      artifact := some entry.artifact
                      receipt := lookup entry.envelope "receipt" }
      | _ => .ok (_miss .MISSING_INPUT
          "entry lacks the contract metadata needed to judge reuse safety")
  | _ => .ok (_miss .MISSING_INPUT
      "entry lacks the contract metadata needed to judge reuse safety")

-- The guard reads the entry, and `verify_integrity` reads it again.
def guarded (disk : String → Option ByteArray) (key clean_key : String)
    (contract : ExecutionContract) (required_validations : List String)
    (first second : Option Entry) : Except StoreFault ReuseDecision :=
  match first with
  | none => .ok (_miss .MISSING_INPUT
      s!"no intact entry under key {String.ofList (key.toList.take 12)}…")
  | some entry => do
      if ← verify_fetched hasher builtins clean_key second then
        judged hasher builtins disk contract required_validations entry
      else .ok (_miss .CORRUPT_ARTIFACT "stored bytes no longer match the receipted digests")

def reuse_guard (store : ActionKeyStore) (disk : String → Option ByteArray) (key : String)
    (contract : ExecutionContract) (required_validations : List String) :
    Except StoreFault ReuseDecision := do
  let clean_key ← _validated_key key
  guarded hasher builtins disk key clean_key contract required_validations
    (store.entry clean_key) (store.entry clean_key)

end Reuse

end KnowledgeCompiler.Reuse
