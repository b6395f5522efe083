import KnowledgeCompiler.Exporters.KnowledgePackage

namespace KnowledgeCompiler.Exporters

open Lib Method

-- The signatures that the verifier has let pass, each with the bytes it was checked on.
abbrev Verified := List (Bytes × Bytes)

section Import

variable {Lineage : Type} (hasher : Hasher) (runtime : Runtime Lineage)

def Runtime.text (runtime : Runtime Lineage) : Json → String
  | .str value => value
  | value => runtime.str value

-- `str(record.get(key, ""))`
def text_at (members : List (String × Json)) (key : String) : String :=
  match Json.get? members key with
  | none => ""
  | some value => runtime.text value

def ZIP_INVALID : Raised := .package_error "knowledge package ZIP is invalid"

-- What the handler around the archive makes of an exception.
def zip_handled : Raised → Raised
  | .path_raised (.value_error _) => ZIP_INVALID
  | raised => raised

def zip_raised : ZipRaised → Raised
  | .invalid => ZIP_INVALID
  | .other => .other

def read_file (files : Dict String Bytes) (entry : String × Except ZipRaised Bytes) :
    Except Raised (Dict String Bytes) := do
  let path ← (safe entry.1).mapError zip_handled
  let content ← entry.2.mapError zip_raised
  .ok (files.set path content)

def read_package (package : Bytes) : Except Raised (Dict String Bytes) := do
  let entries ← (runtime.unzip package).mapError zip_raised
  refuse_if (¬(entries.map (fun entry => runtime.casefold entry.1)).Nodup)
    (.package_error "package contains duplicate paths")
  entries.foldlM read_file .empty

structure ReadManifest where
  bytes : Bytes
  members : List (String × Json)
  entries : List Json

def MANIFEST_INVALID : Raised := .package_error "knowledge package manifest is invalid"

def read_manifest (files : Dict String Bytes) : Except Raised ReadManifest :=
  match files.get? "manifest.json" with
  | none => .error MANIFEST_INVALID
  | some manifest_bytes =>
      match Json.loadsBytes runtime.too_deep manifest_bytes with
      | .error .value => .error MANIFEST_INVALID
      | .error .recursion => .error .recursion_error
      | .ok (.obj manifest) =>
          match Json.get? manifest "files" with
          | none => .error MANIFEST_INVALID
          | some (.arr entries) => .ok ⟨manifest_bytes, manifest, entries⟩
          | some _ => .error (.package_error "knowledge package file manifest is invalid")
      | .ok _ => .error MANIFEST_INVALID

def IDENTITY_INVALID : Raised := .package_error "knowledge package identity contract is invalid"

def is_str (value : Option Json) (expected : String) : Bool :=
  match value with
  | some (.str found) => found = expected
  | _ => false

def are_strs (value : Option Json) (expected : List String) : Bool :=
  match value with
  | some (.arr items) =>
      items.length = expected.length &&
        (items.zip expected).all (fun (item, name) => is_str (some item) name)
  | _ => false

def PACKAGE_TYPES : List String := ["akc-knowledge-package", "structara-knowledge-package"]

-- A list or a dictionary cannot be looked for in a set.
def known_package_type : Option Json → Except Raised Bool
  | some (.str package_type) => .ok (package_type ∈ PACKAGE_TYPES)
  | some (.arr _) => .error .type_error
  | some (.obj _) => .error .type_error
  | _ => .ok false

def collection_id_of (manifest : List (String × Json)) : Option String :=
  match Json.get? manifest "collection_id" with
  | some (.str collection_id) => some collection_id
  | _ => none

def identity_checked (manifest : List (String × Json)) : Except Raised String := do
  refuse_if (is_str (Json.get? manifest "schema_version") "1.0" = false) IDENTITY_INVALID
  let known ← known_package_type (Json.get? manifest "package_type")
  refuse_if (known = false ∨ are_strs (Json.get? manifest "roots") _REQUIRED_ROOTS = false)
    IDENTITY_INVALID
  match collection_id_of manifest with
  | none => .error IDENTITY_INVALID
  | some collection_id => do
      refuse_if (Text.strip collection_id.toList = [] ∨
        is_sha256_id (text_at runtime manifest "architecture_plan_sha256") = false) IDENTITY_INVALID
      .ok collection_id

-- `entry.get("size_bytes") == len(content)`
def is_length (value : Option Json) (length : Nat) : Bool :=
  match value with
  | some (.int size) => size = length
  | some (.bool size) => size.toNat = length
  | some (.float lexeme) => runtime.float_equals lexeme length
  | _ => false

structure Expected where
  paths : List String
  folded : List String

def expected_entry (files : Dict String Bytes) (expected : Expected) (entry : Json) :
    Except Raised Expected :=
  match entry with
  | .obj members => do
      let path ← safe (text_at runtime members "path")
      refuse_if (runtime.casefold path ∈ expected.folded)
        (.package_error "knowledge package manifest contains duplicate paths")
      let expected_digest := text_at runtime members "sha256"
      match files.get? path with
      | none => .error (.package_error s!"knowledge package hash mismatch: {path}")
      | some content => do
          refuse_if (is_sha256_id expected_digest = false ∨
              sha256_digest hasher content ≠ expected_digest ∨
              is_length runtime (Json.get? members "size_bytes") content.length = false)
            (.package_error s!"knowledge package hash mismatch: {path}")
          .ok ⟨expected.paths ++ [path], expected.folded ++ [runtime.casefold path]⟩
  | _ => .error (.package_error "knowledge package manifest entry is invalid")

-- Every entry that is left has both keys.
def ledger_line (entry : Json) : String × String :=
  match entry with
  | .obj members => (text_at runtime members "path", text_at runtime members "sha256")
  | _ => ("", "")

def under (root path : String) : Bool := (root ++ "/").toList.isPrefixOf path.toList

def roots_present (paths : List String) : Bool :=
  _REQUIRED_ROOTS.all (fun root => paths.any (under root))

def profile_present (paths : List String) (profile : String × List String) : Bool :=
  let present := (paths.filter (under profile.1)).map ( removeprefix (profile.1 ++ "/"))
  profile.2.all (· ∈ present)

structure Semantics (Lineage : Type) where
  model : CanonicalKnowledgeModel Lineage
  profile : KnowledgePackageSemanticProfile

def SEMANTICS_INVALID : Raised := .package_error "knowledge package semantic profile is invalid"

-- The profile, its payload and its model, every exception of theirs turned into one.
def read_semantics (files : Dict String Bytes) (raw_semantic_profile : Json) :
    Except Raised (Bytes × Semantics Lineage) :=
  match (runtime.profile_fields raw_semantic_profile).bind SemanticProfileFields.checked with
  | none => .error SEMANTICS_INVALID
  | some profile =>
      match files.get? CANONICAL_MODEL_PATH with
      | none => .error SEMANTICS_INVALID
      | some canonical_payload =>
          match runtime.model_validate_json canonical_payload with
          | none => .error SEMANTICS_INVALID
          | some model => .ok (canonical_payload, ⟨model, profile⟩)

def profile_checked (files : Dict String Bytes) (collection_id architecture_plan_sha256 : String)
    (raw_semantic_profile : Json) : Except Raised (Semantics Lineage) := do
  let (canonical_payload, semantics) ← read_semantics runtime files raw_semantic_profile
  refuse_if (semantics.model.collection_id ≠ collection_id)
    (.package_error "semantic model collection scope differs from package")
  let serialized ← canonical_knowledge_model_bytes runtime semantics.model
  refuse_if (serialized ≠ canonical_payload)
    (.package_error "semantic model is not canonically serialized")
  _validate_architecture_plan_binding hasher semantics.model architecture_plan_sha256
  let expected_semantic_profile ← knowledge_package_semantic_profile hasher runtime semantics.model
    semantics.profile.val.blueprint_modules
  refuse_if (expected_semantic_profile.same semantics.profile = false)
    (.package_error "semantic model profile does not match canonical content")
  .ok semantics

-- `None` and an absent key are one.
def semantics_checked (files : Dict String Bytes) (collection_id : String)
    (manifest : List (String × Json)) (require_semantic_profile : Bool) :
    Except Raised (Option (Semantics Lineage)) :=
  match Json.get? manifest "semantic_profile" with
  | none | some .null => do
      refuse_if (require_semantic_profile = true)
        (.package_error "knowledge package semantic profile is required")
      .ok none
  | some raw_semantic_profile => do
      let semantics ← profile_checked hasher runtime files collection_id
        (text_at runtime manifest "architecture_plan_sha256") raw_semantic_profile
      .ok (some semantics)

-- All that is read before a signature is looked at.
structure Content (Lineage : Type) where
  manifest_bytes : Bytes
  manifest : List (String × Json)
  expected_paths : List String
  semantics : Option (Semantics Lineage)

def content_checked (files : Dict String Bytes) (require_semantic_profile : Bool) :
    Except Raised (Content Lineage) := do
  let read ← read_manifest runtime files
  let collection_id ← identity_checked runtime read.members
  let expected ← read.entries.foldlM (expected_entry hasher runtime files) ⟨[], []⟩
  refuse_if (files.get? "checksums.sha256" ≠
      some (checksums hasher (read.entries.map (ledger_line runtime)) read.bytes))
    (.package_error "knowledge package checksum ledger is invalid")
  refuse_if (roots_present expected.paths = false)
    (.package_error "knowledge package required root is empty")
  _REQUIRED_PROFILE_FILES.forM (fun profile => refuse_if (profile_present expected.paths profile = false)
    (.package_error s!"knowledge package {profile.1} profile is incomplete"))
  let semantics ← semantics_checked hasher runtime files collection_id read.members
    require_semantic_profile
  .ok ⟨read.bytes, read.members, expected.paths, semantics⟩

-- `signed`
def holds_signature (files : Dict String Bytes) : Bool :=
  (files.get? SIGNATURE_PATH).isSome && (files.get? SIGNER_RECORD_PATH).isSome

def allowed_support_files (signed : Bool) : List String :=
  ["manifest.json", "checksums.sha256"] ++ if signed then [SIGNATURE_PATH, SIGNER_RECORD_PATH] else []

def same_set (first second : List String) : Bool :=
  first.all (· ∈ second) && second.all (· ∈ first)

-- `bytes.strip()`
def strip_bytes (content : Bytes) : Bytes :=
  let blank (byte : UInt8) : Bool := byte = 0x20 || (0x09 ≤ byte && byte ≤ 0x0d)
  ((content.dropWhile blank).reverse.dropWhile blank).reverse

def b64decode (content : Bytes) : Option Bytes :=
  Base64.decodeStrict (content.map (fun byte => Char.ofNat byte.toNat))

structure SignerRecord where
  signer_id : String
  algorithm : String
  signature : Bytes
deriving DecidableEq

def SIGNER_INVALID : Raised := .package_error "package signer record is invalid"

def read_signer (signature_file signer_file : Bytes) : Except Raised SignerRecord :=
  match Json.loadsBytes runtime.too_deep signer_file with
  | .error .value => .error SIGNER_INVALID
  | .error .recursion => .error .recursion_error
  | .ok (.obj signer_record) =>
      match Json.get? signer_record "signer_id", Json.get? signer_record "algorithm",
          b64decode (strip_bytes signature_file) with
      | some signer_id, some algorithm, some signature =>
          .ok ⟨runtime.text signer_id, runtime.text algorithm, signature⟩
      | _, _, _ => .error SIGNER_INVALID
  | .ok _ => .error SIGNER_INVALID

-- `signature_meta` is a dictionary with the status "signed".
def declares_signed (manifest : List (String × Json)) : Bool :=
  match Json.get? manifest "signature" with
  | some (.obj signature_meta) => is_str (Json.get? signature_meta "status") "signed"
  | _ => false

def signature_verified (content : Content Lineage) (signature_file signer_file : Bytes)
    (verifier : PackageVerifier) : Method Verified Raised (Option String) := do
  let record ← check (read_signer runtime signature_file signer_file)
  require (record.signer_id = verifier.signer_id ∧ record.algorithm = verifier.algorithm)
    (.package_error "package signer identity is not approved")
  require (declares_signed content.manifest = true)
    (.package_error "package signature manifest is inconsistent")
  check (verifier.verify record.signature content.manifest_bytes)
  assign (· ++ [(record.signature, content.manifest_bytes)])
  returns (some record.signer_id)

-- Nothing is verified unless both signature files are there.
def presented (files : Dict String Bytes) (content : Content Lineage)
    (verifier : Option PackageVerifier) : Method Verified Raised (Option String) :=
  match files.get? SIGNATURE_PATH, files.get? SIGNER_RECORD_PATH with
  | some signature_file, some signer_file =>
      match verifier with
      | none => raises (.package_error "signed package requires an approved verifier")
      | some verifier => signature_verified runtime content signature_file signer_file verifier
  | _, _ => returns none

def signature_checked (files : Dict String Bytes) (content : Content Lineage)
    (verifier : Option PackageVerifier) (require_signature : Bool) :
    Method Verified Raised (Option String) := do
  require (same_set files.keys
      (content.expected_paths ++ allowed_support_files (holds_signature files)) = true)
    (.package_error "knowledge package contains unmanifested files")
  require (¬(require_signature = true ∧ holds_signature files = false))
    (.package_error "production import requires a signed package")
  presented runtime files content verifier

def imported (package : Bytes) (files : Dict String Bytes) (content : Content Lineage)
    (signer_id : Option String) : ImportedKnowledgePackage Lineage where
  files := Dict.ofPairs ((sorted content.expected_paths).filterMap
    (fun path => (files.get? path).map (path, ·)))
  receipt :=
    { package_sha256 := sha256_digest hasher package
      manifest_sha256 := sha256_digest hasher content.manifest_bytes
      file_count := (content.expected_paths.filter (· ≠ "README.md")).length
      signed := holds_signature files
      signature_status := signature_status (holds_signature files)
      signer_id := signer_id
      semantic_model_sha256 :=
        content.semantics.map (fun semantics => semantics.profile.val.canonical_model_sha256)
      semantic_round_trip := content.semantics.isSome }
  manifest := content.manifest
  semantic_model := content.semantics.map Semantics.model
  semantic_profile := content.semantics.map Semantics.profile

def import_knowledge_package (package : Bytes) (verifier : Option PackageVerifier)
    (require_signature require_semantic_profile : Bool) :
    Method Verified Raised (ImportedKnowledgePackage Lineage) := do
  let files ← check (read_package runtime package)
  let content ← check (content_checked hasher runtime files require_semantic_profile)
  let signer_id ← signature_checked runtime files content verifier require_signature
  returns (imported hasher package files content signer_id)

end Import

end KnowledgeCompiler.Exporters
