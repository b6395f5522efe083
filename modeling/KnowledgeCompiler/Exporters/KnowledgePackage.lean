import KnowledgeCompiler.Exporters.Digests
import KnowledgeCompiler.Exporters.SafePath
import KnowledgeCompiler.Lib.Base64
import KnowledgeCompiler.Lib.Json.Bytes
import KnowledgeCompiler.Lib.Method
import KnowledgeCompiler.Lib.Text

namespace KnowledgeCompiler.Exporters

open Lib

def _REQUIRED_ROOTS : List String :=
  ["source", "canonical", "obsidian", "ontology", "graph", "rag", "provenance", "validation"]

def _REQUIRED_PROFILE_FILES : List (String × List String) :=
  [("canonical", ["model.json"]),
   ("obsidian", ["Home.md"]),
   ("ontology", ["knowledge.ttl", "knowledge.owl", "knowledge.jsonld", "knowledge.skos.ttl",
      "shapes.shacl.ttl", "vocabulary.md", "provenance.jsonld"]),
   ("graph", ["nodes.csv", "relationships.csv", "constraints.cypher", "indexes.cypher",
      "import.cypher"]),
   ("rag", ["documents.jsonl", "chunks.jsonl", "metadata.jsonl", "evidence.jsonl",
      "retrieval-profile.json"]),
   ("provenance", ["activities.jsonl"]),
   ("validation", ["report.json", "round-trip.json"])]

def DIGITS : String := "0123456789"

def LOWERCASE : String := "abcdefghijklmnopqrstuvwxyz"

-- What can leave a call of the package's functions.
inductive Raised
  | package_error (message : String)
  | path_raised (raised : PathRaised)
  | value_error (message : String)
  | validation_error
  | type_error
  | recursion_error
  | other
deriving DecidableEq

def safe (path : String) : Except Raised String :=
  (safe_relative_path path).mapError .path_raised

def refuse_if (holds : Prop) [Decidable holds] (error : Raised) : Except Raised Unit :=
  if holds then .error error else .ok ()

def within (low high : Nat) (value : Nat) : Bool := low ≤ value && value ≤ high

structure SemanticAssetFields where
  path : String
  media_type : String
  size_bytes : Int
  sha256 : String
deriving DecidableEq

def SemanticAssetFields.valid (asset : SemanticAssetFields) : Bool :=
  within 3 240 asset.path.length && within 3 120 asset.media_type.length &&
    decide (1 ≤ asset.size_bytes ∧ asset.size_bytes ≤ 256 * 1024) && is_sha256_id asset.sha256

def SemanticAssetFields.model_dump (asset : SemanticAssetFields) : Json :=
  .obj [("path", .str asset.path), ("media_type", .str asset.media_type),
    ("size_bytes", .int asset.size_bytes), ("sha256", .str asset.sha256)]

structure SemanticBlueprintFields where
  blueprint_id : String
  blueprint_version : String
  module_sha256 : String
  assets : List SemanticAssetFields
  prompt_assets : List SemanticAssetFields
  validator_assets : List SemanticAssetFields
  template_assets : List SemanticAssetFields
  validator_ids : List String
  template_ids : List String
  export_profiles : List String
deriving DecidableEq

-- `^[a-z][a-z0-9-]{2,79}$`
def is_blueprint_id (value : String) : Bool :=
  match value.toList with
  | [] => false
  | first :: rest =>
      first ∈ LOWERCASE.toList && within 2 79 rest.length && all_in (LOWERCASE ++ DIGITS ++ "-") rest

-- `^[1-9][0-9]*\.[0-9]+\.[0-9]+$`
def is_blueprint_version (value : String) : Bool :=
  match value.toList.splitOn '.' with
  | [first :: major, minor, patch] =>
      first ∈ "123456789".toList && all_in DIGITS major && minor ≠ [] && all_in DIGITS minor &&
        patch ≠ [] && all_in DIGITS patch
  | _ => false

-- `_BlueprintManifest.bind_components_to_assets`
def SemanticBlueprintFields.bound (blueprint : SemanticBlueprintFields) : Bool :=
  let declared := blueprint.assets.map (fun asset => (asset.path, asset.sha256))
  decide (blueprint.assets.map SemanticAssetFields.path).Nodup &&
    [(blueprint.prompt_assets, "prompts/"), (blueprint.validator_assets, "validators/"),
      (blueprint.template_assets, "templates/")].all (fun (component, folder) =>
        component.all (fun asset => (asset.path, asset.sha256) ∈ declared) &&
          component.all (fun asset => folder.toList.isPrefixOf asset.path.toList)) &&
    [blueprint.validator_ids, blueprint.template_ids, blueprint.export_profiles].all
      (fun values => decide values.Nodup)

def SemanticBlueprintFields.valid (blueprint : SemanticBlueprintFields) : Bool :=
  is_blueprint_id blueprint.blueprint_id && is_blueprint_version blueprint.blueprint_version &&
    is_sha256_id blueprint.module_sha256 && within 1 128 blueprint.assets.length &&
    [blueprint.prompt_assets, blueprint.validator_assets, blueprint.template_assets].all (· ≠ []) &&
    within 1 20 blueprint.validator_ids.length && within 1 20 blueprint.template_ids.length &&
    within 1 8 blueprint.export_profiles.length &&
    (blueprint.assets ++ blueprint.prompt_assets ++ blueprint.validator_assets ++
      blueprint.template_assets).all SemanticAssetFields.valid &&
    blueprint.bound

def SemanticBlueprintFields.model_dump (blueprint : SemanticBlueprintFields) : Json :=
  let dumped (assets : List SemanticAssetFields) := Json.arr (assets.map SemanticAssetFields.model_dump)
  let texts (values : List String) := Json.arr (values.map .str)
  .obj [("blueprint_id", .str blueprint.blueprint_id),
    ("blueprint_version", .str blueprint.blueprint_version),
    ("module_sha256", .str blueprint.module_sha256), ("assets", dumped blueprint.assets),
    ("prompt_assets", dumped blueprint.prompt_assets),
    ("validator_assets", dumped blueprint.validator_assets),
    ("template_assets", dumped blueprint.template_assets), ("validator_ids", texts blueprint.validator_ids),
    ("template_ids", texts blueprint.template_ids), ("export_profiles", texts blueprint.export_profiles)]

def SemanticBlueprintManifest : Type := { fields : SemanticBlueprintFields // fields.valid = true }

instance : DecidableEq SemanticBlueprintManifest :=
  inferInstanceAs (DecidableEq { _fields : SemanticBlueprintFields // _ })

def SEMANTIC_SCHEMA_VERSION : String := "akc.knowledge-package.semantic.v1"

def CANONICAL_MODEL_PATH : String := "canonical/model.json"

-- The two fields with one literal value each are those values.
structure SemanticProfileFields where
  canonical_model_schema_version : String
  canonical_model_sha256 : String
  object_count : Int
  object_counts : List (String × Int)
  blueprint_modules : List SemanticBlueprintManifest
deriving DecidableEq

def SemanticProfileFields.valid (profile : SemanticProfileFields) : Bool :=
  within 1 80 profile.canonical_model_schema_version.length &&
    is_sha256_id profile.canonical_model_sha256 && decide (1 ≤ profile.object_count) &&
    profile.object_counts.all (fun entry => decide (0 ≤ entry.2)) &&
    profile.object_counts ≠ [] &&
    (profile.object_counts.map Prod.snd).sum = profile.object_count &&
    decide (profile.blueprint_modules.map (fun blueprint => blueprint.val.blueprint_id)).Nodup

def SemanticProfileFields.model_dump (profile : SemanticProfileFields) : Json :=
  .obj [("schema_version", .str SEMANTIC_SCHEMA_VERSION),
    ("canonical_model_path", .str CANONICAL_MODEL_PATH),
    ("canonical_model_schema_version", .str profile.canonical_model_schema_version),
    ("canonical_model_sha256", .str profile.canonical_model_sha256),
    ("object_count", .int profile.object_count),
    ("object_counts", .obj (profile.object_counts.map (fun entry => (entry.1, .int entry.2)))),
    ("blueprint_modules", .arr (profile.blueprint_modules.map (fun blueprint => blueprint.val.model_dump)))]

def KnowledgePackageSemanticProfile : Type :=
  { fields : SemanticProfileFields // fields.valid = true }

-- Two dictionaries of counts are equal whatever the order of their keys.
def KnowledgePackageSemanticProfile.same (first second : KnowledgePackageSemanticProfile) : Bool :=
  { first.val with object_counts := [] } = { second.val with object_counts := [] } &&
    first.val.object_counts.length = second.val.object_counts.length &&
    first.val.object_counts.all (· ∈ second.val.object_counts)

def SemanticProfileFields.checked (fields : SemanticProfileFields) :
    Option KnowledgePackageSemanticProfile :=
  if h : fields.valid = true then some ⟨fields, h⟩ else none

inductive KnowledgeObjectKind
  | COLLECTION | DOCUMENT | DOCUMENT_VERSION | PAGE | REGION | BLOCK | TABLE | FIGURE | NOTE
  | ENTITY | RELATION | CLAIM | EVIDENCE | ASSET | ONTOLOGY_TERM | EXPORT_ARTIFACT
  | VALIDATION_RECORD
deriving DecidableEq

def KnowledgeObjectKind.value : KnowledgeObjectKind → String
  | .COLLECTION => "collection"
  | .DOCUMENT => "document"
  | .DOCUMENT_VERSION => "document_version"
  | .PAGE => "page"
  | .REGION => "region"
  | .BLOCK => "block"
  | .TABLE => "table"
  | .FIGURE => "figure"
  | .NOTE => "note"
  | .ENTITY => "entity"
  | .RELATION => "relation"
  | .CLAIM => "claim"
  | .EVIDENCE => "evidence"
  | .ASSET => "asset"
  | .ONTOLOGY_TERM => "ontology_term"
  | .EXPORT_ARTIFACT => "export_artifact"
  | .VALIDATION_RECORD => "validation_record"

-- `Lineage` holds the fields of an object that packaging does not read.
structure CanonicalKnowledgeObject (Lineage : Type) where
  kind : KnowledgeObjectKind
  payload : List (String × Json)
  lineage : Lineage

structure CanonicalKnowledgeModel (Lineage : Type) where
  schema_version : String
  tenant_id : String
  collection_id : String
  objects : List (CanonicalKnowledgeObject Lineage)

structure PackageSigner where
  signer_id : String
  algorithm : String
  sign : Bytes → Bytes

structure PackageVerifier where
  signer_id : String
  algorithm : String
  verify : Bytes → Bytes → Except Raised Unit

-- `OSError`, `ValueError` and `BadZipFile` are one kind here.
inductive ZipRaised
  | invalid
  | other
deriving DecidableEq

-- What the language, its archive library and the contract layer are here: `str` of what is
-- no string, `==` with a float and of parsed values, how lists of names print, the texts
-- too deep for `json.loads`; writing and reading an archive; dumping and validating models.
structure Runtime (Lineage : Type) where
  casefold : String → String
  str : Json → String
  float_equals : List Char → Nat → Bool
  equal : Json → Json → Bool
  listed : List String → String
  too_deep : List Char → Bool
  zip : List (String × Bytes) → Option Bytes
  unzip : Bytes → Except ZipRaised (List (String × Except ZipRaised Bytes))
  model_dump : CanonicalKnowledgeModel Lineage → Json
  model_validate_json : Bytes → Option (CanonicalKnowledgeModel Lineage)
  profile_fields : Json → Option SemanticProfileFields

structure KnowledgePackageReceipt where
  package_sha256 : String
  manifest_sha256 : String
  file_count : Nat
  signed : Bool
  signature_status : String
  signer_id : Option String
  semantic_model_sha256 : Option String
  semantic_round_trip : Bool
deriving DecidableEq

structure ImportedKnowledgePackage (Lineage : Type) where
  files : Dict String Bytes
  receipt : KnowledgePackageReceipt
  manifest : List (String × Json)
  semantic_model : Option (CanonicalKnowledgeModel Lineage)
  semantic_profile : Option KnowledgePackageSemanticProfile

def SIGNATURE_PATH : String := "signature/manifest.ed25519"

def SIGNER_RECORD_PATH : String := "signature/signer.json"

section Package

variable {Lineage : Type} (hasher : Hasher) (runtime : Runtime Lineage)

-- A NaN or an infinity raises.
def canonical_text (value : Json) : Except Raised (List Char) :=
  if Json.Printable value then .ok (Json.dumps value)
  else .error (.value_error "Out of range float values are not JSON compliant")

def _canonical_json (value : Json) : Except Raised Bytes := do
  let text ← canonical_text value
  .ok (Json.utf8 (text ++ ['\n']))

def canonical_knowledge_model_bytes (model : CanonicalKnowledgeModel Lineage) : Except Raised Bytes :=
  _canonical_json (runtime.model_dump model)

-- The objects that carry a blueprint module.
def bound_objects (model : CanonicalKnowledgeModel Lineage) :
    List (CanonicalKnowledgeObject Lineage) :=
  model.objects.filter (fun item =>
    item.kind = .ASSET &&
      match Json.get? item.payload "semantic_role" with
      | some (.str role) => role = "knowledge_blueprint_module"
      | _ => false)

def bound_manifest (actual : Dict String Json) (item : CanonicalKnowledgeObject Lineage) :
    Except Raised (Dict String Json) :=
  match Json.get? item.payload "manifest" with
  | some (.obj manifest) =>
      match Json.get? manifest "blueprint_id" with
      | some (.str blueprint_id) =>
          if blueprint_id ∈ actual.keys then
            .error (.package_error "canonical blueprint binding identity is invalid")
          else .ok (actual.set blueprint_id (.obj manifest))
      | _ => .error (.package_error "canonical blueprint binding identity is invalid")
  | _ => .error (.package_error "canonical blueprint binding is malformed")

def same_manifests (actual expected : Dict String Json) : Bool :=
  actual.entries.length = expected.entries.length &&
    actual.entries.all (fun (blueprint_id, manifest) =>
      (expected.get? blueprint_id).any (runtime.equal manifest))

def _validate_blueprint_bindings (model : CanonicalKnowledgeModel Lineage)
    (modules : List SemanticBlueprintManifest) : Except Raised Unit := do
  refuse_if ((bound_objects model).length ≠ modules.length)
    (.package_error "canonical model and semantic blueprint manifest coverage differ")
  let expected := Dict.ofPairs
    (modules.map (fun blueprint => (blueprint.val.blueprint_id, blueprint.val.model_dump)))
  let actual ← (bound_objects model).foldlM bound_manifest Dict.empty
  refuse_if (same_manifests runtime actual expected = false)
    (.package_error "canonical blueprint binding differs from the manifest")

def _validate_architecture_plan_binding (model : CanonicalKnowledgeModel Lineage)
    (architecture_plan_sha256 : String) : Except Raised Unit :=
  match model.objects.filter (fun item => item.kind = .COLLECTION) with
  | [root] =>
      match Json.get? root.payload "architecture_plan",
          Json.get? root.payload "architecture_plan_sha256" with
      | some (.obj architecture_plan), some (.str bound_sha256) => do
          let text ← canonical_text (.obj architecture_plan)
          let calculated_sha256 := sha256_digest hasher (Json.utf8 text)
          refuse_if (bound_sha256 ≠ calculated_sha256 ∨ architecture_plan_sha256 ≠ calculated_sha256)
            (.package_error "architecture plan digest differs from the canonical collection root")
      | _, _ => .error (.package_error
          "canonical collection root is missing its architecture plan binding")
  | _ => .error (.package_error "semantic package requires exactly one canonical collection root")

def object_counts (model : CanonicalKnowledgeModel Lineage) : List (String × Int) :=
  let counts := model.objects.foldl (fun counts item =>
    counts.update item.kind.value (fun count => count.getD 0 + 1)) (Dict.empty : Dict String Int)
  counts.entries.insertionSort (fun first second => first.1 ≤ second.1)

def knowledge_package_semantic_profile (model : CanonicalKnowledgeModel Lineage)
    (blueprint_modules : List SemanticBlueprintManifest) :
    Except Raised KnowledgePackageSemanticProfile := do
  _validate_blueprint_bindings runtime model blueprint_modules
  let payload ← canonical_knowledge_model_bytes runtime model
  let fields : SemanticProfileFields :=
    { canonical_model_schema_version := model.schema_version
      canonical_model_sha256 := sha256_digest hasher payload
      object_count := model.objects.length
      object_counts := object_counts model
      blueprint_modules := blueprint_modules }
  match fields.checked with
  | some profile => .ok profile
  | none => .error .validation_error

-- `_normalize_payload`

structure Normalized where
  payload : Dict String Bytes
  folded : List String

def normalized_entry (normalized : Normalized) (entry : String × String × Bytes) :
    Except Raised Normalized := do
  let relative ← safe entry.2.1
  let path ← safe (entry.1 ++ "/" ++ relative)
  if runtime.casefold path ∈ normalized.folded then
    .error (.package_error "case-insensitive package path collision")
  else
    .ok { payload := normalized.payload.set path entry.2.2
          folded := normalized.folded ++ [runtime.casefold path] }

def group_files (groups : Dict String (Dict String Bytes)) (root : String) : List (String × Bytes) :=
  match groups.get? root with
  | none => []
  | some files => files.entries

def missing_files (groups : Dict String (Dict String Bytes)) (profile : String × List String) :
    List String :=
  profile.2.filter (· ∉ (group_files groups profile.1).map Prod.fst)

def sorted (names : List String) : List String := names.insertionSort (· ≤ ·)

def _normalize_payload (groups : Dict String (Dict String Bytes)) : Except Raised (Dict String Bytes) := do
  let missing := _REQUIRED_ROOTS.filter (fun root => group_files groups root = [])
  refuse_if (missing ≠ []) (.package_error
    ("knowledge package groups are missing: " ++ ", ".intercalate missing))
  let unknown := groups.keys.filter (· ∉ _REQUIRED_ROOTS)
  refuse_if (unknown ≠ []) (.package_error
    ("knowledge package groups are unknown: " ++ runtime.listed (sorted unknown)))
  _REQUIRED_PROFILE_FILES.forM (fun profile =>
    refuse_if (missing_files groups profile ≠ []) (.package_error
      s!"knowledge package {profile.1} profile is incomplete: {runtime.listed (sorted (missing_files groups profile))}"))
  let entries := _REQUIRED_ROOTS.flatMap (fun root => (group_files groups root).map (root, ·))
  let normalized ← entries.foldlM (normalized_entry runtime) { payload := .empty, folded := [] }
  .ok normalized.payload

-- `deterministic_zip`

def ordered (files : Dict String Bytes) : List (String × Bytes) :=
  files.entries.insertionSort (fun first second =>
    (first.1 ≠ "manifest.json" ∧ second.1 = "manifest.json") ∨
      ((first.1 = "manifest.json" ↔ second.1 = "manifest.json") ∧ first.1 ≤ second.1))

def archived (archive : List (String × Bytes)) (entry : String × Bytes) :
    Except Raised (List (String × Bytes)) := do
  let path ← safe entry.1
  if runtime.casefold path ∈ archive.map (fun stored => runtime.casefold stored.1) then
    .error (.value_error "case-insensitive duplicate ZIP path")
  else .ok (archive ++ [(path, entry.2)])

def deterministic_zip (files : Dict String Bytes) : Except Raised Bytes := do
  let archive ← (ordered files).foldlM (archived runtime) []
  match runtime.zip archive with
  | some package => .ok package
  | none => .error .other

-- `build_knowledge_package`

def README : Bytes := Json.utf8 (
  "# FOLYNTA Knowledge Package\n\n" ++
  "Open `obsidian/Home.md` to begin. The canonical model is the source of truth; " ++
  "all other directories are portable renderers with source evidence. Verify " ++
  "`manifest.json`, `checksums.sha256`, and `signature/` before import.\n").toList

structure ManifestEntry where
  path : String
  sha256 : String
  size_bytes : Nat
deriving DecidableEq

def ManifestEntry.json (entry : ManifestEntry) : Json :=
  .obj [("path", .str entry.path), ("sha256", .str entry.sha256), ("size_bytes", .int entry.size_bytes)]

def manifest_entries (signed_files : Dict String Bytes) : List ManifestEntry :=
  (signed_files.entries.insertionSort (fun first second => first.1 ≤ second.1)).map
    (fun (path, content) =>
      { path := path, sha256 := sha256_digest hasher content, size_bytes := content.length })

def optional_text : Option String → Json
  | none => .null
  | some value => .str value

def signature_status (signed : Bool) : String :=
  if signed then "signed" else "external_signer_required"

def signature_meta (signer : Option PackageSigner) : List (String × Json) :=
  [("status", .str (signature_status signer.isSome)),
    ("algorithm", optional_text (signer.map PackageSigner.algorithm)),
    ("signer_id", optional_text (signer.map PackageSigner.signer_id)),
    ("signature_path", optional_text (signer.map (fun _ => SIGNATURE_PATH))),
    ("signer_record_path", optional_text (signer.map (fun _ => SIGNER_RECORD_PATH)))]

def package_manifest (collection_id architecture_plan_sha256 : String) (entries : List ManifestEntry)
    (signer : Option PackageSigner) (profile : Option KnowledgePackageSemanticProfile) :
    List (String × Json) :=
  [("schema_version", .str "1.0"), ("package_type", .str "akc-knowledge-package"),
    ("collection_id", .str collection_id),
    ("architecture_plan_sha256", .str architecture_plan_sha256),
    ("roots", .arr (_REQUIRED_ROOTS.map .str)), ("files", .arr (entries.map ManifestEntry.json)),
    ("signature", .obj (signature_meta signer))] ++
    match profile with
    | none => []
    | some profile => [("semantic_profile", profile.val.model_dump)]

-- `digest.removeprefix("sha256:")`
def removeprefix (lead text : String) : String :=
  if lead.toList.isPrefixOf text.toList then String.ofList (text.toList.drop lead.length) else text

def checksum_line (digest path : String) : List Char := (digest ++ "  " ++ path ++ "\n").toList

def checksums (entries : List (String × String)) (manifest_bytes : Bytes) : Bytes :=
  Json.utf8 (entries.flatMap (fun (path, sha256) => checksum_line ( removeprefix "sha256:" sha256) path) ++
    checksum_line (hexdigest hasher manifest_bytes) "manifest.json")

def semantic_built (payload : Dict String Bytes) (collection_id architecture_plan_sha256 : String)
    (blueprint_modules : List SemanticBlueprintManifest) :
    Option (CanonicalKnowledgeModel Lineage) →
      Except Raised (Option KnowledgePackageSemanticProfile)
  | none => do
      refuse_if (blueprint_modules ≠ []) (.package_error
        "semantic blueprint manifests require a canonical knowledge model")
      .ok none
  | some semantic_model => do
      refuse_if (semantic_model.collection_id ≠ collection_id) (.package_error
        "canonical model collection scope differs from package")
      _validate_architecture_plan_binding hasher semantic_model architecture_plan_sha256
      let expected_canonical ← canonical_knowledge_model_bytes runtime semantic_model
      refuse_if (payload.get? CANONICAL_MODEL_PATH ≠ some expected_canonical) (.package_error
        "canonical/model.json differs from the authoritative semantic model")
      let profile ← knowledge_package_semantic_profile hasher runtime semantic_model blueprint_modules
      .ok (some profile)

def signer_record (signer : PackageSigner) : Json :=
  .obj [("algorithm", .str signer.algorithm), ("signer_id", .str signer.signer_id)]

-- `base64.b64encode(signature) + b"\n"`
def signature_file (signature : Bytes) : Bytes :=
  Json.utf8 (Base64.encodeStandard signature ++ ['\n'])

-- What is built before it is archived.
structure Built where
  payload : Dict String Bytes
  profile : Option KnowledgePackageSemanticProfile
  manifest : List (String × Json)
  manifest_bytes : Bytes
  package_files : Dict String Bytes

def built_files (payload : Dict String Bytes) (manifest_bytes : Bytes)
    (signer : Option PackageSigner) : Except Raised (Dict String Bytes) := do
  let signed_files := payload.set "README.md" README
  let ledger := checksums hasher ((manifest_entries hasher signed_files).map
    (fun entry => (entry.path, entry.sha256))) manifest_bytes
  let package_files := (signed_files.set "checksums.sha256" ledger).set "manifest.json" manifest_bytes
  match signer with
  | none => .ok package_files
  | some signer => do
      let record ← _canonical_json (signer_record signer)
      .ok ((package_files.set SIGNATURE_PATH (signature_file (signer.sign manifest_bytes))).set
        SIGNER_RECORD_PATH record)

def build_files (groups : Dict String (Dict String Bytes))
    (collection_id architecture_plan_sha256 : String) (signer : Option PackageSigner)
    (semantic_model : Option (CanonicalKnowledgeModel Lineage))
    (blueprint_modules : List SemanticBlueprintManifest) : Except Raised Built := do
  refuse_if (Text.strip collection_id.toList = [] ∨ 240 < collection_id.length) (.package_error
    "collection_id must be a bounded non-empty identifier")
  refuse_if (is_sha256_id architecture_plan_sha256 = false) (.package_error
    "architecture plan digest must be canonical SHA-256")
  let payload ← _normalize_payload runtime groups
  let profile ← semantic_built hasher runtime payload collection_id architecture_plan_sha256
    blueprint_modules semantic_model
  let manifest := package_manifest collection_id architecture_plan_sha256
    (manifest_entries hasher (payload.set "README.md" README)) signer profile
  let manifest_bytes ← _canonical_json (.obj manifest)
  let package_files ← built_files hasher payload manifest_bytes signer
  .ok { payload, profile, manifest, manifest_bytes, package_files }

def build_knowledge_package (groups : Dict String (Dict String Bytes))
    (collection_id architecture_plan_sha256 : String) (signer : Option PackageSigner)
    (semantic_model : Option (CanonicalKnowledgeModel Lineage))
    (blueprint_modules : List SemanticBlueprintManifest) :
    Except Raised (Bytes × KnowledgePackageReceipt) := do
  let built ← build_files hasher runtime groups collection_id architecture_plan_sha256 signer
    semantic_model blueprint_modules
  let package ← deterministic_zip runtime built.package_files
  .ok (package,
    { package_sha256 := sha256_digest hasher package
      manifest_sha256 := sha256_digest hasher built.manifest_bytes
      file_count := built.payload.entries.length
      signed := signer.isSome
      signature_status := signature_status signer.isSome
      signer_id := signer.map PackageSigner.signer_id
      semantic_model_sha256 := built.profile.map (fun profile => profile.val.canonical_model_sha256)
      semantic_round_trip := built.profile.isSome })

end Package

end KnowledgeCompiler.Exporters
