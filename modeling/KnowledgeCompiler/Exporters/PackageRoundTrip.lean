import KnowledgeCompiler.Exporters.PackageBuild
import KnowledgeCompiler.Exporters.PackageSignature

namespace KnowledgeCompiler.Exporters

open Lib Method

section Built

variable {Lineage : Type} {hasher : Hasher} {runtime : Runtime Lineage}

theorem _canonical_json_eq_ok_iff {value : Json} {bytes : Bytes} :
    _canonical_json value = .ok bytes ↔
      Json.Printable value ∧ bytes = Json.utf8 (Json.dumps value ++ ['\n']) := by
  rw [_canonical_json, except_bind_eq_ok_iff, canonical_text]
  split
  · rename_i hprintable
    simp [hprintable, eq_comm]
  · rename_i hprintable
    simp [hprintable]

def signed_files (payload : Dict String Bytes) : Dict String Bytes := payload.set "README.md" README

def ledger (hasher : Hasher) (payload : Dict String Bytes) (manifest_bytes : Bytes) : Bytes :=
  checksums hasher ((manifest_entries hasher (signed_files payload)).map
    (fun entry => (entry.path, entry.sha256))) manifest_bytes

theorem build_files_eq_ok_iff {groups : Dict String (Dict String Bytes)}
    {collection_id architecture_plan_sha256 : String} {signer : Option PackageSigner}
    {semantic_model : Option (CanonicalKnowledgeModel Lineage)}
    {blueprint_modules : List SemanticBlueprintManifest} {built : Built} :
    build_files hasher runtime groups collection_id architecture_plan_sha256 signer semantic_model
        blueprint_modules = .ok built ↔
      ¬(Text.strip collection_id.toList = [] ∨ 240 < collection_id.length) ∧
      is_sha256_id architecture_plan_sha256 = true ∧
      _normalize_payload runtime groups = .ok built.payload ∧
      semantic_built hasher runtime built.payload collection_id architecture_plan_sha256
        blueprint_modules semantic_model = .ok built.profile ∧
      built.manifest = package_manifest collection_id architecture_plan_sha256
        (manifest_entries hasher (signed_files built.payload)) signer built.profile ∧
      _canonical_json (.obj built.manifest) = .ok built.manifest_bytes ∧
      built_files hasher built.payload built.manifest_bytes signer = .ok built.package_files := by
  simp only [build_files, except_bind_eq_ok_iff, refuse_if_eq_ok_iff, exists_const,
    Bool.not_eq_false]
  constructor
  · rintro ⟨hcollection, hplan, payload, hpayload, profile, hprofile, manifest_bytes, hmanifest,
      package_files, hfiles, ⟨⟩⟩
    exact ⟨hcollection, hplan, hpayload, hprofile, rfl, hmanifest, hfiles⟩
  · rintro ⟨hcollection, hplan, hpayload, hprofile, hmade, hmanifest, hfiles⟩
    refine ⟨hcollection, hplan, _, hpayload, _, hprofile, built.manifest_bytes, ?_, _, hfiles, ?_⟩
    · rw [← hmanifest, hmade]
      rfl
    · rw [← signed_files, ← hmade]

theorem printable_signer_record (signer : PackageSigner) : Json.Printable (signer_record signer) :=
  ⟨by simp, trivial, trivial, trivial⟩

def record_bytes (signer : PackageSigner) : Bytes :=
  Json.utf8 (Json.dumps (signer_record signer) ++ ['\n'])

-- The files of a package, beside the payload and the README.
structure PackageFiles (hasher : Hasher) (payload : Dict String Bytes) (manifest_bytes : Bytes)
    (signer : Option PackageSigner) (files : Dict String Bytes) : Prop where
  manifest : files.get? "manifest.json" = some manifest_bytes
  checksums : files.get? "checksums.sha256" = some (ledger hasher payload manifest_bytes)
  signature : files.get? SIGNATURE_PATH =
    signer.map (fun signer => signature_file (signer.sign manifest_bytes))
  record : files.get? SIGNER_RECORD_PATH = signer.map record_bytes
  signed : ∀ path ∈ (signed_files payload).keys,
    files.get? path = (signed_files payload).get? path
  keys : ∀ path, path ∈ files.keys ↔
    path ∈ (signed_files payload).keys ∨ path ∈ allowed_support_files signer.isSome

theorem NormalPayload.notMem_support {payload : Dict String Bytes} (hpayload : NormalPayload payload)
    {path : String} (hpath : path ∈ support_files) : path ∉ payload.keys := by
  intro hmem
  obtain ⟨root, hroot, hrooted⟩ := hpayload.rooted path hmem
  exact hrooted.notMem_support hroot hpath

-- None of the support files is a file that the manifest lists.
theorem NormalPayload.signed_notMem {payload : Dict String Bytes} (hpayload : NormalPayload payload)
    {path : String} (hpath : path ∈ allowed_support_files true) :
    path ∉ (signed_files payload).keys := by
  have hsupport : ∀ path ∈ allowed_support_files true, path ≠ "README.md" ∧ path ∈ support_files := by
    decide
  obtain ⟨hreadme, hmem⟩ := hsupport path hpath
  rw [signed_files, Dict.mem_keys_set]
  exact not_or.mpr ⟨hreadme, hpayload.notMem_support hmem⟩

theorem package_files_of_built {payload files : Dict String Bytes} {manifest_bytes : Bytes}
    {signer : Option PackageSigner} (hpayload : NormalPayload payload)
    (hfiles : built_files hasher payload manifest_bytes signer = .ok files) :
    PackageFiles hasher payload manifest_bytes signer files := by
  have hunsigned : ∀ path ∈ allowed_support_files true, (signed_files payload).get? path = none :=
    fun path hpath => (Dict.get?_eq_none_iff _ _).mpr (hpayload.signed_notMem hpath)
  have hother : ∀ path ∈ (signed_files payload).keys, path ≠ "manifest.json" ∧
      path ≠ "checksums.sha256" ∧ path ≠ SIGNATURE_PATH ∧ path ≠ SIGNER_RECORD_PATH := by
    intro path hpath
    refine ⟨?_, ?_, ?_, ?_⟩
    all_goals
      rintro rfl
      exact hpayload.signed_notMem (by decide) hpath
  cases signer with
  | none =>
      cases hfiles
      refine ⟨?_, ?_, ?_, ?_, ?_, ?_⟩
      · exact (Dict.get?_set _ _ _ _).trans (if_pos rfl)
      · rw [Dict.get?_set_of_ne _ _ (by decide), Dict.get?_set, if_pos rfl]
        rfl
      · rw [Dict.get?_set_of_ne _ _ (by decide), Dict.get?_set_of_ne _ _ (by decide)]
        exact hunsigned _ (by decide)
      · rw [Dict.get?_set_of_ne _ _ (by decide), Dict.get?_set_of_ne _ _ (by decide)]
        exact hunsigned _ (by decide)
      · intro path hpath
        obtain ⟨hmanifest, hchecksums, -, -⟩ := hother path hpath
        rw [Dict.get?_set_of_ne _ _ hmanifest, Dict.get?_set_of_ne _ _ hchecksums]
        rfl
      · intro path
        rw [Dict.mem_keys_set, Dict.mem_keys_set, ← signed_files]
        simp [allowed_support_files, or_left_comm, or_comm, or_assoc]
  | some signer =>
      rw [built_files, _canonical_json, canonical_text, if_pos (printable_signer_record signer)] at hfiles
      cases hfiles
      refine ⟨?_, ?_, ?_, ?_, ?_, ?_⟩
      · rw [Dict.get?_set_of_ne _ _ (by decide), Dict.get?_set_of_ne _ _ (by decide), Dict.get?_set,
          if_pos rfl]
      · rw [Dict.get?_set_of_ne _ _ (by decide), Dict.get?_set_of_ne _ _ (by decide),
          Dict.get?_set_of_ne _ _ (by decide), Dict.get?_set, if_pos rfl]
        rfl
      · rw [Dict.get?_set_of_ne _ _ (by decide), Dict.get?_set, if_pos rfl]
        rfl
      · rw [Dict.get?_set, if_pos rfl]
        rfl
      · intro path hpath
        obtain ⟨hmanifest, hchecksums, hsignature, hrecord⟩ := hother path hpath
        rw [Dict.get?_set_of_ne _ _ hrecord, Dict.get?_set_of_ne _ _ hsignature,
          Dict.get?_set_of_ne _ _ hmanifest, Dict.get?_set_of_ne _ _ hchecksums]
        rfl
      · intro path
        rw [Dict.mem_keys_set, Dict.mem_keys_set, Dict.mem_keys_set, Dict.mem_keys_set, ← signed_files]
        simp [allowed_support_files, or_left_comm, or_comm, or_assoc]

end Built

section Manifest

variable {Lineage : Type} {hasher : Hasher} {runtime : Runtime Lineage}
  {collection_id architecture_plan_sha256 : String} {entries : List ManifestEntry}
  {signer : Option PackageSigner} {profile : Option KnowledgePackageSemanticProfile}

theorem depth_arr_map {α : Type} (items : List α) (dumped : α → Json) {limit : Nat}
    (hitems : ∀ item, Json.depth (dumped item) ≤ limit) :
    Json.depth (.arr (items.map dumped)) ≤ limit + 1 := by
  refine Nat.succ_le_succ (Json.depthItems_le_iff.mpr fun item hitem => ?_)
  obtain ⟨source, -, rfl⟩ := List.mem_map.mp hitem
  exact hitems source

theorem depth_obj {members : List (String × Json)} {limit : Nat}
    (hmembers : ∀ member ∈ members, Json.depth member.2 ≤ limit) :
    Json.depth (.obj members) ≤ limit + 1 :=
  Nat.succ_le_succ (Json.depthMembers_le_iff.mpr hmembers)

theorem depth_texts (values : List String) : Json.depth (.arr (values.map .str)) ≤ 1 :=
  depth_arr_map values .str (fun _ => Nat.le_refl 0)

theorem depth_asset (asset : SemanticAssetFields) : Json.depth asset.model_dump ≤ 1 := by
  simp [SemanticAssetFields.model_dump, Json.depth, Json.depthMembers]

theorem depth_blueprint (blueprint : SemanticBlueprintFields) : Json.depth blueprint.model_dump ≤ 3 := by
  have hassets := fun assets : List SemanticAssetFields =>
    depth_arr_map assets SemanticAssetFields.model_dump depth_asset
  have htexts := fun values => Nat.le_succ_of_le (depth_texts values)
  refine depth_obj ?_
  simp only [List.forall_mem_cons]
  exact ⟨Nat.zero_le 2, Nat.zero_le 2, Nat.zero_le 2, hassets _, hassets _, hassets _, hassets _,
    htexts _, htexts _, htexts _, fun member hmember => absurd hmember List.not_mem_nil⟩

theorem depth_profile (profile : SemanticProfileFields) : Json.depth profile.model_dump ≤ 5 := by
  have hcounts : Json.depth (.obj (profile.object_counts.map (fun entry => (entry.1, .int entry.2)))) ≤ 1 := by
    refine depth_obj fun member hmember => ?_
    obtain ⟨entry, -, rfl⟩ := List.mem_map.mp hmember
    exact Nat.le_refl 0
  have hmodules := depth_arr_map profile.blueprint_modules (fun blueprint => blueprint.val.model_dump)
    (fun blueprint => depth_blueprint blueprint.val)
  refine depth_obj ?_
  simp only [List.forall_mem_cons]
  exact ⟨Nat.zero_le 4, Nat.zero_le 4, Nat.zero_le 4, Nat.zero_le 4, Nat.zero_le 4,
    hcounts.trans (by decide), hmodules, fun member hmember => absurd hmember List.not_mem_nil⟩

theorem depth_manifest : Json.depth (.obj (package_manifest collection_id architecture_plan_sha256
    entries signer profile)) ≤ 6 := by
  have hentries : Json.depth (.arr (entries.map ManifestEntry.json)) ≤ 2 :=
    depth_arr_map entries ManifestEntry.json (fun entry => by
      simp [ManifestEntry.json, Json.depth, Json.depthMembers])
  have hoptional : ∀ value, Json.depth (optional_text value) = 0 := fun value => by cases value <;> rfl
  have hsignature : Json.depth (.obj (signature_meta signer)) ≤ 1 := by
    simp [signature_meta, Json.depth, Json.depthMembers, hoptional]
  refine depth_obj ?_
  unfold package_manifest
  rw [List.forall_mem_append]
  simp only [List.forall_mem_cons]
  refine ⟨⟨Nat.zero_le 5, Nat.zero_le 5, Nat.zero_le 5, Nat.zero_le 5,
    (depth_texts _).trans (by decide), hentries.trans (by decide), hsignature.trans (by decide),
    fun member hmember => absurd hmember List.not_mem_nil⟩, ?_⟩
  cases profile with
  | none => exact fun member hmember => absurd hmember List.not_mem_nil
  | some profile =>
      intro member hmember
      rw [List.mem_singleton.mp hmember]
      exact depth_profile profile.val

theorem manifest_keys : ((package_manifest collection_id architecture_plan_sha256 entries signer
    profile).map Prod.fst).Nodup := by
  cases profile <;> simp [package_manifest]

theorem manifest_get? (key : String) :
    Json.get? (Json.sorted (package_manifest collection_id architecture_plan_sha256 entries signer
      profile)) key = (Json.get? (package_manifest collection_id architecture_plan_sha256 entries signer
        profile) key).map Json.sortKeys :=
  Json.get?_sorted manifest_keys key

theorem manifest_files : Json.get? (Json.sorted (package_manifest collection_id
    architecture_plan_sha256 entries signer profile)) "files" =
      some (.arr (entries.map (fun entry => Json.sortKeys entry.json))) := by
  rw [manifest_get?]
  simp [package_manifest, Json.get?, Json.sortKeys, Json.sortItems_eq_map]

theorem manifest_plan : text_at runtime (Json.sorted (package_manifest collection_id
    architecture_plan_sha256 entries signer profile)) "architecture_plan_sha256" =
      architecture_plan_sha256 := by
  rw [text_at, manifest_get?]
  simp [package_manifest, Json.get?, Json.sortKeys, Runtime.text]

theorem manifest_declares (hsigner : signer.isSome = true) :
    declares_signed (Json.sorted (package_manifest collection_id architecture_plan_sha256 entries
      signer profile)) = true := by
  have hmeta : Json.get? (Json.sorted (package_manifest collection_id architecture_plan_sha256 entries
      signer profile)) "signature" = some (.obj (Json.sorted (signature_meta signer))) := by
    rw [manifest_get?]
    simp [package_manifest, Json.get?, Json.sortKeys_obj]
  have hkeys : ((signature_meta signer).map Prod.fst).Nodup := by simp [signature_meta]
  have hstatus : Json.get? (Json.sorted (signature_meta signer)) "status" = some (.str "signed") := by
    rw [Json.get?_sorted hkeys]
    simp [signature_meta, Json.get?, Json.sortKeys, signature_status, hsigner]
  rw [declares_signed, hmeta]
  change is_str (Json.get? (Json.sorted (signature_meta signer)) "status") "signed" = true
  rw [hstatus]
  rfl

theorem manifest_semantics : Json.get? (Json.sorted (package_manifest collection_id
    architecture_plan_sha256 entries signer profile)) "semantic_profile" =
      profile.map (fun profile => Json.sortKeys profile.val.model_dump) := by
  rw [manifest_get?]
  cases profile <;> simp [package_manifest, Json.get?]

theorem roots_sorted : are_strs (some (Json.sortKeys (.arr (_REQUIRED_ROOTS.map .str)))) _REQUIRED_ROOTS =
    true := by decide

theorem identity_of_manifest (hcollection : Text.strip collection_id.toList ≠ [])
    (hplan : is_sha256_id architecture_plan_sha256 = true) :
    identity_checked runtime (Json.sorted (package_manifest collection_id architecture_plan_sha256
      entries signer profile)) = .ok collection_id := by
  have hversion : is_str (Json.get? (Json.sorted (package_manifest collection_id
      architecture_plan_sha256 entries signer profile)) "schema_version") "1.0" = true := by
    rw [manifest_get?]
    simp [package_manifest, Json.get?, Json.sortKeys, is_str]
  have htype : known_package_type (Json.get? (Json.sorted (package_manifest collection_id
      architecture_plan_sha256 entries signer profile)) "package_type") = .ok true := by
    rw [manifest_get?]
    simp [package_manifest, Json.get?, Json.sortKeys, known_package_type, PACKAGE_TYPES]
  have hroots : are_strs (Json.get? (Json.sorted (package_manifest collection_id
      architecture_plan_sha256 entries signer profile)) "roots") _REQUIRED_ROOTS = true := by
    rw [manifest_get?]
    simpa [package_manifest, Json.get?] using roots_sorted
  have hid : collection_id_of (Json.sorted (package_manifest collection_id architecture_plan_sha256
      entries signer profile)) = some collection_id := by
    rw [collection_id_of, manifest_get?]
    simp [package_manifest, Json.get?, Json.sortKeys]
  rw [identity_checked, htype, hversion, hid, manifest_plan, hroots]
  simp [refuse_if, hcollection, hplan, bind, Except.bind]

end Manifest

section Entries

variable {Lineage : Type} {hasher : Hasher} {runtime : Runtime Lineage} {payload files : Dict String Bytes}

-- The paths that the manifest of a build lists.
def built_paths (hasher : Hasher) (payload : Dict String Bytes) : List String :=
  (manifest_entries hasher (signed_files payload)).map ManifestEntry.path

theorem mem_manifest_entries {entry : ManifestEntry}
    (hentry : entry ∈ manifest_entries hasher (signed_files payload)) :
    ∃ content, (signed_files payload).get? entry.path = some content ∧
      entry.sha256 = sha256_digest hasher content ∧ entry.size_bytes = content.length := by
  obtain ⟨⟨path, content⟩, hstored, rfl⟩ := List.mem_map.mp hentry
  have hmem := (List.perm_insertionSort _ _).mem_iff.mp hstored
  exact ⟨content, (Dict.mem_entries_iff _ _ _).mp hmem, rfl, rfl⟩

theorem built_paths_perm : (built_paths hasher payload).Perm (signed_files payload).keys := by
  rw [built_paths, manifest_entries, List.map_map]
  exact (List.perm_insertionSort _ _).map _

theorem mem_built_paths {path : String} :
    path ∈ built_paths hasher payload ↔ path ∈ (signed_files payload).keys :=
  built_paths_perm.mem_iff

theorem sortKeys_entry (entry : ManifestEntry) : Json.sortKeys entry.json =
    .obj (Json.sorted [("path", .str entry.path), ("sha256", .str entry.sha256),
      ("size_bytes", .int entry.size_bytes)]) := rfl

theorem entry_get? (entry : ManifestEntry) (key : String) :
    Json.get? (Json.sorted [("path", .str entry.path), ("sha256", .str entry.sha256),
      ("size_bytes", .int entry.size_bytes)]) key =
    (Json.get? [("path", .str entry.path), ("sha256", .str entry.sha256),
      ("size_bytes", .int entry.size_bytes)] key).map Json.sortKeys :=
  Json.get?_sorted (by simp) key

theorem entry_path (entry : ManifestEntry) : text_at runtime (Json.sorted [("path", .str entry.path),
    ("sha256", .str entry.sha256), ("size_bytes", .int entry.size_bytes)]) "path" = entry.path := by
  rw [text_at, entry_get?]
  simp [Json.get?, Json.sortKeys, Runtime.text]

theorem entry_sha256 (entry : ManifestEntry) : text_at runtime (Json.sorted [("path", .str entry.path),
    ("sha256", .str entry.sha256), ("size_bytes", .int entry.size_bytes)]) "sha256" = entry.sha256 := by
  rw [text_at, entry_get?]
  simp [Json.get?, Json.sortKeys, Runtime.text]

theorem ledger_line_entry (entry : ManifestEntry) :
    ledger_line runtime (Json.sortKeys entry.json) = (entry.path, entry.sha256) := by
  rw [sortKeys_entry, ledger_line, entry_path, entry_sha256]

theorem NormalPayload.safe_signed (hpayload : NormalPayload payload) {path : String}
    (hpath : path ∈ (signed_files payload).keys) : safe path = .ok path := by
  rw [signed_files, Dict.mem_keys_set] at hpath
  rcases hpath with rfl | hmem
  · exact safe_readme
  · obtain ⟨root, -, hrooted⟩ := hpayload.rooted path hmem
    exact hrooted.safe

theorem listed_entry (hlength : Hasher64 hasher) (hpayload : NormalPayload payload)
    {entry : ManifestEntry} (hentry : entry ∈ manifest_entries hasher (signed_files payload))
    (hsame : files.get? entry.path = (signed_files payload).get? entry.path) :
    Listed hasher runtime files (Json.sortKeys entry.json) entry.path := by
  obtain ⟨content, hcontent, hdigest, hsize⟩ := mem_manifest_entries hentry
  have hpath : entry.path ∈ (signed_files payload).keys :=
    (Dict.mem_keys_iff _ _).mpr ⟨content, hcontent⟩
  refine ⟨_, content, sortKeys_entry entry, ?_, hsame.trans hcontent, ?_, ?_, ?_⟩
  · rw [entry_path]
    exact hpayload.safe_signed hpath
  · rw [entry_sha256, hdigest]
    exact is_sha256_id_digest hlength content
  · rw [entry_sha256, hdigest]
  · rw [entry_get?]
    simp [Json.get?, Json.sortKeys, is_length, hsize]

theorem listed_entries (hlength : Hasher64 hasher) (hpayload : NormalPayload payload)
    (hsame : ∀ path ∈ (signed_files payload).keys, files.get? path = (signed_files payload).get? path) :
    List.Forall₂ (Listed hasher runtime files)
      ((manifest_entries hasher (signed_files payload)).map (fun entry => Json.sortKeys entry.json))
      (built_paths hasher payload) := by
  rw [built_paths, List.forall₂_map_left_iff, List.forall₂_map_right_iff, List.forall₂_same]
  exact fun entry hentry => listed_entry hlength hpayload hentry
    (hsame entry.path (mem_built_paths.mp (List.mem_map_of_mem hentry)))

theorem roots_of_payload (hpayload : NormalPayload payload) :
    roots_present (built_paths hasher payload) = true := by
  simp only [roots_present, List.all_eq_true, List.any_eq_true]
  intro root hroot
  obtain ⟨path, hpath, hunder⟩ := hpayload.roots root hroot
  exact ⟨path, mem_built_paths.mpr ((Dict.mem_keys_set _ _ _ _).mpr (.inr hpath)), hunder⟩

theorem removeprefix_append (lead text : String) : removeprefix lead (lead ++ text) = text := by
  have hprefix : lead.toList.isPrefixOf (lead ++ text).toList = true := by
    rw [List.isPrefixOf_iff_prefix, String.toList_append]
    exact List.prefix_append _ _
  rw [ removeprefix, if_pos hprefix, String.toList_append, ← String.length_toList, List.drop_left,
    String.ofList_toList]

theorem profiles_of_payload (hpayload : NormalPayload payload) :
    ∀ profile ∈ _REQUIRED_PROFILE_FILES, profile_present (built_paths hasher payload) profile = true := by
  intro profile hprofile
  simp only [profile_present, List.all_eq_true, decide_eq_true_eq, List.mem_map, List.mem_filter]
  intro name hname
  have hpath := hpayload.profiles profile hprofile name hname
  refine ⟨profile.1 ++ "/" ++ name,
    ⟨mem_built_paths.mpr ((Dict.mem_keys_set _ _ _ _).mpr (.inr hpath)), ?_⟩, removeprefix_append _ _⟩
  have hspelled : (profile.1 ++ "/" ++ name).toList = (profile.1 ++ "/").toList ++ name.toList :=
    String.toList_append
  rw [under, List.isPrefixOf_iff_prefix, hspelled]
  exact List.prefix_append _ _

end Entries

section Signer

variable {Lineage : Type} {runtime : Runtime Lineage}

theorem strip_bytes_line {content : Bytes} (hcontent : ∀ byte ∈ content, 0x20 < byte) :
    strip_bytes (content ++ [0x0a]) = content := by
  have hplain : ∀ byte : UInt8, 0x20 < byte →
      (decide (byte = 0x20) || (decide (0x09 ≤ byte) && decide (byte ≤ 0x0d))) = false := by
    intro byte hbyte
    have hne : byte ≠ 0x20 := fun h => absurd (h ▸ hbyte) (by decide)
    have hlarge : ¬byte ≤ 0x0d := by
      intro hle
      have hlt : (0x20 : UInt8) < 0x0d := UInt8.lt_of_lt_of_le hbyte hle
      exact absurd hlt (by decide)
    simp [hne, hlarge]
  have hkept : ∀ bytes : Bytes, (∀ byte ∈ bytes, 0x20 < byte) → bytes.dropWhile
      (fun byte => decide (byte = 0x20) || (decide (0x09 ≤ byte) && decide (byte ≤ 0x0d))) = bytes := by
    intro bytes hbytes
    cases bytes with
    | nil => rfl
    | cons byte rest => rw [List.dropWhile_cons_of_neg (by simp [hplain byte (hbytes byte List.mem_cons_self)])]
  unfold strip_bytes
  dsimp only
  cases content with
  | nil => rfl
  | cons byte rest =>
      have hfirst := hplain byte (hcontent byte List.mem_cons_self)
      rw [List.cons_append, List.dropWhile_cons_of_neg (by simp [hfirst]), ← List.cons_append,
        List.reverse_append]
      have hline : ([0x0a] : Bytes).reverse ++ (byte :: rest).reverse = 0x0a :: (byte :: rest).reverse := rfl
      rw [hline, List.dropWhile_cons_of_pos (by decide),
        hkept _ (fun byte hbyte => hcontent byte (List.mem_reverse.mp hbyte)), List.reverse_reverse]

theorem byte_of_char {c : Char} (hc : c.toNat < 0x80) :
    Char.ofNat (UInt8.ofNat c.toNat).toNat = c := by
  have hmod : c.toNat % 2 ^ 8 = c.toNat := Nat.mod_eq_of_lt (hc.trans (by decide))
  rw [UInt8.toNat_ofNat', hmod, Char.ofNat_toNat]

-- The signature file gives the signature back.
theorem signature_of_file (signature : Bytes) :
    b64decode (strip_bytes (signature_file signature)) = some signature := by
  have hascii : ∀ c ∈ Base64.encodeStandard signature, 0x20 < c.toNat ∧ c.toNat < 0x80 :=
    fun c hc => Base64.encodeStandard_plain hc
  have hbytes : signature_file signature =
      (Base64.encodeStandard signature).map (fun c => UInt8.ofNat c.toNat) ++ [0x0a] := by
    rw [signature_file, Json.utf8, Utf8.encode_ascii, List.map_append]
    · rfl
    · intro c hc
      rcases List.mem_append.mp hc with htext | hline
      · exact (hascii c htext).2
      · rw [List.mem_singleton.mp hline]
        decide
  have hplain : ∀ byte ∈ (Base64.encodeStandard signature).map (fun c => UInt8.ofNat c.toNat),
      0x20 < byte := by
    intro byte hbyte
    obtain ⟨c, hc, rfl⟩ := List.mem_map.mp hbyte
    obtain ⟨hlow, hhigh⟩ := hascii c hc
    have hmod : c.toNat % 2 ^ 8 = c.toNat := Nat.mod_eq_of_lt (hhigh.trans (by decide))
    rw [UInt8.lt_iff_toNat_lt, UInt8.toNat_ofNat', hmod]
    exact hlow
  have hback : ((Base64.encodeStandard signature).map (fun c => UInt8.ofNat c.toNat)).map
      (fun byte => Char.ofNat byte.toNat) = Base64.encodeStandard signature := by
    rw [List.map_map]
    conv_rhs => rw [← List.map_id (Base64.encodeStandard signature)]
    exact List.map_congr_left fun c hc => byte_of_char (hascii c hc).2
  rw [hbytes, strip_bytes_line hplain, b64decode, hback, Base64.decodeStrict_encodeStandard]

theorem read_signer_of_members {record : Bytes} {members : List (String × Json)}
    {signer_id algorithm : String} (signature : Bytes)
    (hloads : Json.loadsBytes runtime.too_deep record = .ok (.obj members))
    (hid : Json.get? members "signer_id" = some (.str signer_id))
    (halgorithm : Json.get? members "algorithm" = some (.str algorithm)) :
    read_signer runtime (signature_file signature) record = .ok ⟨signer_id, algorithm, signature⟩ := by
  rw [read_signer, hloads]
  dsimp only
  rw [hid, halgorithm, signature_of_file]
  rfl

theorem read_signer_of_built (hrestores : Restores runtime) (signer : PackageSigner) (signature : Bytes) :
    read_signer runtime (signature_file signature) (record_bytes signer) =
      .ok ⟨signer.signer_id, signer.algorithm, signature⟩ := by
  have hloads : Json.loadsBytes runtime.too_deep (record_bytes signer) = .ok (.obj (Json.sorted
      [("algorithm", .str signer.algorithm), ("signer_id", .str signer.signer_id)])) := by
    refine Json.loadsBytes_line hrestores.within "algorithm" _ _ (printable_signer_record signer) ?_
    simp [Json.depth, Json.depthMembers]
  have hkeys : ([("algorithm", Json.str signer.algorithm), ("signer_id", .str signer.signer_id)].map
      Prod.fst).Nodup := by simp
  refine read_signer_of_members signature hloads ?_ ?_
  · rw [Json.get?_sorted hkeys]
    simp [Json.get?, Json.sortKeys]
  · rw [Json.get?_sorted hkeys]
    simp [Json.get?, Json.sortKeys]

end Signer

section Content

variable {Lineage : Type} {hasher : Hasher} {runtime : Runtime Lineage}
  {groups : Dict String (Dict String Bytes)} {collection_id architecture_plan_sha256 : String}
  {signer : Option PackageSigner} {semantic_model : Option (CanonicalKnowledgeModel Lineage)}
  {blueprint_modules : List SemanticBlueprintManifest} {built : Built} {files : Dict String Bytes}

theorem profile_of_built
    (hbuilt : build_files hasher runtime groups collection_id architecture_plan_sha256 signer none
      blueprint_modules = .ok built) : built.profile = none := by
  obtain ⟨-, -, -, hsemantics, -, -, -⟩ := build_files_eq_ok_iff.mp hbuilt
  simp only [semantic_built, except_bind_eq_ok_iff, refuse_if_eq_ok_iff, exists_const] at hsemantics
  exact (Except.ok.inj hsemantics.2).symm

theorem read_manifest_of_built (hrestores : Restores runtime)
    (hbuilt : build_files hasher runtime groups collection_id architecture_plan_sha256 signer
      semantic_model blueprint_modules = .ok built)
    (hfile : files.get? "manifest.json" = some built.manifest_bytes) :
    read_manifest runtime files = .ok ⟨built.manifest_bytes, Json.sorted built.manifest,
      (manifest_entries hasher (signed_files built.payload)).map
        (fun entry => Json.sortKeys entry.json)⟩ := by
  obtain ⟨-, -, -, -, hmanifest, hbytes, -⟩ := build_files_eq_ok_iff.mp hbuilt
  obtain ⟨hprintable, hwritten⟩ := _canonical_json_eq_ok_iff.mp hbytes
  have hloads : Json.loadsBytes runtime.too_deep built.manifest_bytes =
      .ok (.obj (Json.sorted built.manifest)) := by
    have hdepth : Json.depth (.obj built.manifest) ≤ 6 := hmanifest ▸ depth_manifest
    have hcons : ∃ key value rest, built.manifest = (key, value) :: rest := ⟨_, _, _, hmanifest⟩
    obtain ⟨key, value, rest, hrest⟩ := hcons
    rw [hwritten]
    rw [hrest] at hprintable hdepth ⊢
    exact Json.loadsBytes_line hrestores.within key value rest hprintable hdepth
  have hentries : Json.get? (Json.sorted built.manifest) "files" =
      some (.arr ((manifest_entries hasher (signed_files built.payload)).map
        (fun entry => Json.sortKeys entry.json))) := by
    rw [hmanifest, manifest_files]
  rw [read_manifest, hfile]
  dsimp only
  rw [hloads]
  dsimp only
  rw [hentries]

-- What a reader makes of a package that was built without a semantic model.
def built_content (hasher : Hasher) (built : Built) : Content Lineage where
  manifest_bytes := built.manifest_bytes
  manifest := Json.sorted built.manifest
  expected_paths := built_paths hasher built.payload
  semantics := none

theorem files_of_built
    (hbuilt : build_files hasher runtime groups collection_id architecture_plan_sha256 signer
      semantic_model blueprint_modules = .ok built) :
    NormalPayload built.payload ∧
      PackageFiles hasher built.payload built.manifest_bytes signer built.package_files := by
  obtain ⟨-, -, hpayload, -, -, -, hfiles⟩ := build_files_eq_ok_iff.mp hbuilt
  have hnormal := normal_of_normalize hpayload
  exact ⟨hnormal, package_files_of_built hnormal hfiles⟩

theorem NormalPayload.notMem_signature {payload : Dict String Bytes} (hpayload : NormalPayload payload)
    {path : String} (hpath : path ∈ (signed_files payload).keys) : path ∉ signature_paths := by
  intro hmem
  have hsupport : ∀ path ∈ signature_paths, path ∈ allowed_support_files true := by decide
  exact hpayload.signed_notMem (hsupport path hmem) hpath

-- Whatever stands in the signature files, the rest of a built package passes.
theorem holds_of_built (hrestores : Restores runtime) (hlength : Hasher64 hasher)
    (hbuilt : build_files hasher runtime groups collection_id architecture_plan_sha256 signer none
      blueprint_modules = .ok built)
    (hdistinct : (built.package_files.keys.map runtime.casefold).Nodup)
    (hsame : ∀ path, path ∉ signature_paths → files.get? path = built.package_files.get? path) :
    Holds hasher runtime files false (built_content hasher built) := by
  obtain ⟨hnormal, hfiles⟩ := files_of_built hbuilt
  obtain ⟨hcollection, hplan, -, -, hmanifest, -, -⟩ := build_files_eq_ok_iff.mp hbuilt
  have hstored : ∀ path ∈ (signed_files built.payload).keys,
      files.get? path = (signed_files built.payload).get? path := fun path hpath =>
    (hsame path (hnormal.notMem_signature hpath)).trans (hfiles.signed path hpath)
  have hfile : files.get? "manifest.json" = some built.manifest_bytes :=
    (hsame _ (by decide)).trans hfiles.manifest
  refine ⟨⟨_, collection_id, read_manifest_of_built hrestores hbuilt hfile, ?_,
    listed_entries hlength hnormal hstored, ?_, ?_⟩, ?_, roots_of_payload hnormal,
    profiles_of_payload hnormal⟩
  · rw [built_content, hmanifest]
    exact identity_of_manifest (not_or.mp hcollection).1 hplan
  · rw [hsame _ (by decide), hfiles.checksums, ledger, List.map_map]
    simp only [Function.comp_def, ledger_line_entry]
    rfl
  · have hraw : Json.get? (Json.sorted built.manifest) "semantic_profile" = none := by
      rw [hmanifest, manifest_semantics, profile_of_built hbuilt]
      rfl
    rw [semantics_checked, built_content, hraw]
    rfl
  · have hpaths : (built_paths hasher built.payload).Nodup :=
      built_paths_perm.nodup_iff.mpr (signed_files built.payload).nodup
    have hinjective := List.inj_on_of_nodup_map hdistinct
    refine List.Nodup.map_on (fun first hfirst second hsecond hfold => ?_) hpaths
    have hkept : ∀ path ∈ built_paths hasher built.payload, path ∈ built.package_files.keys :=
      fun path hpath => (hfiles.keys path).mpr (.inl (mem_built_paths.mp hpath))
    exact hinjective (hkept first hfirst) (hkept second hsecond) hfold

end Content

end KnowledgeCompiler.Exporters
