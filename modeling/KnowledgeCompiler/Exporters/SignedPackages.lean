import KnowledgeCompiler.Exporters.PackageFidelity

namespace KnowledgeCompiler.Exporters

open Lib Method

section Deviations

variable {Lineage : Type} {hasher : Hasher} {runtime : Runtime Lineage}
  {groups : Dict String (Dict String Bytes)} {collection_id architecture_plan_sha256 : String}
  {signer : Option PackageSigner} {blueprint_modules : List SemanticBlueprintManifest}
  {built : Built} {files : Dict String Bytes} {package : Bytes}

-- An archive of a built package in which only the signature files were touched.
theorem content_of_deviation (hrestores : Restores runtime) (hlength : Hasher64 hasher)
    (hbuilt : build_files hasher runtime groups collection_id architecture_plan_sha256 signer none
      blueprint_modules = .ok built)
    (hdistinct : (built.package_files.keys.map runtime.casefold).Nodup)
    (hkeys : ∀ path ∈ files.keys, path ∈ built.package_files.keys)
    (hsame : ∀ path, path ∉ signature_paths → files.get? path = built.package_files.get? path)
    (hzip : runtime.zip (ordered files) = some package) :
    ∃ found, read_package runtime package = .ok found ∧ (∀ path, found.get? path = files.get? path) ∧
      Holds hasher runtime found false (built_content hasher built) := by
  obtain ⟨hnormal, hfiles⟩ := files_of_built hbuilt
  have hsafe : ∀ path ∈ files.keys, safe path = .ok path := fun path hpath =>
    hfiles.safe hnormal path (hkeys path hpath)
  have hinjective := List.inj_on_of_nodup_map hdistinct
  have hnodup : (files.keys.map runtime.casefold).Nodup :=
    List.Nodup.map_on (fun first hfirst second hsecond hfold =>
      hinjective (hkeys first hfirst) (hkeys second hsecond) hfold) files.nodup
  obtain ⟨found, hread, hfound⟩ := read_archive hrestores hsafe hnodup hzip
  exact ⟨found, hread, hfound, holds_of_built hrestores hlength hbuilt hdistinct
    (fun path hpath => (hfound path).trans (hsame path hpath))⟩

end Deviations

section Making

variable {Lineage : Type} {runtime : Runtime Lineage}

theorem archived_ok {entries archive : List (String × Bytes)}
    (hsafe : ∀ entry ∈ entries, safe entry.1 = .ok entry.1)
    (hdistinct : ((archive ++ entries).map fun entry => runtime.casefold entry.1).Nodup) :
    entries.foldlM (archived runtime) archive = .ok (archive ++ entries) := by
  induction entries generalizing archive with
  | nil =>
      rw [List.append_nil]
      rfl
  | cons entry rest ih =>
      obtain ⟨hentry, hrest⟩ := List.forall_mem_cons.mp hsafe
      rw [List.append_cons] at hdistinct ⊢
      have hnew : runtime.casefold entry.1 ∉ archive.map fun stored => runtime.casefold stored.1 := by
        rw [List.map_append, List.map_append] at hdistinct
        have hfront := (List.nodup_append.mp hdistinct).1
        exact fun hmem => (List.nodup_append.mp hfront).2.2 _ hmem _ List.mem_cons_self rfl
      have hstep : archived runtime archive entry = .ok (archive ++ [entry]) := by
        rw [archived, hentry]
        exact if_neg hnew
      rw [List.foldlM_cons, hstep]
      exact ih hrest hdistinct

theorem exists_zip {files : Dict String Bytes}
    (hzips : ∀ entries, ∃ package, runtime.zip entries = some package)
    (hsafe : ∀ path ∈ files.keys, safe path = .ok path)
    (hdistinct : (files.keys.map runtime.casefold).Nodup) :
    ∃ package, deterministic_zip runtime files = .ok package := by
  have hperm : (ordered files).Perm files.entries := List.perm_insertionSort _ _
  have hkeys : ((ordered files).map (fun entry => runtime.casefold entry.1)).Perm
      (files.keys.map runtime.casefold) := by
    rw [Dict.keys, List.map_map]
    exact hperm.map _
  have harchive : (ordered files).foldlM (archived runtime) [] = .ok ([] ++ ordered files) :=
    archived_ok (fun entry hentry => hsafe entry.1 (List.mem_map_of_mem (hperm.mem_iff.mp hentry)))
      (hkeys.nodup_iff.mpr hdistinct)
  obtain ⟨package, hpackage⟩ := hzips (ordered files)
  refine ⟨package, ?_⟩
  rw [deterministic_zip, except_bind_eq_ok_iff]
  refine ⟨_, harchive, ?_⟩
  rw [List.nil_append, hpackage]

end Making

section Sample

-- An archive for examples: each byte after a mark, each name and each content closed.
def framed : Bytes → Bytes
  | [] => [0]
  | byte :: rest => 1 :: byte :: framed rest

def unframed : Bytes → Option (Bytes × Bytes)
  | 0 :: rest => some ([], rest)
  | 1 :: byte :: rest => (unframed rest).map (fun (content, left) => (byte :: content, left))
  | _ => none

def sample_zip (entries : List (String × Bytes)) : Bytes :=
  entries.flatMap (fun (name, content) => framed (Json.utf8 name.toList) ++ framed content)

def sample_unzip : Nat → Bytes → Option (List (String × Bytes))
  | _, [] => some []
  | 0, _ :: _ => none
  | fuel + 1, package =>
      match unframed package with
      | none => none
      | some (name, rest) =>
          match Utf8.decode ⟨name.toArray⟩, unframed rest with
          | some name, some (content, left) =>
              (sample_unzip fuel left).map ((String.ofList name, content) :: ·)
          | _, _ => none

theorem unframed_framed (content left : Bytes) : unframed (framed content ++ left) = some (content, left) := by
  induction content with
  | nil => rfl
  | cons byte rest ih =>
      rw [framed, List.cons_append, List.cons_append, unframed, ih]
      rfl

theorem sample_unzip_zip (entries : List (String × Bytes)) {fuel : Nat} (hfuel : entries.length ≤ fuel) :
    sample_unzip fuel (sample_zip entries) = some entries := by
  induction entries generalizing fuel with
  | nil => cases fuel <;> rfl
  | cons entry rest ih =>
      obtain ⟨name, content⟩ := entry
      cases fuel with
      | zero => exact absurd hfuel (Nat.not_succ_le_zero _)
      | succ fuel =>
          have hzip : sample_zip ((name, content) :: rest) =
              framed (Json.utf8 name.toList) ++ (framed content ++ sample_zip rest) := by
            rw [sample_zip, List.flatMap_cons, List.append_assoc]
            rfl
          have hcons : ∃ byte more, framed (Json.utf8 name.toList) ++ (framed content ++ sample_zip rest) =
              byte :: more := by
            cases Json.utf8 name.toList <;> exact ⟨_, _, rfl⟩
          have hname : Utf8.decode ⟨(Json.utf8 name.toList).toArray⟩ = some name.toList :=
            Utf8.decode_encode _
          obtain ⟨byte, more, hbytes⟩ := hcons
          have hstep : sample_unzip (fuel + 1) (byte :: more) = (match unframed (byte :: more) with
              | none => none
              | some (name, rest) =>
                  match Utf8.decode ⟨name.toArray⟩, unframed rest with
                  | some name, some (content, left) =>
                      (sample_unzip fuel left).map ((String.ofList name, content) :: ·)
                  | _, _ => none) := rfl
          rw [hzip, hbytes, hstep, ← hbytes, unframed_framed]
          dsimp only
          rw [hname, unframed_framed]
          dsimp only
          rw [ih (Nat.le_of_succ_le_succ hfuel), String.ofList_toList]
          rfl

def sample_plan_sha256 : String := "sha256:" ++ String.ofList (List.replicate 64 '0')

def sample_runtime : Runtime Unit where
  casefold := String.map Char.toLower
  str _ := ""
  float_equals _ _ := false
  equal _ _ := false
  listed names := ", ".intercalate names
  too_deep _ := false
  zip entries := some (sample_zip entries)
  unzip package :=
    match sample_unzip package.length package with
    | some entries => .ok (entries.map (fun entry => (entry.1, .ok entry.2)))
    | none => .error .invalid
  model_dump _ := .null
  model_validate_json _ := none
  profile_fields _ := none

def sample_group (root : String) : Dict String Bytes :=
  Dict.ofPairs (match _REQUIRED_PROFILE_FILES.lookup root with
    | some names => names.map (fun name => (name, [0x0a]))
    | none => [("notes.txt", [0x61])])

def sample_groups : Dict String (Dict String Bytes) :=
  Dict.ofPairs (_REQUIRED_ROOTS.map (fun root => (root, sample_group root)))

def sample_sign (payload : Bytes) : Bytes := payload.take 8

def sample_signer : PackageSigner := ⟨"release", "Ed25519", sample_sign⟩

def sample_build : Except Raised Built :=
  build_files sha256 sample_runtime sample_groups "notes" sample_plan_sha256 (some sample_signer) none []

theorem sample_restores : Restores sample_runtime := by
  refine ⟨?_, fun _ _ _ _ => rfl⟩
  rintro entries package ⟨⟩
  have hlong : entries.length ≤ (sample_zip entries).length := by
    induction entries with
    | nil => exact Nat.zero_le _
    | cons entry rest ih =>
        have hframed : 0 < (framed (Json.utf8 entry.1.toList)).length := by
          cases Json.utf8 entry.1.toList <;> exact Nat.succ_pos _
        rw [sample_zip, List.flatMap_cons, List.length_append, List.length_append]
        rw [sample_zip] at ih
        rw [List.length_cons]
        omega
  change (match sample_unzip (sample_zip entries).length (sample_zip entries) with
    | some entries => _
    | none => _) = _
  rw [sample_unzip_zip entries hlong]

theorem sample_hasher : Hasher64 sha256 := by
  intro bytes
  simp [sha256, Sha256.hexdigest, Sha256.hexWord]

def sample_paths : List String :=
  _REQUIRED_ROOTS.flatMap fun root => (sample_group root).keys.map (root ++ "/" ++ ·)

set_option maxRecDepth 20000 in
theorem sample_keys : (_normalize_payload sample_runtime sample_groups).toOption.map Dict.keys =
      some sample_paths ∧
    ((sample_paths ++ support_files).map sample_runtime.casefold).Nodup := by
  decide +kernel

theorem sample_normalized : ∃ payload, _normalize_payload sample_runtime sample_groups = .ok payload ∧
    payload.keys = sample_paths := by
  have hkeys := sample_keys.1
  cases hpayload : _normalize_payload sample_runtime sample_groups with
  | error error =>
      rw [hpayload] at hkeys
      cases hkeys
  | ok payload =>
      rw [hpayload] at hkeys
      exact ⟨payload, rfl, Option.some.inj hkeys⟩

theorem sample_printable (entries : List ManifestEntry) :
    Json.Printable (.obj (package_manifest "notes" sample_plan_sha256 entries (some sample_signer)
      none)) := by
  have hentries : Json.PrintableItems (entries.map ManifestEntry.json) := by
    induction entries with
    | nil => trivial
    | cons entry rest ih => exact ⟨⟨by simp, trivial, trivial, trivial, trivial⟩, ih⟩
  have hroots : Json.Printable (.arr (_REQUIRED_ROOTS.map .str)) := by decide
  have hsignature : Json.Printable (.obj (signature_meta (some sample_signer))) := by decide
  refine ⟨by simp [package_manifest], ?_⟩
  exact ⟨trivial, trivial, trivial, trivial, hroots, hentries, hsignature, trivial⟩

theorem sample_package_files {built : Built} (hpaths : built.payload.keys = sample_paths)
    (hfiles : PackageFiles sha256 built.payload built.manifest_bytes (some sample_signer)
      built.package_files) {path : String} (hpath : path ∈ built.package_files.keys) :
    path ∈ sample_paths ++ support_files := by
  rw [← hpaths, List.mem_append]
  rcases (hfiles.keys path).mp hpath with hsigned | hsupport
  · rw [signed_files, Dict.mem_keys_set] at hsigned
    rcases hsigned with rfl | hold
    · exact .inr (by decide)
    · exact .inl hold
  · have hallowed : ∀ path ∈ allowed_support_files true, path ∈ support_files := by decide
    exact .inr (hallowed path hsupport)

-- The build in its steps, so that none is evaluated inside another.
theorem sample_archived : ∃ package receipt, build_knowledge_package sha256 sample_runtime sample_groups
    "notes" sample_plan_sha256 (some sample_signer) none [] = .ok (package, receipt) := by
  obtain ⟨payload, hpayload, hpaths⟩ := sample_normalized
  have hplan : is_sha256_id sample_plan_sha256 = true := by decide +kernel
  obtain ⟨package_files, hfiles⟩ : ∃ files, built_files sha256 payload
      (Json.utf8 (Json.dumps (.obj (package_manifest "notes" sample_plan_sha256
        (manifest_entries sha256 (signed_files payload)) (some sample_signer) none)) ++ ['\n']))
      (some sample_signer) = .ok files := by
    rw [built_files, _canonical_json, canonical_text, if_pos (printable_signer_record sample_signer)]
    exact ⟨_, rfl⟩
  have hprintable := sample_printable (manifest_entries sha256 (signed_files payload))
  have hmanifest := _canonical_json_eq_ok_iff.mpr ⟨hprintable, rfl⟩
  have hcollection : ¬(Text.strip "notes".toList = [] ∨ 240 < "notes".length) := by decide
  have hbuilt : sample_build = .ok ⟨payload, none, _, _, package_files⟩ :=
    build_files_eq_ok_iff.mpr ⟨hcollection, hplan, hpayload, rfl, rfl, hmanifest, hfiles⟩
  obtain ⟨hnormal, hkept⟩ := files_of_built hbuilt
  have hdistinct : (package_files.keys.map sample_runtime.casefold).Nodup :=
    package_files.nodup.map_on fun first hfirst second hsecond =>
      List.inj_on_of_nodup_map sample_keys.2 (sample_package_files hpaths hkept hfirst)
        (sample_package_files hpaths hkept hsecond)
  obtain ⟨package, hzip⟩ := exists_zip (fun _ => ⟨_, rfl⟩) (hkept.safe hnormal) hdistinct
  refine ⟨package, ?_⟩
  rw [build_knowledge_package]
  simp only [except_bind_eq_ok_iff]
  exact ⟨_, _, hbuilt, _, hzip, rfl⟩

theorem exists_sample : ∃ package receipt built files, build_knowledge_package sha256 sample_runtime
      sample_groups "notes" sample_plan_sha256 (some sample_signer) none [] =
        .ok (package, receipt) ∧
    sample_build = .ok built ∧ (built.package_files.keys.map sample_runtime.casefold).Nodup ∧
    read_package sample_runtime package = .ok files ∧
    ∀ path, files.get? path = built.package_files.get? path := by
  obtain ⟨package, receipt, hbuild⟩ := sample_archived
  obtain ⟨built, hbuilt, hzip⟩ := built_of_build hbuild
  obtain ⟨hnormal, hfiles⟩ := files_of_built hbuilt
  obtain ⟨files, hread, hsame, hdistinct⟩ :=
    read_package_of_zip sample_restores (hfiles.safe hnormal) hzip
  exact ⟨package, receipt, built, files, hbuild, hbuilt, hdistinct, hread, hsame⟩

-- Lets pass the signature of the one package that was built.
def sample_verifier : PackageVerifier where
  signer_id := "release"
  algorithm := "Ed25519"
  verify signature payload :=
    match sample_build with
    | .ok built =>
        if signature = sample_sign payload ∧ built.manifest_bytes = payload then .ok ()
        else .error (.package_error "knowledge package signature is invalid")
    | .error raised => .error raised

theorem sample_trusts : Trusts sha256 sample_runtime sample_verifier sample_signer
    (fun built => sample_build = .ok built) := by
  obtain ⟨package, receipt, built, -, hbuild, hbuilt, -⟩ := exists_sample
  refine ⟨fun other hother => ?_, rfl, rfl, fun signature payload => ?_⟩
  · exact ⟨_, _, _, _, _, package, receipt, hother, hbuild⟩
  · have hverify : sample_verifier.verify signature payload =
        if signature = sample_sign payload ∧ built.manifest_bytes = payload then .ok ()
        else .error (.package_error "knowledge package signature is invalid") := by
      unfold sample_verifier
      -- The build itself must not be evaluated here.
      generalize sample_build = made at hbuilt
      subst hbuilt
      rfl
    rw [hverify]
    constructor
    · intro hpassed
      split at hpassed
      · rename_i hboth
        exact ⟨hboth.1, built, hbuilt, hboth.2⟩
      · cases hpassed
    · rintro ⟨hsignature, other, hother, hbytes⟩
      rw [hbuilt] at hother
      cases hother
      exact if_pos ⟨hsignature, hbytes⟩

end Sample

-- The manifest has an entry about that path.
def ManifestLists {Lineage : Type} (runtime : Runtime Lineage) (files : Dict String Bytes)
    (path : String) : Prop :=
  ∃ read, read_manifest runtime files = .ok read ∧ ∃ entry ∈ read.entries, ∃ members,
    entry = .obj members ∧ safe (text_at runtime members "path") = .ok path

theorem Holds.mem_expected_iff {Lineage : Type} {hasher : Hasher} {runtime : Runtime Lineage}
    {files : Dict String Bytes} {require_semantic_profile : Bool} {content : Content Lineage}
    (hholds : Holds hasher runtime files require_semantic_profile content) (path : String) :
    path ∈ content.expected_paths ↔ ManifestLists runtime files path := by
  obtain ⟨entries, -, hread, -, hlisted, -, -⟩ := hholds.manifest
  obtain ⟨hlength, hall⟩ := List.forall₂_iff_get.mp hlisted
  constructor
  · intro hpath
    obtain ⟨i, rfl⟩ := List.mem_iff_get.mp hpath
    have hi : i < entries.length := hlength.symm ▸ i.isLt
    obtain ⟨members, -, hentry, hsafe, -⟩ := hall i hi i.isLt
    exact ⟨_, hread, _, List.get_mem entries ⟨i, hi⟩, members, hentry, hsafe⟩
  · rintro ⟨read, hother, entry, hentry, members, hmembers, hsafe⟩
    rw [hread] at hother
    cases hother
    obtain ⟨i, hi⟩ := List.mem_iff_get.mp hentry
    have hj : i.val < content.expected_paths.length := hlength ▸ i.isLt
    obtain ⟨found, -, hfound, hspelled, -⟩ := hall i.val i.isLt hj
    have hone : Json.obj found = Json.obj members := hfound.symm.trans (hi.trans hmembers)
    cases hone
    rw [hsafe] at hspelled
    cases hspelled
    exact List.get_mem content.expected_paths ⟨i.val, hj⟩

-- A package that is accepted has been verified exactly when it holds both signature files.
-- Without them it is accepted all the same, unless a signature is required or its own
-- manifest lists one of the two.
theorem signed_import_verified_iff {Lineage : Type} {hasher : Hasher} {runtime : Runtime Lineage}
    {package : Bytes} {verifier : Option PackageVerifier}
    {require_signature require_semantic_profile : Bool} {result : ImportedKnowledgePackage Lineage}
    {before after : Verified}
    (himport : import_knowledge_package hasher runtime package verifier require_signature
      require_semantic_profile before = (.ok result, after)) :
    ∃ files manifest_bytes, read_package runtime package = .ok files ∧
      files.get? "manifest.json" = some manifest_bytes ∧
      ((∃ approved signature, verifier = some approved ∧
          approved.verify signature manifest_bytes = .ok () ∧
          after = before ++ [(signature, manifest_bytes)]) ↔ holds_signature files = true) ∧
      ∀ stripped rest, read_package runtime stripped = .ok rest → Stripped files rest →
        ∀ other require again,
          ((∃ found left, import_knowledge_package hasher runtime stripped other require
              require_semantic_profile again = (.ok found, left)) ↔
            require = false ∧ ∀ path ∈ signature_paths, ¬ManifestLists runtime files path) := by
  obtain ⟨files, content, signer_id, hread, hholds, hchecked, -⟩ := import_eq_ok_iff.mp himport
  obtain ⟨hkeys, -, hend⟩ := signature_checked_eq_ok_iff.mp hchecked
  obtain ⟨entries, -, hmanifest, -⟩ := hholds.manifest
  refine ⟨files, content.manifest_bytes, hread, bytes_of_read_manifest hmanifest, ?_, ?_⟩
  · constructor
    · rintro ⟨approved, signature, -, -, hafter⟩
      rcases hend with ⟨-, -, hsame⟩ | ⟨found, record, -, happroved, -, -⟩
      · rw [hsame] at hafter
        exact absurd (congrArg List.length hafter) (by simp)
      · exact happroved.holds_signature
    · intro hsigned
      rcases hend with ⟨hnone, -, -⟩ | ⟨approved, record, hgiven, happroved, -, hafter⟩
      · rw [hsigned] at hnone
        cases hnone
      · exact ⟨approved, record.signature, hgiven, happroved.verified, hafter⟩
  · intro stripped rest hrest hstripped other require again
    constructor
    · rintro ⟨found, left, hfound⟩
      obtain ⟨others, remaining, _, hothers, hremaining, hpassed, -⟩ := import_eq_ok_iff.mp hfound
      rw [hrest] at hothers
      cases hothers
      obtain ⟨-, hrequired, -⟩ := signature_checked_eq_ok_iff.mp hpassed
      refine ⟨Bool.eq_false_iff.mpr fun htrue => hrequired ⟨htrue, hstripped.holds_signature⟩, ?_⟩
      intro path hpath hlists
      exact hholds.of_stripped hstripped hremaining path ((hholds.mem_expected_iff path).mpr hlists) hpath
    · rintro ⟨rfl, hunlisted⟩
      have hplain : ∀ path ∈ content.expected_paths, path ∉ signature_paths := fun path hpath hmem =>
        hunlisted path hmem ((hholds.mem_expected_iff path).mp hpath)
      exact ⟨_, _, import_eq_ok_iff.mpr ⟨rest, content, none, hrest, hholds.strip hstripped hplain,
        signature_checked_eq_ok_iff.mpr ⟨hstripped.keys_iff hkeys hplain, fun h => Bool.noConfusion h.1,
          .inl ⟨hstripped.holds_signature, rfl, rfl⟩⟩, rfl⟩⟩

theorem sample_verified : ∃ package result after files manifest_bytes,
    import_knowledge_package sha256 sample_runtime package (some sample_verifier) true false [] =
      (.ok result, after) ∧
    read_package sample_runtime package = .ok files ∧
    ((∃ approved signature, some sample_verifier = some approved ∧
        approved.verify signature manifest_bytes = .ok () ∧
        after = [] ++ [(signature, manifest_bytes)]) ↔ holds_signature files = true) := by
  obtain ⟨package, receipt, -, -, hbuild, -, -, -, -⟩ := exists_sample
  have hmatches : ∀ made, sample_build = .ok made → Matches sha256 sample_runtime (some sample_signer)
      (some sample_verifier) made := by
    rintro made hmade signing ⟨⟩
    exact ⟨sample_verifier, _, rfl, sample_trusts, hmade⟩
  have himported : ∃ built result after, sample_build = .ok built ∧
      import_knowledge_package sha256 sample_runtime package (some sample_verifier) true false [] =
        (.ok result, after) ∧ _ :=
    import_of_build sample_restores sample_hasher hbuild hmatches (fun _ => rfl)
  obtain ⟨-, result, after, -, himport, -⟩ := himported
  obtain ⟨files, manifest_bytes, hread, -, hverified, -⟩ := signed_import_verified_iff himport
  exact ⟨package, result, after, files, manifest_bytes, himport, hread, hverified⟩

-- The signature files left out, the package still says that it is signed, and nothing is
-- verified.
theorem stripped_package_imported : ∃ built package result, sample_build = .ok built ∧
    sample_runtime.zip (ordered ((built.package_files.erase SIGNATURE_PATH).erase SIGNER_RECORD_PATH)) =
      some package ∧
    import_knowledge_package sha256 sample_runtime package none false false [] = (.ok result, []) ∧
    declares_signed result.manifest = true := by
  obtain ⟨-, -, built, -, -, hbuilt, hdistinct, -⟩ := exists_sample
  obtain ⟨hnormal, hfiles⟩ := files_of_built hbuilt
  obtain ⟨-, -, -, -, hmanifest, -, -⟩ := build_files_eq_ok_iff.mp hbuilt
  have hstripped : Stripped built.package_files
      ((built.package_files.erase SIGNATURE_PATH).erase SIGNER_RECORD_PATH) := by
    intro path
    rw [Dict.get?_erase, Dict.get?_erase]
    by_cases hrecord : path = SIGNER_RECORD_PATH
    · simp [hrecord, signature_paths]
    · by_cases hsignature : path = SIGNATURE_PATH
      · simp [hsignature, signature_paths]
      · simp [hrecord, hsignature, signature_paths]
  have hdeviation : ∃ found, read_package sample_runtime (sample_zip (ordered
        ((built.package_files.erase SIGNATURE_PATH).erase SIGNER_RECORD_PATH))) = .ok found ∧
      (∀ path, found.get? path =
        ((built.package_files.erase SIGNATURE_PATH).erase SIGNER_RECORD_PATH).get? path) ∧
      Holds sha256 sample_runtime found false (built_content sha256 built) :=
    content_of_deviation sample_restores sample_hasher hbuilt hdistinct
      (fun path hpath => ((hstripped.mem_keys path).mp hpath).1)
      (fun path hpath => hstripped.get? hpath) rfl
  obtain ⟨files, hread, hsame, hholds⟩ := hdeviation
  have hrest : Stripped built.package_files files := fun path => (hsame path).trans (hstripped path)
  have hbuilt_keys : ∀ path, path ∈ built.package_files.keys ↔
      path ∈ built_paths sha256 built.payload ++ allowed_support_files true := by
    intro path
    rw [hfiles.keys, List.mem_append, mem_built_paths]
    rfl
  have hkeys := hrest.keys_iff hbuilt_keys
    (fun path hpath => hnormal.notMem_signature (mem_built_paths.mp hpath))
  have hchecked : signature_checked sample_runtime files (built_content sha256 built)
      none false [] = (.ok none, []) :=
    signature_checked_eq_ok_iff.mpr ⟨hkeys, fun h => Bool.noConfusion h.1,
      .inl ⟨hrest.holds_signature, rfl, rfl⟩⟩
  refine ⟨built, _, _, hbuilt, rfl, import_eq_ok_iff.mpr ⟨files, _, _, hread, hholds, hchecked, rfl⟩, ?_⟩
  change declares_signed (Json.sorted built.manifest) = true
  rw [hmanifest]
  exact manifest_declares rfl

end KnowledgeCompiler.Exporters
