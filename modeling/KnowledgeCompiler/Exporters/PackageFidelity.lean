import KnowledgeCompiler.Exporters.PackageRoundTrip

namespace KnowledgeCompiler.Exporters

open Lib Method

section Trust

variable {Lineage : Type} (hasher : Hasher) (runtime : Runtime Lineage)

-- One run of the builder with that signer has made it.
def Builds (signer : PackageSigner) (built : Built) : Prop :=
  ∃ groups collection_id architecture_plan_sha256 semantic_model blueprint_modules package receipt,
    build_files hasher runtime groups collection_id architecture_plan_sha256 (some signer)
        semantic_model blueprint_modules = .ok built ∧
      build_knowledge_package hasher runtime groups collection_id architecture_plan_sha256 (some signer)
        semantic_model blueprint_modules = .ok (package, receipt)

-- The verifier lets pass exactly what its signer has signed: the manifests of the packages
-- that it built.
structure Trusts (verifier : PackageVerifier) (signer : PackageSigner) (history : Built → Prop) : Prop where
  builds : ∀ built, history built → Builds hasher runtime signer built
  signer_id : verifier.signer_id = signer.signer_id
  algorithm : verifier.algorithm = signer.algorithm
  verify : ∀ signature payload, verifier.verify signature payload = .ok () ↔
    signature = signer.sign payload ∧ ∃ built, history built ∧ built.manifest_bytes = payload

-- The importer is given the verifier of the signer, if there was one.
def Matches (signer : Option PackageSigner) (verifier : Option PackageVerifier) (built : Built) : Prop :=
  ∀ signing, signer = some signing → ∃ approved history, verifier = some approved ∧
    Trusts hasher runtime approved signing history ∧ history built

end Trust

section Fidelity

variable {Lineage : Type} {hasher : Hasher} {runtime : Runtime Lineage}
  {groups : Dict String (Dict String Bytes)} {collection_id architecture_plan_sha256 : String}
  {signer : Option PackageSigner} {semantic_model : Option (CanonicalKnowledgeModel Lineage)}
  {blueprint_modules : List SemanticBlueprintManifest} {built : Built} {files : Dict String Bytes}

theorem get?_imported {paths : List String} (hpaths : paths.Nodup) (path : String) :
    (Dict.ofPairs ((sorted paths).filterMap (fun path => (files.get? path).map (path, ·)))).get? path =
      if path ∈ paths then files.get? path else none := by
  have hperm : (sorted paths).Perm paths := List.perm_insertionSort _ _
  have hkeys : (((sorted paths).filterMap (fun path => (files.get? path).map (path, ·))).map
      Prod.fst).Nodup := by
    have hsub : (((sorted paths).filterMap (fun path => (files.get? path).map (path, ·))).map
        Prod.fst).Sublist (sorted paths) := by
      induction sorted paths with
      | nil => exact List.Sublist.refl _
      | cons first rest ih =>
          cases hfirst : files.get? first with
          | none =>
              rw [List.filterMap_cons_none (by rw [hfirst]; rfl)]
              exact ih.cons first
          | some content =>
              rw [List.filterMap_cons_some (b := (first, content)) (by rw [hfirst]; rfl), List.map_cons]
              exact ih.cons_cons first
    exact hsub.nodup (hperm.nodup_iff.mpr hpaths)
  refine Option.ext fun content => ?_
  rw [← Dict.mem_entries_iff, Dict.entries_ofPairs _ hkeys, List.mem_filterMap]
  constructor
  · rintro ⟨other, hother, hmade⟩
    obtain ⟨stored, hstored, hpair⟩ := Option.map_eq_some_iff.mp hmade
    cases hpair
    rw [if_pos (hperm.mem_iff.mp hother), hstored]
  · intro hcontent
    split at hcontent
    · rename_i hpath
      exact ⟨path, hperm.mem_iff.mpr hpath, by rw [hcontent]; rfl⟩
    · cases hcontent

theorem safe_support : ∀ path ∈ support_files, safe path = .ok path := by decide

theorem PackageFiles.safe {payload : Dict String Bytes} {manifest_bytes : Bytes}
    (hfiles : PackageFiles hasher payload manifest_bytes signer files) (hpayload : NormalPayload payload) :
    ∀ path ∈ files.keys, safe path = .ok path := by
  intro path hpath
  rcases (hfiles.keys path).mp hpath with hsigned | hsupport
  · exact hpayload.safe_signed hsigned
  · have hall : ∀ signed, ∀ path ∈ allowed_support_files signed, path ∈ support_files := by decide
    exact safe_support path (hall _ path hsupport)

theorem PackageFiles.holds_signature {payload : Dict String Bytes} {manifest_bytes : Bytes}
    (hfiles : PackageFiles hasher payload manifest_bytes signer files) :
    holds_signature files = signer.isSome := by
  rw [Exporters.holds_signature, hfiles.signature, hfiles.record]
  cases signer <;> rfl

theorem built_of_build {package : Bytes} {receipt : KnowledgePackageReceipt}
    (hbuild : build_knowledge_package hasher runtime groups collection_id architecture_plan_sha256
      signer semantic_model blueprint_modules = .ok (package, receipt)) :
    ∃ built, build_files hasher runtime groups collection_id architecture_plan_sha256 signer
        semantic_model blueprint_modules = .ok built ∧
      deterministic_zip runtime built.package_files = .ok package := by
  rw [build_knowledge_package, except_bind_eq_ok_iff] at hbuild
  obtain ⟨built, hbuilt, hrest⟩ := hbuild
  obtain ⟨found, hzip, hmade⟩ := except_bind_eq_ok_iff.mp hrest
  cases hmade
  exact ⟨built, hbuilt, hzip⟩

theorem presented_of_built {verifier : Option PackageVerifier} {before : Verified}
    (hrestores : Restores runtime) (hmatches : Matches hasher runtime signer verifier built)
    (hfiles : PackageFiles hasher built.payload built.manifest_bytes signer built.package_files)
    (hmanifest : built.manifest = package_manifest collection_id architecture_plan_sha256
      (manifest_entries hasher (signed_files built.payload)) signer built.profile)
    (hsame : ∀ path, files.get? path = built.package_files.get? path) :
    ∃ signer_id after, presented runtime files (built_content hasher built) verifier
      before = (.ok signer_id, after) := by
  have hholds : holds_signature files = signer.isSome := by
    rw [← hfiles.holds_signature, holds_signature, holds_signature, hsame, hsame]
  cases signer with
  | none => exact ⟨none, before, presented_eq_ok_iff.mpr (.inl ⟨hholds, rfl, rfl⟩)⟩
  | some signing =>
      obtain ⟨approved, history, rfl, htrusts, hhistory⟩ := hmatches signing rfl
      have hread := read_signer_of_built hrestores signing (signing.sign built.manifest_bytes)
      have hdeclared : declares_signed (Json.sorted built.manifest) = true := by
        rw [hmanifest]
        exact manifest_declares rfl
      have happroved : Approved runtime files (built_content hasher built) approved
          ⟨signing.signer_id, signing.algorithm, signing.sign built.manifest_bytes⟩ :=
        ⟨⟨_, _, (hsame _).trans hfiles.signature, (hsame _).trans hfiles.record, hread⟩,
          htrusts.signer_id.symm, htrusts.algorithm.symm, hdeclared,
          (htrusts.verify _ _).mpr ⟨rfl, built, hhistory, rfl⟩⟩
      exact ⟨_, _, presented_eq_ok_iff.mpr (.inr ⟨approved, _, rfl, happroved, rfl, rfl⟩)⟩

-- What is built is imported, and comes out as it went in.
theorem import_of_build {package : Bytes} {receipt : KnowledgePackageReceipt}
    {verifier : Option PackageVerifier} {require_signature : Bool}
    {before : Verified} (hrestores : Restores runtime) (hlength : Hasher64 hasher)
    (hbuild : build_knowledge_package hasher runtime groups collection_id architecture_plan_sha256
      signer none blueprint_modules = .ok (package, receipt))
    (hmatches : ∀ built, build_files hasher runtime groups collection_id architecture_plan_sha256
      signer none blueprint_modules = .ok built →
        Matches hasher runtime signer verifier built)
    (hsigned : require_signature = true → signer.isSome = true) :
    ∃ built result after, build_files hasher runtime groups collection_id architecture_plan_sha256
        signer none blueprint_modules = .ok built ∧
      import_knowledge_package hasher runtime package verifier require_signature
        false before = (.ok result, after) ∧
      (∀ path, result.files.get? path = (built.payload.set "README.md" README).get? path) ∧
      Json.obj result.manifest = Json.sortKeys (.obj built.manifest) := by
  obtain ⟨built, hbuilt, hzip⟩ := built_of_build hbuild
  obtain ⟨hnormal, hfiles⟩ := files_of_built hbuilt
  obtain ⟨-, -, -, -, hmanifest, -, -⟩ := build_files_eq_ok_iff.mp hbuilt
  obtain ⟨files, hread, hsame, hdistinct⟩ := read_package_of_zip hrestores (hfiles.safe hnormal) hzip
  have hholds := holds_of_built hrestores hlength hbuilt hdistinct (fun path _ => hsame path)
  have hpresented : ∃ signer_id after, presented runtime files (built_content hasher built)
      verifier before = (.ok signer_id, after) :=
    presented_of_built hrestores (hmatches built hbuilt) hfiles hmanifest hsame
  obtain ⟨signer_id, after, hpresented⟩ := hpresented
  have hsignature : holds_signature files = signer.isSome := by
    rw [← hfiles.holds_signature, holds_signature, holds_signature, hsame, hsame]
  have hkeys : ∀ path, path ∈ files.keys ↔ path ∈
      built_paths hasher built.payload ++ allowed_support_files (holds_signature files) := by
    intro path
    rw [hsignature, List.mem_append, Dict.mem_keys_iff, hsame, ← Dict.mem_keys_iff, hfiles.keys,
      mem_built_paths]
  have hchecked := signature_checked_eq_ok_iff.mpr ⟨hkeys, fun hrefused => by
    rw [hsignature, hsigned hrefused.1] at hrefused
    exact Bool.noConfusion hrefused.2, presented_eq_ok_iff.mp hpresented⟩
  refine ⟨built, _, after, hbuilt, import_eq_ok_iff.mpr ⟨files, _, signer_id, hread, hholds, hchecked,
    rfl⟩, ?_, rfl⟩
  intro path
  have hpaths : (built_paths hasher built.payload).Nodup :=
    built_paths_perm.nodup_iff.mpr (signed_files built.payload).nodup
  refine (get?_imported hpaths path).trans ?_
  split
  · rename_i hpath
    rw [hsame, hfiles.signed path (mem_built_paths.mp hpath)]
    rfl
  · rename_i hpath
    exact ((Dict.get?_eq_none_iff _ _).mpr (fun hmem => hpath (mem_built_paths.mpr hmem))).symm

end Fidelity

section Authenticity

variable {Lineage : Type} {hasher : Hasher} {runtime : Runtime Lineage} {files : Dict String Bytes}
  {built : Built} {signer : PackageSigner}

theorem bytes_of_read_manifest {read : ReadManifest} (hread : read_manifest runtime files = .ok read) :
    files.get? "manifest.json" = some read.bytes := by
  unfold read_manifest at hread
  split at hread
  · cases hread
  rename_i manifest_bytes hbytes
  split at hread
  · cases hread
  · cases hread
  · split at hread
    · cases hread
    · cases hread
      exact hbytes
    · cases hread
  · cases hread

end Authenticity

end KnowledgeCompiler.Exporters
