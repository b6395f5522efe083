import KnowledgeCompiler.Exporters.PackageContent

namespace KnowledgeCompiler.Exporters

open Lib Method

section Signature

variable {Lineage : Type} {hasher : Hasher} {runtime : Runtime Lineage}

-- The verifier has let the signature file pass, and the signer record names it.
structure Approved (runtime : Runtime Lineage) (files : Dict String Bytes) (content : Content Lineage)
    (verifier : PackageVerifier) (record : SignerRecord) : Prop where
  read : ∃ signature_file signer_file, files.get? SIGNATURE_PATH = some signature_file ∧
    files.get? SIGNER_RECORD_PATH = some signer_file ∧
    read_signer runtime signature_file signer_file = .ok record
  signer_id : record.signer_id = verifier.signer_id
  algorithm : record.algorithm = verifier.algorithm
  declared : declares_signed content.manifest = true
  verified : verifier.verify record.signature content.manifest_bytes = .ok ()

theorem signature_verified_eq_ok_iff {content : Content Lineage} {signature_file signer_file : Bytes}
    {verifier : PackageVerifier} {signer_id : Option String} {before after : Verified} :
    signature_verified runtime content signature_file signer_file verifier before =
        (.ok signer_id, after) ↔
      ∃ record, read_signer runtime signature_file signer_file = .ok record ∧
        record.signer_id = verifier.signer_id ∧ record.algorithm = verifier.algorithm ∧
        declares_signed content.manifest = true ∧
        verifier.verify record.signature content.manifest_bytes = .ok () ∧
        signer_id = some record.signer_id ∧
        after = before ++ [(record.signature, content.manifest_bytes)] := by
  simp only [signature_verified, bind_eq_ok_iff, check_eq_ok_iff, require_eq_ok_iff, assign_eq_ok_iff,
    returns_eq_ok_iff]
  constructor
  · rintro ⟨record, _, ⟨hread, rfl⟩, -, _, ⟨⟨hid, halgorithm⟩, rfl⟩, -, _, ⟨hdeclared, rfl⟩, ⟨⟩, _,
      ⟨hverified, rfl⟩, -, _, rfl, rfl, rfl⟩
    exact ⟨record, hread, hid, halgorithm, hdeclared, hverified, rfl, rfl⟩
  · rintro ⟨record, hread, hid, halgorithm, hdeclared, hverified, rfl, rfl⟩
    exact ⟨record, _, ⟨hread, rfl⟩, (), _, ⟨⟨hid, halgorithm⟩, rfl⟩, (), _, ⟨hdeclared, rfl⟩, (), _,
      ⟨hverified, rfl⟩, (), _, rfl, rfl, rfl⟩

theorem Approved.holds_signature {files : Dict String Bytes} {content : Content Lineage}
    {verifier : PackageVerifier} {record : SignerRecord}
    (happroved : Approved runtime files content verifier record) : holds_signature files = true := by
  obtain ⟨signature_file, signer_file, hsignature, hsigner, -⟩ := happroved.read
  rw [Exporters.holds_signature, hsignature, hsigner]
  rfl

-- How the signature section ends, with both signature files and without.
theorem presented_eq_ok_iff {files : Dict String Bytes} {content : Content Lineage}
    {verifier : Option PackageVerifier} {signer_id : Option String} {before after : Verified} :
    presented runtime files content verifier before = (.ok signer_id, after) ↔
      (holds_signature files = false ∧ signer_id = none ∧ after = before) ∨
        ∃ approved record, verifier = some approved ∧ Approved runtime files content approved record ∧
          signer_id = some record.signer_id ∧
          after = before ++ [(record.signature, content.manifest_bytes)] := by
  by_cases hholds : holds_signature files = true
  · have hboth := hholds
    rw [holds_signature, Bool.and_eq_true, Option.isSome_iff_exists, Option.isSome_iff_exists] at hboth
    obtain ⟨⟨signature_file, hsignature⟩, signer_file, hsigner⟩ := hboth
    rw [presented, hsignature, hsigner]
    constructor
    · intro hrun
      cases verifier with
      | none => exact absurd hrun raises_ne_ok
      | some approved =>
          obtain ⟨record, hread, hid, halgorithm, hdeclared, hverified, hsigned, hafter⟩ :=
            signature_verified_eq_ok_iff.mp hrun
          exact .inr ⟨approved, record, rfl, ⟨⟨_, _, hsignature, hsigner, hread⟩, hid, halgorithm,
            hdeclared, hverified⟩, hsigned, hafter⟩
    · rintro (⟨hnone, -, -⟩ | ⟨approved, record, rfl, happroved, rfl, rfl⟩)
      · rw [hholds] at hnone
        cases hnone
      · obtain ⟨found_signature, found_signer, hfound, hrecord, hread⟩ := happroved.read
        rw [hsignature] at hfound
        rw [hsigner] at hrecord
        cases hfound
        cases hrecord
        exact signature_verified_eq_ok_iff.mpr ⟨record, hread, happroved.signer_id,
          happroved.algorithm, happroved.declared, happroved.verified, rfl, rfl⟩
  · have hreturns : presented runtime files content verifier = returns none := by
      unfold presented
      split
      · rename_i hsignature hsigner
        exact absurd (by rw [holds_signature, hsignature, hsigner]; rfl) hholds
      · rfl
    rw [hreturns, returns_eq_ok_iff]
    constructor
    · exact fun hend => .inl ⟨Bool.eq_false_iff.mpr hholds, hend.1, hend.2⟩
    · rintro (⟨-, hsigner, hafter⟩ | ⟨approved, record, -, happroved, -, -⟩)
      · exact ⟨hsigner, hafter⟩
      · exact absurd happroved.holds_signature hholds

theorem signature_checked_eq_ok_iff {files : Dict String Bytes} {content : Content Lineage}
    {verifier : Option PackageVerifier} {require_signature : Bool} {signer_id : Option String}
    {before after : Verified} :
    signature_checked runtime files content verifier require_signature before =
        (.ok signer_id, after) ↔
      (∀ path, path ∈ files.keys ↔
        path ∈ content.expected_paths ++ allowed_support_files (holds_signature files)) ∧
      ¬(require_signature = true ∧ holds_signature files = false) ∧
      ((holds_signature files = false ∧ signer_id = none ∧ after = before) ∨
        ∃ approved record, verifier = some approved ∧ Approved runtime files content approved record ∧
          signer_id = some record.signer_id ∧
          after = before ++ [(record.signature, content.manifest_bytes)]) := by
  simp only [signature_checked, bind_eq_ok_iff, require_eq_ok_iff, same_set_iff]
  constructor
  · rintro ⟨-, _, ⟨hsame, rfl⟩, -, _, ⟨hrequired, rfl⟩, hrun⟩
    exact ⟨hsame, hrequired, presented_eq_ok_iff.mp hrun⟩
  · rintro ⟨hsame, hrequired, hend⟩
    exact ⟨(), _, ⟨hsame, rfl⟩, (), _, ⟨hrequired, rfl⟩, presented_eq_ok_iff.mpr hend⟩

theorem import_eq_ok_iff {package : Bytes} {verifier : Option PackageVerifier}
    {require_signature require_semantic_profile : Bool} {result : ImportedKnowledgePackage Lineage}
    {before after : Verified} :
    import_knowledge_package hasher runtime package verifier require_signature require_semantic_profile
        before = (.ok result, after) ↔
      ∃ files content signer_id, read_package runtime package = .ok files ∧
        Holds hasher runtime files require_semantic_profile content ∧
        signature_checked runtime files content verifier require_signature before =
          (.ok signer_id, after) ∧
        result = imported hasher package files content signer_id := by
  simp only [import_knowledge_package, bind_eq_ok_iff, check_eq_ok_iff, returns_eq_ok_iff,
    content_checked_eq_ok_iff]
  constructor
  · rintro ⟨files, _, ⟨hread, rfl⟩, content, _, ⟨hholds, rfl⟩, signer_id, _, hsigned, rfl, rfl⟩
    exact ⟨files, content, signer_id, hread, hholds, hsigned, rfl⟩
  · rintro ⟨files, content, signer_id, hread, hholds, hsigned, rfl⟩
    exact ⟨files, _, ⟨hread, rfl⟩, content, _, ⟨hholds, rfl⟩, signer_id, _, hsigned, rfl, rfl⟩

end Signature

section Stripping

variable {Lineage : Type} {hasher : Hasher} {runtime : Runtime Lineage}

def signature_paths : List String := [SIGNATURE_PATH, SIGNER_RECORD_PATH]

-- The same files without the two of the signature.
def Stripped (files stripped : Dict String Bytes) : Prop :=
  ∀ path, stripped.get? path = if path ∈ signature_paths then none else files.get? path

variable {files stripped : Dict String Bytes} {content : Content Lineage}
  {require_semantic_profile : Bool}

theorem Stripped.get? (hstripped : Stripped files stripped) {path : String}
    (hpath : path ∉ signature_paths) : stripped.get? path = files.get? path := by
  rw [hstripped path, if_neg hpath]

theorem Stripped.holds_signature (hstripped : Stripped files stripped) :
    holds_signature stripped = false := by
  rw [Exporters.holds_signature, hstripped, if_pos (by decide)]
  rfl

theorem Stripped.mem_keys (hstripped : Stripped files stripped) (path : String) :
    path ∈ stripped.keys ↔ path ∈ files.keys ∧ path ∉ signature_paths := by
  rw [Dict.mem_keys_iff, Dict.mem_keys_iff, hstripped path]
  split
  · rename_i hpath
    simp [hpath]
  · rename_i hpath
    simp [hpath]

theorem mem_support_iff (signed : Bool) {path : String} (hpath : path ∉ signature_paths) :
    path ∈ allowed_support_files signed ↔ path ∈ allowed_support_files false := by
  cases signed with
  | false => exact Iff.rfl
  | true => exact List.mem_append.trans (or_iff_left hpath)

-- What is left are the listed files and the support files of an unsigned package.
theorem Stripped.keys_iff (hstripped : Stripped files stripped) {expected : List String} {signed : Bool}
    (hkeys : ∀ path, path ∈ files.keys ↔ path ∈ expected ++ allowed_support_files signed)
    (hplain : ∀ path ∈ expected, path ∉ signature_paths) (path : String) :
    path ∈ stripped.keys ↔
      path ∈ expected ++ allowed_support_files (Exporters.holds_signature stripped) := by
  rw [hstripped.mem_keys, hkeys, hstripped.holds_signature, List.mem_append, List.mem_append]
  constructor
  · rintro ⟨hpath, hnot⟩
    exact hpath.imp_right (mem_support_iff signed hnot).mp
  · rintro (hpath | hpath)
    · exact ⟨.inl hpath, hplain path hpath⟩
    · have hall : ∀ path ∈ allowed_support_files false, path ∉ signature_paths := by decide
      have hnot := hall path hpath
      exact ⟨.inr ((mem_support_iff signed hnot).mpr hpath), hnot⟩

theorem read_manifest_congr {others : Dict String Bytes}
    (hsame : others.get? "manifest.json" = files.get? "manifest.json") :
    read_manifest runtime others = read_manifest runtime files := by
  rw [read_manifest, hsame, ← read_manifest]

theorem semantics_checked_congr {others : Dict String Bytes} {collection_id : String}
    {manifest : List (String × Json)}
    (hsame : others.get? CANONICAL_MODEL_PATH = files.get? CANONICAL_MODEL_PATH) :
    semantics_checked hasher runtime others collection_id manifest require_semantic_profile =
      semantics_checked hasher runtime files collection_id manifest require_semantic_profile := by
  have hread : ∀ raw, read_semantics runtime others raw = read_semantics runtime files raw := by
    intro raw
    rw [read_semantics, hsame, ← read_semantics]
  simp only [semantics_checked, profile_checked, hread]

theorem forall₂_listed_congr {others : Dict String Bytes} {entries : List Json} {paths : List String}
    (hlisted : List.Forall₂ (Listed hasher runtime files) entries paths)
    (hsame : ∀ path ∈ paths, others.get? path = files.get? path) :
    List.Forall₂ (Listed hasher runtime others) entries paths := by
  induction hlisted with
  | nil => exact .nil
  | cons hentry hrest ih =>
      obtain ⟨hpath, hpaths⟩ := List.forall_mem_cons.mp hsame
      exact .cons (hentry.transfer hpath) (ih hpaths)

theorem forall₂_listed_unique {others : Dict String Bytes} {entries : List Json}
    {paths found : List String} (hlisted : List.Forall₂ (Listed hasher runtime files) entries paths)
    (hfound : List.Forall₂ (Listed hasher runtime others) entries found) : found = paths := by
  induction hlisted generalizing found with
  | nil =>
      cases hfound
      rfl
  | cons hentry hrest ih =>
      cases hfound with
      | cons hother hothers => rw [hother.unique hentry, ih hothers]

-- The content is the same without the signature, unless the manifest lists a part of it.
theorem Holds.strip (hholds : Holds hasher runtime files require_semantic_profile content)
    (hstripped : Stripped files stripped)
    (hunlisted : ∀ path ∈ content.expected_paths, path ∉ signature_paths) :
    Holds hasher runtime stripped require_semantic_profile content := by
  obtain ⟨entries, collection_id, hread, hidentity, hlisted, hledger, hsemantics⟩ := hholds.manifest
  refine ⟨⟨entries, collection_id, ?_, hidentity, ?_, ?_, ?_⟩, hholds.folded, hholds.roots,
    hholds.profiles⟩
  · rw [read_manifest_congr (hstripped.get? (by decide)), hread]
  · exact forall₂_listed_congr hlisted (fun path hpath => hstripped.get? (hunlisted path hpath))
  · rw [hstripped.get? (by decide), hledger]
  · rw [semantics_checked_congr (hstripped.get? (by decide)), hsemantics]

theorem Holds.of_stripped {found : Content Lineage}
    (hholds : Holds hasher runtime files require_semantic_profile content)
    (hstripped : Stripped files stripped)
    (hfound : Holds hasher runtime stripped require_semantic_profile found) :
    ∀ path ∈ content.expected_paths, path ∉ signature_paths := by
  obtain ⟨entries, -, hread, -, hlisted, -, -⟩ := hholds.manifest
  obtain ⟨others, -, hother, -, hrest, -, -⟩ := hfound.manifest
  rw [read_manifest_congr (hstripped.get? (by decide)), hread] at hother
  have hsame := Except.ok.inj hother
  simp only [ReadManifest.mk.injEq] at hsame
  obtain ⟨-, -, rfl⟩ := hsame
  have hpaths := forall₂_listed_unique hlisted hrest
  intro path hpath hsignature
  rw [← hpaths] at hpath
  obtain ⟨entry, -, members, stored, -, -, hstored, -⟩ :
      ∃ entry ∈ entries, Listed hasher runtime stripped entry path := by
    obtain ⟨hlength, hall⟩ := List.forall₂_iff_get.mp hrest
    obtain ⟨i, rfl⟩ := List.mem_iff_get.mp hpath
    have hi : i < entries.length := hlength.symm ▸ i.isLt
    exact ⟨_, List.get_mem entries ⟨i, hi⟩, hall i hi i.isLt⟩
  rw [hstripped path, if_pos hsignature] at hstored
  cases hstored

end Stripping

end KnowledgeCompiler.Exporters
