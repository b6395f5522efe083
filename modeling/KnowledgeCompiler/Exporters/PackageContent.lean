import KnowledgeCompiler.Exporters.PackageImport

namespace KnowledgeCompiler.Exporters

open Lib Method

theorem refuse_if_eq_ok_iff {holds : Prop} [Decidable holds] {error : Raised} {value : Unit} :
    refuse_if holds error = .ok value ↔ ¬holds := by
  by_cases hholds : holds
  · simp [refuse_if, hholds]
  · simp [refuse_if, hholds]

theorem same_set_iff {first second : List String} :
    same_set first second = true ↔ ∀ path, path ∈ first ↔ path ∈ second := by
  simp only [same_set, Bool.and_eq_true, List.all_eq_true, decide_eq_true_eq]
  exact ⟨fun h path => ⟨h.1 path, h.2 path⟩,
    fun h => ⟨fun path => (h path).mp, fun path => (h path).mpr⟩⟩

section Spec

variable {Lineage : Type} {hasher : Hasher} {runtime : Runtime Lineage}

-- The entry of the manifest is about that path, and the file there is as it says.
def Listed (hasher : Hasher) (runtime : Runtime Lineage) (files : Dict String Bytes) (entry : Json)
    (path : String) : Prop :=
  ∃ members content, entry = .obj members ∧ safe (text_at runtime members "path") = .ok path ∧
    files.get? path = some content ∧ is_sha256_id (text_at runtime members "sha256") = true ∧
    sha256_digest hasher content = text_at runtime members "sha256" ∧
    is_length runtime (Json.get? members "size_bytes") content.length = true

theorem expected_entry_eq_ok_iff {files : Dict String Bytes} {expected next : Expected} {entry : Json} :
    expected_entry hasher runtime files expected entry = .ok next ↔
      ∃ path, Listed hasher runtime files entry path ∧ runtime.casefold path ∉ expected.folded ∧
        next = ⟨expected.paths ++ [path], expected.folded ++ [runtime.casefold path]⟩ := by
  unfold expected_entry Listed
  cases entry with
  | obj members =>
      simp only [except_bind_eq_ok_iff, refuse_if_eq_ok_iff]
      constructor
      · rintro ⟨path, hpath, -, hfolded, hread⟩
        split at hread
        · cases hread
        · rename_i content hcontent
          obtain ⟨_, hholds, hnext⟩ := except_bind_eq_ok_iff.mp hread
          have hheld := refuse_if_eq_ok_iff.mp hholds
          simp only [not_or, Bool.not_eq_false, Decidable.not_not, ne_eq] at hheld
          exact ⟨path, ⟨members, content, rfl, hpath, hcontent, hheld.1, hheld.2.1, hheld.2.2⟩, hfolded,
            (Except.ok.inj hnext).symm⟩
      · rintro ⟨path, ⟨_, content, ⟨⟩, hpath, hcontent, hid, hdigest, hlength⟩, hfolded, rfl⟩
        refine ⟨path, hpath, (), hfolded, ?_⟩
        rw [hcontent]
        exact except_bind_eq_ok_iff.mpr
          ⟨(), refuse_if_eq_ok_iff.mpr (by simp [hid, hdigest, hlength]), rfl⟩
  | _ => simp

theorem Listed.unique {files others : Dict String Bytes} {entry : Json} {path other : String}
    (hfirst : Listed hasher runtime files entry path)
    (hsecond : Listed hasher runtime others entry other) : path = other := by
  obtain ⟨members, -, rfl, hpath, -⟩ := hfirst
  obtain ⟨_, -, ⟨⟩, hother, -⟩ := hsecond
  exact Except.ok.inj (hpath.symm.trans hother)

theorem Listed.transfer {files others : Dict String Bytes} {entry : Json} {path : String}
    (hlisted : Listed hasher runtime files entry path) (hsame : others.get? path = files.get? path) :
    Listed hasher runtime others entry path := by
  obtain ⟨members, content, hentry, hpath, hcontent, hrest⟩ := hlisted
  exact ⟨members, content, hentry, hpath, hsame.trans hcontent, hrest⟩

-- The entries are gone through when each is about a path of its own, letter case aside.
theorem expected_entries_eq_ok_iff {files : Dict String Bytes} {entries : List Json}
    {expected final : Expected} (hfolded : expected.folded.Nodup) :
    entries.foldlM (expected_entry hasher runtime files) expected = .ok final ↔
      ∃ paths, List.Forall₂ (Listed hasher runtime files) entries paths ∧
        (expected.folded ++ paths.map runtime.casefold).Nodup ∧
        final = ⟨expected.paths ++ paths, expected.folded ++ paths.map runtime.casefold⟩ := by
  induction entries generalizing expected with
  | nil =>
      constructor
      · rintro ⟨⟩
        exact ⟨[], .nil, by simpa using hfolded, by simp⟩
      · rintro ⟨paths, hpaths, -, rfl⟩
        cases hpaths
        simp [pure, Except.pure]
  | cons entry rest ih =>
      rw [List.foldlM_cons, except_bind_eq_ok_iff]
      constructor
      · rintro ⟨next, hnext, hrest⟩
        obtain ⟨path, hlisted, hnew, rfl⟩ := expected_entry_eq_ok_iff.mp hnext
        have hnodup : (expected.folded ++ [runtime.casefold path]).Nodup :=
          List.nodup_append_comm.mp (List.nodup_cons.mpr ⟨hnew, hfolded⟩)
        obtain ⟨paths, hpaths, hall, rfl⟩ := (ih hnodup).mp hrest
        refine ⟨path :: paths, .cons hlisted hpaths, by simpa using hall, by simp⟩
      · rintro ⟨_, hpaths, hall, rfl⟩
        cases hpaths with
        | cons hlisted hrest =>
          rename_i path paths
          have hmoved : (expected.folded ++ [runtime.casefold path] ++ paths.map runtime.casefold).Nodup := by
            simpa using hall
          have hnodup := (List.nodup_append.mp hmoved).1
          have hnew : runtime.casefold path ∉ expected.folded :=
            (List.nodup_cons.mp (List.nodup_append_comm.mp hnodup)).1
          exact ⟨_, expected_entry_eq_ok_iff.mpr ⟨path, hlisted, hnew, rfl⟩,
            (ih hnodup).mpr ⟨paths, hrest, hmoved, by simp⟩⟩

theorem forM_eq_ok_iff {items : List (String × List String)}
    {check : String × List String → Except Raised Unit} {value : Unit} :
    items.forM check = .ok value ↔ ∀ item ∈ items, check item = .ok () := by
  induction items with
  | nil => simp [List.forM, pure, Except.pure]
  | cons item rest ih =>
      rw [List.forM_eq_forM, List.forM_cons, except_bind_eq_ok_iff, List.forall_mem_cons,
        ← List.forM_eq_forM, ih]
      constructor
      · rintro ⟨⟨⟩, hitem, hrest⟩
        exact ⟨hitem, hrest⟩
      · rintro ⟨hitem, hrest⟩
        exact ⟨(), hitem, hrest⟩

-- What a package has to hold, signature aside, to be read as that content.
structure Holds (hasher : Hasher) (runtime : Runtime Lineage) (files : Dict String Bytes)
    (require_semantic_profile : Bool) (content : Content Lineage) : Prop where
  manifest : ∃ entries collection_id, read_manifest runtime files =
      .ok ⟨content.manifest_bytes, content.manifest, entries⟩ ∧
    identity_checked runtime content.manifest = .ok collection_id ∧
    List.Forall₂ (Listed hasher runtime files) entries content.expected_paths ∧
    files.get? "checksums.sha256" =
      some (checksums hasher (entries.map (ledger_line runtime)) content.manifest_bytes) ∧
    semantics_checked hasher runtime files collection_id content.manifest require_semantic_profile =
      .ok content.semantics
  folded : (content.expected_paths.map runtime.casefold).Nodup
  roots : roots_present content.expected_paths = true
  profiles : ∀ profile ∈ _REQUIRED_PROFILE_FILES, profile_present content.expected_paths profile = true

theorem entries_eq_ok_iff {files : Dict String Bytes} {entries : List Json} {final : Expected} :
    entries.foldlM (expected_entry hasher runtime files) ⟨[], []⟩ = .ok final ↔
      List.Forall₂ (Listed hasher runtime files) entries final.paths ∧
        (final.paths.map runtime.casefold).Nodup ∧ final.folded = final.paths.map runtime.casefold := by
  have hnodup : (Expected.folded ⟨[], []⟩).Nodup := List.nodup_nil
  rw [expected_entries_eq_ok_iff hnodup]
  simp only [List.nil_append]
  constructor
  · rintro ⟨paths, hpaths, hfolded, rfl⟩
    exact ⟨hpaths, hfolded, rfl⟩
  · rintro ⟨hpaths, hfolded, hfinal⟩
    exact ⟨final.paths, hpaths, hfolded, by rw [← hfinal]⟩

theorem content_checked_eq_ok_iff {files : Dict String Bytes} {require_semantic_profile : Bool}
    {content : Content Lineage} :
    content_checked hasher runtime files require_semantic_profile = .ok content ↔
      Holds hasher runtime files require_semantic_profile content := by
  simp only [content_checked, except_bind_eq_ok_iff, refuse_if_eq_ok_iff, forM_eq_ok_iff,
    entries_eq_ok_iff, Bool.not_eq_false, Decidable.not_not, ne_eq, exists_const]
  constructor
  · rintro ⟨read, hread, collection_id, hidentity, expected, ⟨hpaths, hfolded, -⟩, hledger, hroots,
      hprofiles, semantics, hsemantics, ⟨⟩⟩
    exact ⟨⟨read.entries, collection_id, hread, hidentity, hpaths, hledger, hsemantics⟩, hfolded, hroots,
      hprofiles⟩
  · rintro ⟨⟨entries, collection_id, hread, hidentity, hpaths, hledger, hsemantics⟩, hfolded, hroots,
      hprofiles⟩
    exact ⟨_, hread, collection_id, hidentity, ⟨content.expected_paths, content.expected_paths.map runtime.casefold⟩,
      ⟨hpaths, hfolded, rfl⟩, hledger, hroots, hprofiles, content.semantics, hsemantics, rfl⟩

end Spec

end KnowledgeCompiler.Exporters
