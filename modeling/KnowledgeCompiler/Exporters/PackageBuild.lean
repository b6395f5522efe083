import KnowledgeCompiler.Exporters.PackageContent

namespace KnowledgeCompiler.Exporters

open Lib Method

section Paths

-- A path below that root, spelled as it is kept.
def Rooted (root path : String) : Prop :=
  ∃ names, SafeNames (root.toList :: names) ∧ names ≠ [] ∧
    path = String.ofList (joined (root.toList :: names))

theorem safe_eq_ok_iff {path found : String} :
    safe path = .ok found ↔ safe_relative_path path = .ok found := by
  rw [safe, mapError_eq_ok_iff]

theorem root_plain {root : String} (hroot : root ∈ _REQUIRED_ROOTS) :
    root.toList ≠ [] ∧ root.toList ≠ ['.'] ∧ root.toList ≠ Posix.up ∧ '/' ∉ root.toList ∧
      '\\' ∉ root.toList ∧ ':' ∉ root.toList := by
  have h : ∀ root ∈ _REQUIRED_ROOTS, root.toList ≠ [] ∧ root.toList ≠ ['.'] ∧
      root.toList ≠ Posix.up ∧ '/' ∉ root.toList ∧ '\\' ∉ root.toList ∧ ':' ∉ root.toList := by
    decide
  exact h root hroot

theorem rooted_of_safe {root given relative path : String} (hroot : root ∈ _REQUIRED_ROOTS)
    (hrelative : safe given = .ok relative) (hpath : safe (root ++ "/" ++ relative) = .ok path) :
    Rooted root path ∧ path = root ++ "/" ++ relative := by
  obtain ⟨names, hnames, rfl⟩ := exists_names (safe_eq_ok_iff.mp hrelative)
  obtain ⟨hne, hdot, hup, hslash, hback, hcolon⟩ := root_plain hroot
  obtain ⟨second, others, rfl⟩ := List.exists_cons_of_ne_nil hnames.nonempty
  have hsafe : SafeNames (root.toList :: second :: others) := by
    refine ⟨List.cons_ne_nil _ _, ?_, ?_⟩
    · rw [List.forall_mem_cons]
      exact ⟨⟨hne, hdot, hup, hslash, hback⟩, hnames.plain⟩
    · rintro name ⟨⟩
      exact hcolon
  have hspelled : root ++ "/" ++ String.ofList (joined (second :: others)) =
      String.ofList (joined (root.toList :: second :: others)) := by
    rw [joined_cons, ← String.toList_inj]
    simp
  rw [hspelled, safe_eq_ok_iff, safe_joined hsafe] at hpath
  cases hpath
  exact ⟨⟨_, hsafe, List.cons_ne_nil _ _, rfl⟩, hspelled.symm⟩

variable {root path : String}

theorem Rooted.safe (hrooted : Rooted root path) : safe path = .ok path := by
  obtain ⟨names, hnames, -, rfl⟩ := hrooted
  exact safe_eq_ok_iff.mpr (safe_joined hnames)

theorem Rooted.under (hrooted : Rooted root path) : under root path = true := by
  obtain ⟨names, hnames, hne, rfl⟩ := hrooted
  obtain ⟨second, others, rfl⟩ := List.exists_cons_of_ne_nil hne
  rw [Exporters.under, joined_cons, List.isPrefixOf_iff_prefix]
  simp

theorem Rooted.parts (hrooted : Rooted root path) : (Posix.parts path.toList).head? = some root.toList := by
  obtain ⟨names, hnames, -, rfl⟩ := hrooted
  rw [String.toList_ofList, parts_joined hnames.names_plain]
  rfl

-- The files that a package has beside its payload.
def support_files : List String :=
  ["README.md", "checksums.sha256", "manifest.json", SIGNATURE_PATH, SIGNER_RECORD_PATH]

theorem Rooted.notMem_support (hroot : root ∈ _REQUIRED_ROOTS) (hrooted : Rooted root path) :
    path ∉ support_files := by
  intro hpath
  have h : ∀ path ∈ support_files, ∀ root ∈ _REQUIRED_ROOTS,
      (Posix.parts path.toList).head? ≠ some root.toList := by decide +kernel
  exact h path hpath root hroot hrooted.parts

theorem safe_readme : safe "README.md" = .ok "README.md" := by decide +kernel

end Paths

section Payload

variable {Lineage : Type} {runtime : Runtime Lineage}

theorem normalized_entry_eq_ok_iff {normalized next : Normalized} {entry : String × String × Bytes} :
    normalized_entry runtime normalized entry = .ok next ↔
      ∃ relative path, safe entry.2.1 = .ok relative ∧ safe (entry.1 ++ "/" ++ relative) = .ok path ∧
        runtime.casefold path ∉ normalized.folded ∧
        next = ⟨normalized.payload.set path entry.2.2,
          normalized.folded ++ [runtime.casefold path]⟩ := by
  simp only [normalized_entry, except_bind_eq_ok_iff]
  constructor
  · rintro ⟨relative, hrelative, path, hpath, hmade⟩
    split at hmade
    · cases hmade
    · rename_i hnew
      exact ⟨relative, path, hrelative, hpath, hnew, (Except.ok.inj hmade).symm⟩
  · rintro ⟨relative, path, hrelative, hpath, hnew, rfl⟩
    exact ⟨relative, hrelative, path, hpath, if_neg hnew⟩

-- What holds of the payload while it is collected.
structure Collected (runtime : Runtime Lineage) (normalized : Normalized) : Prop where
  rooted : ∀ path ∈ normalized.payload.keys, ∃ root ∈ _REQUIRED_ROOTS, Rooted root path
  folded : normalized.folded = normalized.payload.keys.map runtime.casefold
  distinct : normalized.folded.Nodup

theorem Collected.next {normalized next : Normalized} {entry : String × String × Bytes}
    (hcollected : Collected runtime normalized) (hroot : entry.1 ∈ _REQUIRED_ROOTS)
    (hnext : normalized_entry runtime normalized entry = .ok next) : Collected runtime next := by
  obtain ⟨relative, path, hrelative, hpath, hnew, rfl⟩ := normalized_entry_eq_ok_iff.mp hnext
  have hkey : path ∉ normalized.payload.keys := by
    intro hmem
    rw [hcollected.folded] at hnew
    exact hnew (List.mem_map_of_mem hmem)
  have hkeys := Dict.keys_set_of_not_mem normalized.payload entry.2.2 hkey
  refine ⟨?_, ?_, ?_⟩
  · intro other hother
    rw [hkeys, List.mem_append, List.mem_singleton] at hother
    rcases hother with hold | rfl
    · exact hcollected.rooted other hold
    · exact ⟨entry.1, hroot, (rooted_of_safe hroot hrelative hpath).1⟩
  · rw [hkeys, hcollected.folded, List.map_append, List.map_singleton]
  · exact List.nodup_append_comm.mp (List.nodup_cons.mpr ⟨hnew, hcollected.distinct⟩)

theorem entries_kept {entries : List (String × String × Bytes)} {normalized final : Normalized}
    (hfinal : entries.foldlM (normalized_entry runtime) normalized = .ok final) :
    ∀ path ∈ normalized.payload.keys, path ∈ final.payload.keys := by
  induction entries generalizing normalized with
  | nil =>
      cases hfinal
      exact fun path hpath => hpath
  | cons entry rest ih =>
      rw [List.foldlM_cons, except_bind_eq_ok_iff] at hfinal
      obtain ⟨next, hnext, hrest⟩ := hfinal
      obtain ⟨relative, path, -, -, -, rfl⟩ := normalized_entry_eq_ok_iff.mp hnext
      exact fun other hother => ih hrest other ((Dict.mem_keys_set _ _ _ _).mpr (.inr hother))

-- Every entry is in the payload, below its root.
theorem entries_covered {entries : List (String × String × Bytes)} {normalized final : Normalized}
    (hfinal : entries.foldlM (normalized_entry runtime) normalized = .ok final) :
    ∀ entry ∈ entries, ∃ relative path, safe entry.2.1 = .ok relative ∧
      safe (entry.1 ++ "/" ++ relative) = .ok path ∧ path ∈ final.payload.keys := by
  induction entries generalizing normalized with
  | nil => exact fun entry hentry => absurd hentry List.not_mem_nil
  | cons entry rest ih =>
      rw [List.foldlM_cons, except_bind_eq_ok_iff] at hfinal
      obtain ⟨next, hnext, hrest⟩ := hfinal
      rw [List.forall_mem_cons]
      refine ⟨?_, ih hrest⟩
      obtain ⟨relative, path, hrelative, hpath, -, rfl⟩ := normalized_entry_eq_ok_iff.mp hnext
      exact ⟨relative, path, hrelative, hpath,
        entries_kept hrest path ((Dict.mem_keys_set _ _ _ _).mpr (.inl rfl))⟩

theorem entries_collected {entries : List (String × String × Bytes)} {normalized final : Normalized}
    (hcollected : Collected runtime normalized) (hroots : ∀ entry ∈ entries, entry.1 ∈ _REQUIRED_ROOTS)
    (hfinal : entries.foldlM (normalized_entry runtime) normalized = .ok final) :
    Collected runtime final := by
  induction entries generalizing normalized with
  | nil =>
      cases hfinal
      exact hcollected
  | cons entry rest ih =>
      rw [List.foldlM_cons, except_bind_eq_ok_iff] at hfinal
      obtain ⟨next, hnext, hrest⟩ := hfinal
      obtain ⟨hroot, hothers⟩ := List.forall_mem_cons.mp hroots
      exact ih (hcollected.next hroot hnext) hothers hrest

-- A payload as the builder makes it.
structure NormalPayload (payload : Dict String Bytes) : Prop where
  rooted : ∀ path ∈ payload.keys, ∃ root ∈ _REQUIRED_ROOTS, Rooted root path
  roots : ∀ root ∈ _REQUIRED_ROOTS, ∃ path ∈ payload.keys, under root path = true
  profiles : ∀ profile ∈ _REQUIRED_PROFILE_FILES, ∀ name ∈ profile.2,
    profile.1 ++ "/" ++ name ∈ payload.keys

theorem profile_names_safe : ∀ profile ∈ _REQUIRED_PROFILE_FILES, profile.1 ∈ _REQUIRED_ROOTS ∧
    ∀ name ∈ profile.2, safe name = .ok name := by decide +kernel

theorem normal_of_normalize {groups : Dict String (Dict String Bytes)} {payload : Dict String Bytes}
    (hpayload : _normalize_payload runtime groups = .ok payload) : NormalPayload payload := by
  simp only [_normalize_payload, except_bind_eq_ok_iff, refuse_if_eq_ok_iff, forM_eq_ok_iff,
    exists_const, Decidable.not_not, ne_eq] at hpayload
  obtain ⟨hmissing, -, hprofiles, final, hfinal, hmade⟩ := hpayload
  cases hmade
  have hcovered := entries_covered hfinal
  have hroots : ∀ entry ∈ _REQUIRED_ROOTS.flatMap (fun root => (group_files groups root).map (root, ·)),
      entry.1 ∈ _REQUIRED_ROOTS := by
    intro entry hentry
    obtain ⟨root, hroot, hmem⟩ := List.mem_flatMap.mp hentry
    obtain ⟨file, -, rfl⟩ := List.mem_map.mp hmem
    exact hroot
  have hempty : Collected runtime { payload := .empty, folded := [] } :=
    ⟨fun path hpath => absurd hpath List.not_mem_nil, rfl, List.nodup_nil⟩
  have hcollected := entries_collected hempty hroots hfinal
  have hentries : ∀ root ∈ _REQUIRED_ROOTS, ∀ file ∈ group_files groups root,
      (root, file) ∈ _REQUIRED_ROOTS.flatMap (fun root => (group_files groups root).map (root, ·)) :=
    fun root hroot file hfile => List.mem_flatMap.mpr ⟨root, hroot, List.mem_map_of_mem hfile⟩
  refine ⟨hcollected.rooted, ?_, ?_⟩
  · intro root hroot
    have hsome : group_files groups root ≠ [] := by
      intro hnone
      have hmem : root ∈ _REQUIRED_ROOTS.filter (fun root => group_files groups root = []) :=
        List.mem_filter.mpr ⟨hroot, by simpa using hnone⟩
      rw [hmissing] at hmem
      cases hmem
    obtain ⟨file, files, hfiles⟩ := List.exists_cons_of_ne_nil hsome
    obtain ⟨relative, path, hrelative, hpath, hmem⟩ :=
      hcovered _ (hentries root hroot file (hfiles ▸ List.mem_cons_self))
    exact ⟨path, hmem, (rooted_of_safe hroot hrelative hpath).1.under⟩
  · intro profile hprofile name hname
    obtain ⟨hroot, hsafe⟩ := profile_names_safe profile hprofile
    have hpresent : name ∈ (group_files groups profile.1).map Prod.fst := by
      by_contra habsent
      have hnone : missing_files groups profile = [] := hprofiles profile hprofile
      have hmem : name ∈ missing_files groups profile :=
        List.mem_filter.mpr ⟨hname, by simpa using habsent⟩
      rw [hnone] at hmem
      cases hmem
    obtain ⟨file, hfile, rfl⟩ := List.mem_map.mp hpresent
    obtain ⟨relative, path, hrelative, hpath, hmem⟩ := hcovered _ (hentries profile.1 hroot file hfile)
    have hsame : file.1 = relative := Except.ok.inj ((hsafe file.1 hname).symm.trans hrelative)
    have hspelled := (rooted_of_safe hroot hrelative hpath).2
    rw [hsame, ← hspelled]
    exact hmem

end Payload

-- What the archive library and `json.loads` are relied on for: an archive gives back what
-- was stored in it, and a few levels of nesting are read.
structure Restores {Lineage : Type} (runtime : Runtime Lineage) : Prop where
  archive : ∀ entries package, runtime.zip entries = some package →
    runtime.unzip package = .ok (entries.map (fun entry => (entry.1, .ok entry.2)))
  within : Json.Within 6 runtime.too_deep

section Archive

variable {Lineage : Type} {hasher : Hasher} {runtime : Runtime Lineage}

theorem archived_eq_ok {entries archive final : List (String × Bytes)}
    (hsafe : ∀ entry ∈ entries, safe entry.1 = .ok entry.1)
    (harchive : (archive.map (fun entry => runtime.casefold entry.1)).Nodup)
    (hfinal : entries.foldlM (archived runtime) archive = .ok final) :
    final = archive ++ entries ∧ (final.map (fun entry => runtime.casefold entry.1)).Nodup := by
  induction entries generalizing archive with
  | nil =>
      cases hfinal
      exact ⟨(List.append_nil _).symm, harchive⟩
  | cons entry rest ih =>
      obtain ⟨hentry, hrest⟩ := List.forall_mem_cons.mp hsafe
      rw [List.foldlM_cons, except_bind_eq_ok_iff] at hfinal
      obtain ⟨next, hnext, hlast⟩ := hfinal
      rw [archived, hentry] at hnext
      change (if _ then _ else _) = _ at hnext
      split at hnext
      · cases hnext
      · rename_i hnew
        cases hnext
        have hdistinct : ((archive ++ [(entry.1, entry.2)]).map
            (fun entry => runtime.casefold entry.1)).Nodup := by
          rw [List.map_append]
          exact List.nodup_append_comm.mp (List.nodup_cons.mpr ⟨hnew, harchive⟩)
        obtain ⟨hfinal, hnodup⟩ := ih hrest hdistinct hlast
        exact ⟨by rw [hfinal]; simp, hnodup⟩

theorem read_files {entries : List (String × Bytes)}
    (hsafe : ∀ entry ∈ entries, safe entry.1 = .ok entry.1) (files : Dict String Bytes) :
    (entries.map (fun entry => (entry.1, Except.ok entry.2))).foldlM read_file files =
      .ok (entries.foldl (fun files entry => files.set entry.1 entry.2) files) := by
  induction entries generalizing files with
  | nil => rfl
  | cons entry rest ih =>
      obtain ⟨hentry, hrest⟩ := List.forall_mem_cons.mp hsafe
      have hread : read_file files (entry.1, .ok entry.2) = .ok (files.set entry.1 entry.2) := by
        rw [read_file, hentry]
        rfl
      rw [List.map_cons, List.foldlM_cons, hread]
      exact ih hrest _

theorem read_archive {files : Dict String Bytes} {package : Bytes} (hrestores : Restores runtime)
    (hsafe : ∀ path ∈ files.keys, safe path = .ok path)
    (hdistinct : (files.keys.map runtime.casefold).Nodup)
    (hzip : runtime.zip (ordered files) = some package) :
    ∃ found, read_package runtime package = .ok found ∧ ∀ path, found.get? path = files.get? path := by
  have hperm : (ordered files).Perm files.entries := List.perm_insertionSort _ _
  have hentries : ∀ entry ∈ ordered files, safe entry.1 = .ok entry.1 := fun entry hentry =>
    hsafe entry.1 (List.mem_map_of_mem (hperm.mem_iff.mp hentry))
  have hkeys : ((ordered files).map (fun entry => runtime.casefold entry.1)).Perm
      (files.keys.map runtime.casefold) := by
    rw [Dict.keys, List.map_map]
    exact hperm.map _
  have hnames : (((ordered files).map (fun entry => (entry.1, (.ok entry.2 : Except ZipRaised Bytes)))).map
      (fun entry => runtime.casefold entry.1)).Nodup := by
    rw [List.map_map]
    exact hkeys.nodup_iff.mpr hdistinct
  have hpass : refuse_if (¬(((ordered files).map
      (fun entry => (entry.1, (.ok entry.2 : Except ZipRaised Bytes)))).map
        (fun entry => runtime.casefold entry.1)).Nodup)
        (.package_error "package contains duplicate paths") = .ok () :=
    if_neg (not_not_intro hnames)
  refine ⟨Dict.ofPairs (ordered files), ?_, Dict.get?_ofPairs_of_perm hperm⟩
  rw [read_package, hrestores.archive _ _ hzip]
  exact (congrArg (· >>= fun _ => _) hpass).trans (read_files hentries .empty)

-- What is archived is read from the archive.
theorem read_package_of_zip {files : Dict String Bytes} {package : Bytes}
    (hrestores : Restores runtime) (hsafe : ∀ path ∈ files.keys, safe path = .ok path)
    (hzip : deterministic_zip runtime files = .ok package) :
    ∃ found, read_package runtime package = .ok found ∧ (∀ path, found.get? path = files.get? path) ∧
      (files.keys.map runtime.casefold).Nodup := by
  have hperm : (ordered files).Perm files.entries := List.perm_insertionSort _ _
  rw [deterministic_zip, except_bind_eq_ok_iff] at hzip
  obtain ⟨archive, harchive, hpackage⟩ := hzip
  have hentries : ∀ entry ∈ ordered files, safe entry.1 = .ok entry.1 := fun entry hentry =>
    hsafe entry.1 (List.mem_map_of_mem (hperm.mem_iff.mp hentry))
  have hnone : (([] : List (String × Bytes)).map (fun entry => runtime.casefold entry.1)).Nodup :=
    List.nodup_nil
  obtain ⟨rfl, hnodup⟩ := archived_eq_ok hentries hnone harchive
  rw [List.nil_append] at hpackage hnodup
  have hstored : runtime.zip (ordered files) = some package := by
    split at hpackage
    · rename_i found hfound
      cases hpackage
      exact hfound
    · cases hpackage
  have hkeys : ((ordered files).map (fun entry => runtime.casefold entry.1)).Perm
      (files.keys.map runtime.casefold) := by
    rw [Dict.keys, List.map_map]
    exact hperm.map _
  have hdistinct := hkeys.nodup_iff.mp hnodup
  obtain ⟨found, hread, hsame⟩ := read_archive hrestores hsafe hdistinct hstored
  exact ⟨found, hread, hsame, hdistinct⟩

end Archive

end KnowledgeCompiler.Exporters
