import KnowledgeCompiler.Lib.Json
import KnowledgeCompiler.Lib.Sha256
import KnowledgeCompiler.Lib.Utf8
import KnowledgeCompiler.World.Lifecycle

namespace KnowledgeCompiler.World

open Lib Recompilation

section Manifest

variable (hasher : Hasher)

-- The encoding sorts the keys, and so the artifacts.
def manifest_payload (compiler_version : String) (artifact_hashes : Dict String String) : Json :=
  .obj
    [("compiler_version", .str compiler_version),
      ("artifacts", .obj (artifact_hashes.entries.map (fun entry => (entry.1, .str entry.2))))]

def manifest_digest (compiler_version : String) (artifact_hashes : Dict String String) : String :=
  "sha256:" ++
    hasher.hexdigest (Utf8.encode (Json.dumps (manifest_payload compiler_version artifact_hashes)))

def publication_manifest (world_state_id compiler_version : String)
    (artifact_hashes : Dict String String) : PublicationManifest where
  world_state_id := world_state_id
  compiler_version := compiler_version
  artifact_hashes := artifact_hashes
  manifest_hash := manifest_digest hasher compiler_version artifact_hashes

-- What a published state's manifest must be to its candidate and its artifacts.
structure ManifestBound (world_state_id : String) (manifest : PublicationManifest)
    (artifacts : Dict String String) (after : WorldStateRegistry) : Prop where
  names : manifest.world_state_id = world_state_id
  exact : ∀ name, artifacts.get? name = manifest.artifact_hashes.get? name
  recorded : ∃ state recorded, after.states.get? world_state_id = some state ∧
    state.manifest = some recorded ∧ recorded.manifest_hash =
      manifest_digest hasher manifest.compiler_version manifest.artifact_hashes

-- What `publish` takes on trust.
structure ManifestTrue (world_state_id : String) (manifest : PublicationManifest)
    (artifacts : Dict String String) : Prop where
  names : manifest.world_state_id = world_state_id
  no_extra : ∀ name ∈ artifacts.keys, name ∈ manifest.artifact_hashes.keys
  hashed : manifest.manifest_hash =
    manifest_digest hasher manifest.compiler_version manifest.artifact_hashes

end Manifest

theorem verify_eq_nil_iff (manifest : PublicationManifest) (artifacts : Dict String String) :
    manifest.verify artifacts = [] ↔ ∀ name ∈ manifest.artifact_hashes.keys,
      artifacts.get? name = manifest.artifact_hashes.get? name := by
  have hmem (name : String) : name ∈ manifest.verify artifacts ↔
      name ∈ manifest.artifact_hashes.keys ∧
        (artifacts.get? name ≠ manifest.artifact_hashes.get? name ∨ name ∉ artifacts.keys) := by
    simp only [PublicationManifest.verify, mem_fromkeys, List.mem_append, List.mem_filter,
      sorted_names, (List.perm_insertionSort _ _).mem_iff, decide_eq_true_eq]
    tauto
  rw [List.eq_nil_iff_forall_not_mem]
  constructor
  · intro hnone name hname
    by_contra hne
    exact hnone name ((hmem name).mpr ⟨hname, Or.inl hne⟩)
  · intro hall name hin
    obtain ⟨hname, hne | hmissing⟩ := (hmem name).mp hin
    · exact hne (hall name hname)
    · obtain ⟨value, hvalue⟩ := (manifest.artifact_hashes.mem_keys_iff name).mp hname
      exact hmissing ((artifacts.mem_keys_iff name).mpr ⟨value, (hall name hname).trans hvalue⟩)

-- The gates compare on the manifest's names; a name of neither map agrees as well.
theorem same_hashes_iff {manifest : PublicationManifest} {artifacts : Dict String String}
    (hverify : manifest.verify artifacts = []) :
    (∀ name, artifacts.get? name = manifest.artifact_hashes.get? name) ↔
      ∀ name ∈ artifacts.keys, name ∈ manifest.artifact_hashes.keys := by
  have hlisted := (verify_eq_nil_iff manifest artifacts).mp hverify
  constructor
  · intro hall name hname
    obtain ⟨value, hvalue⟩ := (artifacts.mem_keys_iff name).mp hname
    exact (manifest.artifact_hashes.mem_keys_iff name).mpr ⟨value, (hall name).symm.trans hvalue⟩
  · intro hsub name
    by_cases hname : name ∈ manifest.artifact_hashes.keys
    · exact hlisted name hname
    · rw [(manifest.artifact_hashes.get?_eq_none_iff name).mpr hname]
      exact (artifacts.get?_eq_none_iff name).mpr (fun hin => hname (hsub name hin))

section Publish

variable (registry : WorldStateRegistry) (world_state_id : String)
  (manifest : PublicationManifest) (receipt : ValidationReceipt) (artifacts : Dict String String)
  (activated_at : Moment) (plan : Option RecompilationPlan)

-- `publish` succeeds when its gates pass, and then records the manifest it was given.
theorem publish_ok_iff :
    (∃ result after, registry.publish world_state_id manifest receipt artifacts activated_at plan =
      (.ok result, after)) ↔ registry.Passes world_state_id manifest receipt artifacts plan := by
  have hresponse :=
    publish_responded registry world_state_id manifest receipt artifacts activated_at plan
  simp only [WorldStateRegistry.respond] at hresponse
  generalize registry.publish world_state_id manifest receipt artifacts activated_at plan =
    answer at hresponse ⊢
  obtain ⟨outcome, after⟩ := answer
  cases outcome with
  | error message =>
      simp only [Prod.mk.injEq, reduceCtorEq, false_and, exists_false, false_iff]
      intro hpasses
      cases hresponse with
      | refused _ _ hfails => exact hfails world_state_id ⟨rfl, hpasses⟩
      | rejected _ _ _ _ _ _ _ _ hfails => exact hfails hpasses
  | ok result =>
      refine iff_of_true ⟨result, after, rfl⟩ ?_
      generalize hevents : (Except.ok result).map PublishResult.outbox = events at hresponse
      cases hresponse with
      | refused => cases hevents
      | rejected => cases hevents
      | published _ _ _ _ _ _ _ _ hpasses => exact hpasses

theorem publish_records {result : PublishResult} {after : WorldStateRegistry}
    (hpublish : registry.publish world_state_id manifest receipt artifacts activated_at plan =
      (.ok result, after)) :
    ∃ state, after.states.get? world_state_id = some state ∧ state.manifest = some manifest := by
  unfold WorldStateRegistry.publish at hpublish
  split at hpublish
  · simp at hpublish
  · split at hpublish
    · simp at hpublish
    · simp only at hpublish
      split at hpublish
      · simp at hpublish
      · split at hpublish
        · simp at hpublish
        · split at hpublish
          · simp at hpublish
          · obtain ⟨_, rfl⟩ := Prod.mk.inj hpublish
            exact ⟨_, Dict.get?_set_self _ _ _, rfl⟩

theorem publish_binds_manifest_iff (hasher : Hasher) :
    (∀ result after,
      registry.publish world_state_id manifest receipt artifacts activated_at plan =
        (.ok result, after) → ManifestBound hasher world_state_id manifest artifacts after) ↔
      (registry.Passes world_state_id manifest receipt artifacts plan →
        ManifestTrue hasher world_state_id manifest artifacts) := by
  have hok := publish_ok_iff registry world_state_id manifest receipt artifacts activated_at plan
  constructor
  · intro hbound hpasses
    obtain ⟨result, after, hpublish⟩ := hok.mpr hpasses
    obtain ⟨hnames, hexact, state, recorded, hget, hrecorded, hhash⟩ := hbound result after hpublish
    obtain ⟨found, hfound, hmanifest⟩ := publish_records registry world_state_id manifest receipt
      artifacts activated_at plan hpublish
    obtain rfl := Option.some.inj (hget.symm.trans hfound)
    obtain rfl := Option.some.inj (hrecorded.symm.trans hmanifest)
    exact ⟨hnames, (same_hashes_iff hpasses.2.1).mp hexact, hhash⟩
  · intro htrue result after hpublish
    have hpasses := hok.mp ⟨result, after, hpublish⟩
    obtain ⟨hnames, hno_extra, hhashed⟩ := htrue hpasses
    obtain ⟨state, hget, hmanifest⟩ := publish_records registry world_state_id manifest receipt
      artifacts activated_at plan hpublish
    exact ⟨hnames, (same_hashes_iff hpasses.2.1).mpr hno_extra, state, manifest, hget, hmanifest,
      hhashed⟩

end Publish

-- One artifact more than the manifest describes.
theorem extra_artifact_is_published :
    ¬∀ result after,
      ((session "workspace" [.stage "WS-1" "1" 0 none]).registry.publish "WS-1"
        (publication_manifest sha256 "WS-1" "1" .empty) (checked "receipt")
        (.ofPairs [("answers.json", "sha256:00")]) 0 none) = (.ok result, after) →
      ManifestBound sha256 "WS-1" (publication_manifest sha256 "WS-1" "1" .empty)
        (.ofPairs [("answers.json", "sha256:00")]) after := by
  intro hbound
  have hpasses : (session "workspace" [.stage "WS-1" "1" 0 none]).registry.Passes "WS-1"
      (publication_manifest sha256 "WS-1" "1" .empty) (checked "receipt")
      (.ofPairs [("answers.json", "sha256:00")]) none := by
    refine ⟨by decide, (verify_eq_nil_iff _ _).mpr ?_, by simp, by decide⟩
    exact fun name hname => absurd hname (List.not_mem_nil)
  obtain ⟨result, after, hpublish⟩ := (publish_ok_iff _ _ _ _ _ 0 _).mpr hpasses
  have hsame := (hbound result after hpublish).exact "answers.json"
  exact absurd hsame (by simp [publication_manifest, Dict.ofPairs])

end KnowledgeCompiler.World
