import KnowledgeCompiler.World.Store

namespace KnowledgeCompiler.World

open Lib Recompilation

-- A registry whose states are exactly the worlds of `ids`, published in that order.
structure Published (registry : WorldStateRegistry) (ids : List String) : Prop where
  history : registry.history = ids
  current : registry.current_id = ids.getLast?
  states : ∀ id, id ∈ registry.states.keys ↔ id ∈ ids
  names : ∀ id state, registry.states.get? id = some state → state.world_state_id = id

theorem Published.empty (workspace_id : String) : Published { workspace_id } [] :=
  ⟨rfl, rfl, by simp [Dict.keys, Dict.empty], by simp⟩

section Registry

variable {registry : WorldStateRegistry} {ids : List String} {id : String}

theorem set_status_states (status : WorldStateStatus) :
    (∀ other, other ∈ (registry.set_status id status).states.keys ↔
      other ∈ registry.states.keys) ∧
    ((∀ other state, registry.states.get? other = some state → state.world_state_id = other) →
      ∀ other state, (registry.set_status id status).states.get? other = some state →
        state.world_state_id = other) := by
  unfold WorldStateRegistry.set_status
  cases hget : registry.states.get? id with
  | none => exact ⟨fun _ => Iff.rfl, fun h => h⟩
  | some found =>
      refine ⟨fun other => ?_, fun hnames other state hs => ?_⟩
      · rw [Dict.mem_keys_set]
        refine ⟨fun h => h.elim (fun he => ?_) (fun hm => hm), Or.inr⟩
        exact he ▸ (registry.states.mem_keys_iff id).mpr ⟨found, hget⟩
      · rw [Dict.get?_set] at hs
        split at hs
        · rename_i he
          obtain rfl := Option.some.inj hs
          exact he ▸ hnames id found hget
        · exact hnames other state hs

theorem retire_current_states (status : WorldStateStatus) :
    (∀ other, other ∈ (registry.retire_current status).states.keys ↔
      other ∈ registry.states.keys) ∧
    ((∀ other state, registry.states.get? other = some state → state.world_state_id = other) →
      ∀ other state, (registry.retire_current status).states.get? other = some state →
        state.world_state_id = other) := by
  unfold WorldStateRegistry.retire_current
  split
  · exact ⟨fun _ => Iff.rfl, fun h => h⟩
  · split
    · exact ⟨fun _ => Iff.rfl, fun h => h⟩
    · exact set_status_states status

theorem retire_current_workspace (status : WorldStateStatus) :
    (registry.retire_current status).workspace_id = registry.workspace_id := by
  unfold WorldStateRegistry.retire_current WorldStateRegistry.set_status
  repeat' split
  all_goals rfl

-- A fresh id with matching artifacts and a passing receipt is never refused.
theorem Published.publish (hinv : Published registry ids) (hfresh : id ∉ ids)
    (compiler_version : String) (built_at activated_at : Moment) (manifest : PublicationManifest)
    (receipt : ValidationReceipt) (artifacts : Dict String String)
    (hverify : manifest.verify artifacts = []) (hpassed : receipt.passed = true) :
    ∃ candidate staged result after,
      registry.stage id compiler_version built_at none = (.ok candidate, staged) ∧
      staged.publish id manifest receipt artifacts activated_at none = (.ok result, after) ∧
      Published after (ids ++ [id]) ∧ after.workspace_id = registry.workspace_id ∧
      result.world_state.activated_at = some activated_at := by
  have hnew : registry.states.get? id = none :=
    (registry.states.get?_eq_none_iff id).mpr (fun h => hfresh ((hinv.states id).mp h))
  let candidate : WorldState :=
    { world_state_id := id
      workspace_id := registry.workspace_id
      status := .CANDIDATE
      compiler_version := compiler_version
      built_at := built_at
      parent_world_state_id := registry.current_id
      change_set_id := none }
  let staged : WorldStateRegistry := { registry with states := registry.states.set id candidate }
  have hstage : registry.stage id compiler_version built_at none = (.ok candidate, staged) := by
    simp [WorldStateRegistry.stage, hnew, candidate, staged]
  have hcandidate : staged.states.get? id = some candidate := Dict.get?_set_self _ _ _
  have hpublish : staged.publish id manifest receipt artifacts activated_at none =
      staged.activate id candidate manifest receipt activated_at := by
    simp [WorldStateRegistry.publish, hcandidate, hverify, hpassed, candidate]
  refine ⟨candidate, staged, _, _, hstage, hpublish, ?_, ?_, rfl⟩
  · have hnames : ∀ other state, staged.states.get? other = some state →
        state.world_state_id = other := by
      intro other state hs
      rw [Dict.get?_set] at hs
      split at hs
      · rename_i he
        obtain rfl := Option.some.inj hs
        exact he.symm
      · exact hinv.names other state hs
    obtain ⟨hkeys, hkeep⟩ := @retire_current_states staged .SUPERSEDED
    refine ⟨?_, by simp, fun other => ?_, fun other state hs => ?_⟩
    · show registry.history ++ [id] = ids ++ [id]
      rw [hinv.history]
    · rw [Dict.mem_keys_set, hkeys, Dict.mem_keys_set, hinv.states, List.mem_append,
        List.mem_singleton]
      tauto
    · rw [Dict.get?_set] at hs
      split at hs
      · rename_i he
        obtain rfl := Option.some.inj hs
        exact he.symm
      · exact hkeep hnames other state hs
  · exact @retire_current_workspace staged .SUPERSEDED

end Registry

section Replay

variable {Row Evidence Review : Type} {disk : Disk Row Evidence Review}

def Disk.complete (disk : Disk Row Evidence Review) (id : String) : Bool :=
  id ∈ disk.worlds.keys && id ∈ disk.claims.keys

-- Every world file was written by a publish that the registry accepted.
def Disk.Accepted (disk : Disk Row Evidence Review) : Prop :=
  ∀ id world, disk.worlds.get? id = some world → world.activated_at.isSome = true ∧
    world.manifest.verify world.artifact_hashes = [] ∧ world.receipt.passed = true

theorem Published.replay {registry : WorldStateRegistry} {ids : List String}
    (hinv : Published registry ids) (haccepted : disk.Accepted) {id : String} (hfresh : id ∉ ids) :
    ∃ after, disk.replay registry id = .ok after ∧
      Published after (ids ++ if disk.complete id then [id] else []) ∧
      after.workspace_id = registry.workspace_id := by
  unfold Disk.replay Disk.complete
  cases hworld : disk.worlds.get? id with
  | none =>
      have hnot := (disk.worlds.get?_eq_none_iff id).mp hworld
      exact ⟨registry, rfl, by simpa [hnot] using hinv, rfl⟩
  | some world =>
      cases hclaims : disk.claims.get? id with
      | none =>
          have hnot := (disk.claims.get?_eq_none_iff id).mp hclaims
          exact ⟨registry, rfl, by simpa [hnot] using hinv, rfl⟩
      | some claims =>
          have hboth : id ∈ disk.worlds.keys ∧ id ∈ disk.claims.keys :=
            ⟨(disk.worlds.mem_keys_iff id).mpr ⟨_, hworld⟩,
              (disk.claims.mem_keys_iff id).mpr ⟨_, hclaims⟩⟩
          obtain ⟨hactivated, hverify, hpassed⟩ := haccepted id world hworld
          obtain ⟨activated_at, ha⟩ := Option.isSome_iff_exists.mp hactivated
          obtain ⟨candidate, staged, result, after, hstage, hpublish, hafter, hworkspace, _⟩ :=
            hinv.publish hfresh world.compiler_version world.built_at activated_at world.manifest
              world.receipt world.artifact_hashes hverify hpassed
          refine ⟨after, by simp [hstage, ha, hpublish], ?_, hworkspace⟩
          simpa [hboth] using hafter

theorem Published.replays (haccepted : disk.Accepted) (pending : List String)
    {registry : WorldStateRegistry} {ids : List String} (hinv : Published registry ids)
    (hn : (ids ++ pending).Nodup) :
    ∃ after, pending.foldlM disk.replay registry = .ok after ∧
      Published after (ids ++ pending.filter disk.complete) ∧
      after.workspace_id = registry.workspace_id := by
  induction pending generalizing registry ids with
  | nil => exact ⟨registry, rfl, by simpa using hinv, rfl⟩
  | cons id rest ih =>
      have hfresh : id ∉ ids := fun h =>
        (List.nodup_append.mp hn).2.2 id h id List.mem_cons_self rfl
      obtain ⟨next, hnext, hpub, hworkspace⟩ := hinv.replay haccepted hfresh
      have hrest : ((ids ++ if disk.complete id then [id] else []) ++ rest).Nodup := by
        split
        · simpa using hn
        · rw [List.append_nil]
          exact hn.sublist (List.Sublist.append_left (List.sublist_cons_self id rest) ids)
      obtain ⟨after, hafter, hfinal, hsame⟩ := ih hpub hrest
      refine ⟨after, by simp [hnext, hafter, Bind.bind, Except.bind], ?_, hsame.trans hworkspace⟩
      rw [List.filter_cons]
      split
      · rename_i hc
        simpa [hc] using hfinal
      · rename_i hc
        simpa [hc] using hfinal

theorem history_ids_perm (disk : Disk Row Evidence Review) :
    disk.history_ids.Perm disk.worlds.keys := List.perm_insertionSort _ _

-- Opening a directory of accepted worlds replays its complete ones, in order.
theorem Disk.load_registry_ok (haccepted : disk.Accepted) (workspace_id : String) :
    ∃ registry, disk.load_registry workspace_id = .ok registry ∧
      registry.workspace_id = workspace_id ∧
      Published registry
        (if disk.pointer.isNone then [] else disk.history_ids.filter disk.complete) := by
  unfold Disk.load_registry
  split
  · exact ⟨_, rfl, rfl, Published.empty workspace_id⟩
  · have hnodup : disk.history_ids.Nodup := (history_ids_perm disk).nodup_iff.mpr disk.worlds.nodup
    obtain ⟨registry, hrun, hpub, hworkspace⟩ :=
      (Published.empty workspace_id).replays haccepted disk.history_ids (by simpa using hnodup)
    exact ⟨registry, hrun, hworkspace, by simpa using hpub⟩

end Replay

section Names

theorem sequence_of_world_id (sequence : Nat) : sequence_of (world_id sequence) = sequence := by
  have hdigits : ∀ c ∈ Nat.toDigits 10 sequence, c.isDigit = true := fun c hc =>
    Nat.isDigit_of_mem_toDigits (by decide) (by decide) hc
  have hsuffix : ((world_id sequence).toList.reverse.takeWhile (· ≠ '-')).reverse =
      Nat.toDigits 10 sequence := by
    have hlist : (world_id sequence).toList = ['W', 'S', '-'] ++ Nat.toDigits 10 sequence := by
      simp [world_id, Nat.toString_eq_repr, Nat.toList_repr]
    have hkeep : ∀ c ∈ (Nat.toDigits 10 sequence).reverse, decide (c ≠ '-') = true := by
      intro c hc
      have := hdigits c (List.mem_reverse.mp hc)
      rw [decide_eq_true_eq]
      rintro rfl
      simp at this
    rw [hlist, List.reverse_append, List.takeWhile_append_of_pos hkeep]
    simp
  have hne : Nat.toDigits 10 sequence ≠ [] := Nat.toDigits_ne_nil
  unfold sequence_of
  rw [hsuffix, if_pos ⟨hne, List.all_eq_true.mpr hdigits⟩]
  exact Nat.ofDigitChars_toDigits (by decide) (by decide)

theorem world_id_injective {first second : Nat} (h : world_id first = world_id second) :
    first = second := by
  rw [← sequence_of_world_id first, h, sequence_of_world_id]

theorem truthy_world_id (sequence : Nat) : truthy (some (world_id sequence)) = true := by
  simp [truthy, world_id]

end Names

end KnowledgeCompiler.World
