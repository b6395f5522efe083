import KnowledgeCompiler.World.Replay

namespace KnowledgeCompiler.World

open Lib Recompilation

-- How far a publish gets before its process stops.
inductive Stop
  | before_writes
  | after_meta
  | after_world
  | after_claims
  | completed
deriving DecidableEq, Repr

def Stop.writes : Stop → Nat
  | before_writes => 0
  | after_meta => 1
  | after_world => 2
  | after_claims => 3
  | completed => 4

inductive Event (Row Evidence Review : Type)
  | exit
  | publish (candidate : Candidate Row Evidence Review) (stop : Stop)

variable {Row Evidence Review : Type}

def Event.stops_at (event : Event Row Evidence Review) (stop : Stop) : Prop :=
  ∃ candidate, event = .publish candidate stop

-- The directory, the running process if there is one, and what has been published.
structure Machine (Row Evidence Review : Type) where
  disk : Disk Row Evidence Review := {}
  live : Option Handle := none
  completed : List (StoredWorld Row Evidence Review) := []

-- The world a completed publish promises to its readers.
def promised_world (workspace_id : String) (sequence : Nat)
    (candidate : Candidate Row Evidence Review) : StoredWorld Row Evidence Review where
  world_state_id := world_id sequence
  workspace_id := workspace_id
  manifest := candidate.manifest
  receipt := candidate.receipt.restored
  artifact_hashes := candidate.artifacts
  claims := candidate.contents.claims
  evidence_index := candidate.contents.evidence_index
  review_queue := candidate.contents.review_queue
  cursor := candidate.contents.cursor
  built_at := next_deterministic_time sequence

namespace Machine

def handle (workspace_id : String) (machine : Machine Row Evidence Review) : Except String Handle :=
  match machine.live with
  | some handle => .ok handle
  | none => machine.disk.reopen workspace_id

def step (workspace_id : String) (machine : Machine Row Evidence Review) :
    Event Row Evidence Review → Except String (Machine Row Evidence Review)
  | .exit => .ok { machine with live := none }
  | .publish candidate stop =>
      match machine.handle workspace_id with
      | .error refused => .error refused
      | .ok handle =>
          match publish_build candidate machine.disk handle stop.writes with
          | .error refused => .error refused
          | .ok (after, disk) =>
              if stop = .completed then
                .ok
                  { disk := disk
                    live := some after
                    completed := machine.completed ++
                      [promised_world workspace_id after.sequence candidate] }
              else .ok { disk := disk, live := none, completed := machine.completed }

def run (workspace_id : String) (events : List (Event Row Evidence Review)) :
    Except String (Machine Row Evidence Review) :=
  events.foldlM (step workspace_id) {}

end Machine

def Disk.sequence (disk : Disk Row Evidence Review) : Nat :=
  (disk.meta_file.map MetaFile.sequence).getD 0

-- The worlds with both files, oldest first.
def Disk.stored (disk : Disk Row Evidence Review) : List String :=
  disk.worlds.keys.filter disk.complete

-- What the files of a directory satisfy between any two writes.
structure Kept (disk : Disk Row Evidence Review) (bound : Nat) : Prop where
  accepted : disk.Accepted
  numbered : ∃ numbers : List Nat, disk.worlds.keys = numbers.map world_id ∧
    numbers.Pairwise (· < ·) ∧ ∀ number ∈ numbers, number ≤ bound
  described : ∀ id ∈ disk.claims.keys, id ∈ disk.worlds.keys

section Kept

variable {disk : Disk Row Evidence Review} {bound : Nat}

theorem Kept.fresh (hkept : Kept disk bound) {sequence : Nat} (hlt : bound < sequence) :
    world_id sequence ∉ disk.worlds.keys := by
  obtain ⟨numbers, hkeys, _, hbound⟩ := hkept.numbered
  rw [hkeys]
  intro hm
  obtain ⟨number, hn, he⟩ := List.mem_map.mp hm
  have := hbound number hn
  have := world_id_injective he
  omega

theorem Kept.mono (hkept : Kept disk bound) {larger : Nat} (hle : bound ≤ larger) :
    Kept disk larger := by
  obtain ⟨numbers, hkeys, hsorted, hbound⟩ := hkept.numbered
  exact ⟨hkept.accepted, ⟨numbers, hkeys, hsorted, fun number hn => (hbound number hn).trans hle⟩,
    hkept.described⟩

theorem Kept.write_world (hkept : Kept disk bound) {sequence : Nat} (hlt : bound < sequence)
    (file : WorldFile) (hactivated : file.activated_at.isSome = true)
    (hverify : file.manifest.verify file.artifact_hashes = []) (hpassed : file.receipt.passed = true) :
    Kept { disk with worlds := disk.worlds.set (world_id sequence) file } sequence := by
  obtain ⟨numbers, hkeys, hsorted, hbound⟩ := hkept.numbered
  refine ⟨?_, ⟨numbers ++ [sequence], ?_, ?_, ?_⟩, ?_⟩
  · intro id world hw
    rw [Dict.get?_set] at hw
    split at hw
    · obtain rfl := Option.some.inj hw
      exact ⟨hactivated, hverify, hpassed⟩
    · exact hkept.accepted id world hw
  · rw [Dict.keys_set_of_not_mem _ _ (hkept.fresh hlt), hkeys, List.map_append]
    rfl
  · refine List.pairwise_append.mpr ⟨hsorted, List.pairwise_singleton _ _, ?_⟩
    intro first hf second hs
    obtain rfl := List.mem_singleton.mp hs
    exact (hbound first hf).trans_lt hlt
  · intro number hn
    rcases List.mem_append.mp hn with hn | hn
    · exact (hbound number hn).trans hlt.le
    · exact (List.mem_singleton.mp hn).le
  · intro id hid
    exact (Dict.mem_keys_set _ _ _ _).mpr (Or.inr (hkept.described id hid))

theorem Kept.write_claims (hkept : Kept disk bound) {id : String} (hid : id ∈ disk.worlds.keys)
    (contents : ClaimsFile Row Evidence Review) :
    Kept { disk with claims := disk.claims.set id contents } bound := by
  refine ⟨hkept.accepted, hkept.numbered, fun other ho => ?_⟩
  rcases (Dict.mem_keys_set _ _ _ _).mp ho with rfl | ho
  · exact hid
  · exact hkept.described other ho

theorem Kept.history_ids (hkept : Kept disk bound) : disk.history_ids = disk.worlds.keys := by
  obtain ⟨numbers, hkeys, hsorted, _⟩ := hkept.numbered
  apply List.Pairwise.insertionSort_eq
  rw [hkeys, List.pairwise_map]
  refine hsorted.imp ?_
  intro first second hlt
  rw [sequence_of_world_id, sequence_of_world_id]
  exact hlt.le

theorem stored_write_world {id : String} (hworld : id ∉ disk.worlds.keys)
    (hclaims : id ∉ disk.claims.keys) (file : WorldFile) :
    ({ disk with worlds := disk.worlds.set id file } : Disk Row Evidence Review).stored =
      disk.stored := by
  have hother : ∀ other ∈ disk.worlds.keys,
      ({ disk with worlds := disk.worlds.set id file } : Disk Row Evidence Review).complete other =
        disk.complete other := by
    intro other ho
    simp [Disk.complete, Dict.mem_keys_set, ho]
  unfold Disk.stored
  rw [Dict.keys_set_of_not_mem _ _ hworld, List.filter_append, List.filter_congr hother]
  simp [Disk.complete, hclaims]

theorem stored_write_claims {id : String} {ids : List String} (hworld : disk.worlds.keys = ids ++ [id])
    (hclaims : id ∉ disk.claims.keys) (contents : ClaimsFile Row Evidence Review) :
    ({ disk with claims := disk.claims.set id contents } : Disk Row Evidence Review).stored =
      disk.stored ++ [id] := by
  have hnodup : (ids ++ [id]).Nodup := hworld ▸ disk.worlds.nodup
  have hnot : id ∉ ids := fun h => (List.nodup_append.mp hnodup).2.2 id h id (by simp) rfl
  have hother : ∀ other ∈ ids,
      ({ disk with claims := disk.claims.set id contents } : Disk Row Evidence Review).complete
        other = disk.complete other := by
    intro other ho
    have hne : other ≠ id := fun h => hnot (h ▸ ho)
    simp [Disk.complete, Dict.mem_keys_set, hne]
  unfold Disk.stored
  rw [show ({ disk with claims := disk.claims.set id contents } :
    Disk Row Evidence Review).worlds.keys = ids ++ [id] from hworld, List.filter_append,
    List.filter_append, List.filter_congr hother]
  simp [Disk.complete, hclaims, Dict.mem_keys_set, hworld]

end Kept

-- The invariant of a run: which of the stored worlds were promised to readers.
structure Consistent (workspace_id : String) (events : List (Event Row Evidence Review))
    (machine : Machine Row Evidence Review) : Prop where
  kept : Kept machine.disk machine.disk.sequence
  pointer : machine.disk.pointer = (machine.completed.getLast?).map StoredWorld.world_state_id
  loads : ∀ world ∈ machine.completed, truthy (some world.world_state_id) = true ∧
    machine.disk.load_world workspace_id (some world.world_state_id) = some world
  untorn : (∀ event ∈ events, ¬event.stops_at .after_claims) →
    machine.disk.stored = machine.completed.map StoredWorld.world_state_id
  torn : (∃ event ∈ events, event.stops_at .after_claims) →
    ∃ id ∈ machine.disk.stored, id ∉ machine.completed.map StoredWorld.world_state_id
  none_completed : machine.completed = [] ↔ ∀ event ∈ events, ¬event.stops_at .completed
  live : ∀ handle, machine.live = some handle → handle.workspace_id = workspace_id ∧
    handle.sequence = machine.disk.sequence ∧ handle.registry.workspace_id = workspace_id ∧
    ∃ ids, Published handle.registry ids ∧
      ∀ id ∈ ids, ∃ number ≤ machine.disk.sequence, id = world_id number

section Run

variable {workspace_id : String} {events : List (Event Row Evidence Review)}
  {machine : Machine Row Evidence Review}

theorem Consistent.start :
    Consistent workspace_id [] ({} : Machine Row Evidence Review) := by
  refine ⟨⟨?_, ⟨[], rfl, List.Pairwise.nil, by simp⟩, ?_⟩, rfl, by simp, fun _ => rfl, by simp,
    by simp, by simp⟩
  · intro id world hw
    cases hw
  · intro id hid
    cases hid

theorem stored_numbered (hkept : Kept machine.disk machine.disk.sequence) {id : String}
    (hid : id ∈ machine.disk.worlds.keys) :
    ∃ number ≤ machine.disk.sequence, id = world_id number := by
  obtain ⟨numbers, hkeys, _, hbound⟩ := hkept.numbered
  rw [hkeys] at hid
  obtain ⟨number, hn, he⟩ := List.mem_map.mp hid
  exact ⟨number, hbound number hn, he.symm⟩

-- The process that takes the next publish, whether it is still running or reopened.
theorem Consistent.handle (hinv : Consistent workspace_id events machine) :
    ∃ handle, machine.handle workspace_id = .ok handle ∧ handle.workspace_id = workspace_id ∧
      handle.sequence = machine.disk.sequence ∧ handle.registry.workspace_id = workspace_id ∧
      ∃ ids, Published handle.registry ids ∧
        ∀ id ∈ ids, ∃ number ≤ machine.disk.sequence, id = world_id number := by
  unfold Machine.handle
  cases hlive : machine.live with
  | some handle => exact ⟨handle, rfl, hinv.live handle hlive⟩
  | none =>
      obtain ⟨registry, hload, hworkspace, hpub⟩ :=
        Disk.load_registry_ok hinv.kept.accepted workspace_id
      refine ⟨⟨workspace_id, machine.disk.sequence, registry⟩, ?_, rfl, rfl, hworkspace, _, hpub, ?_⟩
      · simp [Disk.reopen, hload, Disk.sequence, Bind.bind, Except.bind]
      · intro id hid
        split at hid
        · cases hid
        · refine stored_numbered hinv.kept ?_
          exact (history_ids_perm machine.disk).mem_iff.mp (List.mem_of_mem_filter hid)

-- One publish: the registry accepts it and the files that reach the disk are
-- the first `stop.writes` of these four.
theorem publish_build_ok {handle : Handle} {ids : List String}
    (hpub : Published handle.registry ids)
    (hids : ∀ id ∈ ids, ∃ number ≤ handle.sequence, id = world_id number)
    (candidate : Candidate Row Evidence Review) (disk : Disk Row Evidence Review) :
    ∃ (result : PublishResult) (after : Handle),
      result.world_state.activated_at.isSome = true ∧
      after.workspace_id = handle.workspace_id ∧ after.sequence = handle.sequence + 1 ∧
      after.registry.workspace_id = handle.registry.workspace_id ∧
      Published after.registry (ids ++ [world_id (handle.sequence + 1)]) ∧
      ∀ writes, publish_build candidate disk handle writes = .ok (after,
        ((publish_writes candidate handle.workspace_id (handle.sequence + 1)
          (world_id (handle.sequence + 1)) result).take writes).foldl
            (fun disk write => write disk) disk) := by
  have hfresh : world_id (handle.sequence + 1) ∉ ids := by
    intro hm
    obtain ⟨number, hle, he⟩ := hids _ hm
    have := world_id_injective he
    omega
  obtain ⟨staged_state, staged, result, after, hstage, hpublish, hafter, hworkspace, hactivated⟩ :=
    hpub.publish hfresh candidate.compiler_version
      (next_deterministic_time (handle.sequence + 1))
      (next_deterministic_time (handle.sequence + 1)) candidate.manifest candidate.receipt
      candidate.artifacts candidate.verified candidate.passed
  refine ⟨result, { handle with sequence := handle.sequence + 1, registry := after }, ?_, rfl, rfl,
    hworkspace, hafter, fun writes => ?_⟩
  · rw [hactivated]
    rfl
  · simp [publish_build, Handle.next_world_state_id, hstage, hpublish]

theorem mem_worlds_of_load {disk : Disk Row Evidence Review} {target : String}
    {world : StoredWorld Row Evidence Review} (htarget : truthy (some target) = true)
    (hload : disk.load_world workspace_id (some target) = some world) :
    target ∈ disk.worlds.keys := by
  by_contra hnot
  rw [← Dict.get?_eq_none_iff] at hnot
  simp [Disk.load_world, htarget, hnot] at hload

-- Every world of the one directory reads the same from the other.
def StillLoads (workspace_id : String) (before disk : Disk Row Evidence Review) : Prop :=
  ∀ target ∈ before.worlds.keys, truthy (some target) = true →
    disk.load_world workspace_id (some target) = before.load_world workspace_id (some target)

theorem Consistent.mem_worlds (hinv : Consistent workspace_id events machine)
    {world : StoredWorld Row Evidence Review} (hw : world ∈ machine.completed) :
    world.world_state_id ∈ machine.disk.worlds.keys :=
  mem_worlds_of_load (hinv.loads world hw).1 (hinv.loads world hw).2

theorem Consistent.still_loads (hinv : Consistent workspace_id events machine)
    {disk : Disk Row Evidence Review} (hloads : StillLoads workspace_id machine.disk disk) :
    ∀ world ∈ machine.completed, truthy (some world.world_state_id) = true ∧
      disk.load_world workspace_id (some world.world_state_id) = some world := by
  intro world hw
  obtain ⟨htruthy, hload⟩ := hinv.loads world hw
  exact ⟨htruthy, (hloads _ (hinv.mem_worlds hw) htruthy).trans hload⟩

theorem Consistent.none_completed_append (hinv : Consistent workspace_id events machine)
    {event : Event Row Evidence Review} (hcompleted : ¬event.stops_at .completed) :
    machine.completed = [] ↔ ∀ other ∈ events ++ [event], ¬other.stops_at .completed := by
  rw [hinv.none_completed]
  exact ⟨fun hnone => List.forall_mem_append.mpr ⟨hnone, by simpa using hcompleted⟩,
    fun hnone other ho => hnone other (List.mem_append_left _ ho)⟩

-- A process that ends before the claims file changes nothing a reader sees.
theorem Consistent.end_early (hinv : Consistent workspace_id events machine)
    {event : Event Row Evidence Review} (hclaims : ¬event.stops_at .after_claims)
    (hcompleted : ¬event.stops_at .completed) {disk : Disk Row Evidence Review}
    (hkept : Kept disk disk.sequence) (hpointer : disk.pointer = machine.disk.pointer)
    (hstored : disk.stored = machine.disk.stored)
    (hloads : StillLoads workspace_id machine.disk disk) :
    Consistent workspace_id (events ++ [event])
      { disk := disk, live := none, completed := machine.completed } := by
  refine ⟨hkept, hpointer.trans hinv.pointer, ?_, ?_, ?_, ?_, by simp⟩
  · exact hinv.still_loads hloads
  · intro huntorn
    refine hstored.trans (hinv.untorn (fun other ho => huntorn other ?_))
    exact List.mem_append_left _ ho
  · rintro ⟨other, ho, htorn⟩
    rcases List.mem_append.mp ho with ho | ho
    · rw [hstored]
      exact hinv.torn ⟨other, ho, htorn⟩
    · exact absurd (List.mem_singleton.mp ho ▸ htorn) hclaims
  · exact hinv.none_completed_append hcompleted

-- A publish that stops after its claims file leaves a stored world nobody published.
theorem Consistent.end_torn (hinv : Consistent workspace_id events machine)
    {event : Event Row Evidence Review} (htorn : event.stops_at .after_claims)
    (hcompleted : ¬event.stops_at .completed) {disk : Disk Row Evidence Review} {id : String}
    (hid : id ∉ machine.disk.worlds.keys)
    (hkept : Kept disk disk.sequence) (hpointer : disk.pointer = machine.disk.pointer)
    (hstored : disk.stored = machine.disk.stored ++ [id])
    (hloads : StillLoads workspace_id machine.disk disk) :
    Consistent workspace_id (events ++ [event])
      { disk := disk, live := none, completed := machine.completed } := by
  refine ⟨hkept, hpointer.trans hinv.pointer, ?_, ?_, ?_, ?_, by simp⟩
  · exact hinv.still_loads hloads
  · intro huntorn
    exact absurd htorn (huntorn event (by simp))
  · intro _
    refine ⟨id, by simp [hstored], fun hm => hid ?_⟩
    obtain ⟨world, hw, rfl⟩ := List.mem_map.mp hm
    exact hinv.mem_worlds hw
  · exact hinv.none_completed_append hcompleted

-- A completed publish: the new world is stored, promised and pointed at.
theorem Consistent.complete (hinv : Consistent workspace_id events machine)
    {event : Event Row Evidence Review} (hcompleted : event.stops_at .completed)
    (hclaims : ¬event.stops_at .after_claims) {disk : Disk Row Evidence Review}
    {world : StoredWorld Row Evidence Review} {after : Handle} {ids : List String}
    (hid : world.world_state_id ∉ machine.disk.worlds.keys)
    (hkept : Kept disk disk.sequence) (hpointer : disk.pointer = some world.world_state_id)
    (hstored : disk.stored = machine.disk.stored ++ [world.world_state_id])
    (hloads : StillLoads workspace_id machine.disk disk)
    (htruthy : truthy (some world.world_state_id) = true)
    (hload : disk.load_world workspace_id (some world.world_state_id) = some world)
    (hworkspace : after.workspace_id = workspace_id) (hsequence : after.sequence = disk.sequence)
    (hregistry : after.registry.workspace_id = workspace_id)
    (hpub : Published after.registry ids)
    (hids : ∀ id ∈ ids, ∃ number ≤ disk.sequence, id = world_id number) :
    Consistent workspace_id (events ++ [event])
      { disk := disk, live := some after, completed := machine.completed ++ [world] } := by
  refine ⟨hkept, by simp [hpointer], ?_, ?_, ?_, ?_, ?_⟩
  · intro other ho
    rcases List.mem_append.mp ho with ho | ho
    · exact hinv.still_loads hloads other ho
    · obtain rfl := List.mem_singleton.mp ho
      exact ⟨htruthy, hload⟩
  · intro huntorn
    have hold := hinv.untorn (fun other ho => huntorn other (List.mem_append_left _ ho))
    simp [hstored, hold]
  · rintro ⟨other, ho, htorn⟩
    rcases List.mem_append.mp ho with ho | ho
    · obtain ⟨id, hs, hnot⟩ := hinv.torn ⟨other, ho, htorn⟩
      refine ⟨id, by simp [hstored, hs], fun hm => ?_⟩
      rw [List.map_append, List.mem_append] at hm
      refine hid ?_
      rcases hm with hm | hm
      · exact absurd hm hnot
      · obtain rfl := List.mem_singleton.mp hm
        exact List.mem_of_mem_filter hs
    · exact absurd (List.mem_singleton.mp ho ▸ htorn) hclaims
  · constructor
    · intro hnil
      simp at hnil
    · exact fun hnone => absurd hcompleted (hnone event (by simp))
  · intro handle hlive
    obtain rfl := Option.some.inj hlive
    exact ⟨hworkspace, hsequence, hregistry, ids, hpub, hids⟩

theorem load_world_of_files {disk : Disk Row Evidence Review} {id : String} {file : WorldFile}
    {contents : ClaimsFile Row Evidence Review} (htruthy : truthy (some id) = true)
    (hworld : disk.worlds.get? id = some file) (hclaims : disk.claims.get? id = some contents) :
    disk.load_world workspace_id (some id) = some
      { world_state_id := id
        workspace_id := workspace_id
        manifest := file.manifest
        receipt := file.receipt
        artifact_hashes := file.artifact_hashes
        claims := contents.claims
        evidence_index := contents.evidence_index
        review_queue := contents.review_queue
        cursor := contents.cursor
        built_at := file.built_at } := by
  simp [Disk.load_world, htruthy, hworld, hclaims]

section Files

variable (disk : Disk Row Evidence Review) (candidate : Candidate Row Evidence Review)
  (workspace_id : String) (result : PublishResult)

-- The directory after each of the four writes of the next publish.
def wrote_meta : Disk Row Evidence Review :=
  { disk with meta_file := some ⟨STORE_VERSION, disk.sequence + 1, workspace_id⟩ }

def wrote_world : Disk Row Evidence Review :=
  { wrote_meta disk workspace_id with
    worlds := disk.worlds.set (world_id (disk.sequence + 1))
      (world_file candidate (disk.sequence + 1) result) }

def wrote_claims : Disk Row Evidence Review :=
  { wrote_world disk candidate workspace_id result with
    claims := disk.claims.set (world_id (disk.sequence + 1)) candidate.contents }

def wrote_pointer : Disk Row Evidence Review :=
  { wrote_claims disk candidate workspace_id result with
    pointer := some (world_id (disk.sequence + 1)) }

variable {disk}

theorem Kept.wrote_meta (hkept : Kept disk disk.sequence) :
    Kept (wrote_meta disk workspace_id) disk.sequence :=
  ⟨hkept.accepted, hkept.numbered, hkept.described⟩

theorem Kept.wrote_world (hkept : Kept disk disk.sequence)
    (hactivated : result.world_state.activated_at.isSome = true) :
    Kept (wrote_world disk candidate workspace_id result) (disk.sequence + 1) :=
  (hkept.wrote_meta workspace_id).write_world (Nat.lt_succ_self _) _ hactivated
    candidate.verified candidate.passed

theorem mem_wrote_world :
    world_id (disk.sequence + 1) ∈
      (wrote_world disk candidate workspace_id result).worlds.keys :=
  (Dict.mem_keys_set _ _ _ _).mpr (Or.inl rfl)

theorem Kept.wrote_claims (hkept : Kept disk disk.sequence)
    (hactivated : result.world_state.activated_at.isSome = true) :
    Kept (wrote_claims disk candidate workspace_id result) (disk.sequence + 1) :=
  (hkept.wrote_world candidate workspace_id result hactivated).write_claims
    (mem_wrote_world candidate workspace_id result) _

theorem Kept.not_described (hkept : Kept disk disk.sequence) :
    world_id (disk.sequence + 1) ∉ disk.claims.keys := fun hm =>
  hkept.fresh (Nat.lt_succ_self _) (hkept.described _ hm)

theorem stored_wrote_world (hkept : Kept disk disk.sequence) :
    (wrote_world disk candidate workspace_id result).stored = disk.stored :=
  stored_write_world (hkept.fresh (Nat.lt_succ_self _)) hkept.not_described _

theorem stored_wrote_claims (hkept : Kept disk disk.sequence) :
    (wrote_claims disk candidate workspace_id result).stored =
      disk.stored ++ [world_id (disk.sequence + 1)] := by
  have hkeys : (wrote_world disk candidate workspace_id result).worlds.keys =
      disk.worlds.keys ++ [world_id (disk.sequence + 1)] :=
    Dict.keys_set_of_not_mem _ _ (hkept.fresh (Nat.lt_succ_self _))
  rw [← stored_wrote_world candidate workspace_id result hkept]
  exact stored_write_claims hkeys hkept.not_described _

theorem loads_wrote (hkept : Kept disk disk.sequence) (target : String)
    (htarget : target ∈ disk.worlds.keys) (htruthy : truthy (some target) = true) :
    (wrote_meta disk workspace_id).load_world workspace_id (some target) =
        disk.load_world workspace_id (some target) ∧
      (wrote_world disk candidate workspace_id result).load_world workspace_id (some target) =
        disk.load_world workspace_id (some target) ∧
      (wrote_claims disk candidate workspace_id result).load_world workspace_id (some target) =
        disk.load_world workspace_id (some target) ∧
      (wrote_pointer disk candidate workspace_id result).load_world workspace_id (some target) =
        disk.load_world workspace_id (some target) := by
  have hne : target ≠ world_id (disk.sequence + 1) := fun h =>
    hkept.fresh (Nat.lt_succ_self _) (h ▸ htarget)
  simp [Disk.load_world, wrote_meta, wrote_world, wrote_claims, wrote_pointer, htruthy,
    Dict.get?_set_of_ne _ _ hne]

theorem load_wrote_pointer :
    (wrote_pointer disk candidate workspace_id result).load_world workspace_id
        (some (world_id (disk.sequence + 1))) =
      some (promised_world workspace_id (disk.sequence + 1) candidate) := by
  have hworld : (wrote_pointer disk candidate workspace_id result).worlds.get?
      (world_id (disk.sequence + 1)) = some (world_file candidate (disk.sequence + 1) result) :=
    Dict.get?_set_self _ _ _
  have hclaims : (wrote_pointer disk candidate workspace_id result).claims.get?
      (world_id (disk.sequence + 1)) = some candidate.contents := Dict.get?_set_self _ _ _
  exact load_world_of_files (truthy_world_id _) hworld hclaims

end Files

theorem Consistent.step (hinv : Consistent workspace_id events machine)
    (event : Event Row Evidence Review) :
    ∃ next, machine.step workspace_id event = .ok next ∧
      Consistent workspace_id (events ++ [event]) next := by
  have hkept := hinv.kept
  cases event with
  | exit =>
      have hno : ∀ stop, ¬(Event.exit : Event Row Evidence Review).stops_at stop := by
        rintro stop ⟨_, h⟩
        cases h
      exact ⟨_, rfl, hinv.end_early (hno _) (hno _) hkept rfl rfl (fun _ _ _ => rfl)⟩
  | publish candidate stop =>
      obtain ⟨handle, hhandle, hworkspace, hsequence, hregistry, ids, hpub, hids⟩ := hinv.handle
      rw [← hsequence] at hids
      obtain ⟨result, after, hactivated, hafter, hseq, hreg, hpub', hbuild⟩ :=
        publish_build_ok hpub hids candidate machine.disk
      have hstops : ∀ other, (Event.publish candidate stop).stops_at other ↔ stop = other := by
        intro other
        refine ⟨fun ⟨_, h⟩ => ?_, fun h => ⟨candidate, h ▸ rfl⟩⟩
        cases h
        rfl
      have hloads := loads_wrote candidate workspace_id result hkept
      rw [hsequence, hworkspace] at hbuild
      cases stop with
      | before_writes =>
          refine ⟨{ disk := machine.disk, live := none, completed := machine.completed }, ?_, ?_⟩
          · simp [Machine.step, hhandle, hbuild, Stop.writes]
          · exact hinv.end_early (by simp [hstops]) (by simp [hstops]) hkept rfl rfl
              (fun _ _ _ => rfl)
      | after_meta =>
          refine ⟨{ disk := wrote_meta machine.disk workspace_id, live := none,
                    completed := machine.completed }, ?_, ?_⟩
          · simp [Machine.step, hhandle, hbuild, Stop.writes, publish_writes, wrote_meta]
          · exact hinv.end_early (by simp [hstops]) (by simp [hstops])
              ((hkept.wrote_meta workspace_id).mono (Nat.le_succ _)) rfl rfl
              (fun target ht htruthy => (hloads target ht htruthy).1)
      | after_world =>
          refine ⟨{ disk := wrote_world machine.disk candidate workspace_id result, live := none,
                    completed := machine.completed }, ?_, ?_⟩
          · simp [Machine.step, hhandle, hbuild, Stop.writes, publish_writes, wrote_world, wrote_meta]
          · exact hinv.end_early (by simp [hstops]) (by simp [hstops])
              (hkept.wrote_world candidate workspace_id result hactivated) rfl
              (stored_wrote_world candidate workspace_id result hkept)
              (fun target ht htruthy => (hloads target ht htruthy).2.1)
      | after_claims =>
          refine ⟨{ disk := wrote_claims machine.disk candidate workspace_id result, live := none,
                    completed := machine.completed }, ?_, ?_⟩
          · simp [Machine.step, hhandle, hbuild, Stop.writes, publish_writes, wrote_claims,
              wrote_world, wrote_meta]
          · exact hinv.end_torn (by simp [hstops]) (by simp [hstops])
              (hkept.fresh (Nat.lt_succ_self _))
              (hkept.wrote_claims candidate workspace_id result hactivated) rfl
              (stored_wrote_claims candidate workspace_id result hkept)
              (fun target ht htruthy => (hloads target ht htruthy).2.2.1)
      | completed =>
          refine ⟨{ disk := wrote_pointer machine.disk candidate workspace_id result
                    live := some after
                    completed := machine.completed ++
                      [promised_world workspace_id after.sequence candidate] }, ?_, ?_⟩
          · simp [Machine.step, hhandle, hbuild, Stop.writes, publish_writes, wrote_pointer,
              wrote_claims, wrote_world, wrote_meta]
          · rw [hseq, hsequence]
            refine hinv.complete (by simp [hstops]) (by simp [hstops])
              (hkept.fresh (Nat.lt_succ_self _)) ?_ rfl
              (stored_wrote_claims candidate workspace_id result hkept)
              (fun target ht htruthy => (hloads target ht htruthy).2.2.2) (truthy_world_id _)
              (load_wrote_pointer candidate workspace_id result) (hafter.trans hworkspace) (hseq.trans (by rw [hsequence]; rfl))
              (hreg.trans hregistry) hpub' ?_
            · have hclaims := hkept.wrote_claims candidate workspace_id result hactivated
              exact ⟨hclaims.accepted, hclaims.numbered, hclaims.described⟩
            · intro id hid
              rcases List.mem_append.mp hid with hid | hid
              · obtain ⟨number, hle, he⟩ := hids id hid
                refine ⟨number, ?_, he⟩
                rw [hsequence] at hle
                exact hle.trans (Nat.le_succ _)
              · exact ⟨machine.disk.sequence + 1, le_rfl, by
                  rw [List.mem_singleton.mp hid, hsequence]⟩

theorem Consistent.run (pending : List (Event Row Evidence Review))
    (hinv : Consistent workspace_id events machine) :
    ∃ final, pending.foldlM (Machine.step workspace_id) machine = .ok final ∧
      Consistent workspace_id (events ++ pending) final := by
  induction pending generalizing events machine with
  | nil => exact ⟨machine, rfl, by simpa using hinv⟩
  | cons event rest ih =>
      obtain ⟨next, hstep, hnext⟩ := hinv.step event
      obtain ⟨final, hrest, hfinal⟩ := ih hnext
      exact ⟨final, by simp [hstep, hrest, Bind.bind, Except.bind], by simpa using hfinal⟩

end Run

-- What the registry tells a reader about the past.
def WorldStateRegistry.shows_active (registry : WorldStateRegistry) (id : String) : Prop :=
  id ∈ registry.history ∨ ∃ state, registry.states.get? id = some state ∧
    (state.status = .ACTIVE ∨ state.status = .SUPERSEDED ∨ state.status = .ROLLED_BACK ∨
      state.activated_at.isSome = true)

-- The registry rebuilt from the directory agrees with the pointer and with history.
def RegistryFaithful (workspace_id : String) (machine : Machine Row Evidence Review) : Prop :=
  ∃ registry, machine.disk.load_registry workspace_id = .ok registry ∧
    registry.current.map WorldState.world_state_id = machine.disk.pointer ∧
    ∀ id, registry.shows_active id → id ∈ machine.completed.map StoredWorld.world_state_id

-- What reopening the directory is to give, whatever was running before.
structure Reopens (workspace_id : String) (machine : Machine Row Evidence Review) : Prop where
  world : machine.disk.load_world workspace_id none = machine.completed.getLast?
  registry : RegistryFaithful workspace_id machine
  next : ∀ candidate : Candidate Row Evidence Review, ∃ handle after disk,
    machine.disk.reopen workspace_id = .ok handle ∧
    publish_build candidate machine.disk handle Stop.completed.writes = .ok (after, disk) ∧
    handle.next_world_state_id ∉ machine.disk.worlds.keys ∧
    handle.next_world_state_id ∉ machine.disk.claims.keys ∧
    handle.next_world_state_id ∉ machine.completed.map StoredWorld.world_state_id

section Reopening

variable {workspace_id : String} {events : List (Event Row Evidence Review)}
  {machine : Machine Row Evidence Review}

theorem Consistent.loads_last (hinv : Consistent workspace_id events machine) :
    machine.disk.load_world workspace_id none = machine.completed.getLast? := by
  have hpointer := hinv.pointer
  cases hlast : machine.completed.getLast? with
  | none =>
      rw [hlast] at hpointer
      simp [Disk.load_world, truthy, hpointer]
  | some world =>
      rw [hlast] at hpointer
      obtain ⟨htruthy, hload⟩ := hinv.loads world (List.mem_of_getLast? hlast)
      rw [← hload]
      simp [Disk.load_world, hpointer, truthy]

theorem Consistent.opens (hinv : Consistent workspace_id events machine) :
    ∃ registry, machine.disk.load_registry workspace_id = .ok registry ∧
      Published registry (if machine.completed = [] then [] else machine.disk.stored) := by
  obtain ⟨registry, hload, _, hpub⟩ := Disk.load_registry_ok hinv.kept.accepted workspace_id
  refine ⟨registry, hload, ?_⟩
  rw [hinv.kept.history_ids, hinv.pointer] at hpub
  by_cases hnil : machine.completed = []
  · simpa [hnil] using hpub
  · have hsome : (machine.completed.getLast?).isSome = true := by
      rw [List.getLast?_isSome]
      exact hnil
    obtain ⟨world, hw⟩ := Option.isSome_iff_exists.mp hsome
    simpa [hnil, hw, Disk.stored] using hpub

theorem Published.shown {registry : WorldStateRegistry} {ids : List String}
    (hpub : Published registry ids) {id : String} (hshown : registry.shows_active id) :
    id ∈ ids := by
  rcases hshown with hh | ⟨state, hs, _⟩
  · exact hpub.history ▸ hh
  · exact (hpub.states id).mp ((registry.states.mem_keys_iff id).mpr ⟨state, hs⟩)

theorem Published.current_name {registry : WorldStateRegistry} {ids : List String}
    (hpub : Published registry ids) (htruthy : ∀ id ∈ ids, truthy (some id) = true) :
    registry.current.map WorldState.world_state_id = ids.getLast? := by
  unfold WorldStateRegistry.current
  rw [hpub.current]
  cases hlast : ids.getLast? with
  | none => simp [truthy]
  | some id =>
      have hm := List.mem_of_getLast? hlast
      obtain ⟨state, hs⟩ := (registry.states.mem_keys_iff id).mp ((hpub.states id).mpr hm)
      simp [htruthy id hm, hs, hpub.names id state hs]

theorem Consistent.faithful_iff (hinv : Consistent workspace_id events machine) :
    RegistryFaithful workspace_id machine ↔
      (∀ event ∈ events, ¬event.stops_at .after_claims) ∨
        ∀ event ∈ events, ¬event.stops_at .completed := by
  obtain ⟨registry, hload, hpub⟩ := hinv.opens
  constructor
  · rintro ⟨found, hfound, _, hshown⟩
    rw [hload] at hfound
    obtain rfl := Except.ok.inj hfound
    by_contra hboth
    push Not at hboth
    obtain ⟨⟨torn, ht, htorn⟩, completed, hc, hcompleted⟩ := hboth
    have hne : machine.completed ≠ [] := fun hnil =>
      (hinv.none_completed.mp hnil) completed hc hcompleted
    obtain ⟨id, hs, hnot⟩ := hinv.torn ⟨torn, ht, htorn⟩
    refine hnot (hshown id (Or.inl ?_))
    rw [hpub.history, if_neg hne]
    exact hs
  · intro hevents
    have hids : (if machine.completed = [] then [] else machine.disk.stored) =
        machine.completed.map StoredWorld.world_state_id := by
      by_cases hnil : machine.completed = []
      · simp [hnil]
      · rw [if_neg hnil]
        exact hinv.untorn (hevents.resolve_right (fun h => hnil (hinv.none_completed.mpr h)))
    rw [hids] at hpub
    refine ⟨registry, hload, ?_, fun id hshown => hpub.shown hshown⟩
    rw [hpub.current_name, hinv.pointer, List.getLast?_map]
    intro id hid
    obtain ⟨world, hw, rfl⟩ := List.mem_map.mp hid
    exact (hinv.loads world hw).1

theorem Consistent.next_publish (hinv : Consistent workspace_id events machine)
    (candidate : Candidate Row Evidence Review) : ∃ handle after disk,
      machine.disk.reopen workspace_id = .ok handle ∧
      publish_build candidate machine.disk handle Stop.completed.writes = .ok (after, disk) ∧
      handle.next_world_state_id ∉ machine.disk.worlds.keys ∧
      handle.next_world_state_id ∉ machine.disk.claims.keys ∧
      handle.next_world_state_id ∉ machine.completed.map StoredWorld.world_state_id := by
  have hreopened : Consistent workspace_id events { machine with live := none } :=
    ⟨hinv.kept, hinv.pointer, hinv.loads, hinv.untorn, hinv.torn, hinv.none_completed, by simp⟩
  obtain ⟨handle, hhandle, _, hsequence, _, ids, hpub, hids⟩ := hreopened.handle
  rw [← hsequence] at hids
  obtain ⟨result, after, _, _, _, _, _, hbuild⟩ :=
    publish_build_ok hpub hids candidate machine.disk
  have hfresh : handle.next_world_state_id ∉ machine.disk.worlds.keys := by
    rw [Handle.next_world_state_id, hsequence]
    exact hinv.kept.fresh (Nat.lt_succ_self _)
  refine ⟨handle, after, _, hhandle, hbuild _, hfresh,
    fun hm => hfresh (hinv.kept.described _ hm), fun hm => hfresh ?_⟩
  obtain ⟨world, hw, he⟩ := List.mem_map.mp hm
  exact he ▸ hinv.mem_worlds hw

end Reopening

-- Every run keeps its worlds and its numbering; the rebuilt registry is right
-- unless a stored world that nobody published is replayed.
theorem reopens_iff (workspace_id : String) (events : List (Event Row Evidence Review)) :
    ∃ machine, Machine.run workspace_id events = .ok machine ∧
      (Reopens workspace_id machine ↔
        (∀ event ∈ events, ¬event.stops_at .after_claims) ∨
          ∀ event ∈ events, ¬event.stops_at .completed) := by
  have hstart : Consistent workspace_id [] ({} : Machine Row Evidence Review) := Consistent.start
  obtain ⟨machine, hrun, hinv⟩ := hstart.run events
  rw [List.nil_append] at hinv
  refine ⟨machine, hrun, ?_⟩
  rw [← hinv.faithful_iff]
  exact ⟨Reopens.registry, fun hfaithful => ⟨hinv.loads_last, hfaithful, hinv.next_publish⟩⟩

-- A build without artifacts, as small as the store takes one.
def empty_build (world_state_id : String) : Candidate Unit Unit Unit where
  compiler_version := "akc-compiler-runtime/0.1.0"
  manifest := ⟨world_state_id, "akc-compiler-runtime/0.1.0", .empty, "sha256:0"⟩
  receipt := ⟨"rcpt-0", true, true, true, none, []⟩
  artifacts := .empty
  contents := ⟨.empty, .empty, [], .empty⟩
  verified := rfl
  passed := rfl

-- The second publish stops before its pointer write: readers are still sent to
-- WS-1 while the reopened registry has WS-2 as its active state.
theorem torn_publish_goes_live : ∃ machine,
    Machine.run "personal" [.publish (empty_build "WS-1") .completed,
      .publish (empty_build "WS-2") .after_claims] = .ok machine ∧
    machine.disk.pointer = some "WS-1" ∧
    (machine.disk.load_registry "personal").toOption.map (fun registry =>
      registry.current.map WorldState.world_state_id) = some (some "WS-2") ∧
    ¬Reopens "personal" machine := by
  refine ⟨_, rfl, by decide, by decide, fun hopens => ?_⟩
  obtain ⟨registry, hload, hcurrent, _⟩ := hopens.registry
  have hlive : (Except.ok registry : Except String WorldStateRegistry).toOption.map (fun registry =>
      registry.current.map WorldState.world_state_id) = some (some "WS-2") := by
    rw [← hload]
    decide
  have hnamed : registry.current.map WorldState.world_state_id = some "WS-2" :=
    Option.some.inj hlive
  rw [hcurrent] at hnamed
  revert hnamed
  decide

end KnowledgeCompiler.World
