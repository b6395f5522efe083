import KnowledgeCompiler.Reuse.Guarding

namespace KnowledgeCompiler.Reuse

open Lib Method

-- A `put` past its checks, with what it goes on to write.
structure Put (hasher : Hasher) where
  publication : Publication
  key : String
  envelope : List (String × Json)
  checked : prepared hasher publication = .ok (key, envelope)

def Put.entry {hasher : Hasher} (put : Put hasher) : Entry := ⟨put.publication.artifact, put.envelope⟩

-- The store with the puts that have its first write behind them and the second one before them.
-- The dictionaries keep which put wrote the file under a key last, and `begun` all of them.
structure Directory (hasher : Hasher) where
  store : ActionKeyStore := {}
  pending : List (Put hasher) := []
  begun : List (Put hasher) := []
  laid : Dict String (Put hasher) := .empty
  committed : Dict String (Put hasher) := .empty

inductive Move (hasher : Hasher)
  | write_artifact (put : Put hasher)
  | write_envelope (index : Nat)
  | crash (index : Nat)

namespace Directory

variable {hasher : Hasher}

def step (directory : Directory hasher) : Move hasher → Directory hasher
  | .write_artifact put => { directory with
      store := directory.store.replace_artifact put.key put.publication.artifact
      pending := directory.pending ++ [put]
      begun := directory.begun ++ [put]
      laid := directory.laid.set put.key put }
  | .write_envelope index =>
      match directory.pending[index]? with
      | some put => { directory with
          store := directory.store.replace_envelope put.key put.envelope
          pending := directory.pending.eraseIdx index
          committed := directory.committed.set put.key put }
      | none => directory
  | .crash index => { directory with pending := directory.pending.eraseIdx index }

def run (directory : Directory hasher) (moves : List (Move hasher)) : Directory hasher :=
  moves.foldl step directory

-- `get` reads the envelope in the directory as it is first, and the artifact in it as it is then.
def interleaved_get (earlier later : Directory hasher) (key : String) :
    Except StoreFault (Option Entry) := do
  let clean_key ← _validated_key key
  .ok (fetched (earlier.store.envelopes.get? clean_key) (later.store.artifacts.get? clean_key))

theorem interleaved_get_self (directory : Directory hasher) (key : String) :
    interleaved_get directory directory key = directory.store.get key := rfl

-- The four reads of the guard, one after the other.
def interleaved_guard (builtins : Builtins) (earlier later verifying last : Directory hasher)
    (disk : String → Option ByteArray) (key : String) (contract : ExecutionContract)
    (required_validations : List String) : Except StoreFault ReuseDecision := do
  let clean_key ← _validated_key key
  guarded hasher builtins disk key clean_key contract required_validations
    (fetched (earlier.store.envelopes.get? clean_key) (later.store.artifacts.get? clean_key))
    (fetched (verifying.store.envelopes.get? clean_key) (last.store.artifacts.get? clean_key))

theorem interleaved_guard_self (builtins : Builtins) (directory : Directory hasher)
    (disk : String → Option ByteArray) (key : String) (contract : ExecutionContract)
    (required_validations : List String) :
    interleaved_guard builtins directory directory directory directory disk key contract
      required_validations =
    reuse_guard hasher builtins directory.store disk key contract required_validations := rfl

theorem interleaved_guard_of {builtins : Builtins} {earlier later verifying last : Directory hasher}
    {disk : String → Option ByteArray} {key clean_key : String} {contract : ExecutionContract}
    {required_validations : List String} (hclean : _validated_key key = .ok clean_key) :
    interleaved_guard builtins earlier later verifying last disk key contract required_validations =
    guarded hasher builtins disk key clean_key contract required_validations
      (fetched (earlier.store.envelopes.get? clean_key) (later.store.artifacts.get? clean_key))
      (fetched (verifying.store.envelopes.get? clean_key) (last.store.artifacts.get? clean_key)) := by
  unfold interleaved_guard
  rw [hclean]
  rfl

structure Sound (directory : Directory hasher) : Prop where
  artifacts : ∀ key, directory.store.artifacts.get? key =
    (directory.laid.get? key).map fun put => put.publication.artifact
  envelopes : ∀ key, directory.store.envelopes.get? key =
    (directory.committed.get? key).map fun put => .obj put.envelope
  laid : ∀ key put, directory.laid.get? key = some put → put ∈ directory.begun
  committed : ∀ key put, directory.committed.get? key = some put →
    put ∈ directory.begun ∧ ∃ other, directory.laid.get? key = some other
  pending : ∀ put ∈ directory.pending,
    put ∈ directory.begun ∧ ∃ other, directory.laid.get? put.key = some other

theorem sound_empty : Sound ({} : Directory hasher) where
  artifacts _ := rfl
  envelopes _ := rfl
  laid _ _ hlaid := by cases hlaid
  committed _ _ hcommitted := by cases hcommitted
  pending _ hpending := by cases hpending

theorem sound_write_artifact {directory : Directory hasher} (hsound : Sound directory)
    (put : Put hasher) : Sound (directory.step (.write_artifact put)) := by
  have hlaid : ∀ key, (∃ other, directory.laid.get? key = some other) →
      ∃ other, (directory.laid.set put.key put).get? key = some other := by
    rintro key ⟨other, hother⟩
    rw [Dict.get?_set]
    split
    · exact ⟨put, rfl⟩
    · exact ⟨other, hother⟩
  refine ⟨fun key => ?_, hsound.envelopes, fun key other hother => ?_, fun key other hother => ?_,
    fun other hother => ?_⟩
  · simp only [step, ActionKeyStore.replace_artifact, Dict.get?_set, hsound.artifacts]
    split <;> rfl
  · simp only [step, Dict.get?_set] at hother
    split at hother
    · cases hother
      exact List.mem_append_right _ (List.mem_singleton_self _)
    · exact List.mem_append_left _ (hsound.laid key other hother)
  · obtain ⟨hbegun, hpresent⟩ := hsound.committed key other hother
    exact ⟨List.mem_append_left _ hbegun, hlaid key hpresent⟩
  · rcases List.mem_append.mp hother with hold | hnew
    · obtain ⟨hbegun, hpresent⟩ := hsound.pending other hold
      exact ⟨List.mem_append_left _ hbegun, hlaid other.key hpresent⟩
    · obtain rfl := List.mem_singleton.mp hnew
      exact ⟨List.mem_append_right _ (List.mem_singleton_self _), other, Dict.get?_set_self _ _ _⟩

theorem sound_write_envelope {directory : Directory hasher} (hsound : Sound directory) (index : Nat) :
    Sound (directory.step (.write_envelope index)) := by
  unfold step
  dsimp only
  split
  · rename_i put hput
    have hpending := hsound.pending put (List.mem_of_getElem? hput)
    refine ⟨hsound.artifacts, fun key => ?_, hsound.laid, fun key other hother => ?_,
      fun other hother => hsound.pending other (List.mem_of_mem_eraseIdx hother)⟩
    · simp only [ActionKeyStore.replace_envelope, Dict.get?_set, hsound.envelopes]
      split <;> rfl
    · rw [Dict.get?_set] at hother
      split at hother
      · rename_i hkey
        cases hother
        exact hkey ▸ hpending
      · exact hsound.committed key other hother
  · exact hsound

theorem sound_step {directory : Directory hasher} (hsound : Sound directory) (move : Move hasher) :
    Sound (directory.step move) := by
  cases move with
  | write_artifact put => exact sound_write_artifact hsound put
  | write_envelope index => exact sound_write_envelope hsound index
  | crash index =>
    exact ⟨hsound.artifacts, hsound.envelopes, hsound.laid, hsound.committed,
      fun put hput => hsound.pending put (List.mem_of_mem_eraseIdx hput)⟩

theorem sound_run (moves : List (Move hasher)) {directory : Directory hasher}
    (hsound : Sound directory) : Sound (directory.run moves) := by
  induction moves generalizing directory with
  | nil => exact hsound
  | cons move rest ih => exact ih (sound_step hsound move)

-- What has begun stays begun, and a file that is there stays there.
structure Extends (earlier later : Directory hasher) : Prop where
  begun : ∀ put ∈ earlier.begun, put ∈ later.begun
  laid : ∀ key put, earlier.laid.get? key = some put → ∃ other, later.laid.get? key = some other

theorem extends_step (directory : Directory hasher) (move : Move hasher) :
    Extends directory (directory.step move) := by
  cases move with
  | write_artifact put =>
    refine ⟨fun other hother => List.mem_append_left _ hother, fun key other hother => ?_⟩
    simp only [step, Dict.get?_set]
    split
    · exact ⟨put, rfl⟩
    · exact ⟨other, hother⟩
  | write_envelope index =>
    unfold step
    dsimp only
    split <;> exact ⟨fun _ hbegun => hbegun, fun _ put hput => ⟨put, hput⟩⟩
  | crash index => exact ⟨fun _ hbegun => hbegun, fun _ put hput => ⟨put, hput⟩⟩

theorem extends_run (directory : Directory hasher) (moves : List (Move hasher)) :
    Extends directory (directory.run moves) := by
  induction moves generalizing directory with
  | nil => exact ⟨fun _ hbegun => hbegun, fun _ put hput => ⟨put, hput⟩⟩
  | cons move rest ih =>
    have hstep := extends_step directory move
    have hrest := ih (directory.step move)
    refine ⟨fun put hput => hrest.begun put (hstep.begun put hput), fun key put hput => ?_⟩
    obtain ⟨other, hother⟩ := hstep.laid key put hput
    exact hrest.laid key other hother

-- The artifact in place when it is read has the bytes of the `put` whose envelope was in place when
-- that was read.
def Steady (earlier later : Directory hasher) (key : String) : Prop :=
  ∀ clean_key stored, _validated_key key = .ok clean_key →
    earlier.committed.get? clean_key = some stored →
    ∀ laid, later.laid.get? clean_key = some laid →
      laid.publication.artifact = stored.publication.artifact

def GetsTogether (earlier later : Directory hasher) (key : String) : Prop :=
  ∀ entry, interleaved_get earlier later key = .ok (some entry) →
    ∃ put ∈ later.begun, entry = put.entry

-- Whatever the other two reads of the guard find.
def HitsTogether (earlier later : Directory hasher) (key : String) : Prop :=
  ∀ builtins verifying last disk contract required_validations decision,
    interleaved_guard builtins earlier later verifying last disk key contract required_validations =
      .ok decision → decision.hit = true →
    ∃ put ∈ later.begun, decision.artifact = some put.publication.artifact ∧
      decision.receipt = some (.obj put.publication.receipt)

def Uncollided (directory : Directory hasher) : Prop :=
  ∀ first ∈ directory.begun, ∀ second ∈ directory.begun,
    hasher.hexdigest first.publication.artifact = hasher.hexdigest second.publication.artifact →
    first.publication.artifact = second.publication.artifact

theorem envelope_of_checked (put : Put hasher) :
    lookup put.envelope "artifact_sha256" =
      some (.str (sha256_digest hasher put.publication.artifact)) ∧
    lookup put.envelope "receipt" = some (.obj put.publication.receipt) := by
  obtain ⟨publication, key, envelope, hchecked⟩ := put
  unfold prepared at hchecked
  obtain ⟨clean_key, -, hchecked⟩ := of_bind_eq_ok hchecked
  split at hchecked
  · cases hchecked
    exact ⟨rfl, rfl⟩
  · obtain ⟨_, -, hchecked⟩ := of_bind_eq_ok hchecked
    obtain ⟨_, -, hchecked⟩ := of_bind_eq_ok hchecked
    split at hchecked
    · cases hchecked
    · obtain ⟨_, -, hchecked⟩ := of_bind_eq_ok hchecked
      cases hchecked
      exact ⟨rfl, rfl⟩

-- Each read finds the envelope of the `put` that committed last before it and the artifact of
-- the one that wrote its own last before the second half of the read.
theorem fetched_eq_some {earlier later : Directory hasher} (hearlier : Sound earlier)
    (hlater : Sound later) {clean_key : String} {entry : Entry}
    (hentry : fetched (earlier.store.envelopes.get? clean_key)
      (later.store.artifacts.get? clean_key) = some entry) :
    ∃ stored laid, earlier.committed.get? clean_key = some stored ∧
      later.laid.get? clean_key = some laid ∧
      entry = ⟨laid.publication.artifact, stored.envelope⟩ := by
  rw [hearlier.envelopes, hlater.artifacts] at hentry
  cases hstored : earlier.committed.get? clean_key with
  | none =>
    rw [hstored] at hentry
    cases hentry
  | some stored =>
    cases hlaid : later.laid.get? clean_key with
    | none =>
      rw [hstored, hlaid] at hentry
      cases hentry
    | some laid =>
      rw [hstored, hlaid] at hentry
      cases hentry
      exact ⟨stored, laid, rfl, rfl, rfl⟩

theorem interleaved_get_of {earlier later : Directory hasher} (hearlier : Sound earlier)
    (hlater : Sound later) {key clean_key : String} {stored laid : Put hasher}
    (hclean : _validated_key key = .ok clean_key)
    (hstored : earlier.committed.get? clean_key = some stored)
    (hlaid : later.laid.get? clean_key = some laid) :
    interleaved_get earlier later key =
      .ok (some ⟨laid.publication.artifact, stored.envelope⟩) := by
  unfold interleaved_get
  rw [hclean]
  change Except.ok (fetched (earlier.store.envelopes.get? clean_key)
    (later.store.artifacts.get? clean_key)) = _
  rw [hearlier.envelopes, hlater.artifacts, hstored, hlaid]
  rfl

section Reads

variable {earlier : Directory hasher} {between : List (Move hasher)} {key : String}

theorem getsTogether_of_steady (hearlier : Sound earlier)
    (hsteady : Steady earlier (earlier.run between) key) :
    GetsTogether earlier (earlier.run between) key := by
  intro entry hget
  obtain ⟨clean_key, hclean, hget⟩ := of_bind_eq_ok hget
  obtain ⟨stored, laid, hstored, hlaid, rfl⟩ :=
    fetched_eq_some hearlier (sound_run between hearlier) (Except.ok.inj hget)
  have hbegun := (hearlier.committed clean_key stored hstored).1
  refine ⟨stored, (extends_run earlier between).begun stored hbegun, ?_⟩
  rw [hsteady clean_key stored hclean hstored laid hlaid]
  rfl

theorem hitsTogether_of_steady (hearlier : Sound earlier)
    (hsteady : Steady earlier (earlier.run between) key) :
    HitsTogether earlier (earlier.run between) key := by
  intro builtins verifying last disk contract required_validations decision hguard hhit
  obtain ⟨clean_key, hclean, hguard⟩ := of_bind_eq_ok hguard
  unfold guarded at hguard
  split at hguard
  · cases hguard
    cases hhit
  rename_i entry hentry
  obtain ⟨stored, laid, hstored, hlaid, rfl⟩ :=
    fetched_eq_some hearlier (sound_run between hearlier) hentry
  obtain ⟨intact, -, hguard⟩ := of_bind_eq_ok hguard
  split at hguard
  · obtain ⟨hartifact, hreceipt, -⟩ := judged_hit hguard hhit
    have hbegun := (hearlier.committed clean_key stored hstored).1
    refine ⟨stored, (extends_run earlier between).begun stored hbegun, ?_, ?_⟩
    · rw [hartifact, hsteady clean_key stored hclean hstored laid hlaid]
    · rw [hreceipt]
      exact (envelope_of_checked stored).2
  · cases hguard
    cases hhit

theorem steady_of_getsTogether (hearlier : Sound earlier)
    (huncollided : Uncollided (earlier.run between))
    (htogether : GetsTogether earlier (earlier.run between) key) :
    Steady earlier (earlier.run between) key := by
  intro clean_key stored hclean hstored laid hlaid
  have hlater := sound_run between hearlier
  obtain ⟨put, hput, hentry⟩ := htogether _ (interleaved_get_of hearlier hlater hclean hstored hlaid)
  obtain ⟨hartifact, henvelope⟩ := Entry.mk.inj hentry
  -- the envelope read names the bytes of both puts
  have hdigest : sha256_digest hasher stored.publication.artifact =
      sha256_digest hasher put.publication.artifact := by
    have hstored := (envelope_of_checked stored).1
    rw [henvelope, (envelope_of_checked put).1] at hstored
    exact (Json.str.inj (Option.some.inj hstored)).symm
  have hsame := (String.append_right_inj _).mp hdigest
  have hbegun := (extends_run earlier between).begun stored (hearlier.committed _ _ hstored).1
  rw [hartifact, huncollided stored hbegun put hput hsame]

-- Until the next envelope is written, the entry stored before it is the one to be served.
theorem stored_entry_served_iff (hearlier : Sound earlier) {clean_key : String} {stored : Put hasher}
    (hclean : _validated_key key = .ok clean_key)
    (hstored : earlier.committed.get? clean_key = some stored) :
    interleaved_get earlier (earlier.run between) key = .ok (some stored.entry) ↔
      Steady earlier (earlier.run between) key := by
  have hlater := sound_run between hearlier
  obtain ⟨before, hbefore⟩ := (hearlier.committed clean_key stored hstored).2
  obtain ⟨laid, hlaid⟩ := (extends_run earlier between).laid clean_key before hbefore
  rw [interleaved_get_of hearlier hlater hclean hstored hlaid]
  constructor
  · intro hserved clean_key' stored' hclean' hstored' laid' hlaid'
    obtain rfl := Except.ok.inj (hclean.symm.trans hclean')
    obtain rfl := Option.some.inj (hstored.symm.trans hstored')
    obtain rfl := Option.some.inj (hlaid.symm.trans hlaid')
    exact (Entry.mk.inj (Option.some.inj (Except.ok.inj hserved))).1
  · intro hsteady
    rw [hsteady clean_key stored hclean hstored laid hlaid]
    rfl

end Reads

-- In every schedule of the writes of any puts: before the envelope is read, between the two reads,
-- and whatever comes after.
theorem reads_whole_iff (before between : List (Move hasher)) (key : String) :
    let earlier : Directory hasher := run {} before
    let later := run {} (before ++ between)
    (Steady earlier later key → GetsTogether earlier later key ∧ HitsTogether earlier later key) ∧
    (Uncollided later → GetsTogether earlier later key → Steady earlier later key) ∧
    ∀ clean_key stored, _validated_key key = .ok clean_key →
      earlier.committed.get? clean_key = some stored →
      (interleaved_get earlier later key = .ok (some stored.entry) ↔ Steady earlier later key) := by
  have hearlier : Sound (run ({} : Directory hasher) before) := sound_run before sound_empty
  have hlater : run ({} : Directory hasher) (before ++ between) = (run {} before).run between :=
    List.foldl_append
  dsimp only
  rw [hlater]
  exact ⟨fun hsteady => ⟨getsTogether_of_steady hearlier hsteady, hitsTogether_of_steady hearlier hsteady⟩,
    steady_of_getsTogether hearlier,
    fun clean_key stored hclean hstored => stored_entry_served_iff hearlier hclean hstored⟩

section Torn

variable {first second : Put hasher} {key : String}

-- A second `put` under the key of the first one: its artifact is in place, its envelope is not yet.
def stored (first : Put hasher) : Directory hasher :=
  run {} [.write_artifact first, .write_envelope 0]

def overwritten (first second : Put hasher) : Directory hasher :=
  (stored first).step (.write_artifact second)

def republished (first second : Put hasher) : Directory hasher :=
  (overwritten first second).step (.write_envelope 0)

theorem sound_stored (first : Put hasher) : Sound (stored first) := sound_run _ sound_empty

theorem committed_stored (first : Put hasher) :
    (stored first).committed.get? first.key = some first := by
  simp [stored, run, step]

theorem laid_overwritten (first second : Put hasher) :
    (overwritten first second).laid.get? second.key = some second := by
  simp [overwritten, step]

theorem begun_overwritten (first second : Put hasher) :
    (overwritten first second).begun = [first, second] := by
  simp [overwritten, stored, run, step]

theorem republished_reads (first second : Put hasher) :
    (republished first second).committed.get? second.key = some second ∧
      (republished first second).laid.get? second.key = some second := by
  simp [republished, overwritten, stored, run, step]

theorem torn_get (first second : Put hasher) (hkey : second.key = first.key)
    (hclean : _validated_key key = .ok first.key) :
    interleaved_get (stored first) (overwritten first second) key =
      .ok (some ⟨second.publication.artifact, first.envelope⟩) :=
  interleaved_get_of (sound_stored first) (sound_step (sound_stored first) _) hclean
    (committed_stored first) (hkey ▸ laid_overwritten first second)

theorem torn_hit (first second : Put hasher) {builtins : Builtins} {disk : String → Option ByteArray}
    {contract recorded recorded' : ExecutionContract} {inputs : List InputPair}
    (hkey : second.key = first.key) (hclean : _validated_key key = .ok first.key)
    (hfirst : first.publication.contract = some recorded)
    (hsecond : second.publication.contract = some recorded')
    (hinputs : _normalize_inputs first.publication.inputs = .ok inputs)
    (hmoved : moved builtins recorded contract = none)
    (hfresh : ∀ pair ∈ inputs, _file_digest hasher disk pair.1 = some pair.2) :
    ∃ decision, interleaved_guard builtins (stored first) (overwritten first second)
        (republished first second) (republished first second) disk key contract [] = .ok decision ∧
      decision.hit = true ∧ decision.artifact = some second.publication.artifact ∧
      decision.receipt = some (.obj first.publication.receipt) := by
  have hoverwritten : Sound (overwritten first second) := sound_step (sound_stored first) _
  have hrepublished : Sound (republished first second) := sound_step hoverwritten _
  have hread : fetched ((stored first).store.envelopes.get? first.key)
      ((overwritten first second).store.artifacts.get? first.key) =
      some ⟨second.publication.artifact, first.envelope⟩ := by
    rw [(sound_stored first).envelopes, committed_stored, hoverwritten.artifacts, ← hkey,
      laid_overwritten]
    rfl
  have hreread : fetched ((republished first second).store.envelopes.get? first.key)
      ((republished first second).store.artifacts.get? first.key) = some second.entry := by
    rw [hrepublished.envelopes, hrepublished.artifacts, ← hkey, (republished_reads first second).1,
      (republished_reads first second).2]
    rfl
  have hverified : verified hasher builtins first.key second.entry = .ok true :=
    hkey ▸ verified_of_prepared second.checked hsecond
  -- what the first envelope records does not depend on the bytes beside it
  have hrecorded : Recorded builtins ⟨second.publication.artifact, first.envelope⟩ recorded inputs := by
    obtain ⟨-, normalized, text, hnormalized, -, -, -, henvelope⟩ := prepared_eq_ok first.checked hfirst
    cases hinputs.symm.trans hnormalized
    rw [henvelope]
    exact ⟨_, rfl, contract_of_guard_json builtins rfl, _, rfl, input_pairs_map builtins inputs⟩
  have hjudged : judged hasher builtins disk contract [] ⟨second.publication.artifact, first.envelope⟩ =
      .ok _ := judged_of_recorded hrecorded hmoved hfresh (by simp)
  have hguard : guarded hasher builtins disk key first.key contract []
      (some ⟨second.publication.artifact, first.envelope⟩) (some second.entry) = .ok _ :=
    (guarded_of_verified hverified).trans hjudged
  rw [← hread, ← hreread] at hguard
  have hreceipt := (envelope_of_checked first).2
  rw [hreceipt] at hguard
  exact ⟨_, (interleaved_guard_of hclean).trans hguard, rfl, rfl, rfl⟩

end Torn

def second_publication : Publication := tenant_publication .empty [("pages", .int 2)]

theorem torn_reads :
    ∃ first second : Put sha256, first.publication = first_publication ∧
      second.publication = second_publication ∧
      interleaved_get (stored first) (stored first) first_key = .ok (some first.entry) ∧
      interleaved_get (stored first) (overwritten first second) first_key ≠ .ok (some first.entry) ∧
      ¬ GetsTogether (stored first) (overwritten first second) first_key ∧
      ¬ HitsTogether (stored first) (overwritten first second) first_key := by
  obtain ⟨envelope, hfirst⟩ := exists_prepared_tenant "bundle".toUTF8 [("pages", .int 1)]
  obtain ⟨envelope', hsecond⟩ := exists_prepared_tenant .empty [("pages", .int 2)]
  let first : Put sha256 := ⟨first_publication, first_key, envelope, hfirst⟩
  let second : Put sha256 := ⟨second_publication, first_key, envelope', hsecond⟩
  have hclean : _validated_key first_key = .ok first.key := (prepared_eq_ok hfirst rfl).1
  have hstored : interleaved_get (stored first) (stored first) first_key = .ok (some first.entry) :=
    interleaved_get_of (sound_stored first) (sound_stored first) hclean (committed_stored first)
      (by simp [stored, run, step])
  have htorn := torn_get first second rfl hclean
  have hartifact : second_publication.artifact ≠ first_publication.artifact := by decide
  have hreceipt : second_publication.receipt ≠ first_publication.receipt := by
    simp [second_publication, first_publication, tenant_publication]
  refine ⟨first, second, rfl, rfl, hstored, ?_, ?_, ?_⟩
  · rw [htorn]
    intro hsame
    exact hartifact (Entry.mk.inj (Option.some.inj (Except.ok.inj hsame))).1
  · intro htogether
    obtain ⟨put, hput, hentry⟩ := htogether _ htorn
    obtain ⟨hbytes, henvelope⟩ := Entry.mk.inj hentry
    rw [begun_overwritten] at hput
    rcases List.mem_pair.mp hput with rfl | rfl
    · exact hartifact hbytes
    · have hsame := (envelope_of_checked first).2
      rw [henvelope, (envelope_of_checked second).2] at hsame
      exact hreceipt (Json.obj.inj (Option.some.inj hsame))
  · intro htogether
    have hfresh : ∀ pair ∈ ([] : List InputPair), _file_digest sha256 (fun _ => none) pair.1 = some pair.2 := by simp
    obtain ⟨decision, hguard, hhit, hserved, hreceived⟩ := torn_hit first second rfl hclean rfl rfl
      (normalize_of_normal normal_nil) first_contract_moved hfresh
    obtain ⟨put, hput, hsame, hsame'⟩ := htogether _ _ _ _ _ _ _ hguard hhit
    rw [hserved] at hsame
    rw [hreceived] at hsame'
    rw [begun_overwritten] at hput
    rcases List.mem_pair.mp hput with rfl | rfl
    · exact hartifact (Option.some.inj hsame)
    · exact hreceipt (Json.obj.inj (Option.some.inj hsame')).symm

end Directory

end KnowledgeCompiler.Reuse
