import KnowledgeCompiler.Desktop.Watcher
import Mathlib.Data.List.Pairwise

namespace KnowledgeCompiler.Desktop

open Lib Posix

def Before (first second : Record) : Prop :=
  first.sequence < second.sequence ∧ first.manifest_revision < second.manifest_revision

-- No number is used twice: not by records that were created, nor by two that reached the sink.
structure CountersUnique (watch : Watch) : Prop where
  increasing : (event_records watch.journal).Pairwise Before
  distinct : ∀ first ∈ watch.attempted, ∀ second ∈ watch.attempted,
    first.event_key ≠ second.event_key →
      first.sequence ≠ second.sequence ∧ first.manifest_revision ≠ second.manifest_revision

def numbered : Line → Bool
  | .ack _ => false
  | _ => true

-- No state line has been written since the last record was.
def ends_with_event (journal : List Line) : Bool :=
  match (journal.filter numbered).getLast? with
  | some (.event _) => true
  | _ => false

-- The condition: a watcher is started on a journal that has the numbers of its last record.
def counters_saved (watch : Watch) : Action → Prop
  | .start => ends_with_event watch.journal = false
  | _ => True

instance (watch : Watch) (action : Action) : Decidable (counters_saved watch action) := by
  cases action <;> unfold counters_saved <;> infer_instance

def Bounds (journal : List Line) (manifest_revision sequence : Nat) : Prop :=
  ∀ record ∈ event_records journal,
    record.sequence ≤ sequence ∧ record.manifest_revision ≤ manifest_revision

section Lines

theorem ends_with_event_event (journal : List Line) (record : Record) :
    ends_with_event (journal ++ [.event record]) = true := by
  simp [ends_with_event, numbered]

theorem ends_with_event_ack (journal : List Line) (event_key : String) :
    ends_with_event (journal ++ [.ack event_key]) = ends_with_event journal := by
  simp [ends_with_event, numbered]

theorem Bounds.mono {journal : List Line} {manifest_revision sequence more later : Nat}
    (hbounds : Bounds journal manifest_revision sequence) (hmore : manifest_revision ≤ more)
    (hlater : sequence ≤ later) : Bounds journal more later := fun record hrecord =>
  ⟨(hbounds record hrecord).1.trans hlater, (hbounds record hrecord).2.trans hmore⟩

theorem Bounds.ack {journal : List Line} {manifest_revision sequence : Nat} (event_key : String)
    (hbounds : Bounds journal manifest_revision sequence) :
    Bounds (journal ++ [.ack event_key]) manifest_revision sequence := by
  rw [Bounds, event_records_ack]
  exact hbounds

theorem Bounds.state {journal : List Line} {manifest_revision sequence : Nat} (line : StateLine)
    (hbounds : Bounds journal manifest_revision sequence) :
    Bounds (journal ++ [.state line]) manifest_revision sequence := by
  rw [Bounds, event_records_state]
  exact hbounds

theorem Bounds.event {journal : List Line} {manifest_revision sequence : Nat} {record : Record}
    (hbounds : Bounds journal manifest_revision sequence) (hsequence : record.sequence ≤ sequence)
    (hrevision : record.manifest_revision ≤ manifest_revision) :
    Bounds (journal ++ [.event record]) manifest_revision sequence := by
  rw [Bounds, event_records_event]
  intro other hother
  rcases List.mem_append.mp hother with hbefore | hlast
  · exact hbounds other hbefore
  · cases List.mem_singleton.mp hlast
    exact ⟨hsequence, hrevision⟩

end Lines

-- What the journal and the sink keep whatever the watcher is at.
structure Numbered (casefold : Casefold) (journal : List Line) (attempted : List Record) : Prop where
  ordered : (event_records journal).Pairwise Before
  created : ∀ record ∈ attempted, record ∈ event_records journal
  restored : ends_with_event journal = false →
    Bounds journal (replay casefold journal).manifest_revision (replay casefold journal).sequence

section Numbered

variable {casefold : Casefold} {journal : List Line} {attempted : List Record}

theorem Numbered.ack (hnumbered : Numbered casefold journal attempted) (event_key : String) :
    Numbered casefold (journal ++ [.ack event_key]) attempted where
  ordered := by
    rw [event_records_ack]
    exact hnumbered.ordered
  created := by
    rw [event_records_ack]
    exact hnumbered.created
  restored := by
    rw [ends_with_event_ack, replay_append]
    exact fun hsaved => (hnumbered.restored hsaved).ack event_key

theorem Numbered.state (hnumbered : Numbered casefold journal attempted) {line : StateLine}
    (hline : Bounds journal line.manifest_revision line.sequence) :
    Numbered casefold (journal ++ [.state line]) attempted where
  ordered := by
    rw [event_records_state]
    exact hnumbered.ordered
  created := by
    rw [event_records_state]
    exact hnumbered.created
  restored := by
    rw [replay_append]
    exact fun _ => (hline.mono (le_max_right _ _) (le_max_right _ _)).state line

theorem Numbered.event (hnumbered : Numbered casefold journal attempted) {record : Record}
    (hnew : ∀ other ∈ event_records journal, Before other record) :
    Numbered casefold (journal ++ [.event record]) attempted where
  ordered := by
    rw [event_records_event]
    refine List.pairwise_append.mpr ⟨hnumbered.ordered, List.pairwise_singleton _ _, ?_⟩
    intro other hother last hlast
    cases List.mem_singleton.mp hlast
    exact hnew other hother
  created := by
    rw [event_records_event]
    exact fun other hother => List.mem_append_left _ (hnumbered.created other hother)
  restored := by
    rw [ends_with_event_event]
    exact fun hsaved => nomatch hsaved

theorem Numbered.offered (hnumbered : Numbered casefold journal attempted) {record : Record}
    (hrecord : record ∈ event_records journal) :
    Numbered casefold journal (attempted ++ [record]) where
  ordered := hnumbered.ordered
  created := by
    intro other hother
    rcases List.mem_append.mp hother with hbefore | hlast
    · exact hnumbered.created other hbefore
    · cases List.mem_singleton.mp hlast
      exact hrecord
  restored := hnumbered.restored

theorem Numbered.unique {watch : Watch}
    (hnumbered : Numbered casefold watch.journal watch.attempted) : CountersUnique watch where
  increasing := hnumbered.ordered
  distinct := by
    intro first hfirst second hsecond hkeys
    have hsymm : Std.Symm (fun a b => Before a b ∨ Before b a) := ⟨fun _ _ => Or.symm⟩
    have hall : (event_records watch.journal).Pairwise (fun a b => Before a b ∨ Before b a) :=
      hnumbered.ordered.imp .inl
    have hne : first ≠ second := fun hsame => hkeys (congrArg Record.event_key hsame)
    rcases hall.forall (hnumbered.created first hfirst)
      (hnumbered.created second hsecond) hne with hlt | hgt
    · exact ⟨hlt.1.ne, hlt.2.ne⟩
    · exact ⟨hgt.1.ne', hgt.2.ne'⟩

end Numbered

-- How the numbers that the watcher has in hand stand to those in the journal.
def PhaseBounds (watch : Watch) : Prop :=
  match watch.phase with
  | .down => True
  | .redelivering rest =>
      (∀ record ∈ rest, record ∈ event_records watch.journal) ∧
        Bounds watch.journal watch.manifest_revision watch.sequence
  | .redelivered _ rest =>
      (∀ record ∈ rest, record ∈ event_records watch.journal) ∧
        Bounds watch.journal watch.manifest_revision watch.sequence
  | .reconciling _ | .idle | .batch _ =>
      Bounds watch.journal watch.manifest_revision watch.sequence
  | .recording record _ =>
      (∀ other ∈ event_records watch.journal, Before other record) ∧
        record.manifest_revision = watch.manifest_revision ∧ record.sequence = watch.sequence
  | .delivering record _ | .acknowledging record _ | .persisting record _ =>
      record ∈ event_records watch.journal ∧
        record.manifest_revision = watch.manifest_revision ∧ record.sequence = watch.sequence ∧
        Bounds watch.journal watch.manifest_revision watch.sequence
  | .clearing lines _ =>
      (∀ line ∈ lines, Bounds watch.journal line.manifest_revision line.sequence) ∧
        Bounds watch.journal watch.manifest_revision watch.sequence

structure Counted (casefold : Casefold) (watch : Watch) : Prop where
  numbered : Numbered casefold watch.journal watch.attempted
  bounds : PhaseBounds watch

section Steps

variable {casefold : Casefold} {hasher : Hasher} {config : WatcherConfig}

theorem schedule_file_eq (path : List Name) (root : Root) (now : Int) (watch : Watch) :
    ∃ pending, watch.schedule_file path root now = { watch with pending := pending } := by
  unfold Watch.schedule_file
  split
  · exact ⟨watch.pending, rfl⟩
  · exact ⟨_, rfl⟩

theorem forget_eq (path : List Name) (root : Root) (now : Int) (watch : Watch) :
    ∃ pending, watch.forget path root now = { watch with pending := pending } := by
  unfold Watch.forget
  split
  · exact ⟨watch.pending, rfl⟩
  · exact ⟨_, rfl⟩

theorem schedule_tree_eq (base : List Name) (root : Root) (now : Int) (watch : Watch) :
    ∃ pending, watch.schedule_tree base root now = { watch with pending := pending } := by
  unfold Watch.schedule_tree
  split
  · exact ⟨watch.pending, rfl⟩
  rename_i hbase
  clear hbase
  generalize watch.disk.files.keys.filter (under · base) = children
  induction children generalizing watch with
  | nil => exact ⟨watch.pending, rfl⟩
  | cons child children ih =>
      obtain ⟨pending, hpending⟩ := schedule_file_eq child root now watch
      rw [List.foldl_cons, hpending]
      exact ih { watch with pending := pending }

-- The handling of an event changes what is pending and nothing else.
theorem handle_eq (notice : Notice) (now : Int) (watch : Watch) :
    ∃ pending, watch.handle notice now = { watch with pending := pending } := by
  unfold Watch.handle
  split
  · exact schedule_tree_eq _ _ now watch
  · exact schedule_file_eq _ _ now watch
  · exact schedule_file_eq _ _ now watch
  · exact ⟨watch.pending, rfl⟩
  · exact forget_eq _ _ now watch
  · exact forget_eq _ _ now watch
  · rename_i src_path dest_path hevent
    obtain ⟨pending, hpending⟩ := forget_eq src_path notice.root now watch
    rw [hpending]
    exact schedule_tree_eq dest_path notice.root now { watch with pending := pending }
  · rename_i src_path dest_path hevent
    obtain ⟨pending, hpending⟩ := forget_eq src_path notice.root now watch
    rw [hpending]
    exact schedule_file_eq dest_path notice.root now { watch with pending := pending }

theorem values_unprocessed (journal : List Line) :
    ∀ record ∈ (replay casefold journal).unprocessed.values, record ∈ event_records journal := by
  intro record hrecord
  obtain ⟨entry, hentry, rfl⟩ := List.mem_map.mp hrecord
  exact (unprocessed_records casefold ((Dict.mem_entries_iff _ _ _).mp hentry)).1

theorem Counted.start {watch : Watch} (hcounted : Counted casefold watch)
    (hsaved : ends_with_event watch.journal = false) :
    Counted casefold (watch.start casefold config) := by
  refine ⟨hcounted.numbered, values_unprocessed watch.journal, ?_⟩
  exact (hcounted.numbered.restored hsaved).mono (le_max_right _ _) le_rfl

theorem Counted.removal {watch : Watch} {path : List Name} {root : Root}
    {due : List (List Name × Pending)} (hnumbered : Numbered casefold watch.journal watch.attempted)
    (hbounds : Bounds watch.journal watch.manifest_revision watch.sequence) :
    Counted casefold (watch._apply_removal casefold path root due) := by
  unfold Watch._apply_removal
  split
  · exact ⟨hnumbered, hbounds⟩
  · refine ⟨hnumbered, ?_, hbounds⟩
    intro line hline
    obtain ⟨slot, -, rfl⟩ := List.mem_map.mp hline
    exact hbounds

theorem Counted.stable {watch : Watch} {path : List Name} {root : Root}
    {due : List (List Name × Pending)} (hnumbered : Numbered casefold watch.journal watch.attempted)
    (hbounds : Bounds watch.journal watch.manifest_revision watch.sequence) :
    Counted casefold (watch._process_stable casefold hasher path root due) := by
  unfold Watch._process_stable
  split
  · rename_i content rel_posix hfile hwatched
    dsimp only
    split
    · exact ⟨hnumbered, hbounds⟩
    · generalize hrecord : make_record casefold hasher root rel_posix content _ _ _ = record
      have hsequence : record.sequence = watch.sequence + 1 := by rw [← hrecord]; rfl
      have hrevision : record.manifest_revision = watch.manifest_revision + 1 := by rw [← hrecord]; rfl
      by_cases hvalid : envelope_valid record = true
      · rw [if_pos hvalid]
        refine ⟨hnumbered, fun other hother => ?_, hrevision, hsequence⟩
        rw [Before, hsequence, hrevision]
        exact ⟨Nat.lt_succ_of_le (hbounds other hother).1, Nat.lt_succ_of_le (hbounds other hother).2⟩
      · rw [if_neg hvalid]
        exact ⟨hnumbered, hbounds.mono (Nat.le_succ _) (Nat.le_succ _)⟩
  · exact ⟨hnumbered, hbounds⟩

theorem Counted.advance {watch next : Watch} {accepted : Bool} {now : Int}
    (hcounted : Counted casefold watch)
    (hnext : watch.advance casefold hasher config accepted now = some next) :
    Counted casefold next := by
  obtain ⟨disk, notices, journal, attempted, delivered, phase, pending, dedup, revision, sequence⟩ :=
    watch
  obtain ⟨hnumbered, hbounds⟩ := hcounted
  cases phase with
  | down => cases hnext
  | redelivering rest =>
      cases rest with
      | nil =>
          cases hnext
          exact ⟨hnumbered, hbounds.2⟩
      | cons record rest =>
          cases hnext
          obtain ⟨hrecord, hrest⟩ := List.forall_mem_cons.mp hbounds.1
          cases accepted with
          | true => exact ⟨hnumbered.offered hrecord, hrest, hbounds.2⟩
          | false => exact ⟨hnumbered.offered hrecord, hrest, hbounds.2⟩
  | redelivered record rest =>
      cases hnext
      refine ⟨hnumbered.ack _, fun other hother => ?_, hbounds.2.ack _⟩
      exact (event_records_ack journal _).symm ▸ hbounds.1 other hother
  | reconciling roots =>
      cases roots with
      | nil =>
          cases hnext
          exact ⟨hnumbered, hbounds⟩
      | cons root roots =>
          cases hnext
          obtain ⟨later, hlater⟩ := schedule_tree_eq root.path root now
            ⟨disk, notices, journal, attempted, delivered, .reconciling (root :: roots), pending, dedup,
              revision, sequence⟩
          rw [hlater]
          exact ⟨hnumbered, hbounds⟩
  | idle =>
      cases hnext
      exact ⟨hnumbered, hbounds⟩
  | batch due =>
      cases due with
      | nil =>
          cases hnext
          exact ⟨hnumbered, hbounds⟩
      | cons entry due =>
          cases hnext
          split
          · exact .removal hnumbered hbounds
          · exact .stable hnumbered hbounds
  | recording record due =>
      cases hnext
      obtain ⟨hnew, rfl, rfl⟩ := hbounds
      have hold : Bounds journal record.manifest_revision record.sequence := fun other hother =>
        ⟨(hnew other hother).1.le, (hnew other hother).2.le⟩
      refine ⟨hnumbered.event hnew, ?_, rfl, rfl, hold.event le_rfl le_rfl⟩
      exact (event_records_event journal record).symm ▸ List.mem_concat_self
  | delivering record due =>
      cases hnext
      cases accepted with
      | true => exact ⟨hnumbered.offered hbounds.1, hbounds⟩
      | false => exact ⟨hnumbered.offered hbounds.1, hbounds.2.2.2⟩
  | acknowledging record due =>
      cases hnext
      obtain ⟨hrecord, hrevision, hsequence, hall⟩ := hbounds
      refine ⟨hnumbered.ack _, ?_, hrevision, hsequence, hall.ack _⟩
      exact (event_records_ack journal _).symm ▸ hrecord
  | persisting record due =>
      cases hnext
      obtain ⟨hrecord, rfl, rfl, hall⟩ := hbounds
      exact ⟨@Numbered.state _ _ _ hnumbered (state_line casefold record) hall, hall.state _⟩
  | clearing lines due =>
      cases lines with
      | nil =>
          cases hnext
          exact ⟨hnumbered, hbounds.2⟩
      | cons line lines =>
          cases hnext
          obtain ⟨hline, hlines⟩ := List.forall_mem_cons.mp hbounds.1
          exact ⟨hnumbered.state hline, fun other hother => (hlines other hother).state line,
            hbounds.2.state line⟩

theorem Counted.next {watch next : Watch} {action : Action} (hcounted : Counted casefold watch)
    (hsaved : counters_saved watch action)
    (hnext : step casefold hasher config watch action = some next) : Counted casefold next := by
  have hcases := stepped_of_step hnext
  clear hnext
  obtain ⟨hnumbered, hbounds⟩ := hcounted
  cases action with
  | change disk notices =>
      obtain ⟨-, rfl⟩ | ⟨-, rfl⟩ := hcases
      · exact ⟨hnumbered, hbounds⟩
      · exact ⟨hnumbered, hbounds⟩
  | notify index now =>
      obtain ⟨notice, -, rfl⟩ := hcases
      obtain ⟨pending, hpending⟩ := handle_eq notice now
        { watch with notices := watch.notices.eraseIdx index }
      rw [hpending]
      exact ⟨hnumbered, hbounds⟩
  | start =>
      obtain ⟨-, rfl⟩ := hcases
      exact .start ⟨hnumbered, hbounds⟩ hsaved
  | advance accepted now => exact .advance ⟨hnumbered, hbounds⟩ hcases
  | stop =>
      obtain ⟨-, rfl⟩ := hcases
      exact ⟨hnumbered, trivial⟩
  | crash =>
      subst hcases
      exact ⟨hnumbered, trivial⟩

theorem counted_initial (disk : Disk) : Counted casefold (Watch.initial disk) where
  numbered :=
    { ordered := List.Pairwise.nil
      created := fun _ hrecord => absurd hrecord List.not_mem_nil
      restored := fun _ _ hrecord => absurd hrecord List.not_mem_nil }
  bounds := trivial

-- In a run that starts the watcher only on journals that have the numbers of their last record,
-- no number is given twice.
theorem watcher_counters_unique (disk : Disk) (actions : List Action) (final : Watch)
    (hsaved : Along casefold hasher config counters_saved (Watch.initial disk) actions)
    (hrun : run casefold hasher config (Watch.initial disk) actions = some final) :
    CountersUnique final :=
  (run_keeps (fun _ _ _ => Counted.next) (counted_initial disk) hsaved hrun).numbered.unique

end Steps

section Samples

-- Names of lower-case letters, which fold to themselves.
def same_case : Casefold where
  fold := id
  fold_fold _ := rfl
  fold_uuid36 _ _ := rfl

def inbox : Root where
  path := ["inbox".toList]
  key := "00000000-0000-0000-0000-000000000001"
  exclude_globs := ["*.tmp"]
  key_valid := by decide +kernel

def inbox_config : WatcherConfig where
  roots := [inbox]
  stability_window_seconds := 1
  reconcile_on_start := true
  initial_manifest_revision := 0

def no_files : Disk where
  files := .empty
  plain := by decide
  tree := by decide

def first_file : Disk where
  files := Dict.ofPairs [(["inbox".toList, "a".toList], ⟨#[1]⟩)]
  plain := by decide +kernel
  tree := by decide +kernel

def second_file : Disk where
  files := Dict.ofPairs [(["inbox".toList, "b".toList], ⟨#[2]⟩)]
  plain := by decide +kernel
  tree := by decide +kernel

-- A file is found, and the watcher is stopped after it has been delivered and started again.
def restarted_actions : List Action :=
  [.start] ++ List.replicate 3 (.advance true 0) ++
    [.change first_file [⟨inbox, .file_created ["inbox".toList, "a".toList]⟩], .notify 0 0] ++
    List.replicate 7 (.advance true 5) ++ [.stop, .start] ++ List.replicate 3 (.advance true 9)

theorem restarted_counters_unique :
    ∃ final, run same_case sha256 inbox_config (Watch.initial no_files) restarted_actions = some final ∧
      CountersUnique final := by
  have hruns : (run same_case sha256 inbox_config (Watch.initial no_files) restarted_actions).isSome =
      true := by decide +kernel
  obtain ⟨final, hfinal⟩ := Option.isSome_iff_exists.mp hruns
  exact ⟨final, hfinal, watcher_counters_unique no_files restarted_actions final (by decide +kernel)
    hfinal⟩

-- The process ends after the record of a file is in the journal; the next run gives its number
-- to another file.
def reused_actions : List Action :=
  [.start] ++ List.replicate 3 (.advance true 0) ++
    [.change first_file [⟨inbox, .file_created ["inbox".toList, "a".toList]⟩], .notify 0 0] ++
    List.replicate 3 (.advance true 5) ++ [.crash, .change second_file [], .start] ++
    List.replicate 5 (.advance true 9) ++ List.replicate 4 (.advance true 11)

theorem reused_counters :
    ¬∀ actions final, run same_case sha256 inbox_config (Watch.initial no_files) actions = some final →
      CountersUnique final := by
  intro hunique
  have hreused : ∃ final ∈ run same_case sha256 inbox_config (Watch.initial no_files) reused_actions,
      ∃ first ∈ final.attempted, ∃ second ∈ final.attempted,
        first.event_key ≠ second.event_key ∧ first.sequence = second.sequence := by
    decide +kernel
  obtain ⟨final, hfinal, first, hfirst, second, hsecond, hkeys, hsame⟩ := hreused
  exact ((hunique reused_actions final hfinal).distinct first hfirst second hsecond hkeys).1 hsame

end Samples

end KnowledgeCompiler.Desktop
