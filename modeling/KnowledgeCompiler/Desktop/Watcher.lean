import KnowledgeCompiler.Desktop.Journal
import KnowledgeCompiler.Exporters.SafePath
import KnowledgeCompiler.Lib.Sha256

namespace KnowledgeCompiler.Desktop

open Lib Posix Exporters

section Excludes

-- `$`: at the end, or before a line end that is the end.
def at_end (text : List Char) : Bool := text = [] || text = ['\n']

-- What may be left after `[^/]*`.
def after_star : List Char → List (List Char)
  | [] => [[]]
  | c :: rest => (c :: rest) :: if c = '/' then [] else after_star rest

-- What may be left after the segment of a pattern.
def after_segment : List Char → List Char → List (List Char)
  | [], text => [text]
  | '*' :: pattern, text => (after_star text).flatMap (after_segment pattern)
  | _ :: _, [] => []
  | d :: pattern, c :: rest =>
      if d = '?' then if c = '/' then [] else after_segment pattern rest
      else if c = d then after_segment pattern rest else []

-- What may be left after one or more of `[^/]+/`; the flag tells whether a name has begun.
def after_names : Bool → List Char → List (List Char)
  | _, [] => []
  | begun, c :: rest =>
      if c = '/' then if begun then rest :: after_names false rest else []
      else after_names true rest

def glob_matches : List (List Char) → List Char → Bool
  | [], text => at_end text
  | [part], text =>
      if part = ['*', '*'] then at_end (text.dropWhile (· ≠ '\n'))
      else (after_segment part text).any at_end
  | part :: next :: parts, text =>
      if part = ['*', '*'] then (text :: after_names false text).any (glob_matches (next :: parts))
      else (after_segment part text).any (fun left =>
        match left with
        | '/' :: rest => glob_matches (next :: parts) rest
        | _ => false)

-- `_glob_to_regex(pattern).match(text)`
def glob_match (pattern : String) (text : List Char) : Bool :=
  glob_matches (parts (with_slashes pattern.toList)) text

-- `_ExcludeMatcher.matches`: a pattern without a slash is also held against the last name.
def excluded (globs : List String) (rel_posix : String) : Bool :=
  globs.any (fun pattern =>
    glob_match pattern rel_posix.toList ||
      (!pattern.toList.contains '/' &&
        glob_match pattern ((rel_posix.toList.splitOnP (· = '/')).getLastD [])))

end Excludes

structure Root where
  path : List Name
  key : String
  exclude_globs : List String
  key_valid : is_uuid36 key = true
deriving DecidableEq

structure WatcherConfig where
  roots : List Root
  stability_window_seconds : Int
  reconcile_on_start : Bool
  initial_manifest_revision : Nat

-- The files of a tree, by their resolved paths.
structure Disk where
  files : Dict (List Name) ByteArray
  plain : ∀ path ∈ files.keys, ∀ name ∈ path, name ≠ [] ∧ name ≠ ['.'] ∧ '/' ∉ name
  tree : ∀ path ∈ files.keys, ∀ other ∈ files.keys, path <+: other → path = other

inductive FileSystemEvent
  | file_created (src_path : List Name)
  | file_modified (src_path : List Name)
  | file_deleted (src_path : List Name)
  | file_moved (src_path dest_path : List Name)
  | dir_created (src_path : List Name)
  | dir_modified (src_path : List Name)
  | dir_deleted (src_path : List Name)
  | dir_moved (src_path dest_path : List Name)
deriving DecidableEq

-- An event on its way to the handler of a root.
structure Notice where
  root : Root
  event : FileSystemEvent
deriving DecidableEq

structure Pending where
  root : Root
  changed_at : Int
  deleted : Bool
deriving DecidableEq

-- Where the thread of the watcher stands: in `start`, in `_run`, or between two steps of one of
-- the paths that `_run` has taken, the others of which are yet to come.
inductive Phase
  | down
  | redelivering (rest : List Record)
  | redelivered (record : Record) (rest : List Record)
  | reconciling (roots : List Root)
  | idle
  | batch (due : List (List Name × Pending))
  | recording (record : Record) (due : List (List Name × Pending))
  | delivering (record : Record) (due : List (List Name × Pending))
  | acknowledging (record : Record) (due : List (List Name × Pending))
  | persisting (record : Record) (due : List (List Name × Pending))
  | clearing (lines : List StateLine) (due : List (List Name × Pending))

-- The files, the events that are not handled yet, the journal, what the sink was given and what
-- it has taken, and the watcher.
structure Watch where
  disk : Disk
  notices : List Notice
  journal : List Line
  attempted : List Record
  delivered : List Record
  phase : Phase
  pending : Dict (List Name) Pending
  dedup : Dict (String × String) DedupEntry
  manifest_revision : Nat
  sequence : Nat

def relative (path : List Name) (root : Root) : Option (List Name) :=
  if root.path <+: path ∧ path ≠ root.path then some (path.drop root.path.length) else none

def as_posix (rel : List Name) : String := String.ofList (joined rel)

-- The relative path of a file that the handler of a root does not leave out.
def watched (path : List Name) (root : Root) : Option String :=
  (relative path root).bind (fun rel =>
    if excluded root.exclude_globs (as_posix rel) then none else some (as_posix rel))

def under (path directory : List Name) : Bool := decide (directory <+: path)

def INT64_MAX : Nat := 2 ^ 63 - 1

-- What `validate_envelope` checks that is not settled by the configuration.
def envelope_valid (record : Record) : Bool :=
  decide (1 ≤ record.sequence ∧ record.size_bytes ≤ INT64_MAX ∧ record.manifest_revision ≤ INT64_MAX)

def build_event_key (root_key rel_cf digest : String) (generation : Nat) : String :=
  "|".intercalate ["discovery", root_key, rel_cf, digest, toString generation]

namespace Watch

-- Intake: the threads of the observer.

def schedule_file (path : List Name) (root : Root) (now : Int) (watch : Watch) : Watch :=
  match watched path root with
  | none => watch
  | some _ =>
      { watch with
        pending := watch.pending.set path { root := root, changed_at := now, deleted := false } }

def schedule_tree (base : List Name) (root : Root) (now : Int) (watch : Watch) : Watch :=
  if base ∈ watch.disk.files.keys then watch
  else
    (watch.disk.files.keys.filter (under · base)).foldl
      (fun watch child => schedule_file child root now watch) watch

def forget (path : List Name) (root : Root) (now : Int) (watch : Watch) : Watch :=
  match relative path root with
  | none => watch
  | some _ =>
      { watch with
        pending := watch.pending.set path { root := root, changed_at := now, deleted := true } }

def handle (notice : Notice) (now : Int) (watch : Watch) : Watch :=
  match notice.event with
  | .dir_created src_path => schedule_tree src_path notice.root now watch
  | .file_created src_path => schedule_file src_path notice.root now watch
  | .file_modified src_path => schedule_file src_path notice.root now watch
  | .dir_modified _ => watch
  | .file_deleted src_path => forget src_path notice.root now watch
  | .dir_deleted src_path => forget src_path notice.root now watch
  | .dir_moved src_path dest_path =>
      schedule_tree dest_path notice.root now (forget src_path notice.root now watch)
  | .file_moved src_path dest_path =>
      schedule_file dest_path notice.root now (forget src_path notice.root now watch)

def logged (line : Line) (watch : Watch) : Watch :=
  { watch with journal := watch.journal ++ [line] }

def entered (phase : Phase) (watch : Watch) : Watch := { watch with phase := phase }

-- A delivery reaches the sink, which may raise.
def offered (record : Record) (accepted : Bool) (watch : Watch) : Watch :=
  { watch with
    attempted := watch.attempted ++ [record]
    delivered := if accepted then watch.delivered ++ [record] else watch.delivered }

end Watch

section Machine

variable (casefold : Casefold) (hasher : Hasher) (config : WatcherConfig)

def make_record (root : Root) (rel_posix : String) (content : ByteArray)
    (previous : Option DedupEntry) (manifest_revision sequence : Nat) : Record :=
  let generation := (previous.map DedupEntry.generation).getD 0 + 1
  let digest := hasher.hexdigest content
  { event_key := build_event_key root.key (casefold.fold rel_posix) digest generation
    source_root_id := root.key
    sequence := sequence
    manifest_revision := manifest_revision
    relative_path := rel_posix
    content_sha256 := digest
    size_bytes := content.size
    generation := generation
    action := if previous.isSome then "modified" else "created" }

def state_line (record : Record) : StateLine where
  root := record.source_root_id
  rel := casefold.fold record.relative_path
  content_sha256 := some record.content_sha256
  generation := record.generation
  manifest_revision := record.manifest_revision
  sequence := record.sequence

namespace Watch

def start (watch : Watch) : Watch :=
  let replayed := replay casefold watch.journal
  { watch with
    dedup := replayed.dedup
    manifest_revision := max config.initial_manifest_revision replayed.manifest_revision
    sequence := replayed.sequence
    phase := .redelivering replayed.unprocessed.values }

-- Every path that is removed, and those that have been quiet for a window.
def is_due (now : Int) (item : Pending) : Bool :=
  item.deleted || config.stability_window_seconds ≤ now - item.changed_at

def poll (now : Int) (watch : Watch) : Watch :=
  let due := watch.pending.entries.filter (fun entry => is_due config now entry.2)
  { watch with
    pending := due.foldl (fun pending entry => pending.erase entry.1) watch.pending
    phase := .batch due }

-- The slots that a removal clears.
def cleared (rel_cf : String) (root : Root) (watch : Watch) :
    List ((String × String) × DedupEntry) :=
  watch.dedup.entries.filter (fun entry =>
    entry.1.1 = root.key &&
      (entry.1.2 = rel_cf || (rel_cf ++ "/").toList.isPrefixOf entry.1.2.toList) &&
      entry.2.content_sha256.isSome)

def _apply_removal (path : List Name) (root : Root) (due : List (List Name × Pending))
    (watch : Watch) : Watch :=
  match relative path root with
  | none => watch.entered (.batch due)
  | some rel =>
      let slots := watch.cleared (casefold.fold (as_posix rel)) root
      { watch with
        dedup := slots.foldl (fun dedup slot =>
          dedup.set slot.1 { content_sha256 := none, generation := slot.2.generation }) watch.dedup
        pending := (watch.pending.keys.filter (under · path)).foldl
          (fun pending key => pending.erase key) watch.pending
        phase := .clearing (slots.map (fun slot =>
          { root := slot.1.1
            rel := slot.1.2
            content_sha256 := none
            generation := slot.2.generation
            manifest_revision := watch.manifest_revision
            sequence := watch.sequence })) due }

-- The counters have been raised when the envelope is refused.
def _process_stable (path : List Name) (root : Root) (due : List (List Name × Pending))
    (watch : Watch) : Watch :=
  match watch.disk.files.get? path, watched path root with
  | some content, some rel_posix =>
      let previous := watch.dedup.get? (root.key, casefold.fold rel_posix)
      if previous.bind DedupEntry.content_sha256 = some (hasher.hexdigest content) then
        watch.entered (.batch due)
      else
        let record := make_record casefold hasher root rel_posix content previous
          (watch.manifest_revision + 1) (watch.sequence + 1)
        { watch with
          manifest_revision := watch.manifest_revision + 1
          sequence := watch.sequence + 1
          phase := if envelope_valid record then .recording record due else .batch due }
  | _, _ => watch.entered (.batch due)

def persisted (record : Record) (watch : Watch) : Watch :=
  let line := state_line casefold record
  { watch with
    dedup := watch.dedup.set (line.root, line.rel) line.entry
    journal := watch.journal ++ [.state line] }

-- What the thread does next.
def advance (accepted : Bool) (now : Int) (watch : Watch) : Option Watch :=
  match watch.phase with
  | .down => none
  | .redelivering [] => some (watch.entered (.reconciling
      (if config.reconcile_on_start then config.roots else [])))
  | .redelivering (record :: rest) => some ((watch.offered record accepted).entered
      (if accepted then .redelivered record rest else .redelivering rest))
  | .redelivered record rest => some ((watch.logged (.ack record.event_key)).entered (.redelivering rest))
  | .reconciling [] => some (watch.entered .idle)
  | .reconciling (root :: rest) =>
      some ((watch.schedule_tree root.path root now).entered (.reconciling rest))
  | .idle => some (watch.poll config now)
  | .batch [] => some (watch.entered .idle)
  | .batch ((path, item) :: due) => some (
      if item.deleted then watch._apply_removal casefold path item.root due
      else watch._process_stable casefold hasher path item.root due)
  | .recording record due => some ((watch.logged (.event record)).entered (.delivering record due))
  | .delivering record due => some ((watch.offered record accepted).entered
      (if accepted then .acknowledging record due else .batch due))
  | .acknowledging record due => some ((watch.logged (.ack record.event_key)).entered
      (.persisting record due))
  | .persisting record due => some ((watch.persisted casefold record).entered (.batch due))
  | .clearing [] due => some (watch.entered (.batch due))
  | .clearing (line :: lines) due => some ((watch.logged (.state line)).entered (.clearing lines due))

end Watch

-- The observer is started after the redelivery.
def Phase.observed : Phase → Bool
  | .down => false
  | .redelivering _ => false
  | .redelivered _ _ => false
  | _ => true

-- The files that the handling of an event schedules.
def FileSystemEvent.schedules (event : FileSystemEvent) (path : List Name) : Bool :=
  match event with
  | .file_created src_path => path = src_path
  | .file_modified src_path => path = src_path
  | .file_moved _ dest_path => path = dest_path
  | .dir_created src_path => under path src_path && path ≠ src_path
  | .dir_moved _ dest_path => under path dest_path && path ≠ dest_path
  | _ => false

def Notice.schedules (notice : Notice) (path : List Name) (root : Root) : Bool :=
  notice.root = root && notice.event.schedules path

-- With all of the library there is a second instance, so this one has a name.
instance instDecidableEqContent : DecidableEq ByteArray := ByteArray.instDecidableEq

-- Each file that a change has made or altered is told to every root that it is in.
def reported (before after : Disk) (notices : List Notice) : Bool :=
  notices.all (fun notice => notice.root ∈ config.roots) &&
    after.files.entries.all (fun entry =>
      before.files.get? entry.1 = some entry.2 ||
        config.roots.all (fun root =>
          (relative entry.1 root).isNone || notices.any (fun notice => notice.schedules entry.1 root)))

-- A change of the files, the handling of an event, a step of the thread, and how a run begins
-- and ends.
inductive Action
  | change (disk : Disk) (notices : List Notice)
  | notify (index : Nat) (now : Int)
  | start
  | advance (accepted : Bool) (now : Int)
  | stop
  | crash

def step (watch : Watch) : Action → Option Watch
  | .change disk notices =>
      if watch.phase.observed = false then some { watch with disk := disk }
      else if reported config watch.disk disk notices then
        some { watch with disk := disk, notices := watch.notices ++ notices }
      else none
  | .notify index now =>
      match watch.notices[index]? with
      | none => none
      | some notice =>
          some ({ watch with notices := watch.notices.eraseIdx index }.handle notice now)
  | .start =>
      match watch.phase with
      | .down => some (watch.start casefold config)
      | _ => none
  | .advance accepted now => watch.advance casefold hasher config accepted now
  | .stop =>
      match watch.phase with
      | .idle => some { watch with phase := .down, notices := [] }
      | _ => none
  | .crash => some { watch with phase := .down, notices := [], pending := .empty }

def run (watch : Watch) (actions : List Action) : Option Watch :=
  actions.foldlM (step casefold hasher config) watch

-- A condition on each action in the state before it.
def Along (holds : Watch → Action → Prop) (watch : Watch) : List Action → Prop
  | [] => True
  | action :: actions => holds watch action ∧
      ∀ next ∈ step casefold hasher config watch action, Along holds next actions

instance decidable_along (holds : Watch → Action → Prop) [∀ watch action, Decidable (holds watch action)]
    (watch : Watch) : ∀ actions, Decidable (Along casefold hasher config holds watch actions)
  | [] => isTrue trivial
  | action :: actions =>
      haveI : ∀ next, Decidable (Along casefold hasher config holds next actions) :=
        fun next => decidable_along holds next actions
      inferInstanceAs (Decidable (holds watch action ∧
        ∀ next ∈ step casefold hasher config watch action,
          Along casefold hasher config holds next actions))

end Machine

def Watch.initial (disk : Disk) : Watch where
  disk := disk
  notices := []
  journal := []
  attempted := []
  delivered := []
  phase := .down
  pending := .empty
  dedup := .empty
  manifest_revision := 0
  sequence := 0

section Runs

variable {casefold : Casefold} {hasher : Hasher} {config : WatcherConfig}

-- What a step does.
def Stepped (casefold : Casefold) (hasher : Hasher) (config : WatcherConfig) (watch next : Watch) :
    Action → Prop
  | .change disk notices =>
      watch.phase.observed = false ∧ next = { watch with disk := disk } ∨
        reported config watch.disk disk notices = true ∧
          next = { watch with disk := disk, notices := watch.notices ++ notices }
  | .notify index now => ∃ notice, watch.notices[index]? = some notice ∧
      next = { watch with notices := watch.notices.eraseIdx index }.handle notice now
  | .start => watch.phase = .down ∧ next = watch.start casefold config
  | .advance accepted now => watch.advance casefold hasher config accepted now = some next
  | .stop => watch.phase = .idle ∧ next = { watch with phase := .down, notices := [] }
  | .crash => next = { watch with phase := .down, notices := [], pending := .empty }

theorem stepped_of_step {watch next : Watch} {action : Action}
    (hnext : step casefold hasher config watch action = some next) :
    Stepped casefold hasher config watch next action := by
  cases action with
  | change disk notices =>
      unfold step at hnext
      dsimp only at hnext
      split at hnext
      · rename_i hunobserved
        exact .inl ⟨hunobserved, (Option.some.inj hnext).symm⟩
      split at hnext
      · rename_i hreported
        exact .inr ⟨hreported, (Option.some.inj hnext).symm⟩
      · cases hnext
  | notify index now =>
      unfold step at hnext
      dsimp only at hnext
      split at hnext
      · cases hnext
      · rename_i notice hnotice
        exact ⟨notice, hnotice, (Option.some.inj hnext).symm⟩
  | start =>
      unfold step at hnext
      dsimp only at hnext
      split at hnext
      · rename_i hdown
        exact ⟨hdown, (Option.some.inj hnext).symm⟩
      · cases hnext
  | advance accepted now => exact hnext
  | stop =>
      unfold step at hnext
      dsimp only at hnext
      split at hnext
      · rename_i hidle
        exact ⟨hidle, (Option.some.inj hnext).symm⟩
      · cases hnext
  | crash => exact (Option.some.inj hnext).symm

-- What the start of a run has and every step that meets the condition keeps, its end has.
theorem run_keeps {holds : Watch → Action → Prop} {invariant : Watch → Prop}
    (hstep : ∀ watch action next, invariant watch → holds watch action →
      step casefold hasher config watch action = some next → invariant next)
    {actions : List Action} {watch final : Watch} (hwatch : invariant watch)
    (halong : Along casefold hasher config holds watch actions)
    (hrun : run casefold hasher config watch actions = some final) : invariant final := by
  induction actions generalizing watch with
  | nil =>
      cases hrun
      exact hwatch
  | cons action actions ih =>
      rw [run, List.foldlM_cons, Option.bind_eq_bind, Option.bind_eq_some_iff] at hrun
      obtain ⟨next, hnext, hrest⟩ := hrun
      exact ih (hstep watch action next hwatch halong.1 hnext) (halong.2 next hnext) hrest

end Runs

end KnowledgeCompiler.Desktop
