import KnowledgeCompiler.Lib.Datetime
import KnowledgeCompiler.Lib.Dict
import KnowledgeCompiler.Lib.Text
import Mathlib.Data.List.Sort

namespace KnowledgeCompiler.Sources

open Lib

def PROVIDER : String := "github"

def PER_PAGE : Nat := 100

-- A second, in microseconds.
def _SINCE_BACKSTEP : Int := 1000000

-- `status`, and for a renamed or copied file its `previous_filename`.
inductive FileStatus
  | added
  | removed
  | modified
  | changed
  | unchanged
  | renamed (previous_filename : String)
  | copied (previous_filename : String)
deriving DecidableEq

structure FileItem where
  filename : String
  status : FileStatus
deriving DecidableEq

-- A commit as the REST API answers for it.
structure Commit where
  sha : String
  committed_at : String
  author_name : String
  author_email : String
  message : String
  files : List FileItem
deriving DecidableEq

structure _CommitSummary where
  sha : String
  committed_at : String
  author_name : String
  author_email : String
  message : String
deriving DecidableEq

-- Only the first line of the message is kept.
def _parse_summary (commit : Commit) : _CommitSummary where
  sha := commit.sha
  committed_at := commit.committed_at
  author_name := commit.author_name
  author_email := commit.author_email
  message := String.ofList ((Text.splitlines commit.message.toList).headD [])

structure SplitFiles where
  added : List String
  modified : List String
  removed : List String

def sorted (paths : List String) : List String := paths.insertionSort (· ≤ ·)

-- What is neither added nor removed counts as modified, a renamed file too.
def _split_files (files : List FileItem) : SplitFiles where
  added := sorted ((files.filter (·.status = .added)).map FileItem.filename)
  modified := sorted
    ((files.filter (fun item => item.status ≠ .added ∧ item.status ≠ .removed)).map FileItem.filename)
  removed := sorted ((files.filter (·.status = .removed)).map FileItem.filename)

inductive Payload
  | commit (author_email author_name committed_at : String)
      (files_added files_modified files_removed : List String) (message : String)
      (ref : Option String) (sha : String)
  | file_deleted (path sha : String)
deriving DecidableEq

def Payload.kind : Payload → String
  | .commit .. => "commit"
  | .file_deleted .. => "file_deleted"

structure ChangeEvent where
  source_id : String
  provider : String
  kind : String
  revision : String
  observed_at : Datetime
  payload : Payload
deriving DecidableEq

inductive Raised
  | empty_field (label : String)
  | provider_mismatch (provider : String)
  | source_mismatch (cursor adapter : String)
  | cursor_invalid (sha : String) (repo : String) (branch : Option String)
  -- the server has no such commit
  | not_found (sha : String)
deriving DecidableEq

def _require_non_empty (label value : String) : Except Raised Unit :=
  if Text.strip value.toList = [] then .error (.empty_field label) else .ok ()

def ChangeEvent.make (source_id revision : String) (observed_at : Datetime) (payload : Payload) :
    Except Raised ChangeEvent := do
  _require_non_empty "source_id" source_id
  _require_non_empty "provider" PROVIDER
  _require_non_empty "kind" payload.kind
  _require_non_empty "revision" revision
  .ok ⟨source_id, PROVIDER, payload.kind, revision, observed_at, payload⟩

structure State where
  branch : Option String
  last_committed_at : Option String
  last_sha : String
  files : Dict String String

-- What the code reads where there is no cursor.
def State.absent : State := ⟨none, none, "", Dict.empty⟩

structure Cursor where
  provider : String
  source_id : String
  state : State

structure FetchResult where
  events : List ChangeEvent
  cursor : Cursor

-- `datetime.fromisoformat(raw.replace("Z", "+00:00"))`
def moment_of (raw : String) : Option Datetime :=
  Datetime.fromisoformat (raw.toList.flatMap (fun c => if c = 'Z' then "+00:00".toList else [c]))

-- The date that the server keeps of a commit.
def Commit.date (commit : Commit) : Int := ((moment_of commit.committed_at).map Datetime.instant).getD 0

-- The server's list of a branch, newest first, from the moment `since` on.
def listed (history : List Commit) (since : Option Int) : List Commit :=
  history.reverse.filter (fun commit => since.all (· ≤ commit.date))

-- Its pages, from 1 on.
def answer_page (history : List Commit) (since : Option Int) (page : Nat) : List Commit :=
  ((listed history since).drop ((page - 1) * PER_PAGE)).take PER_PAGE

def answer_commit (history : List Commit) (sha : String) : Except Raised Commit :=
  match history.find? (·.sha = sha) with
  | none => .error (.not_found sha)
  | some commit => .ok commit

-- `local_time` is where the machine's own zone puts a moment without an offset.
structure GitHubAdapter where
  repo : String
  source_id : String
  branch : Option String
  max_pages : Nat
  local_time : Datetime → Int
  source_filled : Text.strip source_id.toList ≠ []

-- Newest first, with whether the walk reached the end of the history.
def list_pages (history : List Commit) (since : Option Int) :
    Nat → Nat → List _CommitSummary → List _CommitSummary × Bool
  | 0, _, summaries => (summaries, false)
  | remaining + 1, page, summaries =>
      let batch := answer_page history since page
      let summaries := summaries ++ batch.map _parse_summary
      if batch.length < PER_PAGE then (summaries, true)
      else list_pages history since remaining (page + 1) summaries

def _index_of_sha (commits : List _CommitSummary) (sha : String) : Option Nat :=
  commits.findIdx? (·.sha = sha)

-- The newest commit seen when fully caught up, the oldest emitted when cut short.
def _next_state (state : State) (collected emitted : List _CommitSummary)
    (files : Dict String String) (caught_up : Bool) : State :=
  let files := Dict.ofPairs (files.entries.insertionSort (fun first second => first.1 ≤ second.1))
  let anchor :=
    if emitted = [] then none else if caught_up then collected.head? else emitted.head?
  match anchor with
  | some anchor => ⟨state.branch, some anchor.committed_at, anchor.sha, files⟩
  | none => ⟨state.branch, state.last_committed_at, state.last_sha, files⟩

namespace GitHubAdapter

variable (adapter : GitHubAdapter)

def _assert_compatible : Option Cursor → Except Raised Unit
  | none => .ok ()
  | some cursor =>
      if cursor.provider ≠ PROVIDER then .error (.provider_mismatch cursor.provider)
      else if cursor.source_id ≠ adapter.source_id then
        .error (.source_mismatch cursor.source_id adapter.source_id)
      else .ok ()

def _since_iso (state : State) : Option Int := do
  let raw ← state.last_committed_at
  if raw = "" then none
  else
    let moment ← moment_of raw
    let instant := if moment.utcoffset.isNone then adapter.local_time moment else moment.instant
    some (instant - _SINCE_BACKSTEP)

def _list_commits (history : List Commit) (since : Option Int) : List _CommitSummary × Bool :=
  list_pages history since adapter.max_pages 1 []

-- One path that the commit removes: its tombstone, and out of the map.
def drop_file (sha : String) (observed_at : Datetime)
    (taken : List ChangeEvent × Dict String String) (path : String) :
    Except Raised (List ChangeEvent × Dict String String) := do
  let event ← ChangeEvent.make adapter.source_id sha observed_at (.file_deleted path sha)
  .ok (taken.1 ++ [event], taken.2.erase path)

-- One new commit: its event, its tombstones and its place in the map of files.
def take_commit (history : List Commit) (observed_at : Datetime)
    (taken : List ChangeEvent × Dict String String) (summary : _CommitSummary) :
    Except Raised (List ChangeEvent × Dict String String) := do
  let detail ← answer_commit history summary.sha
  let split := _split_files detail.files
  let event ← ChangeEvent.make adapter.source_id summary.sha observed_at
    (.commit summary.author_email summary.author_name summary.committed_at split.added
      split.modified split.removed summary.message adapter.branch summary.sha)
  let (events, files) ←
    split.removed.foldlM (adapter.drop_file summary.sha observed_at) (taken.1 ++ [event], taken.2)
  .ok (events, (sorted (split.added ++ split.modified)).foldl
    (fun files path => files.set path summary.sha) files)

-- What of the window is new, and whether the walk reached what was known.
def new_commits (state : State) (collected : List _CommitSummary) (exhausted : Bool) :
    Except Raised (List _CommitSummary × Bool) :=
  if state.last_sha = "" then .ok (collected, true)
  else
    match _index_of_sha collected state.last_sha with
    | some index => .ok (collected.take index, true)
    | none =>
        if collected ≠ [] ∧ exhausted then
          .error (.cursor_invalid state.last_sha adapter.repo adapter.branch)
        else .ok (collected, false)

def fetch_changes (history : List Commit) (cursor : Option Cursor) (observed_at : Datetime) :
    Except Raised FetchResult := do
  adapter._assert_compatible cursor
  let state := (cursor.map Cursor.state).getD State.absent
  let (collected, exhausted) := adapter._list_commits history (adapter._since_iso state)
  let (newest_first, caught_up) ← adapter.new_commits state collected exhausted
  let emitted := newest_first.reverse
  let (events, files) ←
    emitted.foldlM (adapter.take_commit history observed_at) ([], state.files)
  let next_state := _next_state state collected emitted files caught_up
  match cursor with
  | some cursor => .ok ⟨events, ⟨cursor.provider, cursor.source_id, next_state⟩⟩
  | none => .ok ⟨events, ⟨PROVIDER, adapter.source_id, next_state⟩⟩

end GitHubAdapter

-- What the commits say of the tree.

namespace Commit

variable (commit : Commit)

def removed : List String := (commit.files.filter (·.status = .removed)).map FileItem.filename

def written : List String := (commit.files.filter (·.status ≠ .removed)).map FileItem.filename

-- The paths that a rename takes away.
def moved : List String :=
  commit.files.filterMap fun item =>
    match item.status with
    | .renamed previous_filename => some previous_filename
    | _ => none

end Commit

-- The paths present at the head.
def head_paths (history : List Commit) : List String :=
  history.foldl
    (fun paths commit => paths.filter (fun path => path ∉ commit.removed ++ commit.moved) ++ commit.written)
    []

-- A history without merges, as a repository has it: each commit has a sha of its
-- own, dates do not go back, and a rename starts from a file that is there.
structure Linear (history : List Commit) : Prop where
  shas : (history.map Commit.sha).Nodup
  filled : ∀ commit ∈ history, Text.strip commit.sha.toList ≠ []
  ordered : history.Pairwise (fun earlier later => earlier.date ≤ later.date)
  dated : ∀ commit ∈ history, ∃ moment, moment_of commit.committed_at = some moment ∧
    moment.utcoffset.isNone = false
  renames : ∀ earlier commit later, history = earlier ++ commit :: later →
    ∀ path ∈ commit.moved, path ∈ head_paths earlier

-- What is pushed before a poll, and when the poll looks.
structure Poll where
  pushed : List Commit
  observed_at : Datetime

def history_of (polls : List Poll) : List Commit := polls.flatMap Poll.pushed

structure Progress where
  history : List Commit
  events : List ChangeEvent
  cursor : Option Cursor
  latest : List ChangeEvent

-- Each poll resumes from the cursor of the one before it.
def GitHubAdapter.poll (adapter : GitHubAdapter) (progress : Progress) (poll : Poll) :
    Except Raised Progress := do
  let history := progress.history ++ poll.pushed
  let result ← adapter.fetch_changes history progress.cursor poll.observed_at
  .ok ⟨history, progress.events ++ result.events, some result.cursor, result.events⟩

def GitHubAdapter.run (adapter : GitHubAdapter) (polls : List Poll) : Except Raised Progress :=
  polls.foldlM adapter.poll ⟨[], [], none, []⟩

def commit_shas (events : List ChangeEvent) : List String :=
  (events.filter (·.kind = "commit")).map ChangeEvent.revision

def Progress.files (progress : Progress) : Dict String String :=
  ((progress.cursor.map Cursor.state).getD State.absent).files

-- At every point of the run the commits reported are the history's first, and
-- once a poll reports nothing they are all of it and the map has the head's paths.
def ExactlyOnce (adapter : GitHubAdapter) (polls : List Poll) : Prop :=
  ∀ done, done <+: polls → ∃ progress, adapter.run done = .ok progress ∧
    commit_shas progress.events <+: (history_of done).map Commit.sha ∧
    (progress.latest = [] →
      commit_shas progress.events = (history_of done).map Commit.sha ∧
        ∀ path, path ∈ progress.files.keys ↔ path ∈ head_paths (history_of done))

end KnowledgeCompiler.Sources
