import KnowledgeCompiler.Lib.Method
import KnowledgeCompiler.Lib.Window
import KnowledgeCompiler.Sources.GitHub

namespace KnowledgeCompiler.Sources

open Lib

-- The pages that a walk reads.

theorem list_pages_eq (history : List Commit) (since : Option Int) (remaining page : Nat)
    (summaries : List _CommitSummary) :
    list_pages history since remaining (page + 1) summaries =
      (summaries ++
        (((listed history since).drop (page * PER_PAGE)).take (remaining * PER_PAGE)).map _parse_summary,
        decide (((listed history since).drop (page * PER_PAGE)).length < remaining * PER_PAGE)) := by
  induction remaining generalizing page summaries with
  | zero => simp [list_pages]
  | succ remaining ih =>
      have hnext : (listed history since).drop ((page + 1) * PER_PAGE) =
          ((listed history since).drop (page * PER_PAGE)).drop PER_PAGE := by
        rw [List.drop_drop, Nat.succ_mul]
      have hmore : (remaining + 1) * PER_PAGE = PER_PAGE + remaining * PER_PAGE := by
        rw [Nat.succ_mul, Nat.add_comm]
      rw [list_pages, ih, hnext, hmore, answer_page, Nat.add_sub_cancel]
      generalize (listed history since).drop (page * PER_PAGE) = left
      by_cases hshort : left.length < PER_PAGE
      · have htake : left.take PER_PAGE = left := List.take_of_length_le (by omega)
        have hall : left.take (PER_PAGE + remaining * PER_PAGE) = left :=
          List.take_of_length_le (by omega)
        have hend : left.length < PER_PAGE + remaining * PER_PAGE := by omega
        simp [htake, hall, hshort, hend]
      · have hbatch : ¬(left.take PER_PAGE).length < PER_PAGE := by
          rw [List.length_take]
          omega
        have hend : (left.drop PER_PAGE).length < remaining * PER_PAGE ↔
            left.length < PER_PAGE + remaining * PER_PAGE := by
          rw [List.length_drop]
          omega
        simp only [hbatch, if_false, List.take_add, List.map_append, List.append_assoc, hend]

def GitHubAdapter.window (adapter : GitHubAdapter) : Nat := adapter.max_pages * PER_PAGE

theorem list_commits_eq (adapter : GitHubAdapter) (history : List Commit) (since : Option Int) :
    adapter._list_commits history since =
      (((listed history since).take adapter.window).map _parse_summary,
        decide ((listed history since).length < adapter.window)) := by
  have h := list_pages_eq history since adapter.max_pages 0 []
  rw [Nat.zero_mul, List.drop_zero, List.nil_append] at h
  exact h

-- A commit that is taken.

theorem make_eq_ok (adapter : GitHubAdapter) {sha : String} (hsha : Text.strip sha.toList ≠ [])
    (observed_at : Datetime) (payload : Payload) :
    ChangeEvent.make adapter.source_id sha observed_at payload =
      .ok ⟨adapter.source_id, PROVIDER, payload.kind, sha, observed_at, payload⟩ := by
  have hprovider : Text.strip PROVIDER.toList ≠ [] := by decide
  have hkind : Text.strip payload.kind.toList ≠ [] := by
    cases payload with
    | commit => exact (by decide : Text.strip "commit".toList ≠ [])
    | file_deleted => exact (by decide : Text.strip "file_deleted".toList ≠ [])
  simp only [ChangeEvent.make, _require_non_empty, if_neg adapter.source_filled, if_neg hprovider,
    if_neg hkind, if_neg hsha]
  rfl

theorem foldlM_drop_file (adapter : GitHubAdapter) {sha : String}
    (hsha : Text.strip sha.toList ≠ []) (observed_at : Datetime) (paths : List String)
    (events : List ChangeEvent) (files : Dict String String) :
    ∃ tombstones, paths.foldlM (adapter.drop_file sha observed_at) (events, files) =
        .ok (events ++ tombstones, paths.foldl Dict.erase files) ∧ commit_shas tombstones = [] := by
  induction paths generalizing events files with
  | nil => exact ⟨[], by simp; rfl, rfl⟩
  | cons path rest ih =>
      obtain ⟨tombstones, hrest, hshas⟩ := ih (events ++ [⟨adapter.source_id, PROVIDER,
        "file_deleted", sha, observed_at, .file_deleted path sha⟩]) (files.erase path)
      refine ⟨⟨adapter.source_id, PROVIDER, "file_deleted", sha, observed_at,
        .file_deleted path sha⟩ :: tombstones, ?_, ?_⟩
      · have hdrop : adapter.drop_file sha observed_at (events, files) path =
            .ok (events ++ [⟨adapter.source_id, PROVIDER, "file_deleted", sha, observed_at,
              .file_deleted path sha⟩], files.erase path) := by
          rw [GitHubAdapter.drop_file, make_eq_ok adapter hsha]
          rfl
        rw [List.foldlM_cons, hdrop]
        rw [List.append_assoc] at hrest
        exact hrest
      · simpa [commit_shas] using hshas

theorem mem_sorted {paths : List String} {path : String} : path ∈ sorted paths ↔ path ∈ paths :=
  (List.perm_insertionSort _ paths).mem_iff

theorem mem_removed_split (commit : Commit) (path : String) :
    path ∈ (_split_files commit.files).removed ↔ path ∈ commit.removed := mem_sorted

theorem mem_written_split (commit : Commit) (path : String) :
    path ∈ sorted ((_split_files commit.files).added ++ (_split_files commit.files).modified) ↔
      path ∈ commit.written := by
  rw [mem_sorted, List.mem_append, _split_files]
  simp only [mem_sorted, List.mem_map, List.mem_filter, Commit.written, decide_eq_true_eq]
  constructor
  · rintro (⟨item, ⟨hitem, hstatus⟩, rfl⟩ | ⟨item, ⟨hitem, -, hstatus⟩, rfl⟩)
    · exact ⟨item, ⟨hitem, by simp [hstatus]⟩, rfl⟩
    · exact ⟨item, ⟨hitem, hstatus⟩, rfl⟩
  · rintro ⟨item, ⟨hitem, hstatus⟩, rfl⟩
    by_cases hadded : item.status = .added
    · exact Or.inl ⟨item, ⟨hitem, hadded⟩, rfl⟩
    · exact Or.inr ⟨item, ⟨hitem, hadded, hstatus⟩, rfl⟩

theorem mem_keys_foldl_erase (paths : List String) (files : Dict String String) (path : String) :
    path ∈ (paths.foldl Dict.erase files).keys ↔ path ∈ files.keys ∧ path ∉ paths := by
  induction paths generalizing files with
  | nil => simp
  | cons dropped rest ih =>
      have herase : path ∈ (files.erase dropped).keys ↔ path ∈ files.keys ∧ path ≠ dropped := by
        rw [Dict.mem_keys_iff, Dict.mem_keys_iff, Dict.get?_erase]
        split <;> simp_all
      rw [List.foldl_cons, ih, herase, List.mem_cons, not_or, and_assoc]

theorem mem_keys_foldl_set (paths : List String) (sha : String) (files : Dict String String)
    (path : String) :
    path ∈ (paths.foldl (fun files path => files.set path sha) files).keys ↔
      path ∈ files.keys ∨ path ∈ paths := by
  induction paths generalizing files with
  | nil => simp
  | cons written rest ih =>
      rw [List.foldl_cons, ih, Dict.mem_keys_set, List.mem_cons, or_assoc, or_left_comm]

-- The paths of the map once a commit is taken: a path that a rename takes away stays.
def recorded (paths : Set String) (commit : Commit) : Set String :=
  {path | (path ∈ paths ∧ path ∉ commit.removed) ∨ path ∈ commit.written}

def keySet (files : Dict String String) : Set String := {path | path ∈ files.keys}

def commit_event (adapter : GitHubAdapter) (commit : Commit) (observed_at : Datetime) : ChangeEvent :=
  ⟨adapter.source_id, PROVIDER, "commit", commit.sha, observed_at,
    .commit commit.author_email commit.author_name commit.committed_at
      (_split_files commit.files).added (_split_files commit.files).modified
      (_split_files commit.files).removed (_parse_summary commit).message adapter.branch commit.sha⟩

theorem answer_commit_eq {history : List Commit} (hlinear : Linear history) {commit : Commit}
    (hcommit : commit ∈ history) : answer_commit history commit.sha = .ok commit := by
  have hsome : (history.find? (fun other => decide (other.sha = commit.sha))).isSome = true :=
    List.find?_isSome.mpr ⟨commit, hcommit, by simp⟩
  obtain ⟨found, hfound⟩ := Option.isSome_iff_exists.mp hsome
  have hsha : found.sha = commit.sha := by
    have h := List.find?_some hfound
    exact of_decide_eq_true h
  have hsame : found = commit :=
    List.inj_on_of_nodup_map hlinear.shas (List.mem_of_find?_eq_some hfound) hcommit hsha
  rw [answer_commit, hfound, hsame]

theorem take_commit_eq (adapter : GitHubAdapter) {history : List Commit} (hlinear : Linear history)
    {commit : Commit} (hcommit : commit ∈ history) (observed_at : Datetime)
    (events : List ChangeEvent) (files : Dict String String) :
    ∃ more after, adapter.take_commit history observed_at (events, files) (_parse_summary commit) =
        .ok (events ++ more, after) ∧ commit_shas more = [commit.sha] ∧ more ≠ [] ∧
      keySet after = recorded (keySet files) commit := by
  have hsha := hlinear.filled commit hcommit
  obtain ⟨tombstones, hdropped, hshas⟩ := foldlM_drop_file adapter hsha observed_at
    (_split_files commit.files).removed (events ++ [commit_event adapter commit observed_at]) files
  have hevent := make_eq_ok adapter hsha observed_at (commit_event adapter commit observed_at).payload
  refine ⟨commit_event adapter commit observed_at :: tombstones, (sorted
    ((_split_files commit.files).added ++ (_split_files commit.files).modified)).foldl
      (fun files path => files.set path commit.sha)
      ((_split_files commit.files).removed.foldl Dict.erase files), ?_, ?_, List.cons_ne_nil _ _, ?_⟩
  · have hsummary : (_parse_summary commit).sha = commit.sha := rfl
    rw [List.append_assoc, List.singleton_append] at hdropped
    have hmade (next : ChangeEvent → Except Raised (List ChangeEvent × Dict String String)) :
        (ChangeEvent.make adapter.source_id commit.sha observed_at
          (commit_event adapter commit observed_at).payload >>= next) =
            next (commit_event adapter commit observed_at) := by
      rw [hevent]
      rfl
    rw [GitHubAdapter.take_commit, hsummary, answer_commit_eq hlinear hcommit]
    refine (hmade _).trans ?_
    rw [hdropped]
    rfl
  · have hcommits : commit_shas (commit_event adapter commit observed_at :: tombstones) =
        commit.sha :: commit_shas tombstones := rfl
    rw [hcommits, hshas]
  · ext path
    simp only [keySet, recorded, Set.mem_ofPred_eq, mem_keys_foldl_set, mem_keys_foldl_erase,
      mem_removed_split, mem_written_split]

theorem foldlM_take_commit (adapter : GitHubAdapter) {history : List Commit}
    (hlinear : Linear history) (observed_at : Datetime) {emitted : List Commit}
    (hemitted : ∀ commit ∈ emitted, commit ∈ history) (events : List ChangeEvent)
    (files : Dict String String) :
    ∃ more after, (emitted.map _parse_summary).foldlM (adapter.take_commit history observed_at)
          (events, files) = .ok (events ++ more, after) ∧
      commit_shas more = emitted.map Commit.sha ∧ (more = [] ↔ emitted = []) ∧
      keySet after = emitted.foldl recorded (keySet files) := by
  induction emitted generalizing events files with
  | nil => exact ⟨[], files, by rw [List.append_nil]; rfl, rfl, iff_of_true rfl rfl, rfl⟩
  | cons commit rest ih =>
      obtain ⟨hcommit, hrest⟩ := List.forall_mem_cons.mp hemitted
      obtain ⟨first, middle, htake, hfirst, hne, hmiddle⟩ :=
        take_commit_eq adapter hlinear hcommit observed_at events files
      obtain ⟨more, after, hfold, hmore, -, hafter⟩ := ih hrest (events ++ first) middle
      refine ⟨first ++ more, after, ?_, ?_, by simp [hne], ?_⟩
      · rw [List.map_cons, List.foldlM_cons, htake, ← List.append_assoc]
        exact hfold
      · rw [commit_shas, List.filter_append, List.map_append, ← commit_shas, ← commit_shas, hfirst,
          hmore]
        rfl
      · rw [hafter, hmiddle, List.foldl_cons]

-- Where a cursor stands: at the newest of the commits that were seen.
def At (state : State) (seen : List Commit) : Prop :=
  (seen = [] ∧ state.last_sha = "" ∧ state.last_committed_at = none) ∨
    ∃ before anchor, seen = before ++ [anchor] ∧ state.last_sha = anchor.sha ∧
      state.last_committed_at = some anchor.committed_at

def state_of (cursor : Option Cursor) : State := (cursor.map Cursor.state).getD State.absent

-- The server's list from a commit's date on has all that is newer, and the commit.

theorem since_le (adapter : GitHubAdapter) {state : State} {anchor : Commit} {moment : Datetime}
    (hstate : state.last_committed_at = some anchor.committed_at)
    (hmoment : moment_of anchor.committed_at = some moment) (haware : moment.utcoffset.isNone = false) :
    (adapter._since_iso state).all (· ≤ anchor.date) = true := by
  have hdate : anchor.date = moment.instant := by rw [Commit.date, hmoment]; rfl
  rw [GitHubAdapter._since_iso, hstate, Option.bind_eq_bind, Option.bind_some]
  split
  · rfl
  · simp only [hmoment, haware, hdate, Option.bind_eq_bind, Option.bind_some, _SINCE_BACKSTEP,
      Option.all_some, decide_eq_true_eq]
    simp

theorem listed_split {before newer : List Commit} {anchor : Commit}
    (hlinear : Linear (before ++ anchor :: newer)) {since : Option Int}
    (hsince : since.all (· ≤ anchor.date) = true) :
    ∃ older, listed (before ++ anchor :: newer) since = newer.reverse ++ anchor :: older := by
  have hordered := (List.pairwise_cons.mp (List.pairwise_append.mp hlinear.ordered).2.1).1
  have hkept : ∀ commit ∈ newer.reverse, since.all (· ≤ commit.date) = true := by
    intro commit hcommit
    have hle := hordered commit (List.mem_reverse.mp hcommit)
    cases since with
    | none => rfl
    | some moment => exact decide_eq_true (Int.le_trans (of_decide_eq_true hsince) hle)
  refine ⟨before.reverse.filter (fun commit => since.all (· ≤ commit.date)), ?_⟩
  rw [listed, List.reverse_append, List.reverse_cons, List.append_assoc, List.filter_append,
    List.filter_append, List.filter_eq_self.mpr hkept]
  simp [hsince]

-- What one poll takes, and where its cursor stands.

theorem mem_keys_ofPairs_of_perm {files : Dict String String} {pairs : List (String × String)}
    (hperm : pairs.Perm files.entries) : keySet (Dict.ofPairs pairs) = keySet files := by
  ext path
  simp only [keySet, Set.mem_ofPred_eq, Dict.mem_keys_iff, Dict.get?_ofPairs_of_perm hperm]

theorem files_next_state (state : State) (collected emitted : List _CommitSummary)
    (files : Dict String String) (caught_up : Bool) :
    keySet (_next_state state collected emitted files caught_up).files = keySet files := by
  have hsorted := mem_keys_ofPairs_of_perm (List.perm_insertionSort
    (fun first second : String × String => first.1 ≤ second.1) files.entries)
  rw [_next_state]
  split <;> exact hsorted

def Compatible (adapter : GitHubAdapter) (cursor : Option Cursor) : Prop :=
  ∀ found ∈ cursor, found.provider = PROVIDER ∧ found.source_id = adapter.source_id

theorem fetch_of_selected {adapter : GitHubAdapter} {history emitted : List Commit}
    (hlinear : Linear history) {cursor : Option Cursor} (hcursor : Compatible adapter cursor)
    {collected newest_first : List _CommitSummary} {exhausted caught_up : Bool}
    (hlist : adapter._list_commits history (adapter._since_iso (state_of cursor)) =
      (collected, exhausted))
    (hnew : adapter.new_commits (state_of cursor) collected exhausted = .ok (newest_first, caught_up))
    (hemitted : newest_first.reverse = emitted.map _parse_summary)
    (hin : ∀ commit ∈ emitted, commit ∈ history) (observed_at : Datetime) :
    ∃ result files, adapter.fetch_changes history cursor observed_at = .ok result ∧
      result.cursor.state =
        _next_state (state_of cursor) collected (emitted.map _parse_summary) files caught_up ∧
      Compatible adapter (some result.cursor) ∧
      commit_shas result.events = emitted.map Commit.sha ∧ (result.events = [] ↔ emitted = []) ∧
      keySet files = emitted.foldl recorded (keySet (state_of cursor).files) := by
  obtain ⟨events, files, hfold, hshas, hempty, hfiles⟩ :=
    foldlM_take_commit adapter hlinear observed_at hin [] (state_of cursor).files
  have hcompatible : adapter._assert_compatible cursor = .ok () := by
    cases cursor with
    | none => rfl
    | some found =>
        obtain ⟨hprovider, hsource⟩ := hcursor found rfl
        simp [GitHubAdapter._assert_compatible, hprovider, hsource]
  have hstate : (cursor.map Cursor.state).getD State.absent = state_of cursor := rfl
  have hok {α β : Type} (value : α) (next : α → Except Raised β) :
      (Except.ok value >>= next) = next value := rfl
  have hfetch : adapter.fetch_changes history cursor observed_at =
      .ok ⟨events, ⟨(cursor.map Cursor.provider).getD PROVIDER,
        (cursor.map Cursor.source_id).getD adapter.source_id,
        _next_state (state_of cursor) collected (emitted.map _parse_summary) files caught_up⟩⟩ := by
    rw [List.nil_append] at hfold
    simp only [GitHubAdapter.fetch_changes, hcompatible, hok, hstate, hlist, hnew, hemitted, hfold]
    cases cursor <;> rfl
  refine ⟨_, files, hfetch, rfl, fun found hfound => ?_, hshas, hempty, hfiles⟩
  obtain rfl := Option.some.inj hfound
  cases cursor with
  | none => exact ⟨rfl, rfl⟩
  | some cursor => exact hcursor cursor rfl

theorem index_of_sha_eq {newer older : List Commit} {anchor : Commit}
    (hnew : ∀ commit ∈ newer, commit.sha ≠ anchor.sha) :
    _index_of_sha ((newer ++ anchor :: older).map _parse_summary) anchor.sha = some newer.length := by
  have hnone : newer.findIdx? ((fun summary => decide (summary.sha = anchor.sha)) ∘ _parse_summary) =
      none := by
    rw [List.findIdx?_eq_none_iff]
    exact fun commit hcommit => decide_eq_false (hnew commit hcommit)
  rw [_index_of_sha, List.findIdx?_map, List.findIdx?_append, hnone, List.findIdx?_cons]
  simp [_parse_summary]

theorem index_of_sha_none {commits : List Commit} {sha : String}
    (hsha : ∀ commit ∈ commits, commit.sha ≠ sha) :
    _index_of_sha (commits.map _parse_summary) sha = none := by
  rw [_index_of_sha, List.findIdx?_eq_none_iff]
  intro summary hsummary
  obtain ⟨commit, hcommit, rfl⟩ := List.mem_map.mp hsummary
  exact decide_eq_false (hsha commit hcommit)

theorem Linear.newer_ne {before newer : List Commit} {anchor : Commit}
    (hlinear : Linear (before ++ anchor :: newer)) : ∀ commit ∈ newer, commit.sha ≠ anchor.sha := by
  intro commit hcommit hsame
  have hnodup := hlinear.shas
  rw [List.map_append, List.map_cons, List.nodup_append'] at hnodup
  exact (List.nodup_cons.mp hnodup.2.1).1 (hsame ▸ List.mem_map_of_mem hcommit)

-- The three anchors.

theorem at_unchanged {state : State} {seen : List Commit} (hat : At state seen)
    (collected : List _CommitSummary) (files : Dict String String) (caught_up : Bool) :
    At (_next_state state collected [] files caught_up) seen := hat

theorem at_newest (state : State) {collected emitted : List _CommitSummary} (hemitted : emitted ≠ [])
    {newest : Commit} (hnewest : collected.head? = some (_parse_summary newest))
    (files : Dict String String) (before : List Commit) :
    At (_next_state state collected emitted files true) (before ++ [newest]) := by
  refine Or.inr ⟨before, newest, rfl, ?_⟩
  rw [_next_state, if_neg hemitted, if_pos rfl, hnewest]
  exact ⟨rfl, rfl⟩

theorem at_oldest (state : State) {collected emitted : List _CommitSummary} (hemitted : emitted ≠ [])
    {oldest : Commit} (holdest : emitted.head? = some (_parse_summary oldest))
    (files : Dict String String) (before : List Commit) :
    At (_next_state state collected emitted files false) (before ++ [oldest]) := by
  refine Or.inr ⟨before, oldest, rfl, ?_⟩
  rw [_next_state, if_neg hemitted, if_neg (by decide), holdest]
  exact ⟨rfl, rfl⟩

section Cases

variable {adapter : GitHubAdapter} {cursor : Option Cursor}

structure Fetched (adapter : GitHubAdapter) (cursor : Option Cursor) (history seen taken : List Commit)
    (observed_at : Datetime) (result : FetchResult) : Prop where
  fetched : adapter.fetch_changes history cursor observed_at = .ok result
  position : At result.cursor.state seen
  compatible : Compatible adapter (some result.cursor)
  shas : commit_shas result.events = taken.map Commit.sha
  quiet : result.events = [] ↔ taken = []
  files : keySet result.cursor.state.files = taken.foldl recorded (keySet (state_of cursor).files)

theorem exists_fetched {history seen taken : List Commit} (hlinear : Linear history)
    (hcursor : Compatible adapter cursor) {collected newest_first : List _CommitSummary}
    {exhausted caught_up : Bool}
    (hlist : adapter._list_commits history (adapter._since_iso (state_of cursor)) =
      (collected, exhausted))
    (hnew : adapter.new_commits (state_of cursor) collected exhausted = .ok (newest_first, caught_up))
    (htaken : newest_first.reverse = taken.map _parse_summary)
    (hin : ∀ commit ∈ taken, commit ∈ history)
    (hat : ∀ files, At (_next_state (state_of cursor) collected (taken.map _parse_summary) files caught_up)
      seen) (observed_at : Datetime) :
    ∃ result, Fetched adapter cursor history seen taken observed_at result := by
  obtain ⟨result, files, hfetched, hstate, hcompatible, hshas, hquiet, hfiles⟩ :=
    fetch_of_selected hlinear hcursor hlist hnew htaken hin observed_at
  refine ⟨result, hfetched, hstate ▸ hat files, hcompatible, hshas, hquiet, ?_⟩
  rw [hstate, files_next_state, hfiles]

theorem reverse_take_reverse (commits : List Commit) (window : Nat) :
    ((commits.reverse.take window).map _parse_summary).reverse =
      (commits.drop (commits.length - window)).map _parse_summary := by
  rw [← List.map_reverse, List.reverse_take, List.reverse_reverse, List.length_reverse]

theorem fetched_first {newer : List Commit} (hpages : 0 < adapter.window) (hlinear : Linear newer)
    (hcursor : Compatible adapter cursor) (hat : At (state_of cursor) []) (observed_at : Datetime) :
    ∃ result, Fetched adapter cursor newer newer (newer.drop (newer.length - adapter.window))
      observed_at result := by
  obtain ⟨-, hsha, hdate⟩ | ⟨before, anchor, hseen, -⟩ := hat
  swap
  · simp at hseen
  have hsince : adapter._since_iso (state_of cursor) = none := by
    rw [GitHubAdapter._since_iso, hdate]
    rfl
  have hlisted : listed newer none = newer.reverse := by simp [listed]
  have hlist := list_commits_eq adapter newer none
  rw [hlisted, ← hsince] at hlist
  have hnew : adapter.new_commits (state_of cursor)
      ((newer.reverse.take adapter.window).map _parse_summary)
      (decide (newer.reverse.length < adapter.window)) =
        .ok ((newer.reverse.take adapter.window).map _parse_summary, true) := by
    rw [GitHubAdapter.new_commits, if_pos hsha]
  refine exists_fetched hlinear hcursor hlist hnew (reverse_take_reverse newer adapter.window)
    (fun commit hcommit => List.mem_of_mem_drop hcommit) (fun files => ?_) observed_at
  rcases List.eq_nil_or_concat newer with rfl | ⟨before, newest, rfl⟩
  · rw [List.drop_nil]
    exact at_unchanged (Or.inl ⟨rfl, hsha, hdate⟩) _ files true
  · rw [List.concat_eq_append]
    refine at_newest _ ?_ ?_ files before
    · intro hnil
      have := congrArg List.length hnil
      simp at this
      omega
    · obtain ⟨window, hwindow⟩ := Nat.exists_eq_succ_of_ne_zero (Nat.ne_of_gt hpages)
      rw [hwindow, List.reverse_append]
      rfl

theorem fetched_near {seen newer : List Commit} (hlinear : Linear (seen ++ newer))
    (hcursor : Compatible adapter cursor) (hat : At (state_of cursor) seen) (hseen : seen ≠ [])
    (hnear : newer.length < adapter.window) (observed_at : Datetime) :
    ∃ result, Fetched adapter cursor (seen ++ newer) (seen ++ newer) newer observed_at result := by
  have hstands := hat
  obtain ⟨hempty, -⟩ | ⟨before, anchor, rfl, hsha, hdate⟩ := hat
  · exact absurd hempty hseen
  have hsplit : before ++ [anchor] ++ newer = before ++ anchor :: newer := by simp
  rw [hsplit] at hlinear ⊢
  have hmem : anchor ∈ before ++ anchor :: newer := by simp
  obtain ⟨moment, hmoment, haware⟩ := hlinear.dated anchor hmem
  obtain ⟨older, hlisted⟩ := listed_split hlinear (since_le adapter hdate hmoment haware)
  have hlist := list_commits_eq adapter (before ++ anchor :: newer) (adapter._since_iso (state_of cursor))
  obtain ⟨rest, hwindow⟩ : ∃ rest, adapter.window = newer.reverse.length + (rest + 1) :=
    ⟨adapter.window - newer.length - 1, by rw [List.length_reverse]; omega⟩
  have htake : (newer.reverse ++ anchor :: older).take adapter.window =
      newer.reverse ++ anchor :: older.take rest := by
    rw [hwindow, List.take_length_add_append, List.take_succ_cons]
  rw [hlisted, htake] at hlist
  have hindex := @index_of_sha_eq newer.reverse (older.take rest) anchor
    (fun commit hcommit => hlinear.newer_ne commit (List.mem_reverse.mp hcommit))
  have hfilled : anchor.sha ≠ "" := by
    intro hblank
    have := hlinear.filled anchor hmem
    rw [hblank] at this
    exact this rfl
  have hnew (exhausted : Bool) : adapter.new_commits (state_of cursor)
      ((newer.reverse ++ anchor :: older.take rest).map _parse_summary) exhausted =
        .ok (newer.reverse.map _parse_summary, true) := by
    rw [GitHubAdapter.new_commits, hsha, if_neg hfilled, hindex]
    simp only
    rw [List.map_append, ← List.length_map _parse_summary, List.take_left]
  refine exists_fetched hlinear hcursor hlist (hnew _) (by simp) ?_ (fun files => ?_) observed_at
  · exact fun commit hcommit => by simp [hcommit]
  · rcases List.eq_nil_or_concat newer with rfl | ⟨held, newest, rfl⟩
    · exact hstands
    · have hend : before ++ anchor :: (held ++ [newest]) = before ++ anchor :: held ++ [newest] := by
        simp
      rw [List.concat_eq_append, hend]
      exact at_newest _ (by simp) (by simp) files _

theorem fetched_far {seen newer : List Commit} (hpages : 0 < adapter.window)
    (hlinear : Linear (seen ++ newer)) (hcursor : Compatible adapter cursor)
    (hat : At (state_of cursor) seen) (hseen : seen ≠ []) {cut : Nat}
    (hfar : newer.length = cut + adapter.window) (observed_at : Datetime) :
    ∃ result, Fetched adapter cursor (seen ++ newer) (seen ++ newer.take (cut + 1)) (newer.drop cut)
      observed_at result := by
  obtain ⟨hempty, -⟩ | ⟨before, anchor, rfl, hsha, hdate⟩ := hat
  · exact absurd hempty hseen
  have hsplit : before ++ [anchor] ++ newer = before ++ anchor :: newer := by simp
  rw [hsplit] at hlinear ⊢
  have hmem : anchor ∈ before ++ anchor :: newer := by simp
  obtain ⟨moment, hmoment, haware⟩ := hlinear.dated anchor hmem
  obtain ⟨older, hlisted⟩ := listed_split hlinear (since_le adapter hdate hmoment haware)
  have hlist := list_commits_eq adapter (before ++ anchor :: newer) (adapter._since_iso (state_of cursor))
  have htake : (newer.reverse ++ anchor :: older).take adapter.window =
      newer.reverse.take adapter.window :=
    List.take_append_of_le_length (by rw [List.length_reverse]; omega)
  have hlong : decide ((newer.reverse ++ anchor :: older).length < adapter.window) = false :=
    decide_eq_false (by rw [List.length_append, List.length_reverse]; omega)
  rw [hlisted, htake, hlong] at hlist
  have hindex := @index_of_sha_none (newer.reverse.take adapter.window) anchor.sha
    (fun commit hcommit => hlinear.newer_ne commit (List.mem_reverse.mp (List.mem_of_mem_take hcommit)))
  have hfilled : anchor.sha ≠ "" := by
    intro hblank
    have := hlinear.filled anchor hmem
    rw [hblank] at this
    exact this rfl
  have hnew : adapter.new_commits (state_of cursor)
      ((newer.reverse.take adapter.window).map _parse_summary) false =
        .ok ((newer.reverse.take adapter.window).map _parse_summary, false) := by
    rw [GitHubAdapter.new_commits, hsha, if_neg hfilled, hindex]
    simp
  have hcut : newer.length - adapter.window = cut := by omega
  refine exists_fetched hlinear hcursor hlist hnew (hcut ▸ reverse_take_reverse newer adapter.window)
    ?_ (fun files => ?_) observed_at
  · intro commit hcommit
    have := List.mem_of_mem_drop hcommit
    simp [this]
  · have hinside : cut < newer.length := by omega
    have hlast : newer.take (cut + 1) = newer.take cut ++ [newer[cut]] := by simp
    have hdrop : (newer.drop cut).map _parse_summary =
        _parse_summary newer[cut] :: (newer.drop (cut + 1)).map _parse_summary := by
      rw [List.drop_eq_getElem_cons hinside, List.map_cons]
    rw [hlast, ← List.append_assoc, hdrop]
    exact at_oldest _ (List.cons_ne_nil _ _) rfl files _

end Cases

end KnowledgeCompiler.Sources
