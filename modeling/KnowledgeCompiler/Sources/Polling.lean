import KnowledgeCompiler.Sources.Fetching

namespace KnowledgeCompiler.Sources

open Lib

-- The last commit that names the path renames it to another.
def MovedLast (history : List Commit) (path : String) : Prop :=
  ∃ earlier commit later, history = earlier ++ commit :: later ∧ path ∈ commit.moved ∧
    path ∉ commit.removed ∧ path ∉ commit.written ∧
    ∀ other ∈ later, path ∉ other.removed ∧ path ∉ other.written

-- No poll that finds nothing new finds such a path.
def Settled (polls : List Poll) : Prop :=
  ∀ earlier poll later, polls = earlier ++ poll :: later → poll.pushed = [] →
    ∀ path, ¬MovedLast (history_of earlier) path

-- A history's beginning is a history.

theorem Linear.of_append {history later : List Commit} (hlinear : Linear (history ++ later)) :
    Linear history where
  shas := by
    have h := hlinear.shas
    rw [List.map_append] at h
    exact h.of_append_left
  filled := fun commit hcommit => hlinear.filled commit (List.mem_append_left _ hcommit)
  ordered := (List.pairwise_append.mp hlinear.ordered).1
  dated := fun commit hcommit => hlinear.dated commit (List.mem_append_left _ hcommit)
  renames := fun earlier commit rest hsplit =>
    hlinear.renames earlier commit (rest ++ later) (by simp [hsplit])

theorem history_of_append (earlier later : List Poll) :
    history_of (earlier ++ later) = history_of earlier ++ history_of later := List.flatMap_append

theorem Linear.of_prefix {done polls : List Poll} (hlinear : Linear (history_of polls))
    (hdone : done <+: polls) : Linear (history_of done) := by
  obtain ⟨rest, rfl⟩ := hdone
  rw [history_of_append] at hlinear
  exact hlinear.of_append

-- The map of files and the tree.

theorem head_paths_concat (history : List Commit) (commit : Commit) (path : String) :
    path ∈ head_paths (history ++ [commit]) ↔
      (path ∈ head_paths history ∧ path ∉ commit.removed ∧ path ∉ commit.moved) ∨
        path ∈ commit.written := by
  rw [head_paths, List.foldl_append, ← head_paths]
  simp [List.mem_append, List.mem_filter]

theorem recorded_concat (history : List Commit) (commit : Commit) (path : String) :
    path ∈ (history ++ [commit]).foldl recorded ∅ ↔
      (path ∈ history.foldl recorded ∅ ∧ path ∉ commit.removed) ∨ path ∈ commit.written := by
  rw [List.foldl_append]
  rfl

theorem recorded_of_head {history : List Commit} {path : String} (hpath : path ∈ head_paths history) :
    path ∈ history.foldl recorded ∅ := by
  induction history using List.reverseRecOn with
  | nil => exact absurd hpath List.not_mem_nil
  | append_singleton history commit ih =>
      rw [recorded_concat]
      rcases (head_paths_concat history commit path).mp hpath with ⟨hbefore, hremoved, -⟩ | hwritten
      · exact Or.inl ⟨ih hbefore, hremoved⟩
      · exact Or.inr hwritten

theorem left_behind_of_movedLast {history : List Commit} (hlinear : Linear history) {path : String}
    (hmoved : MovedLast history path) :
    path ∈ history.foldl recorded ∅ ∧ path ∉ head_paths history := by
  obtain ⟨earlier, commit, later, rfl, hmove, hremoved, hwritten, hlater⟩ := hmoved
  have hthere := recorded_of_head (hlinear.renames earlier commit later rfl path hmove)
  clear hlinear
  induction later using List.reverseRecOn with
  | nil =>
      rw [recorded_concat, head_paths_concat]
      exact ⟨Or.inl ⟨hthere, hremoved⟩, by simp [hmove, hwritten]⟩
  | append_singleton later other ih =>
      obtain ⟨hin, hout⟩ := ih fun item hitem => hlater item (List.mem_append_left _ hitem)
      obtain ⟨hkept, hnew⟩ := hlater other (List.mem_append_right _ List.mem_cons_self)
      have hsplit : earlier ++ commit :: (later ++ [other]) = (earlier ++ commit :: later) ++ [other] := by
        simp
      rw [hsplit, recorded_concat, head_paths_concat]
      exact ⟨Or.inl ⟨hin, hkept⟩, by simp [hout, hnew]⟩

theorem movedLast_of_left_behind {history : List Commit} {path : String}
    (hin : path ∈ history.foldl recorded ∅) (hout : path ∉ head_paths history) :
    MovedLast history path := by
  induction history using List.reverseRecOn with
  | nil => exact absurd hin (Set.notMem_empty path)
  | append_singleton history commit ih =>
      rw [head_paths_concat, not_or] at hout
      obtain ⟨hgone, hwritten⟩ := hout
      rcases (recorded_concat history commit path).mp hin with ⟨hbefore, hremoved⟩ | hnew
      · by_cases hhead : path ∈ head_paths history
        · have hmove : path ∈ commit.moved := by
            by_contra hstays
            exact hgone ⟨hhead, hremoved, hstays⟩
          exact ⟨history, commit, [], rfl, hmove, hremoved, hwritten, by simp⟩
        · obtain ⟨earlier, mover, later, rfl, hmove, hrest, hnot, hlater⟩ := ih hbefore hhead
          refine ⟨earlier, mover, later ++ [commit], by simp, hmove, hrest, hnot, fun other hother => ?_⟩
          rcases List.mem_append.mp hother with hother | hother
          · exact hlater other hother
          · exact List.mem_singleton.mp hother ▸ ⟨hremoved, hwritten⟩
      · exact absurd hnew hwritten

theorem recorded_iff_head {history : List Commit} (hlinear : Linear history) :
    (∀ path, path ∈ history.foldl recorded ∅ ↔ path ∈ head_paths history) ↔
      ∀ path, ¬MovedLast history path := by
  constructor
  · intro hsame path hmoved
    obtain ⟨hin, hout⟩ := left_behind_of_movedLast hlinear hmoved
    exact hout ((hsame path).mp hin)
  · intro hsettled path
    refine ⟨fun hin => ?_, recorded_of_head⟩
    by_contra hout
    exact hsettled path (movedLast_of_left_behind hin hout)

-- The polls are a reader of the history with a window of `max_pages` pages.

def pushes_of (polls : List Poll) : List (List Commit) := polls.map Poll.pushed

theorem flatten_pushes_of (polls : List Poll) : (pushes_of polls).flatten = history_of polls := rfl

structure Tracks (adapter : GitHubAdapter) (done : List Poll) (progress : Progress) : Prop where
  run : adapter.run done = .ok progress
  history : progress.history = history_of done
  position : At (state_of progress.cursor) (Window.run adapter.window (pushes_of done)).seen
  compatible : Compatible adapter progress.cursor
  shas : commit_shas progress.events =
    (Window.run adapter.window (pushes_of done)).reported.map Commit.sha
  quiet : progress.latest = [] ↔ (Window.run adapter.window (pushes_of done)).latest = []
  files : keySet progress.files =
    (Window.run adapter.window (pushes_of done)).reported.foldl recorded ∅

theorem run_concat (adapter : GitHubAdapter) (done : List Poll) (poll : Poll) :
    adapter.run (done ++ [poll]) = adapter.run done >>= fun progress => adapter.poll progress poll := by
  rw [GitHubAdapter.run, List.foldlM_append, GitHubAdapter.run]
  simp

theorem Tracks.poll {adapter : GitHubAdapter} (hpages : 0 < adapter.window) {done : List Poll}
    {progress : Progress} (htracks : Tracks adapter done progress) {poll : Poll}
    (hlinear : Linear (history_of (done ++ [poll]))) :
    ∃ next, Tracks adapter (done ++ [poll]) next := by
  have hwhole := Window.whole_run adapter.window (pushes_of done)
  have hpushes : pushes_of (done ++ [poll]) = pushes_of done ++ [poll.pushed] := List.map_append
  have hhistory : history_of (done ++ [poll]) = (Window.run adapter.window (pushes_of done)).seen ++
      ((Window.run adapter.window (pushes_of done)).newer ++ poll.pushed) := by
    rw [← List.append_assoc, hwhole, flatten_pushes_of, history_of_append]
    simp [history_of]
  have hfetched : ∃ result, Fetched adapter progress.cursor (history_of (done ++ [poll]))
      (Window.run adapter.window (pushes_of (done ++ [poll]))).seen
      (Window.run adapter.window (pushes_of (done ++ [poll]))).latest poll.observed_at result := by
    have hat := htracks.position
    have hfirst := @Window.newer_of_seen _ adapter.window (pushes_of done)
    rw [hhistory] at hlinear
    rw [hhistory, hpushes, Window.run_concat]
    generalize Window.run adapter.window (pushes_of done) = reader at *
    by_cases hseen : reader.seen = []
    · have hnewer := hfirst hseen
      rw [Window.read_first hseen hnewer, hseen, hnewer]
      rw [hseen, hnewer] at hlinear
      exact fetched_first hpages hlinear htracks.compatible (hseen ▸ hat) poll.observed_at
    by_cases hshort : (reader.newer ++ poll.pushed).length < adapter.window
    · rw [Window.read_near hseen hshort]
      exact fetched_near hlinear htracks.compatible hat hseen hshort poll.observed_at
    · have hcut : (reader.newer ++ poll.pushed).length =
          ((reader.newer ++ poll.pushed).length - adapter.window) + adapter.window := by omega
      rw [Window.read_far hseen hcut]
      exact fetched_far hpages hlinear htracks.compatible hat hseen hcut poll.observed_at
  obtain ⟨result, hresult⟩ := hfetched
  refine ⟨⟨history_of (done ++ [poll]), progress.events ++ result.events, some result.cursor,
    result.events⟩, ?_, rfl, hresult.position, hresult.compatible, ?_, hresult.quiet, ?_⟩
  · have hpushed : progress.history ++ poll.pushed = history_of (done ++ [poll]) := by
      rw [htracks.history, history_of_append]
      simp [history_of]
    have hpoll : adapter.run (done ++ [poll]) = adapter.poll progress poll := by
      rw [run_concat, htracks.run]
      rfl
    rw [hpoll, GitHubAdapter.poll, hpushed, hresult.fetched]
    rfl
  · have happend : commit_shas (progress.events ++ result.events) =
        commit_shas progress.events ++ commit_shas result.events := by
      rw [commit_shas, List.filter_append, List.map_append, commit_shas, commit_shas]
    rw [happend, htracks.shas, hresult.shas, hpushes, Window.run_concat, Window.reported_read,
      List.map_append]
  · have hfiles : keySet (state_of progress.cursor).files =
        (Window.run adapter.window (pushes_of done)).reported.foldl recorded ∅ := htracks.files
    have hnext := hresult.files
    rw [hfiles, hpushes, Window.run_concat] at hnext
    rw [hpushes, Window.run_concat, Window.reported_read, List.foldl_append]
    exact hnext

theorem tracks_nil (adapter : GitHubAdapter) : Tracks adapter [] ⟨[], [], none, []⟩ where
  run := rfl
  history := rfl
  position := Or.inl ⟨rfl, rfl, rfl⟩
  compatible := fun _ hfound => by cases hfound
  shas := rfl
  quiet := iff_of_true rfl rfl
  files := Set.eq_empty_of_forall_notMem fun _ => List.not_mem_nil

theorem exists_tracks {adapter : GitHubAdapter} (hpages : 0 < adapter.window) {polls done : List Poll}
    (hlinear : Linear (history_of polls)) (hdone : done <+: polls) :
    ∃ progress, Tracks adapter done progress := by
  induction done using List.reverseRecOn with
  | nil => exact ⟨_, tracks_nil adapter⟩
  | append_singleton done poll ih =>
      obtain ⟨progress, htracks⟩ := ih ((List.prefix_append done [poll]).trans hdone)
      exact htracks.poll hpages (hlinear.of_prefix hdone)

theorem window_ge {adapter : GitHubAdapter} (hpages : 1 ≤ adapter.max_pages) : 2 ≤ adapter.window := by
  rw [GitHubAdapter.window, PER_PAGE]
  omega

section ExactlyOnce

variable {adapter : GitHubAdapter} {polls : List Poll}

-- A point of the run as `ExactlyOnce` sees it.
theorem Tracks.exact_iff {done : List Poll} {progress : Progress} (htracks : Tracks adapter done progress)
    (hlinear : Linear (history_of done)) :
    commit_shas progress.events <+: (history_of done).map Commit.sha ↔
      (Window.run adapter.window (pushes_of done)).reported <+: (pushes_of done).flatten := by
  rw [htracks.shas, flatten_pushes_of]
  refine ⟨fun hbegins => ?_, fun hbegins => hbegins.map Commit.sha⟩
  exact Window.prefix_of_map_prefix hlinear.shas (fun _ => Window.mem_of_mem_reported)
    (fun _ => id) hbegins

theorem pushes_prefix {done : List (List Commit)} (hdone : done <+: pushes_of polls) :
    ∃ earlier, earlier <+: polls ∧ done = pushes_of earlier := by
  refine ⟨polls.take done.length, List.take_prefix _ _, ?_⟩
  rw [pushes_of, List.map_take]
  exact List.prefix_iff_eq_take.mp hdone

theorem within_of_exactlyOnce (hpages : 1 ≤ adapter.max_pages) (hlinear : Linear (history_of polls))
    (honce : ExactlyOnce adapter polls) : Window.Within adapter.window (pushes_of polls) := by
  have hwindow := window_ge hpages
  have hnodup : (pushes_of polls).flatten.Nodup := hlinear.shas.of_map
  refine (Window.prefix_iff_within hwindow hnodup).mp fun done hdone => ?_
  obtain ⟨earlier, hearlier, rfl⟩ := pushes_prefix hdone
  obtain ⟨progress, htracks⟩ := exists_tracks (Nat.zero_lt_of_lt hwindow) hlinear hearlier
  obtain ⟨found, hfound, hbegins, -⟩ := honce earlier hearlier
  obtain rfl : progress = found := Except.ok.inj (htracks.run.symm.trans hfound)
  exact (htracks.exact_iff (hlinear.of_prefix hearlier)).mp hbegins

theorem latest_eq_nil_iff (hpages : 1 ≤ adapter.max_pages)
    (hwithin : Window.Within adapter.window (pushes_of polls)) {earlier later : List Poll} {poll : Poll}
    (hsplit : polls = earlier ++ poll :: later) {progress : Progress}
    (htracks : Tracks adapter (earlier ++ [poll]) progress) :
    progress.latest = [] ↔ poll.pushed = [] := by
  have hwindow := window_ge hpages
  have hpushes : pushes_of polls = pushes_of earlier ++ poll.pushed :: pushes_of later := by
    rw [hsplit]
    exact List.map_append
  have hlast : pushes_of (earlier ++ [poll]) = pushes_of earlier ++ [poll.pushed] := List.map_append
  rw [htracks.quiet, hlast]
  exact Window.latest_eq_nil_iff (Nat.zero_lt_of_lt hwindow) hwithin hpushes

theorem history_of_quiet {earlier : List Poll} {poll : Poll} (hquiet : poll.pushed = []) :
    history_of (earlier ++ [poll]) = history_of earlier := by
  rw [history_of_append]
  simp [history_of, hquiet]

theorem settled_of_exactlyOnce (hpages : 1 ≤ adapter.max_pages) (hlinear : Linear (history_of polls))
    (honce : ExactlyOnce adapter polls) : Settled polls := by
  have hwindow := window_ge hpages
  have hwithin := within_of_exactlyOnce hpages hlinear honce
  intro earlier poll later hsplit hquiet
  have hdone : earlier ++ [poll] <+: polls := ⟨later, by simp [hsplit]⟩
  obtain ⟨progress, htracks⟩ := exists_tracks (Nat.zero_lt_of_lt hwindow) hlinear hdone
  obtain ⟨found, hfound, -, hwhole⟩ := honce _ hdone
  obtain rfl : progress = found := Except.ok.inj (htracks.run.symm.trans hfound)
  obtain ⟨-, hfiles⟩ := hwhole ((latest_eq_nil_iff hpages hwithin hsplit htracks).mpr hquiet)
  have hlinear := hlinear.of_prefix hdone
  have hreported := Window.reported_of_within (Nat.zero_lt_of_lt hwindow) hwithin
    (hdone.map Poll.pushed)
  have hkeys := htracks.files
  rw [pushes_of, hreported] at hkeys
  have hhistory : (List.map Poll.pushed (earlier ++ [poll])).flatten = history_of (earlier ++ [poll]) := rfl
  rw [hhistory] at hkeys
  rw [history_of_quiet hquiet] at hkeys hlinear hfiles
  refine (recorded_iff_head hlinear).mp fun path => ?_
  rw [← hkeys]
  exact hfiles path

-- Every commit is reported once and the map ends up with the head's paths, just
-- if the polls keep within their window and no path is left behind by a rename.
theorem exactly_once_iff (adapter : GitHubAdapter) (hpages : 1 ≤ adapter.max_pages) (polls : List Poll)
    (hlinear : Linear (history_of polls)) :
    ExactlyOnce adapter polls ↔ Window.Within adapter.window (polls.map Poll.pushed) ∧ Settled polls := by
  have hwindow := window_ge hpages
  refine ⟨fun honce => ⟨within_of_exactlyOnce hpages hlinear honce,
    settled_of_exactlyOnce hpages hlinear honce⟩, ?_⟩
  rintro ⟨hwithin, hsettled⟩ done hdone
  obtain ⟨progress, htracks⟩ := exists_tracks (Nat.zero_lt_of_lt hwindow) hlinear hdone
  have hreported : (Window.run adapter.window (pushes_of done)).reported = history_of done :=
    Window.reported_of_within (Nat.zero_lt_of_lt hwindow) hwithin (hdone.map Poll.pushed)
  have hshas := htracks.shas
  have hkeys := htracks.files
  rw [hreported] at hshas hkeys
  refine ⟨progress, htracks.run, hshas ▸ List.prefix_rfl, fun hquiet => ⟨hshas, fun path => ?_⟩⟩
  have hsame : path ∈ progress.files.keys ↔ path ∈ (history_of done).foldl recorded ∅ := by
    rw [← hkeys]
    rfl
  rw [hsame]
  rcases List.eq_nil_or_concat done with rfl | ⟨earlier, poll, rfl⟩
  · exact iff_of_false (Set.notMem_empty path) List.not_mem_nil
  · rw [List.concat_eq_append] at *
    obtain ⟨later, hsplit⟩ := hdone
    have hat : polls = earlier ++ poll :: later := by simp [← hsplit]
    have hpushed := (latest_eq_nil_iff hpages hwithin hat htracks).mp hquiet
    have hlinear := hlinear.of_prefix ⟨later, hsplit⟩
    rw [history_of_quiet hpushed] at hlinear ⊢
    exact (recorded_iff_head hlinear).mpr (hsettled earlier poll later hat hpushed) path

end ExactlyOnce

-- Histories of one date.

def noon : Datetime where
  year := 2026
  month := 1
  day := 1
  hour := 12
  minute := 0
  second := 0
  microsecond := 0
  utcoffset := some 0
  year_range := Datetime.year_2026
  month_range := Datetime.month_1
  day_range := Datetime.new_year
  time_range := Datetime.midday
  offset_range := Datetime.offset_none

def one_page : GitHubAdapter where
  repo := "owner/name"
  source_id := "github:owner/name"
  branch := none
  max_pages := 1
  local_time := Datetime.instant
  source_filled := by decide

def dated_commit (sha : String) (files : List FileItem) : Commit :=
  ⟨sha, "2026-01-01T12:00:00Z", "", "", "", files⟩

theorem linear_of_dated {history : List Commit}
    (hdated : ∀ commit ∈ history, commit.committed_at = "2026-01-01T12:00:00Z")
    (hshas : (history.map Commit.sha).Nodup)
    (hfilled : ∀ commit ∈ history, Text.strip commit.sha.toList ≠ [])
    (hrenames : ∀ earlier commit later, history = earlier ++ commit :: later →
      ∀ path ∈ commit.moved, path ∈ head_paths earlier) : Linear history where
  shas := hshas
  filled := hfilled
  ordered := by
    refine List.pairwise_iff_getElem.mpr fun i j hi hj _ => ?_
    rw [Commit.date, Commit.date, hdated _ (List.getElem_mem hi), hdated _ (List.getElem_mem hj)]
  dated := by
    intro commit hcommit
    have hread : moment_of "2026-01-01T12:00:00Z" = some noon := by decide
    exact ⟨noon, (hdated commit hcommit) ▸ hread, rfl⟩
  renames := hrenames

def moved_file : List Poll :=
  [⟨[dated_commit "1" [⟨"a.md", .added⟩], dated_commit "2" [⟨"b.md", .renamed "a.md"⟩]], noon⟩,
    ⟨[], noon⟩]

theorem moved_file_linear : Linear (history_of moved_file) := by
  refine linear_of_dated (by decide) (by decide) (by decide) ?_
  intro earlier commit later hsplit
  match earlier with
  | [] =>
      obtain ⟨rfl, -⟩ := List.cons.inj hsplit
      decide
  | [first] =>
      obtain ⟨rfl, hrest⟩ := List.cons.inj hsplit
      obtain ⟨rfl, -⟩ := List.cons.inj hrest
      decide
  | _ :: _ :: _ => simp [history_of, moved_file] at hsplit

theorem moved_file_once_iff :
    ExactlyOnce one_page moved_file ↔
      Window.Within one_page.window (moved_file.map Poll.pushed) ∧ Settled moved_file :=
  exactly_once_iff one_page (by decide) moved_file moved_file_linear

def unary (n : Nat) : String := String.ofList (List.replicate (n + 1) 'a')

theorem unary_injective : Function.Injective unary := by
  intro first second hsame
  have hlists := congrArg String.toList hsame
  have hlength := congrArg List.length hlists
  simp only [unary, String.toList_ofList, List.length_replicate] at hlength
  omega

theorem strip_unary (n : Nat) : Text.strip (unary n).toList ≠ [] := by
  have hletter : Text.isSpace 'a' = false := by decide
  have hkept : (List.replicate (n + 1) 'a').dropWhile Text.isSpace = List.replicate (n + 1) 'a' := by
    rw [List.replicate_succ, List.dropWhile_cons_of_neg (by simp [hletter])]
  rw [unary, String.toList_ofList, Text.strip, Text.lstrip, Text.rstrip, hkept,
    List.reverse_replicate, hkept]
  simp

-- One more commit than a page holds.
def crowded : List Poll := [⟨(List.range 101).map (fun n => dated_commit (unary n) []), noon⟩]

theorem crowded_linear : Linear (history_of crowded) := by
  have hhistory : history_of crowded = (List.range 101).map (fun n => dated_commit (unary n) []) :=
    List.append_nil _
  have hcommit {commit : Commit} (hcommit : commit ∈ history_of crowded) :
      ∃ n, commit = dated_commit (unary n) [] := by
    rw [hhistory] at hcommit
    obtain ⟨n, -, rfl⟩ := List.mem_map.mp hcommit
    exact ⟨n, rfl⟩
  refine linear_of_dated (fun commit hin => ?_) ?_ (fun commit hin => ?_) ?_
  · obtain ⟨n, rfl⟩ := hcommit hin
    rfl
  · rw [hhistory, List.map_map]
    exact List.nodup_range.map unary_injective
  · obtain ⟨n, rfl⟩ := hcommit hin
    exact strip_unary n
  · intro earlier commit later hsplit path hpath
    obtain ⟨n, rfl⟩ := hcommit (hsplit ▸ List.mem_append_right _ List.mem_cons_self)
    exact absurd hpath List.not_mem_nil

theorem commits_lost_and_path_kept :
    (Linear (history_of crowded) ∧ ¬ExactlyOnce one_page crowded) ∧
      Linear (history_of moved_file) ∧ ¬ExactlyOnce one_page moved_file := by
  refine ⟨⟨crowded_linear, fun honce => ?_⟩, moved_file_linear, fun honce => ?_⟩
  · have hwithin := within_of_exactlyOnce (by decide) crowded_linear honce
    have hfirst := (hwithin [] _ [] rfl).1 rfl
    simp [GitHubAdapter.window, one_page, PER_PAGE] at hfirst
  · have hsettled := settled_of_exactlyOnce (by decide) moved_file_linear honce
    refine hsettled [_] _ [] rfl rfl "a.md" ⟨[_], _, [], rfl, ?_⟩
    decide

end KnowledgeCompiler.Sources
