import KnowledgeCompiler.Lib.Dict
import Mathlib.Data.List.Sort
import Mathlib.Data.String.Basic

namespace KnowledgeCompiler.Recompilation

open Lib

structure ParsedDocument where
  rel_path : String
  sha256 : String

-- The part of a stored world that the next compilation is compared with.
structure StoredWorld where
  cursor : Dict String String

structure Classification where
  changed : List String
  added : List String
  removed : List String
  renamed : Dict String String

def in_order (paths : List String) : List String := paths.insertionSort (· ≤ ·)

def current_shas (documents : List ParsedDocument) : Dict String String :=
  Dict.ofPairs (documents.map (fun document => (document.rel_path, document.sha256)))

def previous_shas (previous : Option StoredWorld) : Dict String String :=
  (previous.map StoredWorld.cursor).getD .empty

section Cursor

variable (previous current : Dict String String)

def vanished : List String := in_order (previous.keys.filter (· ∉ current.keys))

def appeared : List String := in_order (current.keys.filter (· ∉ previous.keys))

def is_changed (path : String) : Bool :=
  match previous.get? path with
  | none => false
  | some sha => current.get? path ≠ some sha

def is_unchanged (path : String) : Bool :=
  path ∈ previous.keys ∧ current.get? path = previous.get? path

def index_path (index : Dict String String) (path : String) : Dict String String :=
  match previous.get? path with
  | none => index
  | some sha => index.setdefault sha path

def sha_to_removed : Dict String String := (vanished previous current).foldl (index_path previous) .empty

-- `pop`: the path is taken out of the index, so that no other path gets it.
def take_rename (state : Dict String String × Dict String String) (path : String) :
    Dict String String × Dict String String :=
  match current.get? path with
  | none => state
  | some sha =>
      match state.1.get? sha with
      | none => state
      | some old => (state.1.erase sha, state.2.set path old)

def renames : Dict String String :=
  ((appeared previous current).foldl (take_rename current)
    (sha_to_removed previous current, .empty)).2

def classify_shas : Classification where
  changed := in_order (current.keys.filter (is_changed previous current))
  added := in_order ((appeared previous current).filter (· ∉ (renames previous current).keys))
  removed := in_order ((vanished previous current).filter (· ∉ (renames previous current).values))
  renamed := renames previous current

end Cursor

def _classify (documents : List ParsedDocument) (previous : Option StoredWorld) : Classification :=
  classify_shas (previous_shas previous) (current_shas documents)

section Renames

variable {previous current : Dict String String}

theorem mem_in_order {paths : List String} {path : String} : path ∈ in_order paths ↔ path ∈ paths :=
  List.mem_insertionSort _

theorem nodup_in_order {paths : List String} (hnodup : paths.Nodup) : (in_order paths).Nodup :=
  (List.perm_insertionSort _ paths).nodup_iff.mpr hnodup

theorem mem_vanished {path : String} :
    path ∈ vanished previous current ↔ path ∈ previous.keys ∧ path ∉ current.keys := by
  rw [vanished, mem_in_order, List.mem_filter, decide_eq_true_eq]

theorem mem_appeared {path : String} :
    path ∈ appeared previous current ↔ path ∈ current.keys ∧ path ∉ previous.keys := by
  rw [appeared, mem_in_order, List.mem_filter, decide_eq_true_eq]

variable (previous) in
-- The first of the paths with a hash is at hand under the hash, as long as none took it.
structure Indexed (paths : List String) (index : Dict String String) : Prop where
  sound : ∀ sha path, index.get? sha = some path → path ∈ paths ∧ previous.get? path = some sha
  complete : ∀ path ∈ paths, ∀ sha, previous.get? path = some sha → (index.get? sha).isSome = true

theorem indexed_foldl (paths : List String) :
    Indexed previous paths (paths.foldl (index_path previous) .empty) := by
  induction paths using List.reverseRecOn with
  | nil => exact ⟨nofun, nofun⟩
  | append_singleton paths path ih =>
      rw [List.foldl_append, List.foldl_cons, List.foldl_nil]
      generalize paths.foldl (index_path previous) .empty = index at ih
      have hold : ∀ sha found, index.get? sha = some found →
          found ∈ paths ++ [path] ∧ previous.get? found = some sha := fun sha found hfound =>
        ⟨List.mem_append_left _ (ih.sound sha found hfound).1, (ih.sound sha found hfound).2⟩
      unfold index_path
      cases hsha : previous.get? path with
      | none =>
          refine ⟨hold, fun other hother sha hfound => ?_⟩
          rcases List.mem_append.mp hother with hother | hother
          · exact ih.complete other hother sha hfound
          · rw [List.mem_singleton.mp hother, hsha] at hfound
            cases hfound
      | some sha =>
          simp only [Dict.setdefault]
          split
          · rename_i hthere
            refine ⟨hold, fun other hother found hfound => ?_⟩
            rcases List.mem_append.mp hother with hother | hother
            · exact ih.complete other hother found hfound
            · rw [List.mem_singleton.mp hother, hsha] at hfound
              exact Option.some.inj hfound ▸ hthere
          · constructor
            · intro found other hfound
              rw [Dict.get?_set] at hfound
              split at hfound
              · rename_i heq
                cases hfound
                exact ⟨List.mem_append_right _ List.mem_cons_self, heq ▸ hsha⟩
              · exact hold found other hfound
            · intro other hother found hfound
              rw [Dict.get?_set]
              split
              · rfl
              · rename_i hne
                rcases List.mem_append.mp hother with hother | hother
                · exact ih.complete other hother found hfound
                · rw [List.mem_singleton.mp hother, hsha] at hfound
                  exact absurd (Option.some.inj hfound).symm hne

variable (previous current) in
def renamed_with (renamed : Dict String String) (sha : String) : Nat :=
  renamed.entries.countP (fun entry => current.get? entry.1 = some sha)

variable (previous current) in
-- After the appeared paths of `done`: a path that is still at hand was taken by none of them.
structure Renaming (done : List String) (state : Dict String String × Dict String String) : Prop where
  at_hand : ∀ sha old, state.1.get? sha = some old → old ∈ vanished previous current ∧
    previous.get? old = some sha ∧ old ∉ state.2.values ∧
    ∀ path ∈ done, current.get? path ≠ some sha
  renamed : ∀ entry ∈ state.2.entries, entry.1 ∈ done ∧ entry.2 ∈ vanished previous current ∧
    ∃ sha, current.get? entry.1 = some sha ∧ previous.get? entry.2 = some sha
  injective : state.2.values.Nodup
  waiting : ∀ sha old, state.1.get? sha = some old → renamed_with current state.2 sha = 0
  taken : ∀ sha, state.1.get? sha = none → ∀ old ∈ vanished previous current,
    previous.get? old = some sha → renamed_with current state.2 sha = 1

theorem renaming_start : Renaming previous current [] (sha_to_removed previous current, .empty) := by
  have hindexed : Indexed previous (vanished previous current)
      ((vanished previous current).foldl (index_path previous) .empty) := indexed_foldl _
  refine ⟨fun sha old hfound => ?_, nofun, List.nodup_nil, fun _ _ _ => rfl, fun sha hnone old hold hsha => ?_⟩
  · obtain ⟨hold, hsha⟩ := hindexed.sound sha old hfound
    exact ⟨hold, hsha, List.not_mem_nil, fun _ hpath => absurd hpath List.not_mem_nil⟩
  · have hsome := hindexed.complete old hold sha hsha
    rw [sha_to_removed] at hnone
    rw [hnone] at hsome
    cases hsome

-- A path that takes nothing has a hash that is not at hand.
theorem Renaming.skip {done : List String} {state : Dict String String × Dict String String}
    (hstate : Renaming previous current done state) {path : String}
    (hnone : ∀ sha, current.get? path = some sha → state.1.get? sha = none) :
    Renaming previous current (done ++ [path]) state := by
  refine ⟨fun sha old hfound => ?_, fun entry hentry => ?_, hstate.injective, hstate.waiting,
    hstate.taken⟩
  · obtain ⟨hold, hsha, hkept, hdone⟩ := hstate.at_hand sha old hfound
    refine ⟨hold, hsha, hkept, fun other hother hcurrent => ?_⟩
    rcases List.mem_append.mp hother with hother | hother
    · exact hdone other hother hcurrent
    · rw [List.mem_singleton.mp hother] at hcurrent
      rw [hnone sha hcurrent] at hfound
      cases hfound
  · obtain ⟨hdone, hrest⟩ := hstate.renamed entry hentry
    exact ⟨List.mem_append_left _ hdone, hrest⟩

theorem Renaming.take {done : List String} {state : Dict String String × Dict String String}
    (hstate : Renaming previous current done state) {path sha old : String} (hfresh : path ∉ done)
    (hcurrent : current.get? path = some sha) (hfound : state.1.get? sha = some old) :
    Renaming previous current (done ++ [path]) (state.1.erase sha, state.2.set path old) := by
  obtain ⟨hold, hsha, hkept, hdone⟩ := hstate.at_hand sha old hfound
  have hnew : path ∉ state.2.keys := by
    intro hmem
    obtain ⟨entry, hentry, rfl⟩ := List.mem_map.mp hmem
    exact hfresh (hstate.renamed entry hentry).1
  have hentries : (state.2.set path old).entries = state.2.entries ++ [(path, old)] :=
    Dict.setEntries_of_not_mem path old state.2.entries hnew
  have hvalues : (state.2.set path old).values = state.2.values ++ [old] := by
    rw [Dict.values, hentries, List.map_append]
    rfl
  have hcount (other : String) : renamed_with current (state.2.set path old) other =
      renamed_with current state.2 other + if sha = other then 1 else 0 := by
    rw [renamed_with, hentries, List.countP_append, List.countP_singleton, renamed_with, hcurrent]
    simp only [Option.some.injEq, decide_eq_true_eq]
  constructor
  · intro other found hother
    rw [Dict.get?_erase] at hother
    split at hother
    · cases hother
    · rename_i hne
      obtain ⟨hin, hprevious, hout, hnone⟩ := hstate.at_hand other found hother
      refine ⟨hin, hprevious, ?_, fun later hlater hsame => ?_⟩
      · rw [hvalues, List.mem_append, List.mem_singleton, not_or]
        refine ⟨hout, ?_⟩
        rintro rfl
        exact hne (Option.some.inj (hprevious.symm.trans hsha))
      · rcases List.mem_append.mp hlater with hlater | hlater
        · exact hnone later hlater hsame
        · rw [List.mem_singleton.mp hlater, hcurrent] at hsame
          exact hne (Option.some.inj hsame).symm
  · intro entry hentry
    rw [hentries] at hentry
    rcases List.mem_append.mp hentry with hentry | hentry
    · obtain ⟨hin, hrest⟩ := hstate.renamed entry hentry
      exact ⟨List.mem_append_left _ hin, hrest⟩
    · rw [List.mem_singleton.mp hentry]
      exact ⟨List.mem_append_right _ List.mem_cons_self, hold, sha, hcurrent, hsha⟩
  · rw [hvalues]
    exact List.nodup_append_comm.mp (List.nodup_cons.mpr ⟨hkept, hstate.injective⟩)
  · intro other found hother
    rw [Dict.get?_erase] at hother
    split at hother
    · cases hother
    · rename_i hne
      rw [hcount, hstate.waiting other found hother, if_neg (Ne.symm hne)]
  · intro other hnone found hin hprevious
    rw [Dict.get?_erase] at hnone
    rw [hcount]
    split at hnone
    · rename_i heq
      rw [heq, hstate.waiting sha old hfound, if_pos rfl]
    · rename_i hne
      rw [hstate.taken other hnone found hin hprevious, if_neg (Ne.symm hne)]

theorem renaming_step {done : List String} {state : Dict String String × Dict String String}
    (hstate : Renaming previous current done state) {path : String} (hfresh : path ∉ done) :
    Renaming previous current (done ++ [path]) (take_rename current state path) := by
  unfold take_rename
  split
  · rename_i hnone
    exact hstate.skip fun sha hsha => nomatch hnone.symm.trans hsha
  · rename_i sha hsha
    split
    · rename_i hnone
      exact hstate.skip fun other hother => Option.some.inj (hsha.symm.trans hother) ▸ hnone
    · rename_i old hold
      exact hstate.take hfresh hsha hold

theorem renaming_foldl (paths : List String) {done : List String}
    {state : Dict String String × Dict String String} (hstate : Renaming previous current done state)
    (hnodup : (done ++ paths).Nodup) :
    Renaming previous current (done ++ paths) (paths.foldl (take_rename current) state) := by
  induction paths generalizing done state with
  | nil => rwa [List.append_nil]
  | cons path paths ih =>
      rw [List.append_cons] at hnodup ⊢
      have hfresh : path ∉ done := fun hmem =>
        List.disjoint_of_nodup_append (List.nodup_append.mp hnodup).1 hmem List.mem_cons_self
      exact ih (renaming_step hstate hfresh) hnodup

variable (previous current) in
theorem exists_renaming : ∃ index,
    Renaming previous current (appeared previous current) (index, renames previous current) := by
  have hnodup : (appeared previous current).Nodup := nodup_in_order (current.nodup.filter _)
  exact ⟨_, renaming_foldl (appeared previous current) renaming_start hnodup⟩

variable (previous current) in
def vanished_with (sha : String) : Nat :=
  (vanished previous current).countP (fun path => previous.get? path = some sha)

variable (previous current) in
def appeared_with (sha : String) : Nat :=
  (appeared previous current).countP (fun path => current.get? path = some sha)

-- However many files share a hash, one of them is found to be renamed.
theorem renamed_with_eq (sha : String) : renamed_with current (renames previous current) sha =
    if 0 < vanished_with previous current sha ∧ 0 < appeared_with previous current sha then 1
    else 0 := by
  obtain ⟨index, hrenaming⟩ := exists_renaming previous current
  simp only [vanished_with, appeared_with, List.countP_pos_iff, decide_eq_true_eq]
  split
  · rename_i hboth
    obtain ⟨⟨old, hold, hprevious⟩, path, hpath, hcurrent⟩ := hboth
    cases hfound : index.get? sha with
    | none => exact hrenaming.taken sha hfound old hold hprevious
    | some other => exact absurd hcurrent ((hrenaming.at_hand sha other hfound).2.2.2 path hpath)
  · rename_i hmissing
    rw [renamed_with, List.countP_eq_zero]
    intro entry hentry hcurrent
    obtain ⟨hnew, hold, other, hsame, hprevious⟩ := hrenaming.renamed entry hentry
    rw [of_decide_eq_true hcurrent] at hsame
    cases hsame
    exact hmissing ⟨⟨entry.2, hold, hprevious⟩, entry.1, hnew, of_decide_eq_true hcurrent⟩

end Renames

section Partition

variable {previous current : Dict String String}

-- Each path is in one of the parts, and each pair of the renames has one content.
structure Classified (previous current : Dict String String) (found : Classification) : Prop where
  current_paths : (current.keys.filter (is_unchanged previous current) ++
    (found.changed ++ (found.added ++ found.renamed.keys))).Perm current.keys
  previous_paths : (current.keys.filter (is_unchanged previous current) ++
    (found.changed ++ (found.removed ++ found.renamed.values))).Perm previous.keys
  injective : found.renamed.values.Nodup
  same_content : ∀ entry ∈ found.renamed.entries, ∃ sha,
    current.get? entry.1 = some sha ∧ previous.get? entry.2 = some sha
  all_moves : ∀ sha, renamed_with current found.renamed sha =
    min (vanished_with previous current sha) (appeared_with previous current sha)

theorem is_unchanged_iff {path : String} :
    is_unchanged previous current path = true ↔
      path ∈ previous.keys ∧ current.get? path = previous.get? path :=
  decide_eq_true_iff

theorem is_changed_iff {path : String} :
    is_changed previous current path = true ↔
      path ∈ previous.keys ∧ current.get? path ≠ previous.get? path := by
  unfold is_changed
  cases hsha : previous.get? path with
  | none => simp [(previous.get?_eq_none_iff path).mp hsha]
  | some sha =>
      have hmem : path ∈ previous.keys := (previous.mem_keys_iff path).mpr ⟨sha, hsha⟩
      simp [hmem]

-- A list of disjoint parts that together have the paths.
theorem perm_of_parts {first second third fourth paths : List String} (hfirst : first.Nodup)
    (hsecond : second.Nodup) (hthird : third.Nodup) (hfourth : fourth.Nodup) (hpaths : paths.Nodup)
    (hone : ∀ path ∈ first, path ∉ second ∧ path ∉ third ∧ path ∉ fourth)
    (htwo : ∀ path ∈ second, path ∉ third ∧ path ∉ fourth) (hthree : ∀ path ∈ third, path ∉ fourth)
    (hall : ∀ path, path ∈ paths ↔ path ∈ first ∨ path ∈ second ∨ path ∈ third ∨ path ∈ fourth) :
    (first ++ (second ++ (third ++ fourth))).Perm paths := by
  have htail : (third ++ fourth).Nodup := hthird.append hfourth hthree
  have hrest : (second ++ (third ++ fourth)).Nodup := by
    refine hsecond.append htail fun path hpath hlater => ?_
    rcases List.mem_append.mp hlater with h | h
    · exact (htwo path hpath).1 h
    · exact (htwo path hpath).2 h
  have hwhole : (first ++ (second ++ (third ++ fourth))).Nodup := by
    refine hfirst.append hrest fun path hpath hlater => ?_
    rcases List.mem_append.mp hlater with h | h
    · exact (hone path hpath).1 h
    · rcases List.mem_append.mp h with h | h
      · exact (hone path hpath).2.1 h
      · exact (hone path hpath).2.2 h
  refine (List.perm_ext_iff_of_nodup hwhole hpaths).mpr fun path => ?_
  rw [hall, List.mem_append, List.mem_append, List.mem_append]

theorem current_paths_perm :
    (current.keys.filter (is_unchanged previous current) ++
      ((classify_shas previous current).changed ++ ((classify_shas previous current).added ++
        (classify_shas previous current).renamed.keys))).Perm current.keys := by
  obtain ⟨index, hrenaming⟩ := exists_renaming previous current
  have htarget : ∀ path ∈ (renames previous current).keys, path ∈ appeared previous current := by
    intro path hpath
    obtain ⟨entry, hentry, rfl⟩ := List.mem_map.mp hpath
    exact (hrenaming.renamed entry hentry).1
  apply perm_of_parts
  · exact current.nodup.filter _
  · exact nodup_in_order (current.nodup.filter _)
  · exact nodup_in_order ((nodup_in_order (current.nodup.filter _)).filter _)
  · exact (renames previous current).nodup
  · exact current.nodup
  · intro path hpath
    obtain ⟨hin, hsame⟩ := is_unchanged_iff.mp (List.mem_filter.mp hpath).2
    refine ⟨fun hchanged => ?_, fun hadded => ?_, fun hrenamed => ?_⟩
    · rw [classify_shas, mem_in_order, List.mem_filter, is_changed_iff] at hchanged
      exact hchanged.2.2 hsame
    · rw [classify_shas, mem_in_order, List.mem_filter, mem_appeared] at hadded
      exact hadded.1.2 hin
    · exact (mem_appeared.mp (htarget path hrenamed)).2 hin
  · intro path hpath
    rw [classify_shas, mem_in_order, List.mem_filter, is_changed_iff] at hpath
    refine ⟨fun hadded => ?_, fun hrenamed => ?_⟩
    · rw [classify_shas, mem_in_order, List.mem_filter, mem_appeared] at hadded
      exact hadded.1.2 hpath.2.1
    · exact (mem_appeared.mp (htarget path hrenamed)).2 hpath.2.1
  · intro path hpath hrenamed
    rw [classify_shas, mem_in_order, List.mem_filter, decide_eq_true_eq] at hpath
    exact hpath.2 hrenamed
  · intro path
    simp only [classify_shas, mem_in_order, List.mem_filter, is_unchanged_iff, is_changed_iff,
      mem_appeared, decide_eq_true_eq]
    constructor
    · intro hpath
      by_cases hin : path ∈ previous.keys
      · by_cases hsame : current.get? path = previous.get? path
        · exact .inl ⟨hpath, hin, hsame⟩
        · exact .inr (.inl ⟨hpath, hin, hsame⟩)
      · by_cases hrenamed : path ∈ (renames previous current).keys
        · exact .inr (.inr (.inr hrenamed))
        · exact .inr (.inr (.inl ⟨⟨hpath, hin⟩, hrenamed⟩))
    · rintro (h | h | h | h)
      · exact h.1
      · exact h.1
      · exact h.1.1
      · exact (mem_appeared.mp (htarget path h)).1

theorem previous_paths_perm :
    (current.keys.filter (is_unchanged previous current) ++
      ((classify_shas previous current).changed ++ ((classify_shas previous current).removed ++
        (classify_shas previous current).renamed.values))).Perm previous.keys := by
  obtain ⟨index, hrenaming⟩ := exists_renaming previous current
  have hsource : ∀ path ∈ (renames previous current).values, path ∈ vanished previous current := by
    intro path hpath
    obtain ⟨entry, hentry, rfl⟩ := List.mem_map.mp hpath
    exact (hrenaming.renamed entry hentry).2.1
  apply perm_of_parts
  · exact current.nodup.filter _
  · exact nodup_in_order (current.nodup.filter _)
  · exact nodup_in_order ((nodup_in_order (previous.nodup.filter _)).filter _)
  · exact hrenaming.injective
  · exact previous.nodup
  · intro path hpath
    obtain ⟨hin, hunchanged⟩ := List.mem_filter.mp hpath
    refine ⟨fun hchanged => ?_, fun hremoved => ?_, fun hrenamed => ?_⟩
    · rw [classify_shas, mem_in_order, List.mem_filter, is_changed_iff] at hchanged
      exact hchanged.2.2 (is_unchanged_iff.mp hunchanged).2
    · rw [classify_shas, mem_in_order, List.mem_filter, mem_vanished] at hremoved
      exact hremoved.1.2 hin
    · exact (mem_vanished.mp (hsource path hrenamed)).2 hin
  · intro path hpath
    rw [classify_shas, mem_in_order, List.mem_filter] at hpath
    refine ⟨fun hremoved => ?_, fun hrenamed => ?_⟩
    · rw [classify_shas, mem_in_order, List.mem_filter, mem_vanished] at hremoved
      exact hremoved.1.2 hpath.1
    · exact (mem_vanished.mp (hsource path hrenamed)).2 hpath.1
  · intro path hpath hrenamed
    rw [classify_shas, mem_in_order, List.mem_filter, decide_eq_true_eq] at hpath
    exact hpath.2 hrenamed
  · intro path
    simp only [classify_shas, mem_in_order, List.mem_filter, is_unchanged_iff, is_changed_iff,
      mem_vanished, decide_eq_true_eq]
    constructor
    · intro hpath
      by_cases hin : path ∈ current.keys
      · by_cases hsame : current.get? path = previous.get? path
        · exact .inl ⟨hin, hpath, hsame⟩
        · exact .inr (.inl ⟨hin, hpath, hsame⟩)
      · by_cases hrenamed : path ∈ (renames previous current).values
        · exact .inr (.inr (.inr hrenamed))
        · exact .inr (.inr (.inl ⟨⟨hpath, hin⟩, hrenamed⟩))
    · rintro (h | h | h | h)
      · exact h.2.1
      · exact h.2.1
      · exact h.1.1
      · exact (mem_vanished.mp (hsource path h)).1

-- Every part of the claim but the last always holds; all moves are found exactly where no
-- content both left two paths and came to two.
theorem classified_iff (documents : List ParsedDocument) (previous : Option StoredWorld) :
    Classified (previous_shas previous) (current_shas documents) (_classify documents previous) ↔
      ∀ sha, vanished_with (previous_shas previous) (current_shas documents) sha ≤ 1 ∨
        appeared_with (previous_shas previous) (current_shas documents) sha ≤ 1 := by
  obtain ⟨index, hrenaming⟩ := exists_renaming (previous_shas previous) (current_shas documents)
  constructor
  · intro hclassified sha
    have hmoves := hclassified.all_moves sha
    change renamed_with _ (renames _ _) sha = _ at hmoves
    rw [renamed_with_eq] at hmoves
    split at hmoves <;> omega
  · intro hfew
    refine ⟨current_paths_perm, previous_paths_perm, hrenaming.injective,
      fun entry hentry => (hrenaming.renamed entry hentry).2.2, fun sha => ?_⟩
    change renamed_with _ (renames _ _) sha = _
    rw [renamed_with_eq]
    have hsha := hfew sha
    split <;> omega

def moved_twice : List ParsedDocument := [⟨"c.md", "same"⟩, ⟨"d.md", "same"⟩]

def before_moves : StoredWorld where
  cursor := (Dict.empty.set "a.md" "same").set "b.md" "same"

-- Two files of one content move, and one of them is taken for removed and another for added.
theorem second_move_lost :
    ¬Classified (previous_shas (some before_moves)) (current_shas moved_twice)
      (_classify moved_twice (some before_moves)) := by
  intro hclassified
  have hmoves := hclassified.all_moves "same"
  revert hmoves
  decide

end Partition

end KnowledgeCompiler.Recompilation
