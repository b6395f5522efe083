import KnowledgeCompiler.Lib.Datetime
import KnowledgeCompiler.Lib.Lists
import KnowledgeCompiler.Lib.Minimum
import KnowledgeCompiler.Lib.Ranked
import KnowledgeCompiler.LocalMcp.Store

namespace KnowledgeCompiler.LocalMcp

open Lib
open Lib.Method (of_bind_eq_ok except_bind_eq_ok_iff mapM_eq_ok_iff exists_mapM_eq_ok)

inductive ReasonCode
  | WORLD_STATE_UNAVAILABLE | TOPIC_NOT_FOUND | CLAIM_NOT_FOUND | ENTITY_NOT_FOUND
  | CHANGE_NOT_FOUND | NODE_NOT_FOUND | WORLD_NOT_FOUND | NO_MATCHES | NO_WORLD_AT_DATE
  | INVALID_INPUT
deriving DecidableEq

def PUBLISHABLE_STATUSES : List String := ["ACTIVE", "SUPERSEDED"]

def _clean (value : String) : String := String.ofList (Text.strip value.toList)

def date (moment : Datetime) : ℕ ×ₗ ℕ ×ₗ ℕ := toLex (moment.year, toLex (moment.month, moment.day))

-- Orders of integers that do not compute are found first where all of Mathlib is imported.
local instance (priority := high) moment_order : LinearOrder (ℤ ×ₗ String) :=
  @Prod.Lex.instLinearOrder ℤ String Int.instLinearOrder inferInstance

local instance (priority := high) moment_preorder : Preorder (ℤ ×ₗ String) := moment_order.toPreorder

section Timeline

variable (host : Host)

-- A final `Z` stands for the offset of UTC.
def parse_timestamp (value context : String) : Except Fault Datetime :=
  let text := Text.strip value.toList
  let text := if text.getLast? = some 'Z' ∨ text.getLast? = some 'z' then
    text.dropLast ++ "+00:00".toList else text
  match Datetime.fromisoformat text with
  | none => .error (.world_document
      s!"{context}: timestamp {host.quoted value} is not ISO-8601")
  | some parsed =>
      if parsed.utcoffset.isNone then
        .error (.world_document
          s!"{context}: timestamp {host.quoted value} must carry a UTC offset")
      else .ok parsed

def WorldManifest.built (manifest : WorldManifest) : Except Fault Datetime :=
  parse_timestamp host manifest.built_at s!"world {host.quoted manifest.world_id} built_at"

def WorldManifest.stamped (manifest : WorldManifest) : Except Fault (Datetime × WorldManifest) :=
  (manifest.built host).map (fun moment => (moment, manifest))

-- Moments first, and the worlds of one moment by their ids.
def moment_key (entry : Datetime × WorldManifest) : ℤ ×ₗ String :=
  toLex (entry.1.instant, entry.2.world_id)

namespace LocalWorldStore

variable (store : LocalWorldStore)

def list_worlds : Except Fault (List WorldManifest) :=
  if store.is_dir then
    let directories := Ranked.rank Prod.fst store.worlds.entries
    (directories.filterMap (fun directory => directory.2.manifest.map (directory.1, ·))).mapM
      (fun found => _parse_manifest host s!"{store.root}/{found.1}/manifest.json" found.1 found.2)
  else .ok []

def list_history : Except Fault (List WorldManifest) := do
  let worlds ← store.list_worlds host
  let ordered := Ranked.rank
    (fun manifest => (toLex (manifest.world_id, manifest.built_at) : String ×ₗ String)) worlds
  let stamped ← ordered.mapM (WorldManifest.stamped host)
  return (Ranked.rank moment_key stamped).map Prod.snd

end LocalWorldStore

end Timeline

section Boundary

-- The value of a character that `\d` matches.
variable (digit : Char → Option Nat)

def one_to_nine (c : Char) : Option Nat :=
  if '1' ≤ c ∧ c ≤ '9' then some (c.toNat - '0'.toNat) else none

-- `%Y`
def four_digits : List Char → Option Nat
  | [a, b, c, d] => do
      return ((← digit a) * 10 + (← digit b)) * 100 + (← digit c) * 10 + (← digit d)
  | _ => none

-- `%m`
def month_number : List Char → Option Nat
  | ['1', '0'] => some 10
  | ['1', '1'] => some 11
  | ['1', '2'] => some 12
  | ['0', c] => one_to_nine c
  | [c] => one_to_nine c
  | _ => none

-- `%d`
def day_number : List Char → Option Nat
  | ['3', '0'] => some 30
  | ['3', '1'] => some 31
  | ['1', c] => (digit c).map (10 + ·)
  | ['2', c] => (digit c).map (20 + ·)
  | ['0', c] => one_to_nine c
  | [' ', c] => one_to_nine c
  | [c] => one_to_nine c
  | _ => none

-- `datetime.strptime(text, "%Y-%m-%d").replace(tzinfo=UTC)`
def strptime_day (text : List Char) : Option Datetime :=
  match text.splitOn '-' with
  | [year, month, day] => do
      Datetime.make (← four_digits digit year, ← month_number month, ← day_number digit day)
        (0, 0, 0, 0) (some 0)
  | _ => none

structure Boundary where
  moment : Datetime
  whole_day : Bool

variable (host : Host)

def _parse_as_of_boundary (raw : String) : Option Boundary :=
  let text := Text.strip raw.toList
  if text = [] then none
  else if 'T' ∈ text ∨ ':' ∈ text then
    (parse_timestamp host (String.ofList text) "as_of_date").toOption.map (⟨·, false⟩)
  else (strptime_day digit text).map (⟨·, true⟩)

def Boundary.visible (boundary : Boundary) (built : Datetime) : Bool :=
  if boundary.whole_day then date built ≤ date boundary.moment
  else built.instant ≤ boundary.moment.instant

-- The newest publishable world that the boundary lets be seen.
def newest_visible (boundary : Boundary) (history : List WorldManifest) :
    Except Fault (Option WorldManifest) := do
  let stamped ← (history.filter (·.status ∈ PUBLISHABLE_STATUSES)).mapM (WorldManifest.stamped host)
  let eligible := stamped.filter (fun entry => boundary.visible entry.1)
  return (eligible.argmax moment_key).map Prod.snd

end Boundary

section Selection

variable {host : Host}

theorem world_id_of_parse {path directory : String} {stored : Stored} {manifest : WorldManifest}
    (hparse : _parse_manifest host path directory stored = .ok manifest) :
    manifest.world_id = directory := by
  simp only [_parse_manifest, manifest_record, except_bind_eq_ok_iff] at hparse
  obtain ⟨_, -, _, -, _, -, _, -, _, -, _, -, _, -, _, -, _, -, _, -, hmade⟩ := hparse
  split at hmade
  · cases hmade
  · rename_i hsame
    cases hmade
    exact not_not.mp hsame

theorem stamped_eq_ok_iff {manifest : WorldManifest} {entry : Datetime × WorldManifest} :
    manifest.stamped host = .ok entry ↔ manifest.built host = .ok entry.1 ∧ entry.2 = manifest := by
  unfold WorldManifest.stamped
  cases hbuilt : manifest.built host with
  | error fault => simp [Except.map]
  | ok moment =>
      simp only [Except.map, Except.ok.injEq, Prod.ext_iff]
      exact and_congr_right fun _ => eq_comm

theorem map_snd_of_stamped {worlds : List WorldManifest} {entries : List (Datetime × WorldManifest)}
    (hstamped : worlds.mapM (WorldManifest.stamped host) = .ok entries) :
    entries.map Prod.snd = worlds := by
  have hall := (mapM_eq_ok_iff.mp hstamped).imp fun _ _ h => (stamped_eq_ok_iff.mp h).2
  rw [map_eq_of_forall₂ hall, List.map_id']

theorem nodup_list_worlds {store : LocalWorldStore} {worlds : List WorldManifest}
    (hworlds : store.list_worlds host = .ok worlds) : (worlds.map (·.world_id)).Nodup := by
  unfold LocalWorldStore.list_worlds at hworlds
  split at hworlds
  · have hall := (mapM_eq_ok_iff.mp hworlds).imp fun _ _ hparse => world_id_of_parse hparse
    rw [map_eq_of_forall₂ hall]
    have hkeys : (Ranked.rank Prod.fst store.worlds.entries).Pairwise (fun a b => a.1 ≠ b.1) := by
      have hnodup := store.worlds.nodup
      rw [List.Nodup, List.pairwise_map] at hnodup
      exact ((Ranked.rank_perm Prod.fst store.worlds.entries).pairwise_iff
        (fun hne heq => hne heq.symm)).mpr hnodup
    rw [List.Nodup, List.pairwise_map, List.pairwise_filterMap]
    refine hkeys.imp ?_
    intro first second hne a ha b hb
    obtain ⟨_, -, rfl⟩ := Option.map_eq_some_iff.mp ha
    obtain ⟨_, -, rfl⟩ := Option.map_eq_some_iff.mp hb
    exact hne
  · cases hworlds
    exact List.nodup_nil

theorem history_spec {store : LocalWorldStore} {history : List WorldManifest}
    (hhistory : store.list_history host = .ok history) :
    (history.map (·.world_id)).Nodup ∧
      ∀ manifest ∈ history, ∃ moment, manifest.built host = .ok moment := by
  obtain ⟨worlds, hworlds, hhistory⟩ := of_bind_eq_ok hhistory
  obtain ⟨stamped, hstamped, hmade⟩ := of_bind_eq_ok hhistory
  cases hmade
  have hperm : ((Ranked.rank moment_key stamped).map Prod.snd).Perm worlds := by
    have hranked := (Ranked.rank_perm moment_key stamped).map Prod.snd
    rw [map_snd_of_stamped hstamped] at hranked
    exact hranked.trans (Ranked.rank_perm _ worlds)
  refine ⟨(hperm.map _).nodup_iff.mpr (nodup_list_worlds hworlds), fun manifest hmanifest => ?_⟩
  obtain ⟨entry, hentry, rfl⟩ := List.mem_map.mp hmanifest
  rw [(Ranked.rank_perm moment_key stamped).mem_iff] at hentry
  obtain ⟨item, -, hitem⟩ := Method.exists_item_of_mapM hstamped hentry
  obtain ⟨hbuilt, rfl⟩ := stamped_eq_ok_iff.mp hitem
  exact ⟨entry.1, hbuilt⟩

variable (host) in
-- A publishable world of the history, with the moment it was built at.
structure Entry (history : List WorldManifest) (entry : Datetime × WorldManifest) : Prop where
  listed : entry.2 ∈ history
  publishable : entry.2.status ∈ PUBLISHABLE_STATUSES
  built : entry.2.built host = .ok entry.1

theorem exists_entries_of_history {history : List WorldManifest}
    (hbuilt : ∀ manifest ∈ history, ∃ moment, manifest.built host = .ok moment) :
    ∃ entries, (history.filter (·.status ∈ PUBLISHABLE_STATUSES)).mapM
        (WorldManifest.stamped host) = .ok entries ∧
      ∀ entry, entry ∈ entries ↔ Entry host history entry := by
  have hall : ∀ manifest ∈ history.filter (·.status ∈ PUBLISHABLE_STATUSES),
      ∃ entry, manifest.stamped host = .ok entry ∧ True := by
    intro manifest hmanifest
    obtain ⟨moment, hmoment⟩ := hbuilt manifest (List.mem_filter.mp hmanifest).1
    exact ⟨(moment, manifest), stamped_eq_ok_iff.mpr ⟨hmoment, rfl⟩, trivial⟩
  obtain ⟨entries, hentries, -⟩ := exists_mapM_eq_ok hall
  refine ⟨entries, hentries, fun entry => ⟨fun hentry => ?_, fun hentry => ?_⟩⟩
  · obtain ⟨manifest, hmanifest, hstamped⟩ := Method.exists_item_of_mapM hentries hentry
    obtain ⟨hmoment, rfl⟩ := stamped_eq_ok_iff.mp hstamped
    obtain ⟨hlisted, hstatus⟩ := List.mem_filter.mp hmanifest
    exact ⟨hlisted, of_decide_eq_true hstatus, hmoment⟩
  · have hmanifest : entry.2 ∈ history.filter (·.status ∈ PUBLISHABLE_STATUSES) :=
      List.mem_filter.mpr ⟨hentry.listed, decide_eq_true hentry.publishable⟩
    obtain ⟨found, hfound, hstamped⟩ := Method.exists_value_of_mapM hentries hmanifest
    obtain ⟨hmoment, hsame⟩ := stamped_eq_ok_iff.mp hstamped
    rw [hentry.built] at hmoment
    have heq : found = entry := Prod.ext (Except.ok.inj hmoment).symm hsame
    exact heq ▸ hfound

theorem entry_of_key {history : List WorldManifest} (hids : (history.map (·.world_id)).Nodup)
    {first second : Datetime × WorldManifest} (hfirst : Entry host history first)
    (hsecond : Entry host history second) (hkey : moment_key first = moment_key second) :
    first = second := by
  have hid : first.2.world_id = second.2.world_id := (Prod.ext_iff.mp (toLex_inj.mp hkey)).2
  have hsame : first.2 = second.2 :=
    List.inj_on_of_nodup_map hids hfirst.listed hsecond.listed hid
  have hbuilt := hfirst.built
  rw [hsame, hsecond.built] at hbuilt
  exact Prod.ext (Except.ok.inj hbuilt).symm hsame

-- The world that a question as of a date is answered from, if any.
def Selects (digit : Char → Option Nat) (host : Host) (store : LocalWorldStore)
    (as_of_date : String) (chosen : Option WorldManifest) : Prop :=
  ∃ boundary history, _parse_as_of_boundary digit host (_clean as_of_date) = some boundary ∧
    store.list_history host = .ok history ∧ newest_visible host boundary history = .ok chosen

variable (host) in
-- The newest publishable world built up to the limit, or none where there is none.
def Newest (history : List WorldManifest) (limit : ℤ) : Option WorldManifest → Prop
  | none => ∀ entry, Entry host history entry → limit < entry.1.instant
  | some manifest => ∃ entry, entry.2 = manifest ∧ Entry host history entry ∧
      entry.1.instant ≤ limit ∧
      ∀ other, Entry host history other → other.1.instant ≤ limit → moment_key other ≤ moment_key entry

theorem newest_of_argmax {history : List WorldManifest} {entries : List (Datetime × WorldManifest)}
    (hentries : ∀ entry, entry ∈ entries ↔ Entry host history entry)
    (hids : (history.map (·.world_id)).Nodup) (limit : ℤ) :
    Newest host history limit
      (((entries.filter (fun entry => entry.1.instant ≤ limit)).argmax moment_key).map Prod.snd) := by
  have hkey : ∀ a ∈ entries, ∀ b ∈ entries, moment_key a = moment_key b → a = b :=
    fun a ha b hb => entry_of_key hids ((hentries a).mp ha) ((hentries b).mp hb)
  cases hfound : (entries.filter (fun entry => entry.1.instant ≤ limit)).argmax moment_key with
  | none =>
      intro entry hentry
      have hpast := argmax_filter_eq_none_iff.mp hfound entry ((hentries entry).mpr hentry)
      exact not_le.mp (of_decide_eq_false hpast)
  | some entry =>
      obtain ⟨hmem, hseen, hgreatest⟩ := (argmax_filter_eq_some_iff hkey).mp hfound
      exact ⟨entry, rfl, (hentries entry).mp hmem, of_decide_eq_true hseen,
        fun other hother hle => hgreatest other ((hentries other).mpr hother) (decide_eq_true hle)⟩

-- Equal choices among entries are equal choices among their worlds.
theorem map_snd_argmax {entries : List (Datetime × WorldManifest)}
    (hbuilt : ∀ entry ∈ entries, entry.2.built host = .ok entry.1)
    {first second : List (Datetime × WorldManifest)} (hfirst : first ⊆ entries)
    (hsecond : second ⊆ entries) :
    ((first.argmax moment_key).map Prod.snd = (second.argmax moment_key).map Prod.snd) ↔
      first.argmax moment_key = second.argmax moment_key := by
  refine ⟨fun hsame => ?_, fun hsame => hsame ▸ rfl⟩
  cases hleft : first.argmax moment_key with
  | none =>
      cases hright : second.argmax moment_key with
      | none => rfl
      | some other =>
          rw [hleft, hright] at hsame
          cases hsame
  | some entry =>
      cases hright : second.argmax moment_key with
      | none =>
          rw [hleft, hright] at hsame
          cases hsame
      | some other =>
          rw [hleft, hright] at hsame
          have hworld : entry.2 = other.2 := Option.some.inj hsame
          have hone := hbuilt entry (hfirst (List.argmax_mem hleft))
          rw [hworld, hbuilt other (hsecond (List.argmax_mem hright))] at hone
          exact congrArg some (Prod.ext (Except.ok.inj hone).symm hworld)

theorem newest_visible_of_entries {boundary : Boundary} {history : List WorldManifest}
    {entries : List (Datetime × WorldManifest)}
    (hstamped : (history.filter (·.status ∈ PUBLISHABLE_STATUSES)).mapM
      (WorldManifest.stamped host) = .ok entries) :
    newest_visible host boundary history =
      .ok (((entries.filter (fun entry => boundary.visible entry.1)).argmax moment_key).map
        Prod.snd) := by
  rw [newest_visible, hstamped]
  rfl

theorem selects_iff {digit : Char → Option Nat} {store : LocalWorldStore} {as_of_date : String}
    {boundary : Boundary} {history : List WorldManifest}
    {entries : List (Datetime × WorldManifest)}
    (hboundary : _parse_as_of_boundary digit host (_clean as_of_date) = some boundary)
    (hhistory : store.list_history host = .ok history)
    (hstamped : (history.filter (·.status ∈ PUBLISHABLE_STATUSES)).mapM
      (WorldManifest.stamped host) = .ok entries) {chosen : Option WorldManifest} :
    Selects digit host store as_of_date chosen ↔
      ((entries.filter (fun entry => boundary.visible entry.1)).argmax moment_key).map Prod.snd =
        chosen := by
  constructor
  · rintro ⟨found, listed, hfound, hlisted, hchosen⟩
    cases hfound.symm.trans hboundary
    cases hlisted.symm.trans hhistory
    rw [newest_visible_of_entries hstamped] at hchosen
    exact Except.ok.inj hchosen
  · rintro rfl
    exact ⟨boundary, history, hboundary, hhistory, newest_visible_of_entries hstamped⟩

-- The last instant of the day that begins at the moment.
def end_of_day (day : Datetime) : ℤ := day.instant + 86399999999

-- A bare date and the last instant of its day choose the same world, the newest one, and the
-- same with worlds added that are built later, exactly when every publishable world with an own
-- date up to the day was built by then, and the newest one built by then has such a date.
theorem as_of_selection_iff {digit : Char → Option Nat} {store more : LocalWorldStore}
    {history longer : List WorldManifest} {day_text last_text : String} {day last : Datetime}
    (hhistory : store.list_history host = .ok history)
    (hlonger : more.list_history host = .ok longer) (hgrown : history ⊆ longer)
    (hlater : ∀ manifest ∈ longer, manifest ∉ history →
      ∀ moment, manifest.built host = .ok moment → end_of_day day < moment.instant)
    (hday : _parse_as_of_boundary digit host (_clean day_text) = some ⟨day, true⟩)
    (hlast : _parse_as_of_boundary digit host (_clean last_text) = some ⟨last, false⟩)
    (hend : last.instant = end_of_day day) :
    (∃ chosen, Selects digit host store day_text chosen ∧ Selects digit host store last_text chosen ∧
        Newest host history (end_of_day day) chosen ∧
        Selects digit host more day_text chosen ∧ Selects digit host more last_text chosen) ↔
      (∀ entry, Entry host longer entry → date entry.1 ≤ date day →
        entry.1.instant ≤ end_of_day day) ∧
      ∀ entry, Entry host history entry → entry.1.instant ≤ end_of_day day →
        (∀ other, Entry host history other → other.1.instant ≤ end_of_day day →
          moment_key other ≤ moment_key entry) → date entry.1 ≤ date day := by
  obtain ⟨hids, hbuilt⟩ := history_spec hhistory
  obtain ⟨hids_longer, hbuilt_longer⟩ := history_spec hlonger
  obtain ⟨entries, hstamped, hentries⟩ := exists_entries_of_history hbuilt
  obtain ⟨all, hstamped_longer, hall⟩ := exists_entries_of_history hbuilt_longer
  let seen (entry : Datetime × WorldManifest) : Bool := date entry.1 ≤ date day
  let allowed (entry : Datetime × WorldManifest) : Bool := entry.1.instant ≤ end_of_day day
  have hvisible_day : (fun entry : Datetime × WorldManifest =>
      (⟨day, true⟩ : Boundary).visible entry.1) = seen := rfl
  have hvisible_last : (fun entry : Datetime × WorldManifest =>
      (⟨last, false⟩ : Boundary).visible entry.1) = allowed := by
    funext entry
    change decide (entry.1.instant ≤ last.instant) = decide (entry.1.instant ≤ end_of_day day)
    rw [hend]
  have hkey : ∀ a ∈ all, ∀ b ∈ all, moment_key a = moment_key b → a = b :=
    fun a ha b hb => entry_of_key hids_longer ((hall a).mp ha) ((hall b).mp hb)
  have hmore : entries ⊆ all := fun entry hentry =>
    have hfound := (hentries entry).mp hentry
    (hall entry).mpr ⟨hgrown hfound.listed, hfound.publishable, hfound.built⟩
  have hdown : ∀ a b, moment_key a ≤ moment_key b → allowed b = true → allowed a = true := by
    intro a b hle hb
    have hinstant : a.1.instant ≤ b.1.instant := Prod.Lex.monotone_fst _ _ hle
    exact decide_eq_true (hinstant.trans (of_decide_eq_true hb))
  have hnew : ∀ entry ∈ all, allowed entry = true → entry ∈ entries := by
    intro entry hentry hallowed
    have hfound := (hall entry).mp hentry
    refine (hentries entry).mpr ⟨?_, hfound.publishable, hfound.built⟩
    by_contra hunlisted
    exact absurd (of_decide_eq_true hallowed)
      (not_le.mpr (hlater entry.2 hfound.listed hunlisted entry.1 hfound.built))
  have hbuilt_all : ∀ entry ∈ all, entry.2.built host = .ok entry.1 :=
    fun entry hentry => ((hall entry).mp hentry).built
  have hinside (test : Datetime × WorldManifest → Bool) : entries.filter test ⊆ all :=
    fun _ hentry => hmore (List.mem_of_mem_filter hentry)
  have houtside (test : Datetime × WorldManifest → Bool) : all.filter test ⊆ all :=
    List.filter_subset_self _
  -- later worlds are never seen from the last instant
  have hstable : (all.filter allowed).argmax moment_key = (entries.filter allowed).argmax moment_key :=
    ((argmax_agree_iff hkey hmore hdown hnew).mpr ⟨fun _ _ h => h, fun best hbest =>
      ((argmax_filter_eq_some_iff (fun a ha b hb => hkey a (hmore ha) b (hmore hb))).mp hbest).2.1⟩).2
  calc _ ↔ (entries.filter seen).argmax moment_key = (entries.filter allowed).argmax moment_key ∧
        (all.filter seen).argmax moment_key = (entries.filter seen).argmax moment_key := by
        constructor
        · rintro ⟨chosen, hone, htwo, -, hthree, -⟩
          rw [selects_iff hday hhistory hstamped, hvisible_day] at hone
          rw [selects_iff hlast hhistory hstamped, hvisible_last] at htwo
          rw [selects_iff hday hlonger hstamped_longer, hvisible_day] at hthree
          exact ⟨(map_snd_argmax hbuilt_all (hinside _) (hinside _)).mp (hone.trans htwo.symm),
            (map_snd_argmax hbuilt_all (houtside _) (hinside _)).mp (hthree.trans hone.symm)⟩
        · rintro ⟨hsame, hgrow⟩
          refine ⟨((entries.filter allowed).argmax moment_key).map Prod.snd, ?_, ?_,
            newest_of_argmax hentries hids _, ?_, ?_⟩
          · rw [selects_iff hday hhistory hstamped, hvisible_day, hsame]
          · rw [selects_iff hlast hhistory hstamped, hvisible_last]
          · rw [selects_iff hday hlonger hstamped_longer, hvisible_day, hgrow, hsame]
          · rw [selects_iff hlast hlonger hstamped_longer, hvisible_last, hstable]
    _ ↔ (∀ entry ∈ all, seen entry = true → allowed entry = true) ∧
        ∀ best, (entries.filter allowed).argmax moment_key = some best → seen best = true :=
      argmax_agree_iff hkey hmore hdown hnew
    _ ↔ _ := by
        constructor
        · rintro ⟨honly, hbest⟩
          refine ⟨fun entry hentry hdate => ?_, fun entry hentry hle hgreatest => ?_⟩
          · exact of_decide_eq_true (honly entry ((hall entry).mpr hentry) (decide_eq_true hdate))
          · have hfound : (entries.filter allowed).argmax moment_key = some entry :=
              (argmax_filter_eq_some_iff (fun a ha b hb => hkey a (hmore ha) b (hmore hb))).mpr
                ⟨(hentries entry).mpr hentry, decide_eq_true hle, fun other hother hallowed =>
                  hgreatest other ((hentries other).mp hother) (of_decide_eq_true hallowed)⟩
            exact of_decide_eq_true (hbest entry hfound)
        · rintro ⟨honly, hbest⟩
          refine ⟨fun entry hentry hseen => ?_, fun entry hfound => ?_⟩
          · exact decide_eq_true (honly entry ((hall entry).mp hentry) (of_decide_eq_true hseen))
          · obtain ⟨hmem, hallowed, hgreatest⟩ := (argmax_filter_eq_some_iff
              (fun a ha b hb => hkey a (hmore ha) b (hmore hb))).mp hfound
            exact decide_eq_true (hbest entry ((hentries entry).mp hmem) (of_decide_eq_true hallowed)
              (fun other hother hle =>
                hgreatest other ((hentries other).mpr hother) (decide_eq_true hle)))

end Selection

section Sample

def offline_host : Host where
  too_deep _ := false
  max_str_digits := 4300
  repr _ := some "..."
  quoted text := s!"'{text}'"

def manifest_document (world_id built_at : String) : Members :=
  [("schema", .str "akc.local-world-manifest/1"), ("world_id", .str world_id),
    ("workspace_id", .str "ws"), ("status", .str "ACTIVE"), ("compiler_version", .str "1"),
    ("built_at", .str built_at), ("manifest_hash", .str "h")]

def world_files (world_id built_at : String) : WorldFiles :=
  ⟨some (.document (.obj (manifest_document world_id built_at))), none⟩

def one_world (built_at : String) : LocalWorldStore where
  root := "worlds"
  is_dir := true
  worlds := Dict.empty.set "w1" (world_files "w1" built_at)

def world_one (built_at : String) : WorldManifest :=
  ⟨"w1", "ws", "ACTIVE", "1", built_at, "h", []⟩

def midday_world : WorldManifest := world_one "2026-01-01T12:00:00+09:00"

def next_world : WorldManifest := ⟨"w2", "ws", "ACTIVE", "1", "2026-01-02T12:00:00-05:00", "h", []⟩

def two_worlds : LocalWorldStore where
  root := "worlds"
  is_dir := true
  worlds := (one_world "2026-01-01T12:00:00+09:00").worlds.set "w2"
    (world_files "w2" "2026-01-02T12:00:00-05:00")

def january (day hour minute second microsecond : Nat) (hday : 1 ≤ day ∧ day ≤ daysInMonth 2026 1)
    (htime : hour < 24 ∧ minute < 60 ∧ second < 60 ∧ microsecond < 1000000) : Datetime where
  year := 2026
  month := 1
  day := day
  hour := hour
  minute := minute
  second := second
  microsecond := microsecond
  utcoffset := some 0
  year_range := Datetime.year_2026
  month_range := Datetime.month_1
  day_range := hday
  time_range := htime
  offset_range := Datetime.offset_none

def first_day : Datetime := january 1 0 0 0 0 (by decide) (by decide)

theorem nine_hours_east : ∀ offset ∈ some (32400000000 : Int), offset.natAbs < 86400000000 := by
  decide

theorem five_hours_west : ∀ offset ∈ some (-18000000000 : Int), offset.natAbs < 86400000000 := by
  decide

-- The two worlds are built at midday, each in its own offset.
def first_midday : Datetime :=
  { january 1 12 0 0 0 (by decide) (by decide) with
    utcoffset := some 32400000000, offset_range := nine_hours_east }

def first_last : Datetime := january 1 23 59 59 999999 (by decide) (by decide)

def second_midday : Datetime :=
  { january 2 12 0 0 0 (by decide) (by decide) with
    utcoffset := some (-18000000000), offset_range := five_hours_west }

theorem built_midday : midday_world.built offline_host = .ok first_midday := rfl

theorem built_next : next_world.built offline_host = .ok second_midday := rfl

theorem history_one :
    (one_world "2026-01-01T12:00:00+09:00").list_history offline_host = .ok [midday_world] := rfl

theorem history_two : two_worlds.list_history offline_host = .ok [midday_world, next_world] := rfl

theorem moments : first_midday.instant ≤ end_of_day first_day ∧
    end_of_day first_day < second_midday.instant ∧ first_last.instant = end_of_day first_day ∧
    date first_midday ≤ date first_day ∧ ¬date second_midday ≤ date first_day := by decide

theorem boundary_day :
    _parse_as_of_boundary Datetime.digitValue offline_host (_clean "2026-01-01") =
      some ⟨first_day, true⟩ := rfl

theorem boundary_last :
    _parse_as_of_boundary Datetime.digitValue offline_host (_clean "2026-01-01T23:59:59.999999Z") =
      some ⟨first_last, false⟩ := rfl

theorem midday_world_chosen :
    ∃ chosen, Selects Datetime.digitValue offline_host (one_world "2026-01-01T12:00:00+09:00")
        "2026-01-01" chosen ∧
      Selects Datetime.digitValue offline_host (one_world "2026-01-01T12:00:00+09:00")
        "2026-01-01T23:59:59.999999Z" chosen ∧
      Newest offline_host [midday_world] (end_of_day first_day) chosen ∧
      Selects Datetime.digitValue offline_host two_worlds "2026-01-01" chosen ∧
      Selects Datetime.digitValue offline_host two_worlds "2026-01-01T23:59:59.999999Z" chosen := by
  obtain ⟨hmidday, hnext, hlast, hdate, hnext_date⟩ := moments
  have hgrown : [midday_world] ⊆ [midday_world, next_world] := by simp
  have hlater : ∀ manifest ∈ [midday_world, next_world], manifest ∉ [midday_world] →
      ∀ moment, manifest.built offline_host = .ok moment → end_of_day first_day < moment.instant := by
    intro manifest hmanifest hnew moment hmoment
    rcases List.mem_pair.mp hmanifest with rfl | rfl
    · exact absurd List.mem_cons_self hnew
    · rw [built_next] at hmoment
      exact Except.ok.inj hmoment ▸ hnext
  apply (as_of_selection_iff history_one history_two hgrown hlater boundary_day boundary_last
    hlast).mpr
  constructor
  · intro entry hentry hdated
    rcases List.mem_pair.mp hentry.listed with hworld | hworld
    · have hbuilt := hentry.built
      rw [hworld, built_midday] at hbuilt
      exact Except.ok.inj hbuilt ▸ hmidday
    · have hbuilt := hentry.built
      rw [hworld, built_next] at hbuilt
      rw [← Except.ok.inj hbuilt] at hdated
      exact absurd hdated hnext_date
  · intro entry hentry _ _
    have hbuilt := hentry.built
    rw [List.mem_singleton.mp hentry.listed, built_midday] at hbuilt
    exact Except.ok.inj hbuilt ▸ hdate

-- Built at 18:00 UTC, on the next day in its own offset.
theorem evening_world_hidden :
    Selects Datetime.digitValue offline_host (one_world "2026-01-02T03:00:00+09:00") "2026-01-01"
        none ∧
      Selects Datetime.digitValue offline_host (one_world "2026-01-02T03:00:00+09:00")
        "2026-01-01T23:59:59.999999Z" (some (world_one "2026-01-02T03:00:00+09:00")) :=
  ⟨⟨_, [world_one "2026-01-02T03:00:00+09:00"], rfl, rfl, rfl⟩,
    ⟨_, [world_one "2026-01-02T03:00:00+09:00"], rfl, rfl, rfl⟩⟩

end Sample

end KnowledgeCompiler.LocalMcp
