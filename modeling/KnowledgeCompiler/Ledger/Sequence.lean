import KnowledgeCompiler.Ledger.Replay
import Mathlib.Order.Basic

namespace KnowledgeCompiler.Ledger

open Lib

namespace LedgerEntry

variable (entry : LedgerEntry) (id : StrippedText)

def Mentions : Prop := entry.logical_id = id ∨ id ∈ entry.prior_ids

-- The priors that are marked ABSORBED.
def Absorbs : Prop :=
  (entry.kind = .MERGE ∨ entry.kind = .SPLIT) ∧ id ∈ entry.prior_ids ∧ id ≠ entry.logical_id

def Changes : Prop := entry.logical_id = id ∨ entry.Absorbs id

instance : Decidable (entry.Absorbs id) := inferInstanceAs (Decidable (_ ∧ _ ∧ _))

variable {entry id}

theorem Changes.mentions (h : entry.Changes id) : entry.Mentions id := by
  rcases h with hsubject | habsorbs
  · exact Or.inl hsubject
  · exact Or.inr habsorbs.2.1

end LedgerEntry

namespace IdentityMap

-- What the counters of an id should say after the entries.
structure InSequence (entries : List LedgerEntry) (id : StrippedText) (state : IdentityState) :
    Prop where
  from_one : 1 ≤ state.first_seq
  ordered : state.first_seq ≤ state.last_seq
  first_mention : ∃ entry ∈ entries, entry.seq = state.first_seq ∧ entry.Mentions id
  last_mention : ∃ entry ∈ entries, entry.seq = state.last_seq ∧ entry.Mentions id
  last_change : ∃ entry ∈ entries, entry.seq = state.last_seq ∧ entry.Changes id ∧
    ∀ other ∈ entries, other.Changes id → other.seq ≤ entry.seq

def SequenceConsistent (entries : List LedgerEntry) (states : IdentityMap) : Prop :=
  ∀ id state, states.get? id = some state → InSequence entries id state

-- Whatever is absorbed is the subject of a later entry.
def AbsorbedReturn (entries : List LedgerEntry) : Prop :=
  ∀ entry ∈ entries, ∀ id, entry.Absorbs id →
    ∃ later ∈ entries, entry.seq < later.seq ∧ later.logical_id = id

def counters (states : IdentityMap) (id : StrippedText) : Option (Int × Int) :=
  (states.get? id).map fun state => (state.first_seq, state.last_seq)

section Step

variable (states : IdentityMap) (entry : LedgerEntry) (id : StrippedText)

theorem counters_set (key : StrippedText) (state : IdentityState) :
    counters (states.set key state) id =
      if id = key then some (state.first_seq, state.last_seq) else counters states id := by
  unfold counters
  rw [Dict.get?_set]
  split <;> rfl

theorem state_for_counters (seq : Int) :
    ((states.state_for id seq).first_seq, (states.state_for id seq).last_seq) =
      (counters states id).getD (seq, 0) := by
  unfold state_for counters
  cases states.get? id <;> rfl

theorem counters_absorb (pid : StrippedText) :
    counters (absorb entry states pid) id =
      if id = pid then some ((counters states pid).getD (entry.seq, 0)) else counters states id := by
  rw [absorb, counters_set, ← state_for_counters]

theorem counters_absorb_all (priors : List StrippedText) :
    counters (priors.foldl (absorb entry) states) id =
      if id ∈ priors then some ((counters states id).getD (entry.seq, 0)) else counters states id := by
  induction priors generalizing states with
  | nil => simp
  | cons pid rest ih =>
      rw [List.foldl_cons, ih, counters_absorb]
      by_cases hpid : id = pid
      · subst hpid
        simp
      · simp [hpid]

-- All that one entry does to the counters of an id.
theorem counters_fold_entry :
    counters (states.fold_entry entry) id =
      if entry.logical_id = id then some (((counters states id).getD (entry.seq, 0)).1, entry.seq)
      else if entry.Absorbs id then some ((counters states id).getD (entry.seq, 0))
      else counters states id := by
  have hfirst : (states.state_for entry.logical_id entry.seq).first_seq =
      ((counters states entry.logical_id).getD (entry.seq, 0)).1 :=
    congrArg Prod.fst (state_for_counters states entry.logical_id entry.seq)
  unfold fold_entry
  by_cases hsubject : entry.logical_id = id
  · subst hsubject
    rw [if_pos rfl, ← hfirst]
    split_ifs
    · simp [counters_set]
    · simp [counters_absorb_all, counters_set]
    · simp [counters_set]
  · have hother : ¬id = entry.logical_id := fun h => hsubject h.symm
    rw [if_neg hsubject]
    by_cases hretire : entry.kind = .RETIRE
    · have habsorbs : ¬entry.Absorbs id := by
        intro h
        rcases h.1 with hk | hk <;> rw [hretire] at hk <;> cases hk
      rw [if_pos hretire, if_neg habsorbs, counters_set, if_neg hother]
    · rw [if_neg hretire]
      by_cases hkind : entry.kind = .MERGE ∨ entry.kind = .SPLIT
      · rw [if_pos hkind, counters_absorb_all, counters_set, if_neg hother]
        refine if_congr ?_ rfl rfl
        simp [LedgerEntry.Absorbs, hkind]
      · have habsorbs : ¬entry.Absorbs id := fun h => hkind h.1
        rw [if_neg hkind, if_neg habsorbs, counters_set, if_neg hother]

end Step

-- What the counters of an id do say after the entries.
structure Counted (entries : List LedgerEntry) (id : StrippedText) (first last : Int) : Prop where
  founded : ∃ entry ∈ entries, entry.seq = first ∧ entry.Changes id
  earliest : ∀ other ∈ entries, other.Changes id → first ≤ other.seq
  subject : (last = 0 ∧ ∀ entry ∈ entries, entry.logical_id ≠ id) ∨
    ∃ entry ∈ entries, entry.seq = last ∧ entry.logical_id = id ∧
      ∀ other ∈ entries, other.logical_id = id → other.seq ≤ last

def Tracked (entries : List LedgerEntry) (states : IdentityMap) (id : StrippedText) : Prop :=
  (counters states id = none ∧ ∀ entry ∈ entries, ¬entry.Changes id) ∨
    ∃ first last, counters states id = some (first, last) ∧ Counted entries id first last

section Run

variable {entries : List LedgerEntry} {states : IdentityMap} {entry : LedgerEntry} {id : StrippedText}

-- The entry that founds an id on the spot, or finds it there.
theorem Tracked.founded (htracked : Tracked entries states id) (hchanges : entry.Changes id)
    (hlater : ∀ other ∈ entries, other.seq < entry.seq) :
    (∃ other ∈ entries ++ [entry],
        other.seq = ((counters states id).getD (entry.seq, 0)).1 ∧ other.Changes id) ∧
      ∀ other ∈ entries ++ [entry], other.Changes id →
        ((counters states id).getD (entry.seq, 0)).1 ≤ other.seq := by
  rcases htracked with ⟨hnone, hfresh⟩ | ⟨first, last, hsome, hcounted⟩
  · rw [hnone]
    refine ⟨⟨entry, by simp, rfl, hchanges⟩, ?_⟩
    intro other hother hchange
    rcases List.mem_append.mp hother with hbefore | hlast
    · exact absurd hchange (hfresh other hbefore)
    · rw [List.mem_singleton.mp hlast]
      exact le_refl _
  · rw [hsome]
    obtain ⟨founder, hmem, hseq, hfounds⟩ := hcounted.founded
    refine ⟨⟨founder, List.mem_append_left _ hmem, hseq, hfounds⟩, ?_⟩
    intro other hother hchange
    rcases List.mem_append.mp hother with hbefore | hlast
    · exact hcounted.earliest other hbefore hchange
    · rw [List.mem_singleton.mp hlast]
      exact (hseq ▸ hlater founder hmem).le

theorem Tracked.fold_entry (htracked : Tracked entries states id)
    (hlater : ∀ other ∈ entries, other.seq < entry.seq) :
    Tracked (entries ++ [entry]) (states.fold_entry entry) id := by
  unfold Tracked
  rw [counters_fold_entry]
  by_cases hsubject : entry.logical_id = id
  · rw [if_pos hsubject]
    obtain ⟨hfounded, hearliest⟩ := htracked.founded (Or.inl hsubject) hlater
    refine Or.inr ⟨_, _, rfl, hfounded, hearliest, Or.inr ⟨entry, by simp, rfl, hsubject, ?_⟩⟩
    intro other hother _
    rcases List.mem_append.mp hother with hbefore | hlast
    · exact (hlater other hbefore).le
    · rw [List.mem_singleton.mp hlast]
  · rw [if_neg hsubject]
    by_cases habsorbs : entry.Absorbs id
    · rw [if_pos habsorbs]
      obtain ⟨hfounded, hearliest⟩ := htracked.founded (Or.inr habsorbs) hlater
      refine Or.inr ⟨_, _, rfl, hfounded, hearliest, ?_⟩
      rcases htracked with ⟨hnone, hfresh⟩ | ⟨first, last, hsome, hcounted⟩
      · rw [hnone]
        refine Or.inl ⟨rfl, ?_⟩
        intro other hother heq
        rcases List.mem_append.mp hother with hbefore | hlast
        · exact hfresh other hbefore (Or.inl heq)
        · exact hsubject (List.mem_singleton.mp hlast ▸ heq)
      · rw [hsome]
        rcases hcounted.subject with ⟨hzero, hnever⟩ | ⟨found, hmem, hseq, heq, hmax⟩
        · refine Or.inl ⟨hzero, ?_⟩
          intro other hother heq
          rcases List.mem_append.mp hother with hbefore | hlast
          · exact hnever other hbefore heq
          · exact hsubject (List.mem_singleton.mp hlast ▸ heq)
        · refine Or.inr ⟨found, List.mem_append_left _ hmem, hseq, heq, ?_⟩
          intro other hother hother'
          rcases List.mem_append.mp hother with hbefore | hlast
          · exact hmax other hbefore hother'
          · exact absurd (List.mem_singleton.mp hlast ▸ hother') hsubject
    · rw [if_neg habsorbs]
      have hunchanged : ¬entry.Changes id := fun h => h.elim hsubject habsorbs
      have hold {P : LedgerEntry → Prop} (hbefore : ∀ other ∈ entries, P other) (hentry : P entry) :
          ∀ other ∈ entries ++ [entry], P other := by
        intro other hother
        rcases List.mem_append.mp hother with hin | hlast
        · exact hbefore other hin
        · exact List.mem_singleton.mp hlast ▸ hentry
      rcases htracked with ⟨hnone, hfresh⟩ | ⟨first, last, hsome, hcounted⟩
      · exact Or.inl ⟨hnone, hold hfresh hunchanged⟩
      · refine Or.inr ⟨first, last, hsome, ?_, ?_, ?_⟩
        · obtain ⟨founder, hmem, hfounder⟩ := hcounted.founded
          exact ⟨founder, List.mem_append_left _ hmem, hfounder⟩
        · exact hold hcounted.earliest fun h => absurd h hunchanged
        · rcases hcounted.subject with ⟨hzero, hnever⟩ | ⟨found, hmem, hseq, heq, hmax⟩
          · exact Or.inl ⟨hzero, hold hnever hsubject⟩
          · exact Or.inr ⟨found, List.mem_append_left _ hmem, hseq, heq,
              hold hmax fun h => absurd h hsubject⟩

theorem tracked_replay (entries : List LedgerEntry)
    (hincreasing : entries.Pairwise fun first second => first.seq < second.seq) (id : StrippedText) :
    Tracked entries (replay entries) id := by
  induction entries using List.reverseRecOn with
  | nil => exact Or.inl ⟨rfl, by simp⟩
  | append_singleton entries entry ih =>
      obtain ⟨hbefore, -, hlater⟩ := List.pairwise_append.mp hincreasing
      rw [replay, List.foldl_append, List.foldl_cons, List.foldl_nil]
      exact (ih hbefore).fold_entry fun other hother =>
        hlater other hother entry (List.mem_singleton_self entry)

theorem inSequence_of_return {state : IdentityState} (hreturn : AbsorbedReturn entries)
    (hcounted : Counted entries id state.first_seq state.last_seq) : InSequence entries id state := by
  obtain ⟨founder, hfounder, hfirst, hfounds⟩ := hcounted.founded
  -- an id that was only ever absorbed would have to return
  obtain ⟨found, hfound, hlast, hsubject, hmax⟩ : ∃ entry ∈ entries, entry.seq = state.last_seq ∧
      entry.logical_id = id ∧ ∀ other ∈ entries, other.logical_id = id → other.seq ≤ state.last_seq := by
    rcases hcounted.subject with ⟨-, hnever⟩ | hsubject
    · rcases hfounds with heq | habsorbs
      · exact absurd heq (hnever founder hfounder)
      · obtain ⟨later, hlater, -, heq⟩ := hreturn founder hfounder id habsorbs
        exact absurd heq (hnever later hlater)
    · exact hsubject
  constructor
  · exact hfirst ▸ founder.seq_pos
  · exact hlast ▸ hcounted.earliest found hfound (Or.inl hsubject)
  · exact ⟨founder, hfounder, hfirst, hfounds.mentions⟩
  · exact ⟨found, hfound, hlast, Or.inl hsubject⟩
  · refine ⟨found, hfound, hlast, Or.inl hsubject, ?_⟩
    intro other hother hchange
    rw [hlast]
    rcases hchange with heq | habsorbs
    · exact hmax other hother heq
    · obtain ⟨later, hlater, hlt, heq⟩ := hreturn other hother id habsorbs
      exact hlt.le.trans (hmax later hlater heq)

theorem return_of_inSequence (hincreasing : entries.Pairwise fun first second => first.seq < second.seq)
    {state : IdentityState} (hcounted : Counted entries id state.first_seq state.last_seq)
    (hsequence : InSequence entries id state) (hentry : entry ∈ entries) (habsorbs : entry.Absorbs id) :
    ∃ later ∈ entries, entry.seq < later.seq ∧ later.logical_id = id := by
  obtain ⟨last, hmem, hlast, -, hmax⟩ := hsequence.last_change
  have hle : entry.seq ≤ state.last_seq := hlast ▸ hmax entry hentry (Or.inr habsorbs)
  rcases hcounted.subject with ⟨hzero, -⟩ | ⟨found, hfound, hseq, hsubject, -⟩
  · have hpos := entry.seq_pos
    omega
  · refine ⟨found, hfound, ?_, hsubject⟩
    -- one seq is one entry, and the absorbing one has another subject
    rcases eq_or_lt_of_le (hseq ▸ hle) with heq | hlt
    · have hapart : (entries.map LedgerEntry.seq).Nodup :=
        List.pairwise_map.mpr (hincreasing.imp fun h => h.ne)
      have hsame : entry = found := List.inj_on_of_nodup_map hapart hentry hfound heq
      exact absurd (hsame ▸ hsubject).symm habsorbs.2.2
    · exact hlt

theorem replay_sequence_iff (entries : List LedgerEntry)
    (hincreasing : entries.Pairwise fun first second => first.seq < second.seq) :
    SequenceConsistent entries (replay entries) ↔ AbsorbedReturn entries := by
  have hcounted : ∀ id state, (replay entries).get? id = some state →
      Counted entries id state.first_seq state.last_seq := by
    intro id state hget
    rcases tracked_replay entries hincreasing id with ⟨hnone, -⟩ | ⟨first, last, hsome, hcounted⟩
    · simp [counters, hget] at hnone
    · simp only [counters, hget, Option.map_some, Option.some.injEq, Prod.mk.injEq] at hsome
      rwa [hsome.1, hsome.2]
  constructor
  · intro hconsistent entry hentry id habsorbs
    rcases tracked_replay entries hincreasing id with ⟨-, hnever⟩ | ⟨first, last, hsome, -⟩
    · exact absurd (Or.inr habsorbs) (hnever entry hentry)
    · obtain ⟨state, hget, -⟩ := Option.map_eq_some_iff.mp hsome
      exact return_of_inSequence hincreasing (hcounted id state hget) (hconsistent id state hget)
        hentry habsorbs
  · intro hreturn id state hget
    exact inSequence_of_return hreturn (hcounted id state hget)

end Run

section Samples

def opened_at : Datetime where
  year := 2026
  month := 1
  day := 1
  hour := 12
  minute := 0
  second := 0
  microsecond := 0
  utcoffset := some 0
  year_range := Datetime.year_2026
  month_range := Datetime.month_1
  day_range := Datetime.day_1
  time_range := Datetime.midday
  offset_range := Datetime.offset_none

def survivor : StrippedText := ⟨"ku_a", by decide, by decide⟩

def prior : StrippedText := ⟨"ku_b", by decide, by decide⟩

def merged : LedgerEntry where
  seq := 1
  ts_utc := opened_at
  logical_id := survivor
  kind := .MERGE
  prior_ids := [prior]
  evidence_refs := []
  note := ""
  seq_pos := le_refl 1
  is_utc := rfl

def matched_again : LedgerEntry where
  seq := 2
  ts_utc := opened_at
  logical_id := prior
  kind := .MATCH
  prior_ids := []
  evidence_refs := []
  note := ""
  seq_pos := by decide
  is_utc := rfl

theorem matched_again_in_sequence :
    SequenceConsistent [merged, matched_again] (replay [merged, matched_again]) := by
  refine (replay_sequence_iff [merged, matched_again] (by simp [merged, matched_again])).mpr ?_
  intro entry hentry id habsorbs
  rcases List.mem_cons.mp hentry with rfl | hlast
  · have hid : id = prior := List.mem_singleton.mp habsorbs.2.1
    exact ⟨matched_again, by simp, by decide, hid.symm⟩
  · obtain rfl := List.mem_singleton.mp hlast
    cases habsorbs.2.1

-- A prior that nothing had founded is left with `last_seq` 0.
theorem absorbed_prior_out_of_sequence :
    ∃ entries : List LedgerEntry, (entries.Pairwise fun first second => first.seq < second.seq) ∧
      ¬SequenceConsistent entries (replay entries) := by
  refine ⟨[merged], List.pairwise_singleton _ _, fun hconsistent => ?_⟩
  have hprior : ((replay [merged]).get? prior).map (fun state => (state.first_seq, state.last_seq)) =
      some (1, 0) := by decide
  obtain ⟨state, hget, hcounters⟩ := Option.map_eq_some_iff.mp hprior
  have hordered := (hconsistent prior state hget).ordered
  have hfirst := congrArg Prod.fst hcounters
  have hlast := congrArg Prod.snd hcounters
  dsimp only at hfirst hlast
  omega

end Samples

end IdentityMap

end KnowledgeCompiler.Ledger
