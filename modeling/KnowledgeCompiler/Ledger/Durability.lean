import KnowledgeCompiler.Ledger.ConsumptionLog

namespace KnowledgeCompiler.Ledger

open Lib

namespace IdentityLedger

variable (hasher : Hasher)

-- A handle and its file after any successful calls, from a path with no file on.
inductive Ran : IdentityLedger → Option ByteArray → Prop
  | start : Ran {} none
  | append {ledger next : IdentityLedger} {file : Option ByteArray} {bytes : ByteArray}
      {entry : LedgerEntry} (before : Ran ledger file)
      (call : ledger.append hasher file entry = .ok (next, bytes)) : Ran next (some bytes)
  | record {ledger next : IdentityLedger} {file : Option ByteArray} {bytes : ByteArray}
      {logical_id : String} {kind : LedgerKind} {prior_ids evidence_refs : List String}
      {note : String} {ts_utc : Datetime} (before : Ran ledger file)
      (call : ledger.record hasher file logical_id kind prior_ids evidence_refs note ts_utc =
        .ok (next, bytes)) : Ran next (some bytes)

theorem append_locked_ok {ledger next : IdentityLedger} {file : Option ByteArray}
    {bytes : ByteArray} {entry : LedgerEntry}
    (hcall : ledger.append_locked hasher file entry = .ok (next, bytes)) :
    entry.seq = ledger.next_seq ∧ next = ledger.push hasher entry ∧
      bytes = file.getD .empty ++ ledger.line_bytes hasher entry := by
  simp only [append_locked] at hcall
  split at hcall
  · cases hcall
  split at hcall
  · cases hcall
  · cases hcall
    exact ⟨by omega, rfl, rfl⟩

theorem record_ok {ledger next : IdentityLedger} {file : Option ByteArray} {bytes : ByteArray}
    {logical_id : String} {kind : LedgerKind} {prior_ids evidence_refs : List String}
    {note : String} {ts_utc : Datetime}
    (hcall : ledger.record hasher file logical_id kind prior_ids evidence_refs note ts_utc =
      .ok (next, bytes)) :
    ∃ entry, ledger.append_locked hasher file entry = .ok (next, bytes) := by
  unfold record at hcall
  cases hmake : LedgerEntry.make ledger.next_seq ts_utc (.str logical_id) kind
      (prior_ids.map .str) (evidence_refs.map .str) note with
  | error refused =>
      rw [hmake] at hcall
      cases hcall
  | ok entry =>
      rw [hmake] at hcall
      exact ⟨entry, hcall⟩

-- What a handle and its file are, as a log: the entries in turn, the state they lead to, their lines.
structure Kept (ledger : IdentityLedger) (file : Option ByteArray) : Prop where
  follows : (log hasher).Follows {} ledger.entries
  after_eq : (log hasher).after {} ledger.entries = ledger
  bytes_eq : file.getD .empty = (log hasher).bytes ledger.entries

theorem Kept.push {ledger : IdentityLedger} {file : Option ByteArray}
    (hkept : Kept hasher ledger file) {entry : LedgerEntry} (hseq : entry.seq = ledger.next_seq) :
    Kept hasher (ledger.push hasher entry)
      (some (file.getD .empty ++ ledger.line_bytes hasher entry)) := by
  constructor
  · refine ((log hasher).follows_append {} ledger.entries [entry]).mpr ⟨hkept.follows, ?_, trivial⟩
    rw [hkept.after_eq]
    exact hseq
  · refine ((log hasher).after_append {} ledger.entries [entry]).trans ?_
    rw [hkept.after_eq]
    rfl
  · refine Eq.trans ?_ ((log hasher).bytes_append ledger.entries entry).symm
    have hafter : (log hasher).after (log hasher).start ledger.entries = ledger := hkept.after_eq
    rw [Option.getD_some, hkept.bytes_eq, line_bytes_eq, hafter]

theorem Ran.kept {ledger : IdentityLedger} {file : Option ByteArray}
    (hran : Ran hasher ledger file) : Kept hasher ledger file := by
  induction hran with
  | start => exact ⟨trivial, rfl, rfl⟩
  | append _ call ih =>
      obtain ⟨hseq, rfl, rfl⟩ := append_locked_ok hasher call
      exact ih.push hasher hseq
  | record _ call ih =>
      obtain ⟨entry, hentry⟩ := record_ok hasher call
      obtain ⟨hseq, rfl, rfl⟩ := append_locked_ok hasher hentry
      exact ih.push hasher hseq

theorem allClean_iff (ledger : IdentityLedger) (entries : List LedgerEntry) :
    (log hasher).AllClean ledger entries ↔ ∀ entry ∈ entries, Unbroken entry.strings := by
  induction entries generalizing ledger with
  | nil => simp [JsonLines.AllClean]
  | cons entry rest ih => simp [JsonLines.AllClean, clean_iff, ih]

-- Opening the file again shows what the handle shows.
def Reopens (ledger : IdentityLedger) (file : Option ByteArray) : Prop :=
  ∃ reopened, init hasher file = .ok reopened ∧ reopened.entries = ledger.entries ∧
    reopened.last_digest = ledger.last_digest

theorem init_of_kept {ledger : IdentityLedger} {file : Option ByteArray}
    (hkept : Kept hasher ledger file) : init hasher file = (log hasher).read (file.getD .empty) := by
  cases file with
  | some bytes => rfl
  | none => exact (@JsonLines.read_bytes _ _ _ (log hasher) [] trivial trivial).symm

theorem reads_back_iff {ledger : IdentityLedger} {file : Option ByteArray}
    (hran : Ran hasher ledger file) :
    Reopens hasher ledger file ↔ ∀ entry ∈ ledger.entries, Unbroken entry.strings := by
  have hkept := hran.kept
  have hfollows : (log hasher).Follows (log hasher).start ledger.entries := hkept.follows
  have hafter : (log hasher).after (log hasher).start ledger.entries = ledger := hkept.after_eq
  rw [Reopens, init_of_kept hasher hkept, hkept.bytes_eq, ← allClean_iff hasher {}]
  constructor
  · rintro ⟨reopened, hopen, -, -⟩
    by_contra hclean
    obtain ⟨failed, hfailed⟩ := (log hasher).read_bytes_unclean hfollows hclean
    rw [hopen] at hfailed
    cases hfailed
  · intro hclean
    have hread := (log hasher).read_bytes hfollows hclean
    rw [hafter] at hread
    exact ⟨ledger, hread, rfl, rfl⟩

end IdentityLedger

namespace ConsumptionLedger

variable (hasher : Hasher)

inductive Ran : ConsumptionLedger → Option ByteArray → Prop
  | start : Ran {} none
  | append {ledger : ConsumptionLedger} {file : Option ByteArray} (before : Ran ledger file)
      (receipt : ConsumptionReceipt) :
      Ran (ledger.append hasher file receipt).1 (some (ledger.append hasher file receipt).2)

def receipts (ledger : ConsumptionLedger) : List ConsumptionReceipt :=
  ledger.records.map RecordedReceipt.receipt

theorem receipts_push (ledger : ConsumptionLedger) (receipt : ConsumptionReceipt) :
    (ledger.push hasher receipt).receipts = ledger.receipts ++ [receipt] := by
  simp [receipts, push, recorded]

theorem follows_all (ledger : ConsumptionLedger) (entries : List ConsumptionReceipt) :
    (log hasher).Follows ledger entries := by
  induction entries generalizing ledger with
  | nil => trivial
  | cons entry rest ih => exact ⟨trivial, ih _⟩

structure Kept (ledger : ConsumptionLedger) (file : Option ByteArray) : Prop where
  after_eq : (log hasher).after {} ledger.receipts = ledger
  bytes_eq : file.getD .empty = (log hasher).bytes ledger.receipts

theorem Ran.kept {ledger : ConsumptionLedger} {file : Option ByteArray}
    (hran : Ran hasher ledger file) : Kept hasher ledger file := by
  induction hran with
  | start => exact ⟨rfl, rfl⟩
  | @append ledger file _ receipt ih =>
      have hafter : (log hasher).after (log hasher).start ledger.receipts = ledger := ih.after_eq
      constructor
      · rw [ConsumptionLedger.append, receipts_push]
        refine ((log hasher).after_append {} ledger.receipts [receipt]).trans ?_
        rw [ih.after_eq]
        rfl
      · rw [ConsumptionLedger.append, receipts_push, Option.getD_some, ih.bytes_eq, line_bytes_eq,
          (log hasher).bytes_append ledger.receipts receipt, hafter]

theorem allClean_iff {ledger : ConsumptionLedger} (hhead : HexHead ledger)
    (entries : List ConsumptionReceipt) :
    (log hasher).AllClean ledger entries ↔ ∀ receipt ∈ entries, Unbroken receipt.strings := by
  induction entries generalizing ledger with
  | nil => simp [JsonLines.AllClean]
  | cons receipt rest ih =>
      have hrest := ih (hexHead_push hasher ledger receipt)
      simp only [JsonLines.AllClean, clean_iff hasher hhead, List.forall_mem_cons]
      exact and_congr_right (fun _ => hrest)

def Reopens (ledger : ConsumptionLedger) (file : Option ByteArray) : Prop :=
  ∃ reopened, init hasher file = .ok reopened ∧ reopened.records = ledger.records ∧
    reopened.last_digest = ledger.last_digest

theorem init_of_kept {ledger : ConsumptionLedger} {file : Option ByteArray}
    (hkept : Kept hasher ledger file) : init hasher file = (log hasher).read (file.getD .empty) := by
  cases file with
  | some bytes => rfl
  | none => exact (@JsonLines.read_bytes _ _ _ (log hasher) [] trivial trivial).symm

theorem reads_back_iff {ledger : ConsumptionLedger} {file : Option ByteArray}
    (hran : Ran hasher ledger file) :
    Reopens hasher ledger file ↔ ∀ record ∈ ledger.records, Unbroken record.receipt.strings := by
  have hkept := hran.kept
  have hfollows := follows_all hasher (log hasher).start ledger.receipts
  have hafter : (log hasher).after (log hasher).start ledger.receipts = ledger := hkept.after_eq
  have hclean : (log hasher).AllClean (log hasher).start ledger.receipts ↔
      ∀ record ∈ ledger.records, Unbroken record.receipt.strings := by
    rw [show (log hasher).start = ({} : ConsumptionLedger) from rfl, allClean_iff hasher hexHead_start]
    simp [receipts]
  rw [Reopens, init_of_kept hasher hkept, hkept.bytes_eq, ← hclean]
  constructor
  · rintro ⟨reopened, hopen, -, -⟩
    by_contra hclean
    obtain ⟨failed, hfailed⟩ := (log hasher).read_bytes_unclean hfollows hclean
    rw [hopen] at hfailed
    cases hfailed
  · intro hclean
    have hread := (log hasher).read_bytes hfollows hclean
    rw [hafter] at hread
    exact ⟨ledger, hread, rfl, rfl⟩

end ConsumptionLedger

-- A ledger reopens as it was just as long as no text it was given has one of
-- the line breaks that JSON leaves as they are.
theorem ledgers_reopen_iff (hasher : Hasher) {ledger : IdentityLedger} {file : Option ByteArray}
    (hran : IdentityLedger.Ran hasher ledger file) {consumed : ConsumptionLedger}
    {consumptionFile : Option ByteArray}
    (hconsumed : ConsumptionLedger.Ran hasher consumed consumptionFile) :
    (IdentityLedger.Reopens hasher ledger file ↔
        ∀ entry ∈ ledger.entries, Unbroken entry.strings) ∧
      (ConsumptionLedger.Reopens hasher consumed consumptionFile ↔
        ∀ record ∈ consumed.records, Unbroken record.receipt.strings) :=
  ⟨IdentityLedger.reads_back_iff hasher hran, ConsumptionLedger.reads_back_iff hasher hconsumed⟩

-- The same transition under another number.
def LedgerEntry.numbered (entry : LedgerEntry) (seq : Int) (hseq : 1 ≤ seq) : LedgerEntry :=
  { entry with seq := seq, seq_pos := hseq }

namespace IdentityLedger

theorem next_seq_pos (ledger : IdentityLedger) : 1 ≤ ledger.next_seq := by
  simp only [next_seq]
  omega

-- The next transition, as a handle in this state records it.
def upcoming (ledger : IdentityLedger) (next : LedgerEntry) : LedgerEntry :=
  next.numbered ledger.next_seq ledger.next_seq_pos

theorem append_upcoming (hasher : Hasher) (ledger : IdentityLedger) (file : Option ByteArray) (next : LedgerEntry) :
    ledger.append hasher file (ledger.upcoming next) =
      .ok (ledger.push hasher (ledger.upcoming next),
        file.getD .empty ++ ledger.line_bytes hasher (ledger.upcoming next)) := by
  simp [append, append_locked, upcoming, LedgerEntry.numbered]

end IdentityLedger

def noon : Datetime where
  year := 2026
  month := 7
  day := 1
  hour := 12
  minute := 0
  second := 0
  microsecond := 0
  utcoffset := some 0
  year_range := Datetime.year_2026
  month_range := by decide
  day_range := by decide
  time_range := Datetime.midday
  offset_range := Datetime.offset_none

def founded (note : String) : LedgerEntry where
  seq := 1
  ts_utc := noon
  logical_id := ⟨"ku_warranty", by decide, by decide⟩
  kind := .NEW
  prior_ids := []
  evidence_refs := []
  note := note
  seq_pos := by decide
  is_utc := rfl

theorem ran_founded (hasher : Hasher) (note : String) :
    IdentityLedger.Ran hasher (({} : IdentityLedger).push hasher (founded note))
      (some (ByteArray.empty ++ ({} : IdentityLedger).line_bytes hasher (founded note))) :=
  .append .start (show ({} : IdentityLedger).append hasher none (founded note) = _ from rfl)

-- A next-line character in a note is a line of its own to the reader.
theorem broken_note_does_not_reopen :
    IdentityLedger.Ran sha256 (({} : IdentityLedger).push sha256 (founded "a\u0085b"))
        (some (ByteArray.empty ++ ({} : IdentityLedger).line_bytes sha256 (founded "a\u0085b"))) ∧
      ¬IdentityLedger.Reopens sha256 (({} : IdentityLedger).push sha256 (founded "a\u0085b"))
        (some (ByteArray.empty ++ ({} : IdentityLedger).line_bytes sha256 (founded "a\u0085b"))) := by
  have hran := ran_founded sha256 "a\u0085b"
  refine ⟨hran, fun hreopens => ?_⟩
  have hunbroken := (IdentityLedger.reads_back_iff sha256 hran).mp hreopens (founded "a\u0085b")
    (List.mem_singleton_self _) "a\u0085b" (by decide) (Char.ofNat 0x85) (by decide)
  exact absurd hunbroken (by decide)

-- A second transition behind the founding one.
def renewed (hasher : Hasher) : IdentityLedger :=
  (({} : IdentityLedger).push hasher (founded "plain")).push hasher
    ((({} : IdentityLedger).push hasher (founded "plain")).upcoming
      { founded "renewed" with kind := .MATCH })

def renewed_file (hasher : Hasher) : ByteArray :=
  ByteArray.empty ++ ({} : IdentityLedger).line_bytes hasher (founded "plain") ++
    (({} : IdentityLedger).push hasher (founded "plain")).line_bytes hasher
      ((({} : IdentityLedger).push hasher (founded "plain")).upcoming
        { founded "renewed" with kind := .MATCH })

theorem ran_renewed (hasher : Hasher) :
    IdentityLedger.Ran hasher (renewed hasher) (some (renewed_file hasher)) :=
  .append (ran_founded hasher "plain") (IdentityLedger.append_upcoming hasher _ _ _)

theorem renewed_unbroken (hasher : Hasher) : ∀ entry ∈ (renewed hasher).entries, Unbroken entry.strings := by
  intro entry hentry
  simp only [renewed, IdentityLedger.push, List.nil_append, List.mem_append, List.mem_singleton] at hentry
  rcases hentry with rfl | rfl
  · exact by decide
  · exact show Unbroken (founded "renewed").strings by decide

def consulted : ConsumptionReceipt where
  receipt_id := ⟨"rcpt_1", by decide, by decide⟩
  consumer_type := .ASK
  consumer_id := ⟨"desk_1", by decide, by decide⟩
  request_id := ⟨"req_1", by decide, by decide⟩
  query_tool := ⟨"ask_world", by decide, by decide⟩
  requested_at := noon
  world_state_id := ⟨"WS-1", by decide, by decide⟩
  claim_ids := [⟨"claim_gate", by decide, by decide⟩]
  evidence_ids := [⟨"ev_gate", by decide, by decide⟩]
  permission_snapshot_ref := ⟨"perm_1", by decide, by decide⟩
  policy_revision := ⟨"policy_1", by decide, by decide⟩
  outcome := .CURRENT
  response_artifact_hash := ⟨"sha256:00", by decide, by decide⟩
  model_identity := none
  is_utc := rfl

def consulted_ledger (hasher : Hasher) : ConsumptionLedger × ByteArray :=
  ({} : ConsumptionLedger).append hasher none consulted

theorem ran_consulted (hasher : Hasher) :
    ConsumptionLedger.Ran hasher (consulted_ledger hasher).1 (some (consulted_ledger hasher).2) :=
  .append .start consulted

theorem consulted_unbroken (hasher : Hasher) :
    ∀ record ∈ (consulted_ledger hasher).1.records, Unbroken record.receipt.strings :=
  List.forall_mem_singleton.mpr (show Unbroken consulted.strings by decide)

theorem ledgers_reopen_plain :
    IdentityLedger.Reopens sha256 (renewed sha256) (some (renewed_file sha256)) ∧
      ConsumptionLedger.Reopens sha256 (consulted_ledger sha256).1
        (some (consulted_ledger sha256).2) := by
  obtain ⟨hidentity, hconsumption⟩ := ledgers_reopen_iff sha256 (ran_renewed sha256) (ran_consulted sha256)
  exact ⟨hidentity.mpr (renewed_unbroken sha256), hconsumption.mpr (consulted_unbroken sha256)⟩

end KnowledgeCompiler.Ledger
