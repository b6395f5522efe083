import KnowledgeCompiler.Ledger.Identity

namespace KnowledgeCompiler.Ledger

open Lib

namespace LedgerEntry

-- The record as it is spelled, its keys in order.
def sorted_payload (entry : LedgerEntry) : List (String × Json) :=
  [("evidence_refs", texts entry.evidence_refs),
    ("kind", .str entry.kind.value),
    ("logical_id", entry.logical_id.json),
    ("note", .str entry.note),
    ("prior_ids", texts entry.prior_ids),
    ("seq", .int entry.seq),
    ("ts_utc", .str (String.ofList entry.ts_utc.isoformat))]

def sorted_record (digest : String) (entry : LedgerEntry) : List (String × Json) :=
  ("digest", .str digest) :: entry.sorted_payload

theorem canonical_record (digest : String) (entry : LedgerEntry) :
    canonical (entry.payload ++ [("digest", .str digest)]) =
      Json.text (.obj (entry.sorted_record digest)) := by
  simp [canonical, Json.dumps, Json.sortKeys, payload, Json.sortMembers, StrippedText.json,
    sorted_record, sorted_payload, List.insertionSort, List.orderedInsert]

theorem make_fields (entry : LedgerEntry) :
    make entry.seq entry.ts_utc entry.logical_id.json entry.kind
      (entry.prior_ids.map StrippedText.json) (entry.evidence_refs.map StrippedText.json) entry.note =
        .ok entry := by
  have hseq : ¬entry.seq < 1 := Int.not_lt.mpr entry.seq_pos
  have hutc := entry.is_utc
  simp only [make, hseq, dite_false, hutc, Option.isNone_some, Bool.false_eq_true, ite_false,
    require_str_json, require_strs_json]
  rfl

theorem strings?_json (values : List StrippedText) :
    strings? (values.map StrippedText.json) = true := by
  simp [strings?, StrippedText.json, Json.typeName]

theorem from_payload_sorted (entry : LedgerEntry) :
    from_payload (.obj entry.sorted_payload) = .ok entry := by
  have hmake := entry.make_fields
  have hprior := strings?_json entry.prior_ids
  have hrefs := strings?_json entry.evidence_refs
  simp [from_payload, sorted_payload, Json.get?, expected, texts, LedgerKind.ofValue?_value,
    Datetime.fromisoformat_isoformat, hprior, hrefs, hmake]

theorem printable_record (digest : String) (entry : LedgerEntry) :
    (Json.obj (entry.sorted_record digest)).Printable := by
  refine ⟨by simp [sorted_record, sorted_payload], ?_⟩
  exact ⟨trivial, printable_texts _, trivial, trivial, trivial, printable_texts _, trivial, trivial,
    trivial⟩

-- The texts an entry was given.
def strings (entry : LedgerEntry) : List String :=
  entry.evidence_refs.map StrippedText.value ++ entry.logical_id.value :: entry.note ::
    entry.prior_ids.map StrippedText.value

theorem mem_chars_record {digest : String} (hdigest : ∀ c ∈ digest.toList, c.toNat < 0x7f)
    (entry : LedgerEntry) (c : Char) (hc : 0x7f ≤ c.toNat) :
    c ∈ Json.chars (.obj (entry.sorted_record digest)) ↔ ∃ text ∈ entry.strings, c ∈ text.toList := by
  have hdigest : c ∉ digest.toList := fun hm => by
    have := hdigest c hm
    omega
  have hkind : c ∉ entry.kind.value.toList := fun hm => by
    have := entry.kind.value_ascii c hm
    omega
  have htime : c ∉ entry.ts_utc.isoformat := fun hm => by
    have := entry.ts_utc.isoformat_ascii hm
    omega
  have hkeys : ∀ key ∈ "digest" :: expected, c ∉ key.toList := by
    intro key hkey hm
    have hplain : ∀ key ∈ "digest" :: expected, Text.isPlain key = true := by decide
    have := Text.ascii_of_isPlain (hplain key hkey) c hm
    omega
  simp only [expected, List.forall_mem_cons] at hkeys
  rw [← List.mem_flatMap]
  simp only [sorted_record, sorted_payload, Json.chars, Json.charsMembers, chars_texts,
    StrippedText.json, List.mem_append, hkeys, hdigest, hkind, htime, String.toList_ofList,
    List.not_mem_nil, or_false, false_or, strings, List.flatMap_append, List.flatMap_cons,
    List.flatMap_map]

end LedgerEntry

namespace IdentityLedger

variable (hasher : Hasher)

-- The loop's turn on a record of the writer's shape: what it checks is the chain and the number.
theorem accept_record (position : Nat) (ledger : IdentityLedger) (digest : String)
    (entry : LedgerEntry) (hdigest : digest ≠ "") :
    accept hasher position ledger (.obj (entry.sorted_record digest)) =
      if chain_digest hasher ledger.last_digest entry.payload ≠ digest then
        tampered (some entry.seq)
          s!"stored digest does not match the record's content at line {position} (edited or replaced)"
      else if entry.seq ≠ ledger.next_seq then
        tampered (some entry.seq)
          s!"expected seq {ledger.next_seq} at line {position}, found {entry.seq} (gap, reuse, or reorder)"
      else .ok ⟨ledger.entries ++ [entry], ledger.digests ++ [digest]⟩ := by
  have hlookup : Json.get? (entry.sorted_record digest) "digest" = some (.str digest) := rfl
  have hrest : (entry.sorted_record digest).filter (fun member => member.1 ≠ "digest") =
      entry.sorted_payload := by
    simp [LedgerEntry.sorted_record, LedgerEntry.sorted_payload]
  simp only [accept, hlookup, hdigest, ite_false, hrest, LedgerEntry.from_payload_sorted]

theorem opens_record (digest : String) (entry : LedgerEntry) :
    ∃ d more, (97 ≤ d.toNat ∧ d.toNat ≤ 122) ∧
      Json.text (.obj (entry.sorted_record digest)) = '{' :: '"' :: d :: more :=
  ⟨'d', _, by decide, rfl⟩

def next_record (ledger : IdentityLedger) (entry : LedgerEntry) : List (String × Json) :=
  entry.sorted_record (chain_digest hasher ledger.last_digest entry.payload)

theorem accept_next_record (position : Nat) (ledger : IdentityLedger) (entry : LedgerEntry)
    (hnext : entry.seq = ledger.next_seq) :
    accept hasher position ledger (.obj (ledger.next_record hasher entry)) =
      .ok (ledger.push hasher entry) := by
  have hdigest : chain_digest hasher ledger.last_digest entry.payload ≠ "" := hasher.nonempty _
  rw [next_record, accept_record hasher position ledger _ entry hdigest, if_neg (not_not.mpr rfl),
    if_neg (not_not.mpr hnext), push]

theorem seq_of_accept (position : Nat) (ledger before : IdentityLedger) (entry : LedgerEntry)
    (next : IdentityLedger)
    (hnext : accept hasher position ledger (.obj (before.next_record hasher entry)) = .ok next) :
    entry.seq = ledger.next_seq := by
  have hdigest : chain_digest hasher before.last_digest entry.payload ≠ "" := hasher.nonempty _
  by_contra hseq
  rw [next_record, accept_record hasher position ledger _ entry hdigest, if_pos hseq] at hnext
  split at hnext <;> cases hnext

theorem opens_next_record (ledger : IdentityLedger) (entry : LedgerEntry) :
    ∃ d more, (97 ≤ d.toNat ∧ d.toNat ≤ 122) ∧
      Json.text (.obj (ledger.next_record hasher entry)) = '{' :: '"' :: d :: more :=
  opens_record _ entry

-- The ledger as a file of JSON lines.
def log : JsonLines LedgerEntry IdentityLedger OpenError where
  toReader := reader hasher
  record := next_record hasher
  push := push hasher
  Next ledger entry := entry.seq = ledger.next_seq
  printable _ entry := entry.printable_record _
  opens := opens_next_record hasher
  accepts := accept_next_record hasher
  in_turn := seq_of_accept hasher
  malformed_ne _ := OpenError.noConfusion

theorem line_text_eq (ledger : IdentityLedger) (entry : LedgerEntry) :
    ledger.line_text hasher entry = (log hasher).line ledger entry ++ ['\n'] := by
  simp only [line_text, LedgerEntry.canonical_record]
  rfl

theorem line_bytes_eq (ledger : IdentityLedger) (entry : LedgerEntry) :
    ledger.line_bytes hasher entry = (log hasher).lineBytes ledger entry := by
  rw [line_bytes, line_text_eq]
  rfl

theorem clean_iff (ledger : IdentityLedger) (entry : LedgerEntry) :
    (log hasher).Clean ledger entry ↔ Unbroken entry.strings :=
  clean_iff_unbroken (entry.printable_record _)
    (entry.mem_chars_record (fun _ hc => (hasher.ascii _ hc).2))

end IdentityLedger

end KnowledgeCompiler.Ledger
