import KnowledgeCompiler.Lib.Datetime
import KnowledgeCompiler.Lib.JsonLines
import KnowledgeCompiler.Lib.Sha256

namespace KnowledgeCompiler.Ledger

open Lib

-- The digest every chain starts from.
def GENESIS_DIGEST : String := String.ofList (List.replicate 64 '0')

def SEPARATOR : Char := Char.ofNat 0x1e

-- The byte-exact spelling a digest is taken over.
def canonical (payload : List (String × Json)) : List Char := Json.dumps (.obj payload)

-- A string as the entry constructors keep it: stripped, and not empty.
structure StrippedText where
  value : String
  stripped : Text.strip value.toList = value.toList
  nonempty : value ≠ ""
deriving DecidableEq

def require_str (name : String) (value : Json) : Except String StrippedText :=
  match value with
  | .str text =>
      let stripped := Text.strip text.toList
      if h : stripped = [] then .error s!"{name} is required"
      else
        .ok
          { value := String.ofList stripped
            stripped := by simp [stripped, Text.strip_strip]
            nonempty := by simpa using h }
  | other => .error s!"{name} must be a string, got {other.typeName}"

def require_strs (name : String) (values : List Json) : Except String (List StrippedText) :=
  values.mapM (require_str s!"{name} member")

def StrippedText.json (text : StrippedText) : Json := .str text.value

def texts (values : List StrippedText) : Json := .arr (values.map StrippedText.json)

theorem require_str_json (name : String) (text : StrippedText) :
    require_str name text.json = .ok text := by
  have hne : text.value.toList ≠ [] := by
    intro h
    exact text.nonempty (String.toList_inj.mp (by simpa using h))
  have hstrip : Text.strip text.value.toList ≠ [] := by rwa [text.stripped]
  obtain ⟨value, hvalue, _⟩ := text
  simp only [StrippedText.json, require_str, hstrip, dite_false]
  simp only [hvalue, String.ofList_toList]

theorem require_strs_json (name : String) (values : List StrippedText) :
    require_strs name (values.map StrippedText.json) = .ok values := by
  induction values with
  | nil => rfl
  | cons text rest ih =>
      simp only [require_strs] at ih
      simp only [require_strs, List.map_cons, List.mapM_cons, require_str_json, ih]
      rfl

-- A record is a flat object of such fields; each prints, and says what its texts say.

theorem sortItems_json (values : List StrippedText) :
    Json.sortItems (values.map StrippedText.json) = values.map StrippedText.json := by
  induction values with
  | nil => rfl
  | cons text rest ih =>
      rw [List.map_cons, Json.sortItems, ih]
      rfl

@[simp] theorem sortKeys_texts (values : List StrippedText) :
    Json.sortKeys (texts values) = texts values := by
  rw [texts, Json.sortKeys, sortItems_json]

theorem printableItems_json (values : List StrippedText) :
    Json.PrintableItems (values.map StrippedText.json) := by
  induction values with
  | nil => trivial
  | cons text rest ih => exact ⟨trivial, ih⟩

theorem printable_texts (values : List StrippedText) : (texts values).Printable :=
  printableItems_json values

theorem charsItems_json (values : List StrippedText) :
    Json.charsItems (values.map StrippedText.json) = values.flatMap (fun text => text.value.toList) := by
  induction values with
  | nil => rfl
  | cons text rest ih => simp [Json.charsItems, Json.chars, StrippedText.json, ih]

@[simp] theorem chars_texts (values : List StrippedText) :
    Json.chars (texts values) = values.flatMap (fun text => text.value.toList) :=
  charsItems_json values

-- A character at which the reader ends a line and which the writer leaves as it is.
def rawLineBreak (c : Char) : Bool := c.toNat = 0x85 || c.toNat = 0x2028 || c.toNat = 0x2029

def Unbroken (strings : List String) : Prop :=
  ∀ text ∈ strings, ∀ c ∈ text.toList, rawLineBreak c = false

instance (strings : List String) : Decidable (Unbroken strings) :=
  decidable_of_iff (strings.all fun text => text.toList.all fun c => !rawLineBreak c)
    (by simp [Unbroken])

theorem rawLineBreak_iff {c : Char} :
    rawLineBreak c = true ↔ Text.isLineBreak c = true ∧ 0x7f ≤ c.toNat := by
  simp only [rawLineBreak, Text.isLineBreak, Text.inRanges, List.any_cons, List.any_nil,
    Bool.or_false, Bool.or_eq_true, Bool.and_eq_true, decide_eq_true_eq]
  omega

-- The line of a record is what the reader sees as a line, if the strings it
-- holds beside ASCII are unbroken.
theorem clean_iff_unbroken {members : List (String × Json)} {strings : List String}
    (hprintable : (Json.obj members).Printable)
    (hchars : ∀ c, 0x7f ≤ c.toNat →
      (c ∈ Json.chars (.obj members) ↔ ∃ text ∈ strings, c ∈ text.toList)) :
    (∀ c ∈ Json.text (.obj members), Text.isLineBreak c = false) ↔ Unbroken strings := by
  constructor
  · intro hclean text htext c hc
    by_contra hraw
    obtain ⟨hbreak, hhigh⟩ := rawLineBreak_iff.mp (Bool.not_eq_false _ ▸ hraw)
    have hm := (Json.mem_text_iff (Or.inr hhigh) _ hprintable).mpr
      ⟨(hchars c hhigh).mpr ⟨text, htext, hc⟩, hhigh⟩
    simp [hclean c hm] at hbreak
  · intro hunbroken c hc
    by_contra hbreak
    have hbreak : Text.isLineBreak c = true := Bool.not_eq_false _ ▸ hbreak
    obtain ⟨hm, hhigh⟩ :=
      (Json.mem_text_iff (JsonLines.isLineBreak_range hbreak) _ hprintable).mp hc
    obtain ⟨text, htext, hmem⟩ := (hchars c hhigh).mp hm
    have := hunbroken text htext c hmem
    simp [rawLineBreak_iff.mpr ⟨hbreak, hhigh⟩] at this

inductive LedgerKind
  | MATCH
  | NEW
  | MERGE
  | SPLIT
  | RETIRE
deriving DecidableEq

namespace LedgerKind

def value : LedgerKind → String
  | .MATCH => "MATCH"
  | .NEW => "NEW"
  | .MERGE => "MERGE"
  | .SPLIT => "SPLIT"
  | .RETIRE => "RETIRE"

-- `LedgerKind(value)`
def ofValue? (value : Json) : Option LedgerKind :=
  match value with
  | .str text => [MATCH, NEW, MERGE, SPLIT, RETIRE].find? (fun kind => kind.value = text)
  | _ => none

theorem ofValue?_value (kind : LedgerKind) : ofValue? (.str kind.value) = some kind := by
  cases kind <;> rfl

theorem value_ascii (kind : LedgerKind) :
    ∀ c ∈ kind.value.toList, 0x20 ≤ c.toNat ∧ c.toNat < 0x7f := by
  apply Text.ascii_of_isPlain
  cases kind <;> decide

end LedgerKind

structure LedgerEntry where
  seq : Int
  ts_utc : Datetime
  logical_id : StrippedText
  kind : LedgerKind
  prior_ids : List StrippedText
  evidence_refs : List StrippedText
  note : String
  seq_pos : 1 ≤ seq
  is_utc : ts_utc.utcoffset = some 0
deriving DecidableEq

namespace LedgerEntry

def make (seq : Int) (ts_utc : Datetime) (logical_id : Json) (kind : LedgerKind)
    (prior_ids evidence_refs : List Json) (note : String) : Except String LedgerEntry :=
  if hseq : seq < 1 then .error s!"seq numbers start at 1, got {seq}"
  else if ts_utc.utcoffset.isNone then .error "ts_utc must be timezone-aware"
  else if hutc : ts_utc.utcoffset ≠ some 0 then
    .error "ts_utc must be UTC; convert before recording so two ledgers agree"
  else do
    let logical_id ← require_str "logical_id" logical_id
    let prior_ids ← require_strs "prior_ids" prior_ids
    let evidence_refs ← require_strs "evidence_refs" evidence_refs
    .ok
      { seq, ts_utc, logical_id, kind, prior_ids, evidence_refs, note
        seq_pos := Int.not_lt.mp hseq
        is_utc := not_not.mp hutc }

def payload (entry : LedgerEntry) : List (String × Json) :=
  [("seq", .int entry.seq),
    ("ts_utc", .str (String.ofList entry.ts_utc.isoformat)),
    ("logical_id", entry.logical_id.json),
    ("kind", .str entry.kind.value),
    ("prior_ids", texts entry.prior_ids),
    ("evidence_refs", texts entry.evidence_refs),
    ("note", .str entry.note)]

def expected : List String :=
  ["seq", "ts_utc", "logical_id", "kind", "prior_ids", "evidence_refs", "note"]

def strings? (items : List Json) : Bool :=
  items.all (fun item => item.typeName = "str")

def from_payload (payload : Json) : Except String LedgerEntry :=
  match payload with
  | .obj members =>
      if expected.any (fun key => (Json.get? members key).isNone) ∨
          members.any (fun member => member.1 ∉ expected) then
        .error "record shape mismatch"
      else
        match Json.get? members "ts_utc" with
        | some (.str raw_ts) =>
            match Datetime.fromisoformat raw_ts.toList with
            | none => .error "ts_utc is not ISO-8601"
            | some ts_utc =>
                match (Json.get? members "kind").bind LedgerKind.ofValue? with
                | none => .error "unknown ledger kind"
                | some kind =>
                    match Json.get? members "seq" with
                    | some (.int seq) =>
                        match Json.get? members "prior_ids", Json.get? members "evidence_refs" with
                        | some (.arr prior_ids), some (.arr evidence_refs) =>
                            if !strings? prior_ids then .error "prior_ids must be strings"
                            else if !strings? evidence_refs then
                              .error "evidence_refs must be strings"
                            else
                              match Json.get? members "note", Json.get? members "logical_id" with
                              | some (.str note), some logical_id =>
                                  make seq ts_utc logical_id kind prior_ids evidence_refs note
                              | _, _ => .error "note must be a string"
                        | _, _ => .error "prior_ids and evidence_refs must be JSON arrays"
                    | _ => .error "seq must be an integer"
        | _ => .error "ts_utc must be an ISO-8601 string"
  | other => .error s!"a record must be a JSON object, got {other.typeName}"

end LedgerEntry

structure LedgerTamperedError where
  seq : Option Int
  reason : String
deriving DecidableEq

-- How opening a file can fail: its records are refused, or it is no text at all.
inductive OpenError
  | tampered (refused : LedgerTamperedError)
  | undecodable
deriving DecidableEq

def tampered {α : Type} (seq : Option Int) (reason : String) : Except OpenError α :=
  .error (.tampered ⟨seq, reason⟩)

structure IdentityLedger where
  entries : List LedgerEntry := []
  digests : List String := []
deriving DecidableEq

namespace IdentityLedger

variable (hasher : Hasher)

def chain_digest (previous_digest : String) (payload : List (String × Json)) : String :=
  hasher.hexdigest (Utf8.encode (previous_digest.toList ++ SEPARATOR :: canonical payload))

def next_seq (ledger : IdentityLedger) : Int := ledger.entries.length + 1

def last_digest (ledger : IdentityLedger) : String := ledger.digests.getLastD GENESIS_DIGEST

-- `record.get("seq") if isinstance(record.get("seq"), int) else None`
def seq_of (members : List (String × Json)) : Option Int :=
  match Json.get? members "seq" with
  | some (.int seq) => some seq
  | some (.bool value) => some (if value then 1 else 0)
  | _ => none

-- One turn of the verification loop, from the parsed record on.
def accept (position : Nat) (ledger : IdentityLedger) (record : Json) :
    Except OpenError IdentityLedger :=
  match record with
  | .obj members =>
      match Json.get? members "digest" with
      | some (.str stored_digest) =>
          if stored_digest = "" then
            tampered none s!"line {position} carries no digest; it was not written here"
          else
            let rest := members.filter (fun member => member.1 ≠ "digest")
            match LedgerEntry.from_payload (.obj rest) with
            | .error refused => tampered (seq_of rest) s!"line {position}: {refused}"
            | .ok entry =>
                if chain_digest hasher ledger.last_digest entry.payload ≠ stored_digest then
                  tampered (some entry.seq)
                    s!"stored digest does not match the record's content at line {position} (edited or replaced)"
                else if entry.seq ≠ ledger.next_seq then
                  tampered (some entry.seq)
                    s!"expected seq {ledger.next_seq} at line {position}, found {entry.seq} (gap, reuse, or reorder)"
                else .ok ⟨ledger.entries ++ [entry], ledger.digests ++ [stored_digest]⟩
      | _ => tampered none s!"line {position} carries no digest; it was not written here"
  | _ => tampered none s!"line {position} is not a JSON object"

def reader : Reader IdentityLedger OpenError where
  start := {}
  undecodable := .undecodable
  blank position := .tampered ⟨none, s!"blank line at line {position}"⟩
  malformed position := .tampered ⟨none, s!"line {position} is not valid JSON"⟩
  accept := accept hasher

def read_and_verify (file : ByteArray) : Except OpenError IdentityLedger := (reader hasher).read file

-- `IdentityLedger(path)`: no file yet is an empty ledger.
def init (file : Option ByteArray) : Except OpenError IdentityLedger :=
  match file with
  | none => .ok {}
  | some bytes => read_and_verify hasher bytes

def push (ledger : IdentityLedger) (entry : LedgerEntry) : IdentityLedger :=
  ⟨ledger.entries ++ [entry],
    ledger.digests ++ [chain_digest hasher ledger.last_digest entry.payload]⟩

-- The line one append hands to the file.
def line_text (ledger : IdentityLedger) (entry : LedgerEntry) : List Char :=
  let digest := chain_digest hasher ledger.last_digest entry.payload
  canonical (entry.payload ++ [("digest", .str digest)]) ++ ['\n']

def line_bytes (ledger : IdentityLedger) (entry : LedgerEntry) : ByteArray :=
  Utf8.encode (ledger.line_text hasher entry)

-- The file is opened for appending, and made if it is not there.
def append_locked (ledger : IdentityLedger) (file : Option ByteArray) (entry : LedgerEntry) :
    Except String (IdentityLedger × ByteArray) :=
  let expected := ledger.next_seq
  if entry.seq < expected then
    .error s!"seq {entry.seq} is already recorded or behind the head; the ledger is append-only"
  else if expected < entry.seq then
    .error s!"seq {entry.seq} skips ahead of the head; expected {expected} next and no number may go unassigned"
  else .ok (ledger.push hasher entry, file.getD .empty ++ ledger.line_bytes hasher entry)

def append (ledger : IdentityLedger) (file : Option ByteArray) (entry : LedgerEntry) :
    Except String (IdentityLedger × ByteArray) := ledger.append_locked hasher file entry

def record (ledger : IdentityLedger) (file : Option ByteArray) (logical_id : String) (kind : LedgerKind)
    (prior_ids evidence_refs : List String) (note : String) (ts_utc : Datetime) :
    Except String (IdentityLedger × ByteArray) := do
  let entry ← LedgerEntry.make ledger.next_seq ts_utc (.str logical_id) kind
    (prior_ids.map .str) (evidence_refs.map .str) note
  ledger.append_locked hasher file entry

end IdentityLedger

end KnowledgeCompiler.Ledger
