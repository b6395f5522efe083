import KnowledgeCompiler.Ledger.Identity

namespace KnowledgeCompiler.Ledger

open Lib

inductive ConsumerType
  | MCP
  | API
  | ASK
  | TEST
deriving DecidableEq

namespace ConsumerType

def value : ConsumerType → String
  | .MCP => "mcp"
  | .API => "api"
  | .ASK => "ask"
  | .TEST => "test"

def ofValue? (value : Json) : Option ConsumerType :=
  match value with
  | .str text => [MCP, API, ASK, TEST].find? (fun kind => kind.value = text)
  | _ => none

theorem ofValue?_value (kind : ConsumerType) : ofValue? (.str kind.value) = some kind := by
  cases kind <;> rfl

theorem value_ascii (kind : ConsumerType) :
    ∀ c ∈ kind.value.toList, 0x20 ≤ c.toNat ∧ c.toNat < 0x7f := by
  apply Text.ascii_of_isPlain
  cases kind <;> decide

end ConsumerType

inductive ConsumptionOutcome
  | CURRENT
  | STALE
  | CONFLICT
  | UNRESOLVED
  | NOT_AUTHORIZED
deriving DecidableEq

namespace ConsumptionOutcome

def value : ConsumptionOutcome → String
  | .CURRENT => "CURRENT"
  | .STALE => "STALE"
  | .CONFLICT => "CONFLICT"
  | .UNRESOLVED => "UNRESOLVED"
  | .NOT_AUTHORIZED => "NOT_AUTHORIZED"

def ofValue? (value : Json) : Option ConsumptionOutcome :=
  match value with
  | .str text =>
      [CURRENT, STALE, CONFLICT, UNRESOLVED, NOT_AUTHORIZED].find? (fun kind => kind.value = text)
  | _ => none

theorem ofValue?_value (kind : ConsumptionOutcome) : ofValue? (.str kind.value) = some kind := by
  cases kind <;> rfl

theorem value_ascii (kind : ConsumptionOutcome) :
    ∀ c ∈ kind.value.toList, 0x20 ≤ c.toNat ∧ c.toNat < 0x7f := by
  apply Text.ascii_of_isPlain
  cases kind <;> decide

end ConsumptionOutcome

structure ConsumptionReceipt where
  receipt_id : StrippedText
  consumer_type : ConsumerType
  consumer_id : StrippedText
  request_id : StrippedText
  query_tool : StrippedText
  requested_at : Datetime
  world_state_id : StrippedText
  claim_ids : List StrippedText
  evidence_ids : List StrippedText
  permission_snapshot_ref : StrippedText
  policy_revision : StrippedText
  outcome : ConsumptionOutcome
  response_artifact_hash : StrippedText
  model_identity : Option StrippedText
  is_utc : requested_at.utcoffset = some 0

namespace ConsumptionReceipt

def require_utc (name : String) (moment : Datetime) :
    Except String (PLift (moment.utcoffset = some 0)) :=
  if moment.utcoffset.isNone then .error s!"{name} must be timezone-aware"
  else if h : moment.utcoffset = some 0 then .ok ⟨h⟩
  else .error s!"{name} must be UTC; convert before recording so ledgers on two machines agree"

def model_json : Option StrippedText → Json
  | none => .null
  | some text => text.json

def require_model (value : Json) : Except String (Option StrippedText) :=
  match value with
  | .null => .ok none
  | other => (require_str "model_identity" other).map some

def make (receipt_id consumer_type consumer_id request_id query_tool : Json)
    (requested_at : Datetime) (world_state_id : Json) (claim_ids evidence_ids : List Json)
    (permission_snapshot_ref policy_revision outcome response_artifact_hash model_identity : Json) :
    Except String ConsumptionReceipt := do
  let receipt_id ← require_str "receipt_id" receipt_id
  let consumer_type ← (ConsumerType.ofValue? consumer_type).elim
    (.error "consumer_type must be one of ['mcp', 'api', 'ask', 'test']") .ok
  let consumer_id ← require_str "consumer_id" consumer_id
  let request_id ← require_str "request_id" request_id
  let query_tool ← require_str "query_tool" query_tool
  let utc ← require_utc "requested_at" requested_at
  let world_state_id ← require_str "world_state_id" world_state_id
  let claim_ids ← require_strs "claim_ids" claim_ids
  let evidence_ids ← require_strs "evidence_ids" evidence_ids
  let permission_snapshot_ref ← require_str "permission_snapshot_ref" permission_snapshot_ref
  let policy_revision ← require_str "policy_revision" policy_revision
  let outcome ← (ConsumptionOutcome.ofValue? outcome).elim
    (.error "unknown consumption outcome") .ok
  let response_artifact_hash ← require_str "response_artifact_hash" response_artifact_hash
  let model_identity ← require_model model_identity
  .ok
    { receipt_id, consumer_type, consumer_id, request_id, query_tool, requested_at, world_state_id
      claim_ids, evidence_ids, permission_snapshot_ref, policy_revision, outcome
      response_artifact_hash, model_identity
      is_utc := utc.down }

def payload (receipt : ConsumptionReceipt) : List (String × Json) :=
  [("receipt_id", receipt.receipt_id.json),
    ("consumer_type", .str receipt.consumer_type.value),
    ("consumer_id", receipt.consumer_id.json),
    ("request_id", receipt.request_id.json),
    ("query_tool", receipt.query_tool.json),
    ("requested_at", .str (String.ofList receipt.requested_at.isoformat)),
    ("world_state_id", receipt.world_state_id.json),
    ("claim_ids", texts receipt.claim_ids),
    ("evidence_ids", texts receipt.evidence_ids),
    ("permission_snapshot_ref", receipt.permission_snapshot_ref.json),
    ("policy_revision", receipt.policy_revision.json),
    ("outcome", .str receipt.outcome.value),
    ("response_artifact_hash", receipt.response_artifact_hash.json),
    ("model_identity", model_json receipt.model_identity)]

def expected : List String :=
  ["receipt_id", "consumer_type", "consumer_id", "request_id", "query_tool", "requested_at",
    "world_state_id", "claim_ids", "evidence_ids", "permission_snapshot_ref", "policy_revision",
    "outcome", "response_artifact_hash", "model_identity"]

-- `payload[key]`, once every expected key is known to be there.
def field (members : List (String × Json)) (key : String) : Json :=
  (Json.get? members key).getD .null

def from_payload (payload : Json) : Except String ConsumptionReceipt :=
  match payload with
  | .obj members =>
      if expected.any (fun key => (Json.get? members key).isNone) ∨
          members.any (fun member => member.1 ∉ expected) then
        .error "receipt shape mismatch"
      else
        match field members "requested_at" with
        | .str raw_requested_at =>
            match Datetime.fromisoformat raw_requested_at.toList with
            | none => .error "requested_at is not ISO-8601"
            | some requested_at =>
                match field members "claim_ids", field members "evidence_ids" with
                | .arr claim_ids, .arr evidence_ids =>
                    let model_identity := field members "model_identity"
                    if model_identity.typeName ≠ "NoneType" ∧ model_identity.typeName ≠ "str" then
                      .error "model_identity must be a string or null"
                    else
                      make (field members "receipt_id") (field members "consumer_type")
                        (field members "consumer_id") (field members "request_id")
                        (field members "query_tool") requested_at (field members "world_state_id")
                        claim_ids evidence_ids (field members "permission_snapshot_ref")
                        (field members "policy_revision") (field members "outcome")
                        (field members "response_artifact_hash") model_identity
                | .arr _, _ => .error "evidence_ids must be a JSON array"
                | _, _ => .error "claim_ids must be a JSON array"
        | _ => .error "requested_at must be an ISO-8601 string"
  | other => .error s!"a receipt must be a JSON object, got {other.typeName}"

def mint (hasher : Hasher) (receipt : ConsumptionReceipt) : String :=
  hasher.hexdigest (Utf8.encode (canonical receipt.payload))

end ConsumptionReceipt

structure RecordedReceipt where
  seq : Int
  prev_digest : String
  digest : String
  receipt : ConsumptionReceipt

structure ConsumptionLedger where
  records : List RecordedReceipt := []

namespace ConsumptionLedger

variable (hasher : Hasher)

def link_digest (prev_digest : String) (seq : Int) (receipt_mint : String) : String :=
  hasher.hexdigest (Utf8.encode
    (prev_digest.toList ++ SEPARATOR :: (toString seq).toList ++ SEPARATOR :: receipt_mint.toList))

def next_seq (ledger : ConsumptionLedger) : Int := ledger.records.length + 1

def last_digest (ledger : ConsumptionLedger) : String :=
  (ledger.records.getLast?.map RecordedReceipt.digest).getD GENESIS_DIGEST

-- `str(value)`; of the values that are no strings only the commonest are spelled as Python does.
def str_of : Json → String
  | .str text => text
  | .null => "None"
  | other => String.ofList other.text

-- One turn of the verification loop, from the parsed record on.
def accept (position : Nat) (ledger : ConsumptionLedger) (record : Json) :
    Except OpenError ConsumptionLedger :=
  match record with
  | .obj members =>
      let prev_digest := (Json.get? members "prev_digest").getD .null
      match Json.get? members "digest" with
      | some (.str stored_digest) =>
          if stored_digest = "" then
            tampered none s!"line {position} carries no digest; it was not written here"
          else
            match Json.get? members "seq" with
            | some (.int seq) =>
                match ConsumptionReceipt.from_payload ((Json.get? members "receipt").getD .null) with
                | .error refused => tampered (some seq) s!"line {position}: {refused}"
                | .ok receipt =>
                    if link_digest hasher (str_of prev_digest) seq (receipt.mint hasher) ≠
                        stored_digest then
                      tampered (some seq)
                        s!"stored digest does not match the record's content at line {position} (edited or replaced)"
                    else if prev_digest.typeName ≠ "str" ∨ str_of prev_digest ≠ ledger.last_digest then
                      tampered (some seq)
                        s!"broken chain at line {position}: prev_digest does not match the previous record's digest"
                    else if seq ≠ ledger.next_seq then
                      tampered (some seq)
                        s!"expected seq {ledger.next_seq} at line {position}, found {seq} (gap, reuse, or reorder)"
                    else
                      .ok ⟨ledger.records ++ [⟨seq, str_of prev_digest, stored_digest, receipt⟩]⟩
            | _ => tampered none s!"line {position} has no usable seq"
      | _ => tampered none s!"line {position} carries no digest; it was not written here"
  | _ => tampered none s!"line {position} is not a JSON object"

def reader : Reader ConsumptionLedger OpenError where
  start := {}
  undecodable := .undecodable
  blank position := .tampered ⟨none, s!"blank line at line {position}"⟩
  malformed position := .tampered ⟨none, s!"line {position} is not valid JSON"⟩
  accept := accept hasher

def read_and_verify (file : ByteArray) : Except OpenError ConsumptionLedger :=
  (reader hasher).read file

def init (file : Option ByteArray) : Except OpenError ConsumptionLedger :=
  match file with
  | none => .ok {}
  | some bytes => read_and_verify hasher bytes

def recorded (ledger : ConsumptionLedger) (receipt : ConsumptionReceipt) : RecordedReceipt :=
  let seq := ledger.next_seq
  let prev_digest := ledger.last_digest
  ⟨seq, prev_digest, link_digest hasher prev_digest seq (receipt.mint hasher), receipt⟩

def push (ledger : ConsumptionLedger) (receipt : ConsumptionReceipt) : ConsumptionLedger :=
  ⟨ledger.records ++ [ledger.recorded hasher receipt]⟩

def line_bytes (ledger : ConsumptionLedger) (receipt : ConsumptionReceipt) : ByteArray :=
  let recorded := ledger.recorded hasher receipt
  Utf8.encode (canonical
    [("seq", .int recorded.seq),
      ("prev_digest", .str recorded.prev_digest),
      ("digest", .str recorded.digest),
      ("receipt", .obj receipt.payload)] ++ ['\n'])

-- An append has nothing to refuse: the sequence number is assigned here.
def append (ledger : ConsumptionLedger) (file : Option ByteArray) (receipt : ConsumptionReceipt) :
    ConsumptionLedger × ByteArray :=
  (ledger.push hasher receipt, file.getD .empty ++ ledger.line_bytes hasher receipt)

end ConsumptionLedger

end KnowledgeCompiler.Ledger
