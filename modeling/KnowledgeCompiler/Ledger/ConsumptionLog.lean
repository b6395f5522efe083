import Mathlib.Data.Fintype.Basic
import KnowledgeCompiler.Ledger.Consumption
import KnowledgeCompiler.Ledger.IdentityLog

namespace KnowledgeCompiler.Ledger

open Lib

namespace ConsumptionReceipt

-- The receipt as it is spelled, its keys in order.
def sorted_payload (receipt : ConsumptionReceipt) : List (String × Json) :=
  [("claim_ids", texts receipt.claim_ids),
    ("consumer_id", receipt.consumer_id.json),
    ("consumer_type", .str receipt.consumer_type.value),
    ("evidence_ids", texts receipt.evidence_ids),
    ("model_identity", model_json receipt.model_identity),
    ("outcome", .str receipt.outcome.value),
    ("permission_snapshot_ref", receipt.permission_snapshot_ref.json),
    ("policy_revision", receipt.policy_revision.json),
    ("query_tool", receipt.query_tool.json),
    ("receipt_id", receipt.receipt_id.json),
    ("request_id", receipt.request_id.json),
    ("requested_at", .str (String.ofList receipt.requested_at.isoformat)),
    ("response_artifact_hash", receipt.response_artifact_hash.json),
    ("world_state_id", receipt.world_state_id.json)]

@[simp] theorem sortKeys_model_json (model : Option StrippedText) :
    Json.sortKeys (model_json model) = model_json model := by
  cases model <;> rfl

theorem require_model_json (model : Option StrippedText) :
    require_model (model_json model) = .ok model := by
  cases model with
  | none => rfl
  | some text =>
      have h := require_str_json "model_identity" text
      simp only [StrippedText.json] at h
      simp [model_json, require_model, StrippedText.json, h, Except.map]

theorem make_fields (receipt : ConsumptionReceipt) :
    make receipt.receipt_id.json (.str receipt.consumer_type.value) receipt.consumer_id.json
      receipt.request_id.json receipt.query_tool.json receipt.requested_at receipt.world_state_id.json
      (receipt.claim_ids.map StrippedText.json) (receipt.evidence_ids.map StrippedText.json)
      receipt.permission_snapshot_ref.json receipt.policy_revision.json (.str receipt.outcome.value)
      receipt.response_artifact_hash.json (model_json receipt.model_identity) = .ok receipt := by
  have hutc : require_utc "requested_at" receipt.requested_at = .ok ⟨receipt.is_utc⟩ := by
    simp [require_utc, receipt.is_utc]
  simp only [make, require_str_json, require_strs_json, hutc, ConsumerType.ofValue?_value,
    ConsumptionOutcome.ofValue?_value, require_model_json]
  rfl

theorem typeName_model_json (model : Option StrippedText) :
    (model_json model).typeName = "NoneType" ∨ (model_json model).typeName = "str" := by
  cases model with
  | none => exact Or.inl rfl
  | some text => exact Or.inr rfl

theorem from_payload_sorted (receipt : ConsumptionReceipt) :
    from_payload (.obj receipt.sorted_payload) = .ok receipt := by
  have hmake := receipt.make_fields
  have hmodel : ¬((model_json receipt.model_identity).typeName ≠ "NoneType" ∧
      (model_json receipt.model_identity).typeName ≠ "str") := by
    have := typeName_model_json receipt.model_identity
    tauto
  simp only [ne_eq] at hmodel
  simp [from_payload, sorted_payload, field, Json.get?, expected, texts,
    Datetime.fromisoformat_isoformat, hmodel, hmake]

-- The texts a receipt was given.
def strings (receipt : ConsumptionReceipt) : List String :=
  (receipt.claim_ids ++ receipt.consumer_id :: receipt.evidence_ids ++
    receipt.model_identity.toList ++
      [receipt.permission_snapshot_ref, receipt.policy_revision, receipt.query_tool,
        receipt.receipt_id, receipt.request_id, receipt.response_artifact_hash,
        receipt.world_state_id]).map StrippedText.value

theorem sortKeys_payload (receipt : ConsumptionReceipt) :
    Json.sortKeys (.obj receipt.payload) = .obj receipt.sorted_payload := by
  simp [Json.sortKeys, payload, Json.sortMembers, StrippedText.json, sorted_payload,
    List.insertionSort, List.orderedInsert]

theorem printable_payload (receipt : ConsumptionReceipt) :
    (Json.obj receipt.sorted_payload).Printable := by
  refine ⟨by simp [sorted_payload], ?_⟩
  have hmodel : (model_json receipt.model_identity).Printable := by
    cases receipt.model_identity <;> trivial
  exact ⟨printable_texts _, trivial, trivial, printable_texts _, hmodel, trivial, trivial, trivial,
    trivial, trivial, trivial, trivial, trivial, trivial, trivial⟩

theorem chars_model_json (model : Option StrippedText) :
    Json.chars (model_json model) = model.toList.flatMap (fun text => text.value.toList) := by
  cases model with
  | none => rfl
  | some text => simp [model_json, StrippedText.json, Json.chars]

theorem mem_chars_payload (receipt : ConsumptionReceipt) (c : Char) (hc : 0x7f ≤ c.toNat) :
    c ∈ Json.chars (.obj receipt.sorted_payload) ↔ ∃ text ∈ receipt.strings, c ∈ text.toList := by
  have hconsumer : c ∉ receipt.consumer_type.value.toList := fun hm => by
    have := receipt.consumer_type.value_ascii c hm
    omega
  have houtcome : c ∉ receipt.outcome.value.toList := fun hm => by
    have := receipt.outcome.value_ascii c hm
    omega
  have htime : c ∉ receipt.requested_at.isoformat := fun hm => by
    have := receipt.requested_at.isoformat_ascii hm
    omega
  have hkeys : ∀ key ∈ expected, c ∉ key.toList := by
    intro key hkey hm
    have hplain : ∀ key ∈ expected, Text.isPlain key = true := by decide
    have := Text.ascii_of_isPlain (hplain key hkey) c hm
    omega
  simp only [expected, List.forall_mem_cons] at hkeys
  rw [← List.mem_flatMap]
  simp only [sorted_payload, Json.chars, Json.charsMembers, chars_texts, chars_model_json,
    StrippedText.json, List.mem_append, hkeys, hconsumer, houtcome, htime, String.toList_ofList,
    false_or, strings, List.map_append, List.map_cons, List.map_nil, List.flatMap_append,
    List.flatMap_cons, List.flatMap_nil, List.flatMap_map, List.append_nil, or_assoc]

end ConsumptionReceipt

namespace ConsumptionLedger

variable (hasher : Hasher)

def sorted_record (recorded : RecordedReceipt) : List (String × Json) :=
  [("digest", .str recorded.digest),
    ("prev_digest", .str recorded.prev_digest),
    ("receipt", .obj recorded.receipt.sorted_payload),
    ("seq", .int recorded.seq)]

theorem canonical_record (ledger : ConsumptionLedger) (receipt : ConsumptionReceipt) :
    canonical
      [("seq", .int (ledger.recorded hasher receipt).seq),
        ("prev_digest", .str (ledger.recorded hasher receipt).prev_digest),
        ("digest", .str (ledger.recorded hasher receipt).digest),
        ("receipt", .obj receipt.payload)] =
      Json.text (.obj (sorted_record (ledger.recorded hasher receipt))) := by
  rw [canonical, Json.dumps, Json.sortKeys]
  simp only [Json.sortMembers, ConsumptionReceipt.sortKeys_payload]
  simp [Json.sortKeys, sorted_record, recorded, List.insertionSort, List.orderedInsert]

theorem printable_record (recorded : RecordedReceipt) :
    (Json.obj (sorted_record recorded)).Printable := by
  refine ⟨by simp [sorted_record], ?_⟩
  exact ⟨trivial, trivial, recorded.receipt.printable_payload, trivial, trivial⟩

def next_record (ledger : ConsumptionLedger) (receipt : ConsumptionReceipt) :
    List (String × Json) := sorted_record (ledger.recorded hasher receipt)

theorem accept_next_record (position : Nat) (ledger : ConsumptionLedger)
    (receipt : ConsumptionReceipt) :
    accept hasher position ledger (.obj (ledger.next_record hasher receipt)) =
      .ok (ledger.push hasher receipt) := by
  have hdigest : (ledger.recorded hasher receipt).digest ≠ "" := hasher.nonempty _
  have hdigestField : Json.get? (ledger.next_record hasher receipt) "digest" =
      some (.str (ledger.recorded hasher receipt).digest) := rfl
  have hprevField : Json.get? (ledger.next_record hasher receipt) "prev_digest" =
      some (.str ledger.last_digest) := rfl
  have hseqField : Json.get? (ledger.next_record hasher receipt) "seq" =
      some (.int ledger.next_seq) := rfl
  have hreceiptField : Json.get? (ledger.next_record hasher receipt) "receipt" =
      some (.obj receipt.sorted_payload) := rfl
  have hlink : link_digest hasher ledger.last_digest ledger.next_seq (receipt.mint hasher) =
      (ledger.recorded hasher receipt).digest := rfl
  simp only [accept, hdigestField, hprevField, hseqField, hreceiptField, Option.getD_some, hdigest,
    ite_false, receipt.from_payload_sorted, str_of, hlink, Json.typeName, ne_eq, not_true_eq_false,
    or_self]
  rfl

theorem printable_next_record (ledger : ConsumptionLedger) (receipt : ConsumptionReceipt) :
    (Json.obj (ledger.next_record hasher receipt)).Printable :=
  printable_record (ledger.recorded hasher receipt)

theorem opens_next_record (ledger : ConsumptionLedger) (receipt : ConsumptionReceipt) :
    ∃ d more, (97 ≤ d.toNat ∧ d.toNat ≤ 122) ∧
      Json.text (.obj (ledger.next_record hasher receipt)) = '{' :: '"' :: d :: more :=
  ⟨'d', _, by decide, rfl⟩

def log : JsonLines ConsumptionReceipt ConsumptionLedger OpenError where
  toReader := reader hasher
  record := next_record hasher
  push := push hasher
  Next _ _ := True
  printable := printable_next_record hasher
  opens := opens_next_record hasher
  accepts position ledger receipt _ := accept_next_record hasher position ledger receipt
  in_turn _ _ _ _ _ _ := trivial
  malformed_ne _ := OpenError.noConfusion

theorem line_bytes_eq (ledger : ConsumptionLedger) (receipt : ConsumptionReceipt) :
    ledger.line_bytes hasher receipt = (log hasher).lineBytes ledger receipt := by
  simp only [line_bytes, canonical_record]
  rfl

-- The head digest is hexadecimal, and so unbroken.
def HexHead (ledger : ConsumptionLedger) : Prop :=
  ∀ c ∈ ledger.last_digest.toList, c.toNat < 0x7f

theorem hexHead_start : HexHead {} := by
  intro c hc
  have hplain : Text.isPlain GENESIS_DIGEST = true := by decide
  exact (Text.ascii_of_isPlain hplain c hc).2

theorem hexHead_push (ledger : ConsumptionLedger) (receipt : ConsumptionReceipt) :
    HexHead (ledger.push hasher receipt) := by
  intro c hc
  have hhead : (ledger.push hasher receipt).last_digest = (ledger.recorded hasher receipt).digest := by
    simp [last_digest, push]
  rw [hhead] at hc
  exact (hasher.ascii _ hc).2

theorem mem_chars_record {recorded : RecordedReceipt}
    (hprev : ∀ c ∈ recorded.prev_digest.toList, c.toNat < 0x7f)
    (hdigest : ∀ c ∈ recorded.digest.toList, c.toNat < 0x7f) (c : Char) (hc : 0x7f ≤ c.toNat) :
    c ∈ Json.chars (.obj (sorted_record recorded)) ↔
      ∃ text ∈ recorded.receipt.strings, c ∈ text.toList := by
  have hdigest : c ∉ recorded.digest.toList := fun hm => by
    have := hdigest c hm
    omega
  have hprev : c ∉ recorded.prev_digest.toList := fun hm => by
    have := hprev c hm
    omega
  have hkeys : ∀ key ∈ ["digest", "prev_digest", "receipt", "seq"], c ∉ key.toList := by
    intro key hkey hm
    have hplain : ∀ key ∈ ["digest", "prev_digest", "receipt", "seq"],
        Text.isPlain key = true := by decide
    have := Text.ascii_of_isPlain (hplain key hkey) c hm
    omega
  simp only [List.forall_mem_cons] at hkeys
  rw [← recorded.receipt.mem_chars_payload c hc]
  simp only [sorted_record, Json.chars, Json.charsMembers, List.mem_append, hkeys, hdigest, hprev,
    List.not_mem_nil, or_false, false_or]

theorem clean_iff {ledger : ConsumptionLedger} (hhead : HexHead ledger)
    (receipt : ConsumptionReceipt) :
    (log hasher).Clean ledger receipt ↔ Unbroken receipt.strings :=
  clean_iff_unbroken (printable_record (ledger.recorded hasher receipt))
    (mem_chars_record hhead (fun _ hc => (hasher.ascii _ hc).2))

end ConsumptionLedger

end KnowledgeCompiler.Ledger
