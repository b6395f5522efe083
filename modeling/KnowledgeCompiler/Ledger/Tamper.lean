import KnowledgeCompiler.Ledger.Durability
import KnowledgeCompiler.Lib.HashChain

namespace KnowledgeCompiler.Ledger

open Lib HashChain

-- A digest that the separator after it cannot be taken for a part of.
def Separable (digest : String) : Prop := SEPARATOR ∉ digest.toList

theorem separable_of_ascii {digest : String} (hascii : ∀ c ∈ digest.toList, 0x20 ≤ c.toNat) :
    Separable digest := by
  intro hm
  have hlow : ¬0x20 ≤ SEPARATOR.toNat := by decide
  exact hlow (hascii SEPARATOR hm)

theorem separable_genesis : Separable GENESIS_DIGEST := by
  have hplain : Text.isPlain GENESIS_DIGEST = true := by decide
  exact separable_of_ascii (fun c hc => (Text.ascii_of_isPlain hplain c hc).1)

theorem separable_hexdigest (hasher : Hasher) (bytes : ByteArray) :
    Separable (hasher.hexdigest bytes) :=
  separable_of_ascii (fun _ hc => (hasher.ascii bytes hc).1)

theorem separable_toString (n : Int) : Separable (toString n) := by
  intro hm
  obtain ⟨first, rest, hsplit, hfirst, hrest⟩ := Json.exists_toString n
  rw [hsplit] at hm
  cases List.mem_cons.mp hm with
  | inl heq =>
    subst heq
    have hnone : ¬(SEPARATOR.isDigit = true ∨ SEPARATOR = '-') := by decide
    exact hnone hfirst
  | inr htail =>
    have hnone : Json.isNumberChar SEPARATOR = false := by decide
    rw [hrest SEPARATOR htail] at hnone
    cases hnone

theorem toString_int_inj {first second : Int} (h : toString first = toString second) :
    first = second := by
  have hfirst := Json.parseNumber_toString first
  rw [h, Json.parseNumber_toString] at hfirst
  cases hfirst
  rfl

-- What stands before the first separator, and what after it.
theorem separator_inj {first second : String} {before after : List Char} (hfirst : Separable first)
    (hsecond : Separable second)
    (h : first.toList ++ SEPARATOR :: before = second.toList ++ SEPARATOR :: after) :
    first = second ∧ before = after := by
  have hlength : first.toList.length = second.toList.length := by
    have hplace := congrArg (List.idxOf SEPARATOR) h
    rw [List.idxOf_append_of_notMem hfirst, List.idxOf_append_of_notMem hsecond,
      List.idxOf_cons_self, List.idxOf_cons_self] at hplace
    exact hplace
  obtain ⟨hdigest, hrest⟩ := List.append_inj h hlength
  exact ⟨String.toList_inj.mp hdigest, (List.cons.inj hrest).2⟩

theorem sorted_inj {first second first_sorted second_sorted : List (String × Json)}
    (hfirst : Json.sortKeys (.obj first) = .obj first_sorted)
    (hsecond : Json.sortKeys (.obj second) = .obj second_sorted)
    (hfirst_printable : (Json.obj first_sorted).Printable)
    (hsecond_printable : (Json.obj second_sorted).Printable)
    (h : canonical first = canonical second) : Json.obj first_sorted = .obj second_sorted := by
  have hloads := Json.loads_text _ hfirst_printable
  rw [canonical, canonical, Json.dumps, Json.dumps, hfirst, hsecond] at h
  rw [h, Json.loads_text _ hsecond_printable] at hloads
  exact (Option.some.inj hloads).symm

namespace LedgerEntry

theorem sortKeys_payload (entry : LedgerEntry) :
    Json.sortKeys (.obj entry.payload) = .obj entry.sorted_payload := by
  simp [Json.sortKeys, payload, Json.sortMembers, StrippedText.json, sorted_payload,
    List.insertionSort, List.orderedInsert]

theorem printable_payload (entry : LedgerEntry) : (Json.obj entry.sorted_payload).Printable := by
  refine ⟨by simp [sorted_payload], ?_⟩
  exact ⟨printable_texts _, trivial, trivial, trivial, printable_texts _, trivial, trivial, trivial⟩

-- Every field of an entry is covered by the text its digest is taken over.
theorem canonical_payload_inj {first second : LedgerEntry}
    (h : canonical first.payload = canonical second.payload) : first = second := by
  have hsorted := sorted_inj first.sortKeys_payload second.sortKeys_payload first.printable_payload
    second.printable_payload h
  have hread := second.from_payload_sorted
  rw [← hsorted, first.from_payload_sorted] at hread
  exact Except.ok.inj hread

end LedgerEntry

namespace ConsumptionReceipt

theorem canonical_payload_inj {first second : ConsumptionReceipt}
    (h : canonical first.payload = canonical second.payload) : first = second := by
  have hsorted := sorted_inj first.sortKeys_payload second.sortKeys_payload first.printable_payload
    second.printable_payload h
  have hread := second.from_payload_sorted
  rw [← hsorted, first.from_payload_sorted] at hread
  exact Except.ok.inj hread

end ConsumptionReceipt

namespace IdentityLedger

variable (hasher : Hasher)

def link (digest : String) (entry : LedgerEntry) : String := chain_digest hasher digest entry.payload

theorem binding_link (hinj : Function.Injective hasher.hexdigest) :
    Binding (link hasher) GENESIS_DIGEST Separable where
  start := separable_genesis
  next _ _ _ := separable_hexdigest hasher _
  inj digest other entry second hdigest hother hlink := by
    obtain ⟨hbefore, hpayload⟩ := separator_inj hdigest hother (Utf8.encode_injective (hinj hlink))
    exact ⟨hbefore, LedgerEntry.canonical_payload_inj hpayload⟩

theorem last_digest_start : ({} : IdentityLedger).last_digest = GENESIS_DIGEST := rfl

theorem last_digest_push (ledger : IdentityLedger) (entry : LedgerEntry) :
    (ledger.push hasher entry).last_digest =
      chain_digest hasher ledger.last_digest entry.payload := by
  simp [last_digest, push]

-- A record the loop accepts is the one an append of its entry writes.
theorem push_of_accept {position : Nat} {ledger next : IdentityLedger} {record : Json}
    (haccept : accept hasher position ledger record = .ok next) :
    ∃ entry : LedgerEntry, entry.seq = ledger.next_seq ∧ next = ledger.push hasher entry := by
  unfold accept at haccept
  split at haccept
  · split at haccept
    · split at haccept
      · cases haccept
      · dsimp only at haccept
        split at haccept
        · cases haccept
        · rename_i entry _
          split at haccept
          · cases haccept
          · rename_i hdigest
            split at haccept
            · cases haccept
            · rename_i hseq
              obtain rfl := Except.ok.inj haccept
              refine ⟨entry, not_not.mp hseq, ?_⟩
              rw [push, not_not.mp hdigest]
    · cases haccept
  · cases haccept

-- What a verified file holds: entries in turn, and the head of their chain.
structure Chained (ledger : IdentityLedger) : Prop where
  numbered : Numbered LedgerEntry.seq ledger.entries
  head_eq : ledger.last_digest = head (link hasher) GENESIS_DIGEST ledger.entries

theorem Chained.push {ledger : IdentityLedger} (hchained : Chained hasher ledger)
    {entry : LedgerEntry} (hseq : entry.seq = ledger.next_seq) :
    Chained hasher (ledger.push hasher entry) := by
  constructor
  · exact (numbered_append_iff ledger.entries entry).mpr ⟨hchained.numbered, hseq⟩
  · rw [last_digest_push, IdentityLedger.push, head_append, ← hchained.head_eq, link]

theorem chained_of_init {file : Option ByteArray} {ledger : IdentityLedger}
    (hopen : init hasher file = .ok ledger) : Chained hasher ledger := by
  cases file with
  | none =>
    obtain rfl := Except.ok.inj hopen
    exact ⟨numbered_nil, rfl⟩
  | some bytes =>
    refine (reader hasher).read_keeps ?_ ⟨numbered_nil, rfl⟩ hopen
    intro position ledger record next hchained haccept
    obtain ⟨entry, hseq, rfl⟩ := push_of_accept hasher haccept
    exact hchained.push hasher hseq

theorem Chained.agree (hinj : Function.Injective hasher.hexdigest) {ledger other : IdentityLedger}
    (hledger : Chained hasher ledger) (hother : Chained hasher other)
    (hhead : ledger.last_digest = other.last_digest) :
    ledger.entries = other.entries ∨
      (ledger.entries = [] ∨ other.entries = []) ∧ ledger.last_digest = GENESIS_DIGEST := by
  rw [hledger.head_eq, hother.head_eq] at hhead
  rw [hledger.head_eq]
  exact (binding_link hasher hinj).numbered_eq_or hledger.numbered hother.numbered hhead

end IdentityLedger

namespace ConsumptionLedger

variable (hasher : Hasher)

-- One link of the chain: the number that is recorded, and the receipt.
def link (digest : String) (entry : Int × ConsumptionReceipt) : String :=
  link_digest hasher digest entry.1 (entry.2.mint hasher)

theorem binding_link (hinj : Function.Injective hasher.hexdigest) :
    Binding (link hasher) GENESIS_DIGEST Separable where
  start := separable_genesis
  next _ _ _ := separable_hexdigest hasher _
  inj digest other entry second hdigest hother hlink := by
    have htext := Utf8.encode_injective (hinj hlink)
    rw [List.append_assoc, List.append_assoc] at htext
    obtain ⟨hbefore, hrest⟩ := separator_inj hdigest hother htext
    obtain ⟨hseq, hmint⟩ := separator_inj (separable_toString _) (separable_toString _) hrest
    have hreceipt := ConsumptionReceipt.canonical_payload_inj
      (Utf8.encode_injective (hinj (String.toList_inj.mp hmint)))
    exact ⟨hbefore, Prod.ext (toString_int_inj hseq) hreceipt⟩

theorem push_of_accept {position : Nat} {ledger next : ConsumptionLedger} {record : Json}
    (haccept : accept hasher position ledger record = .ok next) :
    ∃ receipt, next = ledger.push hasher receipt := by
  unfold accept at haccept
  split at haccept
  · dsimp only at haccept
    split at haccept
    · split at haccept
      · cases haccept
      · split at haccept
        · split at haccept
          · cases haccept
          · rename_i receipt _
            split at haccept
            · cases haccept
            · rename_i hdigest
              split at haccept
              · cases haccept
              · rename_i hprev
                split at haccept
                · cases haccept
                · rename_i hseq
                  obtain rfl := Except.ok.inj haccept
                  have hlast := (not_or.mp hprev).2
                  refine ⟨receipt, ?_⟩
                  rw [push, recorded, ← not_not.mp hdigest, ← not_not.mp hlast, not_not.mp hseq]
        · cases haccept
    · cases haccept
  · cases haccept

def links (ledger : ConsumptionLedger) : List (Int × ConsumptionReceipt) :=
  ledger.records.map (fun record => (record.seq, record.receipt))

structure Chained (ledger : ConsumptionLedger) : Prop where
  numbered : Numbered Prod.fst ledger.links
  head_eq : ledger.last_digest = head (link hasher) GENESIS_DIGEST ledger.links
  after_eq : (log hasher).after {} ledger.receipts = ledger

theorem Chained.push {ledger : ConsumptionLedger} (hchained : Chained hasher ledger)
    (receipt : ConsumptionReceipt) : Chained hasher (ledger.push hasher receipt) := by
  have hlinks : (ledger.push hasher receipt).links = ledger.links ++ [(ledger.next_seq, receipt)] := by
    simp [links, ConsumptionLedger.push, recorded]
  constructor
  · rw [hlinks]
    refine (numbered_append_iff ledger.links _).mpr ⟨hchained.numbered, ?_⟩
    simp [links, next_seq]
  · rw [hlinks, head_append, ← hchained.head_eq]
    simp [last_digest, ConsumptionLedger.push, recorded, link]
  · rw [receipts_push]
    refine ((log hasher).after_append {} ledger.receipts [receipt]).trans ?_
    rw [hchained.after_eq]
    rfl

theorem chained_of_init {file : Option ByteArray} {ledger : ConsumptionLedger}
    (hopen : init hasher file = .ok ledger) : Chained hasher ledger := by
  cases file with
  | none =>
    obtain rfl := Except.ok.inj hopen
    exact ⟨numbered_nil, rfl, rfl⟩
  | some bytes =>
    refine (reader hasher).read_keeps ?_ ⟨numbered_nil, rfl, rfl⟩ hopen
    intro position ledger record next hchained haccept
    obtain ⟨receipt, rfl⟩ := push_of_accept hasher haccept
    exact hchained.push hasher receipt

-- The links are the whole ledger: the digests follow from them.
theorem Chained.eq_of_links {first second : ConsumptionLedger} (hfirst : Chained hasher first)
    (hsecond : Chained hasher second) (hlinks : first.links = second.links) : first = second := by
  have hreceipts : first.receipts = second.receipts := by
    have hmap := congrArg (List.map Prod.snd) hlinks
    rw [links, links, List.map_map, List.map_map] at hmap
    exact hmap
  rw [← hfirst.after_eq, ← hsecond.after_eq, hreceipts]

theorem links_eq_nil {ledger : ConsumptionLedger} (hnil : ledger.links = []) : ledger.records = [] :=
  List.map_eq_nil_iff.mp hnil

theorem Chained.records_numbered {ledger : ConsumptionLedger} (hchained : Chained hasher ledger) :
    Numbered RecordedReceipt.seq ledger.records := by
  have hnumbered := hchained.numbered
  rw [links, numbered_map_iff] at hnumbered
  exact hnumbered

theorem Chained.agree (hinj : Function.Injective hasher.hexdigest)
    {ledger other : ConsumptionLedger} (hledger : Chained hasher ledger)
    (hother : Chained hasher other) (hhead : ledger.last_digest = other.last_digest) :
    ledger.records = other.records ∨
      (ledger.records = [] ∨ other.records = []) ∧ ledger.last_digest = GENESIS_DIGEST := by
  have hlinks := hhead
  rw [hledger.head_eq, hother.head_eq] at hlinks
  cases (binding_link hasher hinj).numbered_eq_or hledger.numbered hother.numbered hlinks with
  | inl heq =>
    left
    rw [hledger.eq_of_links hasher hother heq]
  | inr hgenesis =>
    right
    rw [hledger.head_eq]
    exact ⟨hgenesis.1.imp links_eq_nil links_eq_nil, hgenesis.2⟩

end ConsumptionLedger

-- Two verified files with one head digest hold the same entries, with the
-- numbers from 1 on, unless only one has any and the digest is the first's own.
theorem verified_files_agree (hasher : Hasher) (hinj : Function.Injective hasher.hexdigest) :
    (∀ (file other_file : Option ByteArray) (ledger other : IdentityLedger),
      IdentityLedger.init hasher file = .ok ledger →
      IdentityLedger.init hasher other_file = .ok other → ledger.last_digest = other.last_digest →
      Numbered LedgerEntry.seq ledger.entries ∧ Numbered LedgerEntry.seq other.entries ∧
        (ledger.entries = other.entries ∨
          (ledger.entries = [] ∨ other.entries = []) ∧ ledger.last_digest = GENESIS_DIGEST)) ∧
    (∀ (file other_file : Option ByteArray) (ledger other : ConsumptionLedger),
      ConsumptionLedger.init hasher file = .ok ledger →
      ConsumptionLedger.init hasher other_file = .ok other → ledger.last_digest = other.last_digest →
      Numbered RecordedReceipt.seq ledger.records ∧ Numbered RecordedReceipt.seq other.records ∧
        (ledger.records = other.records ∨
          (ledger.records = [] ∨ other.records = []) ∧ ledger.last_digest = GENESIS_DIGEST)) := by
  constructor
  · intro file other_file ledger other hopen hother_open hhead
    have hledger := IdentityLedger.chained_of_init hasher hopen
    have hother := IdentityLedger.chained_of_init hasher hother_open
    exact ⟨hledger.numbered, hother.numbered, hledger.agree hasher hinj hother hhead⟩
  · intro file other_file ledger other hopen hother_open hhead
    have hledger := ConsumptionLedger.chained_of_init hasher hopen
    have hother := ConsumptionLedger.chained_of_init hasher hother_open
    exact ⟨hledger.records_numbered hasher, hother.records_numbered hasher,
      hledger.agree hasher hinj hother hhead⟩

-- A hash without collisions: the bytes themselves, spelled out.
def spelled (bytes : List UInt8) : List Char :=
  bytes.flatMap (fun byte => [Nat.digitChar (byte.toNat / 16), Nat.digitChar (byte.toNat % 16)])

theorem digitChar_inj {first second : Nat} (hfirst : first < 16) (hsecond : second < 16)
    (h : Nat.digitChar first = Nat.digitChar second) : first = second := by
  have hvalue := Json.hexValue_digitChar first hfirst
  rw [h, Json.hexValue_digitChar second hsecond] at hvalue
  exact (Option.some.inj hvalue).symm

theorem spelled_injective : Function.Injective spelled := by
  intro first
  induction first with
  | nil =>
    intro second h
    cases second with
    | nil => rfl
    | cons byte rest => simp [spelled] at h
  | cons byte rest ih =>
    intro second h
    cases second with
    | nil => simp [spelled] at h
    | cons other more =>
      simp only [spelled, List.flatMap_cons, List.cons_append, List.nil_append,
        List.cons.injEq] at h
      obtain ⟨hhigh, hlow, hrest⟩ := h
      have hsize := byte.toNat_lt
      have hother := other.toNat_lt
      have hquotient := digitChar_inj (by omega) (by omega) hhigh
      have hremainder := digitChar_inj (Nat.mod_lt _ (by decide)) (Nat.mod_lt _ (by decide)) hlow
      have hbyte : byte = other := UInt8.toNat_inj.mp (by omega)
      rw [hbyte, ih hrest]

theorem hex_of_mem_spelled {bytes : List UInt8} {c : Char} (hc : c ∈ spelled bytes) :
    ∃ d < 16, c = Nat.digitChar d := by
  obtain ⟨byte, -, hdigit⟩ := List.mem_flatMap.mp hc
  have hsize := byte.toNat_lt
  cases List.mem_pair.mp hdigit with
  | inl hhigh => exact ⟨byte.toNat / 16, by omega, hhigh⟩
  | inr hlow => exact ⟨byte.toNat % 16, by omega, hlow⟩

theorem eq_zero_of_mem_genesis {c : Char} (hc : c ∈ GENESIS_DIGEST.toList) : c = '0' := by
  have htext : GENESIS_DIGEST.toList = List.replicate 64 '0' := String.toList_ofList
  exact List.eq_of_mem_replicate (htext ▸ hc)

-- The same, with the genesis digest given to one text.
def zeroing (special : ByteArray) : Hasher where
  hexdigest bytes :=
    if bytes.data = special.data then GENESIS_DIGEST else String.ofList ('f' :: spelled bytes.data.toList)
  nonempty bytes := by
    split
    · decide
    · simp
  hex bytes c hc := by
    split at hc
    · exact ⟨0, by decide, eq_zero_of_mem_genesis hc⟩
    · rw [String.toList_ofList] at hc
      cases List.mem_cons.mp hc with
      | inl hfirst => exact ⟨15, by decide, hfirst⟩
      | inr hrest => exact hex_of_mem_spelled hrest

theorem zeroing_special (special : ByteArray) :
    (zeroing special).hexdigest special = GENESIS_DIGEST := if_pos rfl

theorem zeroing_injective (special : ByteArray) :
    Function.Injective (zeroing special).hexdigest := by
  have hgenesis (rest : List Char) : GENESIS_DIGEST ≠ String.ofList ('f' :: rest) := by
    intro h
    have hm : 'f' ∈ GENESIS_DIGEST.toList := by
      rw [h, String.toList_ofList]
      exact List.mem_cons_self
    exact absurd (eq_zero_of_mem_genesis hm) (by decide)
  intro first second h
  dsimp only [zeroing] at h
  split at h
  · rename_i hfirst
    split at h
    · rename_i hsecond
      exact ByteArray.ext (hfirst.trans hsecond.symm)
    · exact absurd h (hgenesis _)
  · split at h
    · exact absurd h.symm (hgenesis _)
    · have hbytes := spelled_injective (List.cons.inj (String.ofList_inj.mp h)).2
      exact ByteArray.ext (Array.toList_inj.mp hbytes)

-- The text that the digest of a first entry is taken over.
def founding_body : ByteArray :=
  Utf8.encode (GENESIS_DIGEST.toList ++ SEPARATOR :: canonical (founded "plain").payload)

theorem head_of_founded (hasher : Hasher) :
    (({} : IdentityLedger).push hasher (founded "plain")).last_digest =
      hasher.hexdigest founding_body := by
  rw [IdentityLedger.last_digest_push, IdentityLedger.last_digest_start,
    IdentityLedger.chain_digest, founding_body]

def founded_file (hasher : Hasher) : ByteArray :=
  ByteArray.empty ++ ({} : IdentityLedger).line_bytes hasher (founded "plain")

theorem founded_file_reopens (hasher : Hasher) :
    IdentityLedger.Reopens hasher (({} : IdentityLedger).push hasher (founded "plain"))
      (some (founded_file hasher)) :=
  (IdentityLedger.reads_back_iff hasher (ran_founded hasher "plain")).mpr
    (List.forall_mem_singleton.mpr (by decide))

-- A hash with no collision can still give an entry the digest of no entries.
theorem founded_file_has_genesis_head :
    Function.Injective (zeroing founding_body).hexdigest ∧
      ∃ ledger, IdentityLedger.init (zeroing founding_body) none = .ok {} ∧
        IdentityLedger.init (zeroing founding_body)
          (some (founded_file (zeroing founding_body))) = .ok ledger ∧
        ledger.last_digest = ({} : IdentityLedger).last_digest ∧
        ledger.entries ≠ ({} : IdentityLedger).entries := by
  obtain ⟨ledger, hopen, hentries, hhead⟩ := founded_file_reopens (zeroing founding_body)
  refine ⟨zeroing_injective _, ledger, rfl, hopen, ?_, ?_⟩
  · rw [hhead, head_of_founded, zeroing_special, IdentityLedger.last_digest_start]
  · rw [hentries]
    exact List.cons_ne_nil _ _

theorem founded_file_agrees :
    ∃ ledger consumed,
      IdentityLedger.init (zeroing .empty) (some (renewed_file (zeroing .empty))) = .ok ledger ∧
      ConsumptionLedger.init (zeroing .empty) (some (consulted_ledger (zeroing .empty)).2) = .ok consumed ∧
      ledger.entries.length = 2 ∧ Numbered LedgerEntry.seq ledger.entries ∧
      consumed.records.length = 1 ∧ Numbered RecordedReceipt.seq consumed.records := by
  obtain ⟨hidentity, hconsumption⟩ := verified_files_agree (zeroing .empty) (zeroing_injective _)
  obtain ⟨ledger, hopen, hentries, -⟩ :=
    (IdentityLedger.reads_back_iff _ (ran_renewed (zeroing .empty))).mpr (renewed_unbroken _)
  obtain ⟨consumed, hreopen, hrecords, -⟩ :=
    (ConsumptionLedger.reads_back_iff _ (ran_consulted (zeroing .empty))).mpr (consulted_unbroken _)
  exact ⟨ledger, consumed, hopen, hreopen, by rw [hentries]; rfl,
    (hidentity _ _ ledger ledger hopen hopen rfl).1, by rw [hrecords]; rfl,
    (hconsumption _ _ consumed consumed hreopen hreopen rfl).1⟩

end KnowledgeCompiler.Ledger
