import KnowledgeCompiler.Lib.Json.Spaced
import KnowledgeCompiler.Lib.Lines

namespace KnowledgeCompiler.Desktop.JsonlFileSink

open Lib
open Lib.Text (lines EndsLine universalNewlines)

-- A record as the sink gets it: a dictionary that JSON can spell.
structure SinkRecord where
  members : List (String × Json)
  printable : Json.Printable (.obj members)

def key_of (members : List (String × Json)) : Option String :=
  match Json.get? members "event_key" with
  | some (.str key) => some key
  | _ => none

namespace SinkRecord

def event_key (record : SinkRecord) : Option String := key_of record.members

def payload (record : SinkRecord) : List Char := Json.dumpsSpaced (.obj record.members)

def line (record : SinkRecord) : List Char := record.payload ++ ['\n']

end SinkRecord

-- The event key of a line that can be parsed.
def line_key (line : List Char) : Option String :=
  match Json.loads line with
  | some (.obj members) => key_of members
  | _ => none

def line_keys (text : List Char) : List String := (lines text).filterMap line_key

-- The file is read strictly: what is no UTF-8 raises.
def _load_seen : Option ByteArray → Option (List String)
  | none => some []
  | some bytes => (Utf8.decode bytes).map (fun text => line_keys (universalNewlines text))

-- The file, if there is one, and the `seen_event_keys` of the sink that has it open.
structure Disk where
  file : Option ByteArray
  seen_event_keys : Option (List String)

inductive Act
  | reopen
  | deliver (record : SinkRecord)
  -- so many bytes of the line landed before the call raised or the process died
  | cut (record : SinkRecord) (landed : Nat)

def is_seen (seen : List String) (record : SinkRecord) : Bool :=
  match record.event_key with
  | some key => seen.contains key
  | none => false

namespace Disk

def bytes (disk : Disk) : ByteArray := disk.file.getD ByteArray.empty

-- `JsonlFileSink(path)`, in place of the sink before it.
def reopen (disk : Disk) : Disk :=
  match _load_seen disk.file with
  | none => { disk with seen_event_keys := none }
  | some seen => ⟨some disk.bytes, some seen⟩

def deliver (disk : Disk) (seen : List String) (record : SinkRecord) : Disk :=
  if is_seen seen record then disk
  else ⟨some (disk.bytes ++ Utf8.encode record.line), some (record.event_key.toList ++ seen)⟩

-- A delivery that does not get to its end leaves no sink to go on with.
def cut (disk : Disk) (seen : List String) (record : SinkRecord) (landed : Nat) : Option Disk :=
  if is_seen seen record ∨ (Utf8.encode record.line).size < landed then none
  else some ⟨some (disk.bytes ++ (Utf8.encode record.line).extract 0 landed), none⟩

def act (disk : Disk) : Act → Option Disk
  | .reopen => some disk.reopen
  | .deliver record => disk.seen_event_keys.map (fun seen => disk.deliver seen record)
  | .cut record landed => disk.seen_event_keys.bind (fun seen => disk.cut seen record landed)

end Disk

def run (acts : List Act) : Option Disk := acts.foldlM Disk.act ⟨none, none⟩

-- The event keys of the records that were handed to a sink, and of those whose
-- delivery came to its end.

def Act.attempted : Act → Option String
  | .reopen => none
  | .deliver record => record.event_key
  | .cut record _ => record.event_key

def Act.delivered : Act → Option String
  | .deliver record => record.event_key
  | _ => none

def attempted (acts : List Act) : List String := acts.filterMap Act.attempted

def delivered (acts : List Act) : List String := acts.filterMap Act.delivered

def parsable_lines (file : Option ByteArray) (key : String) : Nat :=
  match Utf8.decode (file.getD ByteArray.empty) with
  | none => 0
  | some text => (lines (universalNewlines text)).countP (fun line => line_key line = some key)

structure Idempotent (acts : List Act) (disk : Disk) : Prop where
  reopens : _load_seen disk.file ≠ none
  one_line : (∀ key ∈ attempted acts, key ∈ delivered acts) →
    ∀ key, parsable_lines disk.file key = if key ∈ attempted acts then 1 else 0

-- The file is a text whose last line has its end.
def Whole (disk : Disk) : Prop := ∃ text, Utf8.decode disk.bytes = some text ∧ EndsLine text

-- No line is written behind a torn one, and no write ends inside a character.
def Sound (disk : Disk) : Act → Prop
  | .reopen => True
  | .deliver record =>
      (∃ seen, disk.seen_event_keys = some seen ∧ is_seen seen record = true) ∨ Whole disk
  | .cut record landed => landed = 0 ∨ (Whole disk ∧ ¬Utf8.MidCharacter record.line landed)

def AllSound (acts : List Act) : Prop :=
  ∀ earlier act later, acts = earlier ++ act :: later →
    ∀ disk, run earlier = some disk → Sound disk act

-- What a reader makes of a line.

section Line

variable (record : SinkRecord)

theorem newline_not_mem_payload : '\n' ∉ record.payload :=
  Json.control_not_mem_spaced (Json.printable_sortKeys _ record.printable) (by decide)

theorem return_not_mem_line : '\r' ∉ record.line := by
  have hpayload : '\r' ∉ record.payload :=
    Json.control_not_mem_spaced (Json.printable_sortKeys _ record.printable) (by decide)
  simp [SinkRecord.line, hpayload]

theorem key_of_sorted : key_of (Json.sorted record.members) = record.event_key := by
  rw [SinkRecord.event_key, key_of, key_of, Json.get?_sorted record.printable.1]
  rcases Json.get? record.members "event_key" with _ | value
  · rfl
  · cases value <;> rfl

theorem line_key_payload : line_key record.payload = record.event_key := by
  have hloads := Json.loads_spaced _ (Json.printable_sortKeys _ record.printable)
  rw [line_key, SinkRecord.payload, Json.dumpsSpaced, hloads, Json.sortKeys_obj]
  exact key_of_sorted record

theorem line_key_line : line_key record.line = record.event_key := by
  have hprintable := Json.printable_sortKeys _ record.printable
  rw [Json.sortKeys_obj] at hprintable
  have hloads := Json.loads_spaced_newline hprintable
  rw [line_key, SinkRecord.line, SinkRecord.payload, Json.dumpsSpaced, Json.sortKeys_obj, hloads]
  exact key_of_sorted record

theorem line_key_torn {kept lost : List Char} (hsplit : record.payload = kept ++ lost)
    (hlost : lost ≠ []) : line_key kept = none := by
  have hprintable := Json.printable_sortKeys _ record.printable
  rw [Json.sortKeys_obj] at hprintable
  have hspaced : Json.spaced (.obj (Json.sorted record.members)) = kept ++ lost := hsplit
  rw [line_key, Json.loads_spaced_torn hprintable hspaced hlost]

theorem line_keys_line : line_keys record.line = record.event_key.toList := by
  have hlines := Text.lines_ended (newline_not_mem_payload record) []
  have hone : lines record.line = [record.line] := hlines
  rw [line_keys, hone, List.filterMap_cons, line_key_line]
  cases record.event_key <;> rfl

-- Whatever part of a line has landed, a reader finds no other key in it.
theorem line_keys_part {kept lost : List Char} (hsplit : record.line = kept ++ lost) :
    (line_keys kept).Sublist record.event_key.toList := by
  rcases List.eq_nil_or_concat lost with rfl | ⟨held, last, rfl⟩
  · rw [List.append_nil] at hsplit
    rw [← hsplit, line_keys_line]
  · rw [List.concat_eq_append, ← List.append_assoc] at hsplit
    obtain ⟨hpayload, -⟩ := List.append_inj' hsplit rfl
    have hnewline : '\n' ∉ kept := fun hm =>
      newline_not_mem_payload record (hpayload ▸ List.mem_append_left held hm)
    have hlines := Text.lines_single hnewline
    have hkey : line_key kept = none ∨ line_key kept = record.event_key := by
      by_cases hheld : held = []
      · subst hheld
        rw [List.append_nil] at hpayload
        exact Or.inr (hpayload ▸ line_key_payload record)
      · exact Or.inl (line_key_torn record hpayload hheld)
    rw [line_keys, hlines]
    split
    · exact List.nil_sublist _
    · rcases hkey with hkey | hkey
      · simp [hkey]
      · rw [List.filterMap_cons, hkey]
        cases record.event_key <;> simp

end Line

theorem line_keys_append {text : List Char} (htext : EndsLine text) (more : List Char) :
    line_keys (text ++ more) = line_keys text ++ line_keys more := by
  rw [line_keys, Text.lines_append htext, List.filterMap_append, line_keys, line_keys]

theorem is_seen_iff {seen : List String} {record : SinkRecord} :
    is_seen seen record = true ↔ ∃ key ∈ seen, record.event_key = some key := by
  rw [is_seen]
  cases hkey : record.event_key with
  | none => simp
  | some key => simp

-- What a run that meets the condition keeps true of the file and of the sink.
structure Kept (acts : List Act) (disk : Disk) (text : List Char) : Prop where
  bytes : disk.bytes = Utf8.encode text
  no_return : '\r' ∉ text
  nodup : (line_keys text).Nodup
  attempted : ∀ key ∈ line_keys text, key ∈ attempted acts
  delivered : ∀ key ∈ delivered acts, key ∈ line_keys text
  seen : ∀ seen, disk.seen_event_keys = some seen → ∀ key, key ∈ seen ↔ key ∈ line_keys text

theorem load_seen_of_text {file : Option ByteArray} {text : List Char}
    (hbytes : file.getD ByteArray.empty = Utf8.encode text) (hreturn : '\r' ∉ text) :
    _load_seen file = some (line_keys text) := by
  cases file with
  | none =>
      have hempty : Utf8.encode [] = Utf8.encode text := hbytes
      obtain rfl := Utf8.encode_injective hempty
      rfl
  | some bytes =>
      have hbytes : bytes = Utf8.encode text := hbytes
      rw [_load_seen, hbytes, Utf8.decode_encode, Option.map_some,
        Text.universalNewlines_of_not_mem hreturn]

theorem Kept.loads {acts : List Act} {disk : Disk} {text : List Char} (hkept : Kept acts disk text) :
    _load_seen disk.file = some (line_keys text) :=
  load_seen_of_text hkept.bytes hkept.no_return

theorem mem_attempted_concat {acts : List Act} {act : Act} {key : String} :
    key ∈ attempted (acts ++ [act]) ↔ key ∈ attempted acts ∨ act.attempted = some key := by
  rw [attempted, List.filterMap_append, List.mem_append, attempted]
  cases h : act.attempted <;> simp [h, eq_comm]

theorem mem_delivered_concat {acts : List Act} {act : Act} {key : String} :
    key ∈ delivered (acts ++ [act]) ↔ key ∈ delivered acts ∨ act.delivered = some key := by
  rw [delivered, List.filterMap_append, List.mem_append, delivered]
  cases h : act.delivered <;> simp [h, eq_comm]

theorem Kept.initial : Kept [] ⟨none, none⟩ [] where
  bytes := rfl
  no_return := List.not_mem_nil
  nodup := List.nodup_nil
  attempted := fun _ hkey => absurd hkey List.not_mem_nil
  delivered := fun _ hkey => absurd hkey List.not_mem_nil
  seen := fun _ hseen => nomatch hseen

theorem Kept.reopen {acts : List Act} {disk : Disk} {text : List Char}
    (hkept : Kept acts disk text) : Kept (acts ++ [.reopen]) disk.reopen text := by
  have hreopen : disk.reopen = ⟨some disk.bytes, some (line_keys text)⟩ := by
    rw [Disk.reopen, hkept.loads]
  rw [hreopen]
  refine ⟨hkept.bytes, hkept.no_return, hkept.nodup, ?_, ?_, ?_⟩
  · exact fun key hkey => mem_attempted_concat.mpr (Or.inl (hkept.attempted key hkey))
  · intro key hkey
    rcases mem_delivered_concat.mp hkey with hkey | hkey
    · exact hkept.delivered key hkey
    · cases hkey
  · rintro seen ⟨⟩ key
    exact Iff.rfl

-- A record that the sink has seen is passed over.
theorem Kept.pass {acts : List Act} {disk : Disk} {text : List Char} (hkept : Kept acts disk text)
    {seen : List String} (hsink : disk.seen_event_keys = some seen) {record : SinkRecord}
    (hseen : is_seen seen record = true) : Kept (acts ++ [.deliver record]) disk text := by
  obtain ⟨found, hfound, hrecord⟩ := is_seen_iff.mp hseen
  refine ⟨hkept.bytes, hkept.no_return, hkept.nodup, ?_, ?_, hkept.seen⟩
  · exact fun key hkey => mem_attempted_concat.mpr (Or.inl (hkept.attempted key hkey))
  · intro key hkey
    rcases mem_delivered_concat.mp hkey with hkey | hkey
    · exact hkept.delivered key hkey
    · obtain rfl : found = key := Option.some.inj (hrecord.symm.trans hkey)
      exact (hkept.seen seen hsink found).mp hfound

-- A part of a new record's line goes behind whole lines.
theorem Kept.write {acts : List Act} {disk : Disk} {text : List Char} (hkept : Kept acts disk text)
    {seen : List String} (hsink : disk.seen_event_keys = some seen) {record : SinkRecord}
    (hnew : ¬is_seen seen record = true) (hends : EndsLine text) {part lost : List Char}
    (hpart : record.line = part ++ lost) {act : Act} (hact : act.attempted = record.event_key)
    (hdone : ∀ key, act.delivered = some key → key ∈ line_keys part) {next : Disk}
    (hbytes : next.bytes = disk.bytes ++ Utf8.encode part)
    (hnext : ∀ found, next.seen_event_keys = some found →
      ∀ key, key ∈ found ↔ key ∈ line_keys text ∨ key ∈ line_keys part) :
    Kept (acts ++ [act]) next (text ++ part) := by
  have hkeys := line_keys_append hends part
  have hsub := line_keys_part record hpart
  have hrecord (key : String) (hkey : key ∈ line_keys part) : record.event_key = some key :=
    Option.mem_toList.mp (hsub.subset hkey)
  refine ⟨?_, ?_, ?_, ?_, ?_, ?_⟩
  · rw [hbytes, hkept.bytes, Utf8.encode_append]
  · rw [List.mem_append, not_or]
    exact ⟨hkept.no_return, fun hm =>
      return_not_mem_line record (hpart ▸ List.mem_append_left lost hm)⟩
  · rw [hkeys, List.nodup_append']
    refine ⟨hkept.nodup, ?_, fun key hold hkey => hnew (is_seen_iff.mpr ?_)⟩
    · refine hsub.nodup ?_
      cases record.event_key <;> simp
    · exact ⟨key, (hkept.seen seen hsink key).mpr hold, hrecord key hkey⟩
  · intro key hkey
    rw [hkeys, List.mem_append] at hkey
    refine mem_attempted_concat.mpr (hkey.imp (hkept.attempted key) fun hkey => ?_)
    exact hact.trans (hrecord key hkey)
  · intro key hkey
    rw [hkeys, List.mem_append]
    exact (mem_delivered_concat.mp hkey).imp (hkept.delivered key) (hdone key)
  · intro found hfound key
    rw [hkeys, List.mem_append]
    exact hnext found hfound key

theorem Kept.endsLine {acts : List Act} {disk : Disk} {text : List Char}
    (hkept : Kept acts disk text) (hwhole : Whole disk) : EndsLine text := by
  obtain ⟨found, hfound, hends⟩ := hwhole
  rw [hkept.bytes, Utf8.decode_encode] at hfound
  exact Option.some.inj hfound ▸ hends

theorem Kept.deliver {acts : List Act} {disk : Disk} {text : List Char}
    (hkept : Kept acts disk text) {seen : List String} (hsink : disk.seen_event_keys = some seen)
    {record : SinkRecord} (hsound : Sound disk (.deliver record)) :
    ∃ text, Kept (acts ++ [.deliver record]) (disk.deliver seen record) text := by
  rw [Disk.deliver]
  split
  · rename_i hseen
    exact ⟨text, hkept.pass hsink hseen⟩
  · rename_i hnew
    have hwhole : Whole disk := by
      rcases hsound with ⟨other, hother, hseen⟩ | hwhole
      · obtain rfl : seen = other := Option.some.inj (hsink.symm.trans hother)
        exact absurd hseen hnew
      · exact hwhole
    have hline := line_keys_line record
    refine ⟨text ++ record.line, hkept.write hsink hnew (hkept.endsLine hwhole)
      (List.append_nil record.line).symm rfl ?_ rfl ?_⟩
    · intro key hkey
      rw [hline]
      exact Option.mem_toList.mpr hkey
    · rintro found ⟨⟩ key
      rw [List.mem_append, hline, hkept.seen seen hsink key, or_comm]

theorem Kept.cut {acts : List Act} {disk next : Disk} {text : List Char}
    (hkept : Kept acts disk text) {seen : List String} (hsink : disk.seen_event_keys = some seen)
    {record : SinkRecord} {landed : Nat} (hcut : disk.cut seen record landed = some next)
    (hsound : Sound disk (.cut record landed)) :
    ∃ text, Kept (acts ++ [.cut record landed]) next text := by
  rw [Disk.cut] at hcut
  split at hcut
  · cases hcut
  rename_i hopen
  obtain ⟨hnew, -⟩ := not_or.mp hopen
  obtain rfl := Option.some.inj hcut
  rcases hsound with rfl | ⟨hwhole, hmid⟩
  · -- Nothing landed.
    have hsame : (⟨some (disk.bytes ++ (Utf8.encode record.line).extract 0 0), none⟩ : Disk).bytes =
        disk.bytes := by simp [Disk.bytes]
    refine ⟨text, hsame.trans hkept.bytes, hkept.no_return, hkept.nodup, ?_, ?_, ?_⟩
    · exact fun key hkey => mem_attempted_concat.mpr (Or.inl (hkept.attempted key hkey))
    · intro key hkey
      rcases mem_delivered_concat.mp hkey with hkey | hkey
      · exact hkept.delivered key hkey
      · cases hkey
    · rintro found ⟨⟩
  · simp only [Utf8.MidCharacter, not_forall, not_not] at hmid
    obtain ⟨part, lost, hpart, hsize⟩ := hmid
    have hextract : (Utf8.encode record.line).extract 0 landed = Utf8.encode part := by
      rw [hpart, ← hsize, Utf8.extract_of_append]
    refine ⟨text ++ part, hkept.write hsink hnew (hkept.endsLine hwhole) hpart rfl ?_ ?_ ?_⟩
    · rintro key ⟨⟩
    · rw [Disk.bytes, Option.getD_some, hextract]
    · rintro found ⟨⟩

theorem Kept.act {acts : List Act} {disk next : Disk} {text : List Char} (hkept : Kept acts disk text)
    {act : Act} (hact : disk.act act = some next) (hsound : Sound disk act) :
    ∃ text, Kept (acts ++ [act]) next text := by
  cases act with
  | reopen =>
      obtain rfl := Option.some.inj hact
      exact ⟨text, hkept.reopen⟩
  | deliver record =>
      obtain ⟨seen, hsink, rfl⟩ := Option.map_eq_some_iff.mp hact
      exact hkept.deliver hsink hsound
  | cut record landed =>
      obtain ⟨seen, hsink, hcut⟩ := Option.bind_eq_some_iff.mp hact
      exact hkept.cut hsink hcut hsound

theorem run_concat (acts : List Act) (act : Act) :
    run (acts ++ [act]) = (run acts).bind (fun disk => disk.act act) := by
  rw [run, List.foldlM_append, run]
  simp

theorem allSound_nil : AllSound [] := by
  intro earlier act later hsplit
  simp at hsplit

theorem allSound_concat {acts : List Act} {act : Act} :
    AllSound (acts ++ [act]) ↔ AllSound acts ∧ ∀ disk, run acts = some disk → Sound disk act := by
  constructor
  · intro hsound
    refine ⟨fun earlier other later hsplit => ?_, hsound acts act [] rfl⟩
    exact hsound earlier other (later ++ [act]) (by simp [hsplit])
  · rintro ⟨hbefore, hlast⟩ earlier other later hsplit
    rcases List.eq_nil_or_concat later with rfl | ⟨more, last, rfl⟩
    · obtain ⟨rfl, hact⟩ := List.append_inj' hsplit rfl
      obtain rfl : act = other := List.singleton_inj.mp hact
      exact hlast
    · rw [List.concat_eq_append, ← List.cons_append, ← List.append_assoc] at hsplit
      exact hbefore earlier other more (List.append_inj' hsplit rfl).1

theorem exists_kept {acts : List Act} {disk : Disk} (hrun : run acts = some disk)
    (hsound : AllSound acts) : ∃ text, Kept acts disk text := by
  induction acts using List.reverseRecOn generalizing disk with
  | nil => exact Option.some.inj hrun ▸ ⟨[], Kept.initial⟩
  | append_singleton acts act ih =>
      rw [run_concat] at hrun
      obtain ⟨middle, hmiddle, hact⟩ := Option.bind_eq_some_iff.mp hrun
      obtain ⟨hbefore, hlast⟩ := allSound_concat.mp hsound
      obtain ⟨text, hkept⟩ := ih hmiddle hbefore
      exact hkept.act hact (hlast middle hmiddle)

theorem Kept.parsable_lines {acts : List Act} {disk : Disk} {text : List Char}
    (hkept : Kept acts disk text) (key : String) :
    parsable_lines disk.file key = (line_keys text).count key := by
  have hbytes : disk.file.getD ByteArray.empty = Utf8.encode text := hkept.bytes
  simp only [JsonlFileSink.parsable_lines, hbytes, Utf8.decode_encode,
    Text.universalNewlines_of_not_mem hkept.no_return, line_keys, List.count_filterMap]
  exact List.countP_congr fun line _ => by simp

-- No record is lost and none is there twice, if no line is written behind a torn
-- one and no write ends inside a character.
theorem one_line_each (acts : List Act) (disk : Disk) (hrun : run acts = some disk)
    (hsound : AllSound acts) : Idempotent acts disk := by
  obtain ⟨text, hkept⟩ := exists_kept hrun hsound
  refine ⟨by simp [hkept.loads], fun hall key => ?_⟩
  rw [hkept.parsable_lines]
  split
  · rename_i hkey
    exact List.count_eq_one_of_mem hkept.nodup (hkept.delivered key (hall key hkey))
  · rename_i hkey
    exact List.count_eq_zero.mpr (mt (hkept.attempted key) hkey)

-- A cut inside a character, and a cut behind the first brace.

def accented : SinkRecord := ⟨[("event_key", .str "é")], by decide⟩

def plain : SinkRecord := ⟨[("event_key", .str "a")], by decide⟩

theorem accented_line : accented.line = "\x7b\"event_key\": \"".toList ++ 'é' :: "\"\x7d\n".toList := by
  decide

theorem plain_line : plain.line = "\x7b\"event_key\": \"a\"\x7d\n".toList := by decide

theorem cut_of_split {disk : Disk} {seen : List String} {record : SinkRecord}
    (hnew : ¬is_seen seen record = true) {part lost : List Char} (hsplit : record.line = part ++ lost) :
    disk.cut seen record (Utf8.encode part).size =
      some ⟨some (disk.bytes ++ Utf8.encode part), none⟩ := by
  have hsize : ¬(Utf8.encode (part ++ lost)).size < (Utf8.encode part).size := by
    rw [Utf8.encode_append, ByteArray.size_append]
    omega
  rw [Disk.cut, hsplit, Utf8.extract_of_append, if_neg (not_or.mpr ⟨hnew, hsize⟩)]

theorem run_act {disk next : Disk} {act : Act} (hact : disk.act act = some next) (rest : List Act) :
    (act :: rest).foldlM Disk.act disk = rest.foldlM Disk.act next := by
  rw [List.foldlM_cons, hact]
  rfl

theorem run_opened (acts : List Act) :
    run (.reopen :: acts) = acts.foldlM Disk.act ⟨some ByteArray.empty, some []⟩ := rfl

def plain_part : List Char := "\x7b\"event_key\": \"a\"\x7d".toList

-- Only the end of the line is lost: the record counts as seen, and is not written again.
def cut_before_end : List Act :=
  [.reopen, .cut plain ((Utf8.encode plain.line).size - 1), .reopen, .deliver plain]

theorem one_line_after_cut : ∃ disk, run cut_before_end = some disk ∧ Idempotent cut_before_end disk := by
  have hsplit : plain.line = plain_part ++ ['\n'] := plain_line
  have hpart : (Utf8.encode plain.line).size - 1 = (Utf8.encode plain_part).size := by
    have hend : (Utf8.encode ['\n']).size = 1 := rfl
    rw [hsplit, Utf8.encode_append, ByteArray.size_append, hend]
    omega
  have hreturn : '\r' ∉ plain_part := by decide
  have hcut : (⟨some ByteArray.empty, some []⟩ : Disk).act
      (.cut plain ((Utf8.encode plain.line).size - 1)) =
        some ⟨some (ByteArray.empty ++ Utf8.encode plain_part), none⟩ := by
    rw [hpart]
    exact @cut_of_split ⟨some ByteArray.empty, some []⟩ [] plain (by decide) plain_part _ hsplit
  have hopen : Disk.act ⟨some (ByteArray.empty ++ Utf8.encode plain_part), none⟩ .reopen =
      some ⟨some (Utf8.encode plain_part), some ["a"]⟩ := by
    have hload : _load_seen (some (Utf8.encode plain_part)) = some (line_keys plain_part) :=
      load_seen_of_text rfl hreturn
    rw [Disk.act, Disk.reopen, ByteArray.empty_append, hload]
    rfl
  have hdeliver : Disk.act ⟨some (Utf8.encode plain_part), some ["a"]⟩ (.deliver plain) =
      some ⟨some (Utf8.encode plain_part), some ["a"]⟩ := rfl
  have hrun := (run_opened _).trans
    ((run_act hcut _).trans ((run_act hopen _).trans (run_act hdeliver [])))
  refine ⟨_, hrun, one_line_each _ _ hrun ?_⟩
  have hopened : AllSound [.reopen] :=
    (@allSound_concat [] _).mpr ⟨allSound_nil, fun _ _ => trivial⟩
  have hcutSound : AllSound [.reopen, .cut plain ((Utf8.encode plain.line).size - 1)] := by
    refine (@allSound_concat [.reopen] _).mpr ⟨hopened, ?_⟩
    rintro disk hdisk
    obtain rfl : ⟨some ByteArray.empty, some []⟩ = disk := Option.some.inj hdisk
    refine Or.inr ⟨⟨[], Utf8.decode_encode [], Or.inl rfl⟩, fun hmid => ?_⟩
    exact hmid plain_part ['\n'] hsplit hpart.symm
  have hreopened := (@allSound_concat [.reopen, .cut plain ((Utf8.encode plain.line).size - 1)]
    .reopen).mpr ⟨hcutSound, fun _ _ => trivial⟩
  refine (@allSound_concat [.reopen, .cut plain ((Utf8.encode plain.line).size - 1), .reopen] _).mpr
    ⟨hreopened, fun disk hdisk => ?_⟩
  have hbefore := (run_opened _).trans ((run_act hcut _).trans (run_act hopen []))
  obtain rfl := Option.some.inj (hbefore.symm.trans hdisk)
  exact Or.inl ⟨["a"], rfl, by decide⟩

theorem delivery_lost_after_cut :
    (∃ disk, run [.reopen, .cut accented 16] = some disk ∧ _load_seen disk.file = none) ∧
      ∃ disk, run [.reopen, .cut plain 1, .reopen, .deliver plain] = some disk ∧
        ¬Idempotent [.reopen, .cut plain 1, .reopen, .deliver plain] disk := by
  constructor
  · have hsize : ¬(Utf8.encode accented.line).size < 16 := by
      rw [accented_line]
      decide
    have hmid : Utf8.MidCharacter accented.line 16 := by
      rw [accented_line]
      exact Utf8.midCharacter_between (by decide) (by decide)
    have hcut : (⟨some ByteArray.empty, some []⟩ : Disk).act (.cut accented 16) =
        some ⟨some (ByteArray.empty ++ (Utf8.encode accented.line).extract 0 16), none⟩ := by
      rw [Disk.act, Option.bind_some, Disk.cut, if_neg (not_or.mpr ⟨by decide, hsize⟩)]
      rfl
    refine ⟨_, (run_opened _).trans (run_act hcut []), ?_⟩
    have hnone := Utf8.decode_midCharacter (Nat.le_of_not_lt hsize) hmid [] []
    have hempty : Utf8.encode [] = ByteArray.empty := rfl
    rw [hempty, ByteArray.append_empty] at hnone
    rw [_load_seen, hnone, Option.map_none]
  · -- The line that is written again goes on where the torn one ends.
    have hcut : (⟨some ByteArray.empty, some []⟩ : Disk).act (.cut plain 1) =
        some ⟨some (ByteArray.empty ++ Utf8.encode ['{']), none⟩ := by
      have hnew : ¬is_seen [] plain = true := by decide
      have hsplit : plain.line = ['{'] ++ "\"event_key\": \"a\"\x7d\n".toList := plain_line
      exact @cut_of_split ⟨some ByteArray.empty, some []⟩ [] plain hnew ['{'] _ hsplit
    have hbrace : '\r' ∉ ['{'] := by decide
    have hopen : Disk.act ⟨some (ByteArray.empty ++ Utf8.encode ['{']), none⟩ .reopen =
        some ⟨some (Utf8.encode ['{']), some []⟩ := by
      have hload : _load_seen (some (Utf8.encode ['{'])) = some (line_keys ['{']) :=
        load_seen_of_text rfl hbrace
      rw [Disk.act, Disk.reopen, ByteArray.empty_append, hload]
      rfl
    have hdeliver : Disk.act ⟨some (Utf8.encode ['{']), some []⟩ (.deliver plain) =
        some ⟨some (Utf8.encode ('{' :: plain.line)), some ["a"]⟩ := by
      have hglued : Utf8.encode ('{' :: plain.line) = Utf8.encode ['{'] ++ Utf8.encode plain.line :=
        Utf8.encode_append ['{'] plain.line
      rw [hglued]
      rfl
    refine ⟨_, (run_opened _).trans
      ((run_act hcut _).trans ((run_act hopen _).trans (run_act hdeliver []))), fun hall => ?_⟩
    have hone := hall.one_line (by decide) "a"
    have hreturn : '\r' ∉ '{' :: plain.line := by decide
    have hnone : parsable_lines (some (Utf8.encode ('{' :: plain.line))) "a" = 0 := by
      simp only [parsable_lines, Option.getD_some, Utf8.decode_encode,
        Text.universalNewlines_of_not_mem hreturn]
      decide
    rw [hnone] at hone
    exact absurd hone (by decide)

end KnowledgeCompiler.Desktop.JsonlFileSink
