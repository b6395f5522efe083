import KnowledgeCompiler.Desktop.Repair
import KnowledgeCompiler.Lib.Json.Spaced

namespace KnowledgeCompiler.Desktop

open Lib

-- The dictionary of a record, as the watcher hands it to the journal.
structure Rendering where
  members : Record → List (String × Json)
  printable : ∀ record, Json.Printable (.obj (members record))
  keyed : ∀ record, Json.get? (members record) "event_key" = some (.str record.event_key)

def digest_json : Option String → Json
  | some digest => .str digest
  | none => .null

theorem printable_digest (digest : Option String) : (digest_json digest).Printable := by
  cases digest <;> simp [digest_json, Json.Printable]

theorem sortKeys_digest (digest : Option String) :
    (digest_json digest).sortKeys = digest_json digest := by
  cases digest <;> rfl

section Writing

variable (render : Rendering)

namespace Line

-- What `append_event`, `append_ack` and `append_state` hand to `_append_line`.
def members : Line → List (String × Json)
  | event record =>
      [("kind", .str "event"),
        ("event_key", (Json.get? (render.members record) "event_key").getD .null),
        ("record", .obj (render.members record))]
  | ack event_key => [("kind", .str "ack"), ("event_key", .str event_key)]
  | state line =>
      [("kind", .str "state"), ("root", .str line.root), ("rel", .str line.rel),
        ("content_sha256", digest_json line.content_sha256), ("generation", .int line.generation),
        ("manifest_revision", .int line.manifest_revision), ("sequence", .int line.sequence)]

def payload (line : Line) : List Char := Json.dumpsSpaced (.obj (line.members render))

def payload_bytes (line : Line) : List UInt8 :=
  (Utf8.encode (line.payload render)).data.toList

-- `_append_line`
def bytes (line : Line) : List UInt8 := line.payload_bytes render ++ [newline]

-- What a reader is to find: the keys of a record come back sorted.
def read_as (casefold : Casefold) : Line → JournalLine
  | event record => .event record.event_key (Json.sorted (render.members record))
  | ack event_key => .ack event_key
  | state line =>
      .state (line.slot casefold) ⟨digest_json line.content_sha256, line.generation⟩
        line.manifest_revision line.sequence

end Line

def journal_bytes (journal : List Line) : List UInt8 := journal.flatMap (Line.bytes render)

theorem event_members (record : Record) : (Line.event record).members render =
    [("kind", .str "event"), ("event_key", .str record.event_key),
      ("record", .obj (render.members record))] := by
  rw [Line.members, render.keyed]
  rfl

variable (line : Line)

theorem printable_members : Json.Printable (.obj (line.members render)) := by
  cases line with
  | event record =>
    have hrecord := render.printable record
    simpa [Json.Printable, Json.PrintableMembers, event_members] using hrecord
  | ack event_key => simp [Json.Printable, Json.PrintableMembers, Line.members]
  | state line =>
    simp [Json.Printable, Json.PrintableMembers, Line.members, printable_digest]

theorem printable_sorted : Json.Printable (.obj (Json.sorted (line.members render))) := by
  rw [← Json.sortKeys_obj]
  exact Json.printable_sortKeys _ (printable_members render line)

theorem loads_payload :
    Json.loads (line.payload render) = some (.obj (Json.sorted (line.members render))) :=
  Json.loads_spaced _ (printable_sorted render line)

theorem get?_written (key : String) : Json.get? (Json.sorted (line.members render)) key =
    (Json.get? (line.members render) key).map Json.sortKeys :=
  Json.get?_sorted (printable_members render line).1 key

theorem control_not_mem_payload {c : Char} (hc : c.toNat < 0x20) : c ∉ line.payload render :=
  Json.control_not_mem_spaced (printable_sorted render line) hc

theorem iter_lines_payload :
    iter_lines (line.payload render ++ ['\n']) = [line.payload render] := by
  obtain ⟨inner, hpayload⟩ : ∃ inner, line.payload render = '{' :: inner ++ ['}'] :=
    Json.exists_spaced (Json.sorted (line.members render))
  have hreturn : '\r' ∉ line.payload render ++ ['\n'] := by
    have hpayload := control_not_mem_payload render line (show ('\r' : Char).toNat < 0x20 by decide)
    simp [hpayload]
  have hnewline := control_not_mem_payload render line (show ('\n' : Char).toNat < 0x20 by decide)
  have hlines : Text.lines (line.payload render ++ ['\n']) = [line.payload render ++ ['\n']] :=
    Text.lines_ended hnewline []
  have hstrip : Text.strip (line.payload render ++ ['\n']) = line.payload render := by
    rw [hpayload, Text.strip, List.cons_append, List.cons_append, Text.lstrip_cons (by decide)]
    have hright := Text.rstrip_append ('{' :: inner) ['\n'] (c := '}') (by decide)
    rw [List.append_assoc]
    exact hright
  have hne : line.payload render ≠ [] := by
    rw [hpayload]
    exact List.cons_ne_nil _ _
  rw [iter_lines, Text.universalNewlines_of_not_mem hreturn, hlines, List.map_singleton, hstrip]
  exact List.filter_cons_of_pos (decide_eq_true hne)

theorem toByteArray_payload :
    (line.payload_bytes render).toByteArray = Utf8.encode (line.payload render) := by
  apply ByteArray.ext
  rw [List.data_toByteArray]
  exact Array.toArray_toList

theorem decode_bytes : Utf8.decode (line.payload_bytes render ++ [newline]).toByteArray =
    some (line.payload render ++ ['\n']) := by
  rw [decode_newline, List.toByteArray_nil, ByteArray.append_empty, toByteArray_payload,
    ← Utf8.encode_append, Utf8.decode_encode]

theorem newline_not_mem_payload_bytes : newline ∉ line.payload_bytes render := by
  intro hmem
  obtain ⟨before, after, hsplit⟩ := List.append_of_mem hmem
  have hdecode : Utf8.decode (line.payload_bytes render).toByteArray =
      some (line.payload render) := by
    rw [toByteArray_payload, Utf8.decode_encode]
  rw [hsplit, decode_newline] at hdecode
  obtain ⟨text, rest, -, -, hpayload⟩ := Utf8.decode_line hdecode
  refine control_not_mem_payload render line
    (show ('\n' : Char).toNat < 0x20 by decide) ?_
  rw [hpayload]
  simp

end Writing

section Reading

variable {render : Rendering} {casefold : Casefold} {conversions : Conversions}
variable {refuses : List Char → Bool}

theorem shape_payload (line : Line) : shape (line.payload render) = match line with
    | .event record => .event record.event_key (Json.sorted (render.members record))
    | .ack event_key => .ack event_key
    | .state state => .state (Json.sorted (line.members render)) state.root state.rel := by
  rw [shape, loads_payload]
  simp only [get?_written]
  cases line with
  | event record =>
    simp [event_members, Json.get?, Json.sortKeys, Json.sorted]
  | ack event_key => simp [Line.members, Json.get?, Json.sortKeys]
  | state state => simp [Line.members, Json.get?, Json.sortKeys]

theorem state_numbers_payload (state : StateLine) :
    state_numbers conversions (Json.sorted ((Line.state state).members render)) =
      some ((state.generation : Int), (state.manifest_revision : Int), (state.sequence : Int)) := by
  simp only [state_numbers, get?_written]
  simp [Line.members, Json.get?, Json.sortKeys, Conversions.int]

theorem interpret_payload (line : Line) (hreads : refuses (line.payload render) = false) :
    interpret casefold conversions refuses (line.payload render) =
      line.read_as render casefold := by
  rw [interpret, hreads, shape_payload]
  cases line with
  | event record => rfl
  | ack event_key => rfl
  | state state =>
    simp only [Bool.false_eq_true, if_false, interpret_state, state_numbers_payload, get?_written]
    simp [Line.members, Json.get?, sortKeys_digest, Line.read_as, StateLine.slot]

theorem convertible_payload (line : Line) :
    unconvertible conversions (line.payload render) = false := by
  rw [unconvertible, shape_payload]
  cases line with
  | event record => rfl
  | ack event_key => rfl
  | state state =>
    dsimp only
    rw [state_numbers_payload]
    rfl

theorem readable_payload (line : Line) (hreads : refuses (line.payload render) = false) :
    Readable conversions refuses (line.payload_bytes render) := by
  refine ⟨_, decode_bytes render line, fun written hwritten => ?_⟩
  rw [iter_lines_payload, List.mem_singleton] at hwritten
  rw [hwritten]
  exact ⟨hreads, convertible_payload line⟩

theorem read_line_payload (line : Line) (hreads : refuses (line.payload render) = false) :
    read_line casefold conversions refuses (line.payload_bytes render) =
      [line.read_as render casefold] := by
  rw [read_line, decode_bytes]
  simp only [iter_lines_payload, List.map_singleton, interpret_payload line hreads]

-- What the calls wrote is read back line by line.
theorem replay_journal_bytes {journal : List Line}
    (hreads : ∀ line ∈ journal, refuses (line.payload render) = false) :
    replay_journal casefold conversions refuses (journal_bytes render journal) =
      some ((journal.map (Line.read_as render casefold)).foldl absorb .start) := by
  have hlines : journal_bytes render journal =
      ((journal.map (Line.payload_bytes render)).map (· ++ [newline])).flatten := by
    rw [journal_bytes, List.flatMap_def, List.map_map]
    rfl
  have hended : ∀ line ∈ (journal.map (Line.payload_bytes render)).map (· ++ [newline]),
      ∃ before, line = before ++ [newline] := by
    intro line hline
    obtain ⟨before, -, rfl⟩ := List.mem_map.mp hline
    exact ⟨before, rfl⟩
  have hreadable : ∀ line ∈ journal.map (Line.payload_bytes render),
      Readable conversions refuses line := by
    intro line hline
    obtain ⟨written, hwritten, rfl⟩ := List.mem_map.mp hline
    exact readable_payload written (hreads written hwritten)
  have hread : (journal.map (Line.payload_bytes render)).flatMap
      (read_line casefold conversions refuses) = journal.map (Line.read_as render casefold) := by
    rw [List.flatMap_map, List.flatMap_congr fun line hline => read_line_payload line (hreads line hline)]
    exact List.flatMap_pure_eq_map _ journal
  rw [replay_journal, hlines, fold_text_flatten _ _ hended]
  rcases foldlM_readable casefold conversions refuses (journal.map (Line.payload_bytes render))
      .start with ⟨-, hrun⟩ | ⟨⟨line, hline, hbad⟩, -⟩
  · rw [hrun, hread]
  · exact absurd (hreadable line hline) hbad

end Reading

section Restoring

variable (render : Rendering) (casefold : Casefold)

-- The result of a replay, as the reader of the file has it.
def ReplayResult.as_read (result : ReplayResult) : FileReplay where
  unprocessed := result.unprocessed.mapValues fun record => Json.sorted (render.members record)
  dedup := result.dedup.mapValues fun entry => ⟨digest_json entry.content_sha256, entry.generation⟩
  manifest_revision := result.manifest_revision
  sequence := result.sequence
  skipped_lines := 0

theorem absorb_as_read (result : ReplayResult) (line : Line) :
    absorb (result.as_read render) (line.read_as render casefold) =
      (replay_line casefold result line).as_read render := by
  cases line with
  | event record =>
    simp only [Line.read_as, absorb, ReplayResult.as_read, replay_line, Dict.mapValues_set]
  | ack event_key =>
    simp only [Line.read_as, absorb, ReplayResult.as_read, replay_line, Dict.mapValues_erase]
  | state line =>
    simp only [Line.read_as, absorb, ReplayResult.as_read, replay_line, Dict.mapValues_set,
      StateLine.entry, Nat.cast_max]

theorem foldl_as_read (journal : List Line) :
    (journal.map (Line.read_as render casefold)).foldl absorb .start =
      (replay casefold journal).as_read render := by
  induction journal using List.reverseRecOn with
  | nil => rfl
  | append_singleton journal line ih =>
    rw [List.map_append, List.foldl_append, ih, replay_append]
    exact absorb_as_read render casefold (replay casefold journal) line

theorem ended_journal_bytes (journal : List Line) : Ended (journal_bytes render journal) := by
  cases journal using List.reverseRecOn with
  | nil => exact .inl rfl
  | append_singleton journal line =>
    right
    rw [journal_bytes, List.flatMap_append, List.flatMap_singleton, Line.bytes, ← List.append_assoc]
    exact List.getLast?_concat

theorem repair_append_torn {content after : List UInt8} (hended : Ended content)
    (hafter : newline ∉ after) (hshort : after.length < 65536) :
    repair_partial_tail (content ++ after) = content := by
  rcases hended with rfl | hlast
  · rw [List.nil_append, repair_of_short (.inl hafter)]
    exact (complete_eq_nil_iff after).mpr hafter
  · obtain ⟨front, rfl⟩ := List.getLast?_eq_some_iff.mp hlast
    rw [List.append_assoc, List.singleton_append]
    have htorn := torn_append front hafter
    have hsplit := complete_append_torn (front ++ newline :: after)
    rw [repair_of_short (.inr (htorn.symm ▸ hshort))]
    rw [htorn] at hsplit
    rw [List.append_cons] at hsplit
    rw [List.append_cons]
    exact List.append_cancel_right hsplit

-- A part of a line that stops before its end has no line end.
theorem newline_not_mem_part {line : Line} {part : List UInt8} (hpart : part <+: line.bytes render)
    (hstops : part ≠ line.bytes render) : newline ∉ part := by
  rcases List.prefix_concat_iff.mp hpart with hwhole | hinside
  · exact absurd hwhole hstops
  · exact fun hmem => newline_not_mem_payload_bytes render line (hinside.subset hmem)

-- What happens to the file: a line is appended, or the process dies with only the first bytes of the
-- line on the disk and the next one repairs the file before it appends.
inductive FileAct
  | append (line : Line)
  | die (line : Line) (landed : Nat)

def FileAct.line : FileAct → Line
  | append line => line
  | die line _ => line

def FileAct.step (content : List UInt8) : FileAct → List UInt8
  | append line => content ++ line.bytes render
  | die line landed => repair_partial_tail (content ++ (line.bytes render).take landed)

-- The line counts when all of it landed.
def FileAct.written : FileAct → List Line
  | append line => [line]
  | die line landed => if (line.bytes render).length ≤ landed then [line] else []

-- What is torn off fits the window in which the repair looks for a line end.
def FileAct.WithinWindow : FileAct → Prop
  | append _ => True
  | die line landed => (line.bytes render).length ≤ landed ∨ landed < 65536

def journal_after (acts : List FileAct) : List Line := acts.flatMap (FileAct.written render)

theorem journal_bytes_append (journal written : List Line) :
    journal_bytes render (journal ++ written) =
      journal_bytes render journal ++ journal_bytes render written :=
  List.flatMap_append

theorem step_journal_bytes (journal : List Line) {act : FileAct}
    (hwindow : act.WithinWindow render) : act.step render (journal_bytes render journal) =
      journal_bytes render (journal ++ act.written render) := by
  rw [journal_bytes_append]
  cases act with
  | append line =>
    change _ = _ ++ [line].flatMap _
    rw [List.flatMap_singleton]
    rfl
  | die line landed =>
    by_cases hlanded : (line.bytes render).length ≤ landed
    · have hended := ended_journal_bytes render (journal ++ [line])
      rw [journal_bytes_append, journal_bytes, journal_bytes, List.flatMap_singleton] at hended
      rw [FileAct.step, FileAct.written, if_pos hlanded, List.take_of_length_le hlanded, journal_bytes,
        journal_bytes, List.flatMap_singleton]
      have hrepaired := repair_append_torn hended List.not_mem_nil (Nat.zero_lt_succ 65535)
      rw [List.append_nil] at hrepaired
      exact hrepaired
    · have hstops : (line.bytes render).take landed ≠ line.bytes render := by
        intro hwhole
        exact hlanded (List.take_eq_self_iff _ |>.mp hwhole)
      have hshort : ((line.bytes render).take landed).length < 65536 :=
        lt_of_le_of_lt (List.length_take_le _ _) (hwindow.resolve_left hlanded)
      rw [FileAct.step, FileAct.written, if_neg hlanded]
      exact (repair_append_torn (ended_journal_bytes render journal)
        (newline_not_mem_part render (List.take_prefix _ _) hstops) hshort).trans
          (List.append_nil _).symm

theorem run_journal_bytes {acts : List FileAct}
    (hwindow : ∀ act ∈ acts, act.WithinWindow render) :
    acts.foldl (FileAct.step render) [] = journal_bytes render (journal_after render acts) := by
  induction acts using List.reverseRecOn with
  | nil => rfl
  | append_singleton acts act ih =>
    obtain ⟨hbefore, hact⟩ := List.forall_mem_append.mp hwindow
    have hafter : journal_after render (acts ++ [act]) =
        journal_after render acts ++ act.written render := by
      rw [journal_after, List.flatMap_append, List.flatMap_singleton]
      rfl
    rw [List.foldl_append, ih hbefore, hafter]
    exact step_journal_bytes render _ (hact act List.mem_cons_self)

theorem mem_journal_after {acts : List FileAct} {line : Line}
    (hline : line ∈ journal_after render acts) : ∃ act ∈ acts, act.line = line := by
  obtain ⟨act, hact, hwritten⟩ := List.mem_flatMap.mp hline
  refine ⟨act, hact, ?_⟩
  cases act with
  | append other => exact (List.mem_singleton.mp hwritten).symm
  | die other landed =>
    rw [FileAct.written] at hwritten
    split at hwritten
    · exact (List.mem_singleton.mp hwritten).symm
    · cases hwritten

variable (conversions : Conversions) (refuses : List Char → Bool)

-- However often the process dies within a line, the next one replays what was written in full.
theorem replay_after_deaths {acts : List FileAct}
    (hwindow : ∀ act ∈ acts, act.WithinWindow render)
    (hreads : ∀ act ∈ acts, refuses (act.line.payload render) = false) :
    replay_journal casefold conversions refuses (acts.foldl (FileAct.step render) []) =
      some ((replay casefold (journal_after render acts)).as_read render) := by
  rw [run_journal_bytes render hwindow, replay_journal_bytes, foldl_as_read]
  intro line hline
  obtain ⟨act, hact, rfl⟩ := mem_journal_after render hline
  exact hreads act hact

end Restoring

-- Records of which only the key is written.
def key_rendering : Rendering where
  members record := [("event_key", .str record.event_key)]
  printable record := by simp [Json.Printable, Json.PrintableMembers]
  keyed _ := rfl

def saved : Record where
  event_key := "a"
  source_root_id := "root"
  sequence := 1
  manifest_revision := 1
  relative_path := "a.md"
  content_sha256 := "sha256:0"
  size_bytes := 3
  generation := 1
  action := "created"

def saved_state : StateLine where
  root := "root"
  rel := "a.md"
  content_sha256 := some "sha256:0"
  generation := 1
  manifest_revision := 1
  sequence := 1

-- The process dies within the state line and writes it again, then dies within the acknowledgement.
def saved_acts : List FileAct :=
  [.append (.event saved), .die (.state saved_state) 40, .append (.state saved_state),
    .die (.ack "a") 5]

theorem replay_after_deaths_saved :
    (∀ act ∈ saved_acts, act.WithinWindow key_rendering) ∧
      replay_journal plain_casefold no_conversions (fun _ => false)
          (saved_acts.foldl (FileAct.step key_rendering) []) =
        some ((replay plain_casefold (journal_after key_rendering saved_acts)).as_read
          key_rendering) := by
  have hwindow : ∀ act ∈ saved_acts, act.WithinWindow key_rendering := by
    simp [saved_acts, FileAct.WithinWindow]
  exact ⟨hwindow, replay_after_deaths key_rendering plain_casefold no_conversions (fun _ => false)
    hwindow fun _ _ => rfl⟩

end KnowledgeCompiler.Desktop
