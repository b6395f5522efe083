import KnowledgeCompiler.Desktop.Journal
import KnowledgeCompiler.Lib.Json
import KnowledgeCompiler.Lib.Lines
import KnowledgeCompiler.Lib.Utf8

namespace KnowledgeCompiler.Desktop

open Lib

section Repair

def newline : UInt8 := 10

-- `chunk.rfind(b"\n")`
def rfind : List UInt8 → Option Nat
  | [] => none
  | byte :: rest =>
      match rfind rest with
      | some position => some (position + 1)
      | none => if byte = newline then some 0 else none

-- The file as the journal leaves it before it opens it to append.
def repair_partial_tail (content : List UInt8) : List UInt8 :=
  if content = [] then content
  else if content.getLast? = some newline then content
  else
    let window_start := content.length - 65536
    let keep :=
      match rfind (content.drop window_start) with
      | some last_newline => window_start + last_newline + 1
      | none => 0
    content.take keep

-- Nothing of a last line is left open.
def Ended (content : List UInt8) : Prop := content = [] ∨ content.getLast? = some newline

def LongestEnded (content kept : List UInt8) : Prop :=
  kept <+: content ∧ Ended kept ∧ ∀ other, other <+: content → Ended other → other <+: kept

-- The line that was not written to its end.
def torn (content : List UInt8) : List UInt8 := (content.reverse.takeWhile (· ≠ newline)).reverse

def complete (content : List UInt8) : List UInt8 :=
  (content.reverse.dropWhile (· ≠ newline)).reverse

theorem complete_append_torn (content : List UInt8) : complete content ++ torn content = content := by
  rw [complete, torn, ← List.reverse_append, List.takeWhile_append_dropWhile, List.reverse_reverse]

theorem newline_not_mem_torn (content : List UInt8) : newline ∉ torn content := by
  intro hmem
  have hne := List.mem_takeWhile_imp (List.mem_reverse.mp hmem)
  simp at hne

theorem ended_complete (content : List UInt8) : Ended (complete content) := by
  unfold Ended complete
  cases hrest : content.reverse.dropWhile (· ≠ newline) with
  | nil => exact .inl rfl
  | cons byte rest =>
      have hbyte := List.head?_dropWhile_not (· ≠ newline) content.reverse
      rw [hrest] at hbyte
      simp only [List.head?_cons, ne_eq, decide_not, Bool.not_eq_eq_eq_not, Bool.not_false,
        decide_eq_true_eq] at hbyte
      exact .inr (by simp [hbyte])

theorem longestEnded_complete (content : List UInt8) : LongestEnded content (complete content) := by
  refine ⟨⟨torn content, complete_append_torn content⟩, ended_complete content, ?_⟩
  intro other hother hended
  rcases hended with rfl | hlast
  · exact List.nil_prefix
  obtain ⟨after, hafter⟩ := hother
  rw [← complete_append_torn content] at hafter
  rcases List.append_eq_append_iff.mp hafter with ⟨more, hmore, -⟩ | ⟨more, hmore, htorn⟩
  · exact ⟨more, hmore.symm⟩
  · -- A line end after the complete part would stand in the torn one.
    cases more using List.reverseRecOn with
    | nil => exact ⟨[], by rw [hmore, List.append_nil, List.append_nil]⟩
    | append_singleton front byte =>
        rw [hmore, ← List.append_assoc, List.getLast?_concat] at hlast
        refine absurd ?_ (newline_not_mem_torn content)
        rw [htorn, Option.some.inj hlast]
        simp

theorem LongestEnded.unique {content first second : List UInt8}
    (hfirst : LongestEnded content first) (hsecond : LongestEnded content second) :
    first = second :=
  (hsecond.2.2 first hfirst.1 hfirst.2.1).eq_of_length_le
    (hfirst.2.2 second hsecond.1 hsecond.2.1).length_le

theorem newline_mem_of_complete {content : List UInt8} (hcomplete : complete content ≠ []) :
    ∃ front, complete content = front ++ [newline] := by
  rcases ended_complete content with hnil | hlast
  · exact absurd hnil hcomplete
  · obtain ⟨front, hfront⟩ := List.getLast?_eq_some_iff.mp hlast
    exact ⟨front, hfront⟩

theorem complete_eq_nil_iff (content : List UInt8) : complete content = [] ↔ newline ∉ content := by
  constructor
  · intro hnil hmem
    rw [← complete_append_torn content, hnil] at hmem
    exact newline_not_mem_torn content hmem
  · intro hmem
    by_contra hne
    obtain ⟨front, hfront⟩ := newline_mem_of_complete hne
    refine hmem ?_
    rw [← complete_append_torn content, hfront]
    simp

theorem rfind_eq_none {chunk : List UInt8} (hchunk : newline ∉ chunk) : rfind chunk = none := by
  induction chunk with
  | nil => rfl
  | cons byte rest ih =>
      obtain ⟨hbyte, hrest⟩ := not_or.mp (mt List.mem_cons.mpr hchunk)
      rw [rfind, ih hrest]
      exact if_neg (Ne.symm hbyte)

theorem rfind_last (before : List UInt8) {after : List UInt8} (hafter : newline ∉ after) :
    rfind (before ++ newline :: after) = some before.length := by
  induction before with
  | nil =>
      rw [List.nil_append, rfind, rfind_eq_none hafter]
      exact if_pos rfl
  | cons byte rest ih =>
      rw [List.cons_append, rfind, ih]
      rfl

theorem repair_of_ended {content : List UInt8} (hlast : content.getLast? = some newline) :
    repair_partial_tail content = content := by
  rw [repair_partial_tail, if_pos hlast, ite_self]

theorem repair_of_found {content : List UInt8} {last_newline : Nat}
    (hlast : content.getLast? ≠ some newline)
    (hfound : rfind (content.drop (content.length - 65536)) = some last_newline) :
    repair_partial_tail content = content.take (content.length - 65536 + last_newline + 1) := by
  have hne : content ≠ [] := by
    rintro rfl
    cases hfound
  simp only [repair_partial_tail, if_neg hne, if_neg hlast, hfound]

theorem repair_of_not_found {content : List UInt8} (hlast : content.getLast? ≠ some newline)
    (hnone : rfind (content.drop (content.length - 65536)) = none) :
    repair_partial_tail content = [] := by
  by_cases hne : content = []
  · rw [repair_partial_tail, if_pos hne, hne]
  · simp only [repair_partial_tail, if_neg hne, if_neg hlast, hnone, List.take_zero]

theorem torn_of_ended {content : List UInt8} (hlast : content.getLast? = some newline) :
    torn content = [] := by
  obtain ⟨before, rfl⟩ := List.getLast?_eq_some_iff.mp hlast
  simp [torn]

-- The last line end lies in the window, or there is none.
theorem repair_of_short {content : List UInt8}
    (hshort : newline ∉ content ∨ (torn content).length < 65536) :
    repair_partial_tail content = complete content := by
  have hsplit := complete_append_torn content
  by_cases hlast : content.getLast? = some newline
  · rw [repair_of_ended hlast]
    rw [torn_of_ended hlast, List.append_nil] at hsplit
    exact hsplit.symm
  by_cases hmem : newline ∈ content
  · have htorn := hshort.resolve_left (not_not.mpr hmem)
    have hne := mt (complete_eq_nil_iff content).mp (not_not.mpr hmem)
    obtain ⟨front, hfront⟩ := newline_mem_of_complete hne
    have hwhole : content = front ++ newline :: torn content := by
      rw [List.append_cons, ← hfront, hsplit]
    have hlength := congrArg List.length hwhole
    rw [List.length_append, List.length_cons] at hlength
    have hwindow : content.length - 65536 ≤ front.length := by omega
    have hchunk : content.drop (content.length - 65536) =
        front.drop (content.length - 65536) ++ newline :: torn content := by
      rw [← List.drop_append_of_le_length hwindow, ← hwhole]
    have hfound := rfind_last (front.drop (content.length - 65536)) (newline_not_mem_torn content)
    rw [← hchunk, List.length_drop] at hfound
    rw [repair_of_found hlast hfound, Nat.add_sub_cancel' hwindow, hfront]
    calc content.take (front.length + 1)
        = (front ++ [newline] ++ torn content).take (front ++ [newline]).length := by
          rw [← hfront, hsplit, hfront, List.length_append, List.length_singleton]
      _ = front ++ [newline] := List.take_left
  · have hnone := rfind_eq_none (fun h => hmem (List.mem_of_mem_drop h) :
      newline ∉ content.drop (content.length - 65536))
    rw [repair_of_not_found hlast hnone, (complete_eq_nil_iff content).mpr hmem]

-- The window begins within the torn line: nothing is kept.
theorem repair_of_long {content : List UInt8} (hlong : 65536 ≤ (torn content).length) :
    repair_partial_tail content = [] := by
  have hsplit := complete_append_torn content
  have hlength := congrArg List.length hsplit
  rw [List.length_append] at hlength
  have hlast : content.getLast? ≠ some newline := by
    intro hlast
    rw [torn_of_ended hlast] at hlong
    simp at hlong
  refine repair_of_not_found hlast (rfind_eq_none (fun hmem => newline_not_mem_torn content ?_))
  have hwindow : (complete content).length ≤ content.length - 65536 := by omega
  have hchunk : content.drop (content.length - 65536) =
      (torn content).drop (content.length - 65536 - (complete content).length) := by
    conv_lhs => arg 2; rw [← hsplit]
    rw [List.drop_append, List.drop_of_length_le hwindow, List.nil_append]
  rw [hchunk] at hmem
  exact List.mem_of_mem_drop hmem

-- The lines of a file that end, each with its end and the line under way in front.
def written_lines (line : List UInt8) : List UInt8 → List (List UInt8)
  | [] => []
  | byte :: rest =>
      if byte = newline then (line ++ [byte]) :: written_lines [] rest
      else written_lines (line ++ [byte]) rest

theorem written_lines_torn {after : List UInt8} (hafter : newline ∉ after) (line : List UInt8) :
    written_lines line after = [] := by
  induction after generalizing line with
  | nil => rfl
  | cons byte rest ih =>
      obtain ⟨hbyte, hrest⟩ := not_or.mp (mt List.mem_cons.mpr hafter)
      rw [written_lines, if_neg (Ne.symm hbyte), ih hrest]

theorem written_lines_append {front : List UInt8} (hfront : front.getLast? = some newline)
    (line after : List UInt8) :
    written_lines line (front ++ after) = written_lines line front ++ written_lines [] after := by
  induction front generalizing line with
  | nil => cases hfront
  | cons byte rest ih =>
      rw [List.cons_append, written_lines, written_lines]
      by_cases hrest : rest = []
      · subst hrest
        have hbyte : byte = newline := by simpa using hfront
        rw [if_pos hbyte, if_pos hbyte]
        rfl
      · rw [List.getLast?_cons_of_ne_nil hrest] at hfront
        rw [ih hfront, ih hfront]
        split
        · rfl
        · rfl

theorem flatten_written_lines {content : List UInt8} (hended : content.getLast? = some newline)
    (line : List UInt8) : (written_lines line content).flatten = line ++ content := by
  induction content generalizing line with
  | nil => cases hended
  | cons byte rest ih =>
      rw [written_lines]
      by_cases hrest : rest = []
      · subst hrest
        have hbyte : byte = newline := by simpa using hended
        rw [if_pos hbyte]
        simp [written_lines]
      · rw [List.getLast?_cons_of_ne_nil hrest] at hended
        split
        · rw [List.flatten_cons, ih hended]
          simp
        · rw [ih hended]
          simp

theorem written_lines_ended (line content : List UInt8) :
    ∀ written ∈ written_lines line content, ∃ before, written = before ++ [newline] := by
  induction content generalizing line with
  | nil => simp [written_lines]
  | cons byte rest ih =>
      rw [written_lines]
      split
      · rename_i hbyte
        intro written hwritten
        rcases List.mem_cons.mp hwritten with rfl | hlater
        · exact ⟨line, by rw [hbyte]⟩
        · exact ih [] written hlater
      · exact ih (line ++ [byte])

theorem written_lines_complete (content : List UInt8) :
    written_lines [] (complete content) = written_lines [] content := by
  rcases ended_complete content with hnil | hlast
  · rw [hnil]
    rw [complete_eq_nil_iff] at hnil
    rw [written_lines_torn hnil, written_lines]
  · conv_rhs => rw [← complete_append_torn content]
    rw [written_lines_append hlast, written_lines_torn (newline_not_mem_torn content),
      List.append_nil]

theorem flatten_written_lines_complete (content : List UInt8) :
    (written_lines [] content).flatten = complete content := by
  rw [← written_lines_complete]
  rcases ended_complete content with hnil | hlast
  · rw [hnil]
    rfl
  · exact flatten_written_lines hlast []

end Repair

section Files

-- `int` of a text and of a number with a fraction or an exponent, where it does not raise.
structure Conversions where
  text_int : String → Option Int
  float_int : List Char → Option Int

def Conversions.int (conversions : Conversions) : Json → Option Int
  | .null | .arr _ | .obj _ => none
  | .bool value => some (if value then 1 else 0)
  | .int value => some value
  | .float lexeme => conversions.float_int lexeme
  | .str text => conversions.text_int text

structure FileEntry where
  content_sha256 : Json
  generation : Int

structure FileReplay where
  unprocessed : Dict String (List (String × Json))
  dedup : Dict (String × String) FileEntry
  manifest_revision : Int
  sequence : Int
  skipped_lines : Nat

def FileReplay.start : FileReplay where
  unprocessed := .empty
  dedup := .empty
  manifest_revision := 0
  sequence := 0
  skipped_lines := 0

def FileReplay.skip (result : FileReplay) : FileReplay :=
  { result with skipped_lines := result.skipped_lines + 1 }

variable (casefold : Casefold) (conversions : Conversions)

def replay_state (result : FileReplay) (members : List (String × Json)) (root rel : String) :
    Option FileReplay := do
  let generation ← conversions.int ((Json.get? members "generation").getD (.int 0))
  let manifest_revision ← conversions.int ((Json.get? members "manifest_revision").getD (.int 0))
  let sequence ← conversions.int ((Json.get? members "sequence").getD (.int 0))
  let entry := ⟨(Json.get? members "content_sha256").getD .null, generation⟩
  return { result with
    dedup := result.dedup.set (casefold.fold root, casefold.fold rel) entry
    manifest_revision := max result.manifest_revision manifest_revision
    sequence := max result.sequence sequence }

-- The loop's body for one line, or none where it raises.
def replay_text_line (result : FileReplay) (line : List Char) : Option FileReplay :=
  match Json.loads line with
  | some (.obj members) =>
      match Json.get? members "kind" with
      | some (.str "event") =>
          match Json.get? members "event_key", Json.get? members "record" with
          | some (.str key), some (.obj record) =>
              some { result with unprocessed := result.unprocessed.set key record }
          | _, _ => some result.skip
      | some (.str "ack") =>
          match Json.get? members "event_key" with
          | some (.str key) => some { result with unprocessed := result.unprocessed.erase key }
          | _ => some result.skip
      | some (.str "state") =>
          match Json.get? members "root", Json.get? members "rel" with
          | some (.str root), some (.str rel) =>
              replay_state casefold conversions result members root rel
          | _, _ => some result.skip
      | _ => some result.skip
  | _ => some result.skip

-- `_iter_lines`
def iter_lines (text : List Char) : List (List Char) :=
  ((Text.lines (Text.universalNewlines text)).map Text.strip).filter (· ≠ [])

def replay_text (result : FileReplay) (content : List UInt8) : Option FileReplay :=
  (Utf8.decode content.toByteArray).bind fun text =>
    (iter_lines text).foldlM (replay_text_line casefold conversions) result

def replay_file (content : List UInt8) : Option FileReplay :=
  replay_text casefold conversions .start content

def replay_lines (lines : List (List UInt8)) : Option FileReplay :=
  lines.foldlM (replay_text casefold conversions) .start

theorem iter_lines_append (line rest : List Char) :
    iter_lines (line ++ '\n' :: rest) = iter_lines (line ++ ['\n']) ++ iter_lines rest := by
  obtain ⟨before, hbefore⟩ := Text.exists_universalNewlines_line line
  have hline := hbefore []
  rw [Text.universalNewlines] at hline
  have hended : Text.EndsLine (before ++ ['\n']) := .inr List.getLast?_concat
  rw [iter_lines, hbefore rest, List.append_cons, Text.lines_append hended, List.map_append,
    List.filter_append]
  conv_rhs => rw [iter_lines, hline]
  rfl

theorem decode_newline (before after : List UInt8) :
    (before ++ newline :: after).toByteArray =
      before.toByteArray ++ Utf8.encode ['\n'] ++ after.toByteArray := by
  have hnewline : Utf8.encode ['\n'] = [newline].toByteArray := by decide
  rw [hnewline, ← List.toByteArray_append, ← List.toByteArray_append]
  simp

-- The lines of a text file, one step of a loop for each.
def fold_text {σ : Type} (step : σ → List Char → Option σ) (state : σ) (content : List UInt8) :
    Option σ :=
  (Utf8.decode content.toByteArray).bind fun text => (iter_lines text).foldlM step state

theorem fold_text_append {σ : Type} (step : σ → List Char → Option σ) (state : σ)
    (before after : List UInt8) : fold_text step state (before ++ newline :: after) =
      (fold_text step state (before ++ [newline])).bind fun next => fold_text step next after := by
  have hended := decode_newline before []
  rw [List.toByteArray_nil, ByteArray.append_empty] at hended
  simp only [fold_text, decode_newline before after, hended]
  cases hbefore : Utf8.decode before.toByteArray with
  | none =>
      have hneither : ∀ more : ByteArray,
          Utf8.decode (before.toByteArray ++ Utf8.encode ['\n'] ++ more) = none := by
        intro more
        by_contra hsome
        obtain ⟨text, htext⟩ := Option.ne_none_iff_exists'.mp hsome
        obtain ⟨line, rest, hline, -, -⟩ := Utf8.decode_line htext
        rw [hbefore] at hline
        cases hline
      have hend := hneither .empty
      rw [ByteArray.append_empty] at hend
      rw [hneither, hend]
      rfl
  | some line =>
      have hline := Utf8.encode_of_decode hbefore
      rw [← hline, ← Utf8.encode_append, Utf8.decode_encode]
      cases hafter : Utf8.decode after.toByteArray with
      | none =>
          have hwhole : Utf8.decode (Utf8.encode (line ++ ['\n']) ++ after.toByteArray) = none := by
            by_contra hsome
            obtain ⟨text, htext⟩ := Option.ne_none_iff_exists'.mp hsome
            rw [Utf8.encode_append] at htext
            obtain ⟨_, rest, -, hrest, -⟩ := Utf8.decode_line htext
            rw [hafter] at hrest
            cases hrest
          rw [hwhole]
          exact (Option.bind_fun_none _).symm
      | some rest =>
          have hrest := Utf8.encode_of_decode hafter
          rw [← hrest, ← Utf8.encode_append, Utf8.decode_encode, Option.bind_some, Option.bind_some,
            List.append_assoc, List.singleton_append, iter_lines_append, List.foldlM_append]
          rfl

theorem fold_text_nil {σ : Type} (step : σ → List Char → Option σ) (state : σ) :
    fold_text step state [] = some state := by
  have hempty : Utf8.decode ([] : List UInt8).toByteArray = some [] := Utf8.decode_encode []
  rw [fold_text, hempty]
  rfl

-- Lines that end are read one by one.
theorem fold_text_flatten {σ : Type} (step : σ → List Char → Option σ) (state : σ)
    {lines : List (List UInt8)} (hlines : ∀ line ∈ lines, ∃ before, line = before ++ [newline]) :
    fold_text step state lines.flatten = lines.foldlM (fold_text step) state := by
  induction lines generalizing state with
  | nil => exact fold_text_nil step state
  | cons line rest ih =>
      obtain ⟨before, rfl⟩ := hlines line List.mem_cons_self
      rw [List.flatten_cons, List.append_assoc, List.singleton_append, fold_text_append,
        List.foldlM_cons]
      exact Option.bind_congr fun next _ =>
        ih next (fun other hother => hlines other (List.mem_cons_of_mem _ hother))

theorem replay_text_nil (result : FileReplay) :
    replay_text casefold conversions result [] = some result :=
  fold_text_nil (replay_text_line casefold conversions) result

theorem replay_text_flatten (result : FileReplay) {lines : List (List UInt8)}
    (hlines : ∀ line ∈ lines, ∃ before, line = before ++ [newline]) :
    replay_text casefold conversions result lines.flatten =
      lines.foldlM (replay_text casefold conversions) result :=
  fold_text_flatten (replay_text_line casefold conversions) result hlines

theorem replay_file_complete (content : List UInt8) :
    replay_file casefold conversions (complete content) =
      replay_lines casefold conversions (written_lines [] content) := by
  rw [← flatten_written_lines_complete]
  exact replay_text_flatten casefold conversions .start (written_lines_ended [] content)

-- A torn line as long as the window takes the whole journal with it.
theorem repair_keeps_lines_iff (content : List UInt8) :
    (LongestEnded content (repair_partial_tail content) ∧
      replay_file casefold conversions (repair_partial_tail content) =
        replay_lines casefold conversions (written_lines [] content) ∧
      written_lines [] (repair_partial_tail content) = written_lines [] content) ↔
      (newline ∉ content ∨ (torn content).length < 65536) := by
  constructor
  · rintro ⟨hlongest, -, -⟩
    by_contra hneither
    obtain ⟨hmem, hlong⟩ := not_or.mp hneither
    have hnil := repair_of_long (not_lt.mp hlong)
    rw [hlongest.unique (longestEnded_complete content), complete_eq_nil_iff] at hnil
    exact hmem hnil
  · intro hshort
    rw [repair_of_short hshort]
    exact ⟨longestEnded_complete content, replay_file_complete casefold conversions content,
      written_lines_complete content⟩

end Files

section Tolerance

variable (casefold : Casefold) (conversions : Conversions)

-- Where `json.loads` raises no `JSONDecodeError` but something else: too many digits in a number,
-- or too many brackets inside each other.
variable (refuses : List Char → Bool)

def replay_journal_line (result : FileReplay) (line : List Char) : Option FileReplay :=
  if refuses line then none else replay_text_line casefold conversions result line

-- `Journal.replay`, none where it raises
def replay_journal (content : List UInt8) : Option FileReplay :=
  fold_text (replay_journal_line casefold conversions refuses) .start content

-- What a line says.
inductive JournalLine
  | event (key : String) (record : List (String × Json))
  | ack (key : String)
  | state (place : String × String) (entry : FileEntry) (manifest_revision sequence : Int)
  | corrupt

def JournalLine.is_corrupt : JournalLine → Bool
  | corrupt => true
  | _ => false

def JournalLine.is_ack (line : JournalLine) (key : String) : Bool :=
  match line with
  | ack other => other = key
  | _ => false

section Readings

variable (key other : String) (record : List (String × Json)) (place : String × String)
  (entry : FileEntry) (manifest_revision sequence : Int)

@[simp] theorem is_ack_event : (JournalLine.event other record).is_ack key = false := rfl

@[simp] theorem is_ack_ack : (JournalLine.ack other).is_ack key = decide (other = key) := rfl

@[simp] theorem is_ack_state :
    (JournalLine.state place entry manifest_revision sequence).is_ack key = false := rfl

@[simp] theorem is_ack_corrupt : JournalLine.corrupt.is_ack key = false := rfl

end Readings

def state_numbers (members : List (String × Json)) : Option (Int × Int × Int) := do
  let generation ← conversions.int ((Json.get? members "generation").getD (.int 0))
  let manifest_revision ← conversions.int ((Json.get? members "manifest_revision").getD (.int 0))
  let sequence ← conversions.int ((Json.get? members "sequence").getD (.int 0))
  return (generation, manifest_revision, sequence)

def interpret_state (members : List (String × Json)) (root rel : String) : JournalLine :=
  match state_numbers conversions members with
  | some (generation, manifest_revision, sequence) =>
      .state (casefold.fold root, casefold.fold rel)
        ⟨(Json.get? members "content_sha256").getD .null, generation⟩ manifest_revision sequence
  | none => .corrupt

inductive Shape
  | event (key : String) (record : List (String × Json))
  | ack (key : String)
  | state (members : List (String × Json)) (root rel : String)
  | other

-- The kind of a line with the members it must have.
def shape (line : List Char) : Shape :=
  match Json.loads line with
  | some (.obj members) =>
      match Json.get? members "kind" with
      | some (.str "event") =>
          match Json.get? members "event_key", Json.get? members "record" with
          | some (.str key), some (.obj record) => .event key record
          | _, _ => .other
      | some (.str "ack") =>
          match Json.get? members "event_key" with
          | some (.str key) => .ack key
          | _ => .other
      | some (.str "state") =>
          match Json.get? members "root", Json.get? members "rel" with
          | some (.str root), some (.str rel) => .state members root rel
          | _, _ => .other
      | _ => .other
  | _ => .other

def interpret (line : List Char) : JournalLine :=
  if refuses line then .corrupt
  else
    match shape line with
    | .event key record => .event key record
    | .ack key => .ack key
    | .state members root rel => interpret_state casefold conversions members root rel
    | .other => .corrupt

-- A state of a file with a number that `int` does not take.
def unconvertible (line : List Char) : Bool :=
  match shape line with
  | .state members _ _ => (state_numbers conversions members).isNone
  | _ => false

-- The lines of text that a line of bytes holds; one that is no UTF-8 is corrupt.
def read_line (line : List UInt8) : List JournalLine :=
  match Utf8.decode (line ++ [newline]).toByteArray with
  | some text => (iter_lines text).map (interpret casefold conversions refuses)
  | none => [.corrupt]

-- The events that no later line acknowledges.
def unacknowledged : List JournalLine → List (String × List (String × Json))
  | [] => []
  | .event key record :: rest =>
      if rest.any fun line => line.is_ack key then unacknowledged rest
      else (key, record) :: unacknowledged rest
  | _ :: rest => unacknowledged rest

def JournalLine.place? : JournalLine → Option ((String × String) × FileEntry)
  | state place entry _ _ => some (place, entry)
  | _ => none

def JournalLine.counters : JournalLine → Option (Int × Int)
  | state _ _ manifest_revision sequence => some (manifest_revision, sequence)
  | _ => none

-- What the lines of a journal come to: a dictionary is in the order in which its keys appear
-- first, with the last value of each.
structure Folded (lines : List JournalLine) (result : FileReplay) : Prop where
  unprocessed : result.unprocessed = Dict.ofPairs (unacknowledged lines)
  dedup : result.dedup = Dict.ofPairs (lines.filterMap JournalLine.place?)
  manifest_revision : result.manifest_revision =
    ((lines.filterMap JournalLine.counters).map Prod.fst).foldl max 0
  sequence : result.sequence = ((lines.filterMap JournalLine.counters).map Prod.snd).foldl max 0
  skipped_lines : result.skipped_lines = lines.countP JournalLine.is_corrupt

-- One line, taken into the result.
def absorb (result : FileReplay) : JournalLine → FileReplay
  | .event key record => { result with unprocessed := result.unprocessed.set key record }
  | .ack key => { result with unprocessed := result.unprocessed.erase key }
  | .state place entry manifest_revision sequence =>
      { result with
        dedup := result.dedup.set place entry
        manifest_revision := max result.manifest_revision manifest_revision
        sequence := max result.sequence sequence }
  | .corrupt => result.skip

section Folding

theorem unacknowledged_append_event (lines : List JournalLine) (key : String)
    (record : List (String × Json)) :
    unacknowledged (lines ++ [JournalLine.event key record]) =
      unacknowledged lines ++ [(key, record)] := by
  induction lines with
  | nil => rfl
  | cons line rest ih =>
    cases line with
    | event other known =>
      rw [List.cons_append, unacknowledged, unacknowledged, ih, List.any_append]
      simp only [List.any_cons, List.any_nil, is_ack_event, Bool.or_false]
      split <;> rfl
    | ack | state | corrupt => exact ih

theorem unacknowledged_append_ack (lines : List JournalLine) (key : String) :
    unacknowledged (lines ++ [JournalLine.ack key]) =
      (unacknowledged lines).filter fun pair => pair.1 ≠ key := by
  induction lines with
  | nil => rfl
  | cons line rest ih =>
    cases line with
    | event other known =>
      rw [List.cons_append, unacknowledged, unacknowledged, ih, List.any_append]
      simp only [List.any_cons, List.any_nil, is_ack_ack, Bool.or_false]
      cases hany : rest.any fun line => line.is_ack other with
      | true => simp
      | false =>
        by_cases heq : other = key
        · simp [heq]
        · simp [heq, Ne.symm heq]
    | ack | state | corrupt => exact ih

theorem unacknowledged_append_other (lines : List JournalLine) {line : JournalLine}
    (hevent : unacknowledged [line] = []) (hack : ∀ key, line.is_ack key = false) :
    unacknowledged (lines ++ [line]) = unacknowledged lines := by
  induction lines with
  | nil => exact hevent
  | cons first rest ih =>
    cases first with
    | event other known =>
      rw [List.cons_append, unacknowledged, unacknowledged, ih, List.any_append]
      simp only [List.any_cons, List.any_nil, hack, Bool.or_false]
    | ack | state | corrupt => exact ih

-- A line that is no state leaves the places and the counters.
theorem folded_of_other {lines : List JournalLine} {line : JournalLine} {result next : FileReplay}
    (hfolded : Folded lines result) (hplace : line.place? = none) (hcounters : line.counters = none)
    (hunprocessed : next.unprocessed = Dict.ofPairs (unacknowledged (lines ++ [line])))
    (hskipped : next.skipped_lines = (lines ++ [line]).countP JournalLine.is_corrupt)
    (hdedup : next.dedup = result.dedup) (hrevision : next.manifest_revision = result.manifest_revision)
    (hsequence : next.sequence = result.sequence) : Folded (lines ++ [line]) next where
  unprocessed := hunprocessed
  skipped_lines := hskipped
  dedup := by
    rw [hdedup, hfolded.dedup, List.filterMap_append, List.filterMap_cons_none hplace,
      List.filterMap_nil, List.append_nil]
  manifest_revision := by
    rw [hrevision, hfolded.manifest_revision, List.filterMap_append,
      List.filterMap_cons_none hcounters, List.filterMap_nil, List.append_nil]
  sequence := by
    rw [hsequence, hfolded.sequence, List.filterMap_append, List.filterMap_cons_none hcounters,
      List.filterMap_nil, List.append_nil]

theorem countP_append_sound {lines : List JournalLine} {line : JournalLine}
    (hline : line.is_corrupt = false) :
    (lines ++ [line]).countP JournalLine.is_corrupt = lines.countP JournalLine.is_corrupt := by
  rw [List.countP_append, List.countP_singleton, hline]
  simp

theorem folded_step {lines : List JournalLine} {result : FileReplay} (hfolded : Folded lines result)
    (line : JournalLine) : Folded (lines ++ [line]) (absorb result line) := by
  cases line with
  | event key record =>
    refine folded_of_other hfolded rfl rfl ?_ ?_ rfl rfl rfl
    · rw [unacknowledged_append_event, Dict.ofPairs_append_singleton, ← hfolded.unprocessed]
      rfl
    · exact hfolded.skipped_lines.trans (countP_append_sound rfl).symm
  | ack key =>
    refine folded_of_other hfolded rfl rfl ?_ ?_ rfl rfl rfl
    · rw [unacknowledged_append_ack, Dict.ofPairs_filter_ne, ← hfolded.unprocessed]
      rfl
    · exact hfolded.skipped_lines.trans (countP_append_sound rfl).symm
  | corrupt =>
    refine folded_of_other hfolded rfl rfl ?_ ?_ rfl rfl rfl
    · rw [unacknowledged_append_other lines rfl fun _ => rfl]
      exact hfolded.unprocessed
    · have hcount := hfolded.skipped_lines
      rw [List.countP_append, ← hcount]
      rfl
  | state place entry manifest_revision sequence =>
    have hplaces : (lines ++ [JournalLine.state place entry manifest_revision sequence]).filterMap
        JournalLine.place? = lines.filterMap JournalLine.place? ++ [(place, entry)] :=
      List.filterMap_append
    have hcounters : (lines ++ [JournalLine.state place entry manifest_revision sequence]).filterMap
        JournalLine.counters = lines.filterMap JournalLine.counters ++ [(manifest_revision, sequence)] :=
      List.filterMap_append
    refine ⟨?_, ?_, ?_, ?_, ?_⟩
    · rw [unacknowledged_append_other lines rfl fun _ => rfl]
      exact hfolded.unprocessed
    · rw [hplaces, Dict.ofPairs_append_singleton, ← hfolded.dedup]
      rfl
    · rw [hcounters, List.map_append, List.foldl_append, ← hfolded.manifest_revision]
      rfl
    · rw [hcounters, List.map_append, List.foldl_append, ← hfolded.sequence]
      rfl
    · exact hfolded.skipped_lines.trans (countP_append_sound rfl).symm

theorem folded_run (lines : List JournalLine) : Folded lines (lines.foldl absorb .start) := by
  induction lines using List.reverseRecOn with
  | nil => exact ⟨rfl, rfl, rfl, rfl, rfl⟩
  | append_singleton lines line ih =>
    rw [List.foldl_append]
    exact folded_step ih line

end Folding

section Reading

variable {casefold} {conversions} {refuses}

theorem replay_state_eq (result : FileReplay) (members : List (String × Json)) (root rel : String) :
    replay_state casefold conversions result members root rel =
      if (state_numbers conversions members).isNone then none
      else some (absorb result (interpret_state casefold conversions members root rel)) := by
  unfold replay_state interpret_state state_numbers
  cases conversions.int ((Json.get? members "generation").getD (.int 0)) with
  | none => rfl
  | some generation =>
    cases conversions.int ((Json.get? members "manifest_revision").getD (.int 0)) with
    | none => rfl
    | some manifest_revision =>
      cases conversions.int ((Json.get? members "sequence").getD (.int 0)) with
      | none => rfl
      | some sequence => rfl

theorem replay_text_line_eq (result : FileReplay) (line : List Char) :
    replay_text_line casefold conversions result line =
      match shape line with
      | .event key record => some { result with unprocessed := result.unprocessed.set key record }
      | .ack key => some { result with unprocessed := result.unprocessed.erase key }
      | .state members root rel => replay_state casefold conversions result members root rel
      | .other => some result.skip := by
  unfold replay_text_line shape
  split
  · split
    · split <;> rfl
    · split <;> rfl
    · split <;> rfl
    · rfl
  · rfl

-- A line that raises nothing is taken in as what it says.
theorem replay_journal_line_eq (result : FileReplay) (line : List Char) :
    replay_journal_line casefold conversions refuses result line =
      if refuses line || unconvertible conversions line then none
      else some (absorb result (interpret casefold conversions refuses line)) := by
  unfold replay_journal_line interpret unconvertible
  cases refuses line with
  | true => rfl
  | false =>
    simp only [Bool.false_or, Bool.false_eq_true, if_false]
    rw [replay_text_line_eq]
    cases shape line with
    | event key record => rfl
    | ack key => rfl
    | state members root rel => exact replay_state_eq result members root rel
    | other => rfl

def raises (conversions : Conversions) (refuses : List Char → Bool) (line : List Char) : Bool :=
  refuses line || unconvertible conversions line

theorem foldlM_lines (result : FileReplay) (written : List (List Char)) :
    written.foldlM (replay_journal_line casefold conversions refuses) result =
      if written.any (raises conversions refuses) then none
      else some ((written.map (interpret casefold conversions refuses)).foldl absorb result) := by
  induction written generalizing result with
  | nil => rfl
  | cons line rest ih =>
    rw [List.foldlM_cons, replay_journal_line_eq, List.any_cons, List.map_cons, List.foldl_cons]
    cases hraises : raises conversions refuses line with
    | true =>
      change (refuses line || unconvertible conversions line) = true at hraises
      rw [if_pos hraises]
      rfl
    | false =>
      change (refuses line || unconvertible conversions line) = false at hraises
      rw [if_neg (Bool.eq_false_iff.mp hraises), Bool.false_or]
      exact ih _

variable (casefold) (conversions) (refuses)

-- No line of the text raises anything.
def Readable (conversions : Conversions) (refuses : List Char → Bool) (line : List UInt8) : Prop :=
  ∃ text, Utf8.decode (line ++ [newline]).toByteArray = some text ∧
    ∀ written ∈ iter_lines text, refuses written = false ∧ unconvertible conversions written = false

theorem fold_text_line (result : FileReplay) (line : List UInt8) :
    (Readable conversions refuses line ∧
      fold_text (replay_journal_line casefold conversions refuses) result (line ++ [newline]) =
        some ((read_line casefold conversions refuses line).foldl absorb result)) ∨
    (¬Readable conversions refuses line ∧
      fold_text (replay_journal_line casefold conversions refuses) result (line ++ [newline]) = none) := by
  unfold fold_text read_line Readable
  cases hdecode : Utf8.decode (line ++ [newline]).toByteArray with
  | none =>
    refine .inr ⟨?_, rfl⟩
    rintro ⟨_, htext, -⟩
    cases htext
  | some text =>
    dsimp only [Option.bind_some]
    rw [foldlM_lines]
    by_cases hany : (iter_lines text).any (raises conversions refuses) = true
    · refine .inr ⟨?_, if_pos hany⟩
      rintro ⟨_, htext, hreadable⟩
      obtain rfl := Option.some.inj htext
      obtain ⟨written, hwritten, hraises⟩ := List.any_eq_true.mp hany
      obtain ⟨hrefuses, hconverts⟩ := hreadable written hwritten
      rw [raises, hrefuses, hconverts] at hraises
      cases hraises
    · refine .inl ⟨⟨text, rfl, fun written hwritten => ?_⟩, if_neg hany⟩
      have hnot : raises conversions refuses written = false :=
        Bool.eq_false_iff.mpr fun hraises => hany (List.any_eq_true.mpr ⟨written, hwritten, hraises⟩)
      exact Bool.or_eq_false_iff.mp hnot

theorem foldlM_readable (lines : List (List UInt8)) (result : FileReplay) :
    ((∀ line ∈ lines, Readable conversions refuses line) ∧
      (lines.map (· ++ [newline])).foldlM
          (fold_text (replay_journal_line casefold conversions refuses)) result =
        some ((lines.flatMap (read_line casefold conversions refuses)).foldl absorb result)) ∨
    ((∃ line ∈ lines, ¬Readable conversions refuses line) ∧
      (lines.map (· ++ [newline])).foldlM
          (fold_text (replay_journal_line casefold conversions refuses)) result = none) := by
  induction lines generalizing result with
  | nil => exact .inl ⟨fun _ hline => absurd hline List.not_mem_nil, rfl⟩
  | cons line rest ih =>
    rw [List.map_cons, List.foldlM_cons, List.flatMap_cons, List.foldl_append]
    rcases fold_text_line casefold conversions refuses result line with
      ⟨hline, hstep⟩ | ⟨hline, hstep⟩
    · rw [hstep]
      rcases ih ((read_line casefold conversions refuses line).foldl absorb result) with
        ⟨hrest, hrun⟩ | ⟨⟨other, hother, hbad⟩, hrun⟩
      · exact .inl ⟨List.forall_mem_cons.mpr ⟨hline, hrest⟩, hrun⟩
      · exact .inr ⟨⟨other, List.mem_cons_of_mem _ hother, hbad⟩, hrun⟩
    · rw [hstep]
      exact .inr ⟨⟨line, List.mem_cons_self, hline⟩, rfl⟩

end Reading

-- The journal of these lines is replayed into what they say, and the corrupt ones are counted.
def Tolerates (lines : List (List UInt8)) : Prop :=
  ∃ result, replay_journal casefold conversions refuses (lines.flatMap (· ++ [newline])) =
      some result ∧
    Folded (lines.flatMap (read_line casefold conversions refuses)) result

theorem replay_tolerates_iff (lines : List (List UInt8)) :
    Tolerates casefold conversions refuses lines ↔
      ∀ line ∈ lines, Readable conversions refuses line := by
  have hflatten : replay_journal casefold conversions refuses (lines.flatMap (· ++ [newline])) =
      (lines.map (· ++ [newline])).foldlM
        (fold_text (replay_journal_line casefold conversions refuses)) .start := by
    refine fold_text_flatten _ _ fun line hline => ?_
    obtain ⟨before, -, rfl⟩ := List.mem_map.mp hline
    exact ⟨before, rfl⟩
  unfold Tolerates
  rw [hflatten]
  rcases foldlM_readable casefold conversions refuses lines .start with ⟨hreadable, hrun⟩ |
    ⟨⟨line, hline, hbad⟩, hrun⟩
  · refine ⟨fun _ => hreadable, fun _ => ⟨_, hrun, folded_run _⟩⟩
  · refine ⟨fun ⟨_, hresult, _⟩ => ?_, fun hreadable => absurd (hreadable line hline) hbad⟩
    rw [hrun] at hresult
    cases hresult

end Tolerance

section Samples

theorem torn_append (front : List UInt8) {after : List UInt8} (hafter : newline ∉ after) :
    torn (front ++ newline :: after) = after := by
  have hreverse : ∀ byte ∈ after.reverse, decide (byte ≠ newline) = true := by
    intro byte hbyte
    rw [decide_eq_true_eq]
    rintro rfl
    exact hafter (List.mem_reverse.mp hbyte)
  rw [torn, List.reverse_append, List.reverse_cons, List.append_assoc,
    List.takeWhile_append_of_pos hreverse]
  simp

def event_line : List Char :=
  "\x7b\"event_key\": \"a\", \"kind\": \"event\", \"record\": \x7b\x7d\x7d".toList

-- The start of a line with a long event key.
def long_torn : List UInt8 :=
  "\x7b\"event_key\": \"".toList.map (fun c => UInt8.ofNat c.toNat) ++ List.replicate 65536 97

def long_torn_journal : List UInt8 :=
  event_line.map (fun c => UInt8.ofNat c.toNat) ++ newline :: long_torn

theorem fold_plain (text : String) : id (id text) = id text := rfl

theorem fold_plain_uuid (text : String) (_ : is_uuid36 text = true) : id text = text := rfl

def plain_casefold : Casefold where
  fold := id
  fold_fold := fold_plain
  fold_uuid36 := fold_plain_uuid

def no_conversions : Conversions where
  text_int _ := none
  float_int _ := none

def unprocessed_keys (result : Option FileReplay) : Option (List String) :=
  result.map (fun result => result.unprocessed.keys)

theorem newline_not_mem_long_torn : newline ∉ long_torn := by
  intro hmem
  rcases List.mem_append.mp hmem with hfront | hlater
  · revert hfront
    decide
  · cases (List.mem_replicate.mp hlater).2

theorem le_length_padded (front : List UInt8) (count : Nat) (byte : UInt8) :
    count ≤ (front ++ List.replicate count byte).length := by
  rw [List.length_append, List.length_replicate]
  exact Nat.le_add_left count front.length

theorem long_torn_length : 65536 ≤ long_torn.length := le_length_padded _ _ _

theorem written_lines_long_torn : written_lines [] long_torn_journal =
    [(event_line ++ ['\n']).map (fun c => UInt8.ofNat c.toNat)] := by
  have hlast : (event_line.map (fun c => UInt8.ofNat c.toNat) ++ [newline]).getLast? =
      some newline := List.getLast?_concat
  rw [long_torn_journal, List.append_cons, written_lines_append hlast,
    written_lines_torn newline_not_mem_long_torn]
  decide

theorem decode_ascii {text : List Char} (hascii : text.all (·.toNat < 0x80) = true) :
    Utf8.decode (text.map fun c => UInt8.ofNat c.toNat).toByteArray = some text := by
  have hbytes : (text.map fun c => UInt8.ofNat c.toNat).toByteArray = Utf8.encode text := by
    rw [← Utf8.encode_ascii fun c hc => of_decide_eq_true (List.all_eq_true.mp hascii c hc)]
    apply ByteArray.ext
    rw [List.data_toByteArray]
  rw [hbytes, Utf8.decode_encode]

theorem replay_event_line : unprocessed_keys (replay_lines plain_casefold no_conversions
    [(event_line ++ ['\n']).map (fun c => UInt8.ofNat c.toNat)]) = some ["a"] := by
  rw [replay_lines, List.foldlM_cons, replay_text, decode_ascii (by decide)]
  decide +kernel

theorem long_torn_loses_event :
    repair_partial_tail long_torn_journal = [] ∧
      ¬LongestEnded long_torn_journal (repair_partial_tail long_torn_journal) ∧
      unprocessed_keys (replay_file plain_casefold no_conversions
        (repair_partial_tail long_torn_journal)) = some [] ∧
      unprocessed_keys (replay_lines plain_casefold no_conversions
        (written_lines [] long_torn_journal)) = some ["a"] := by
  have htorn : torn long_torn_journal = long_torn := by
    rw [long_torn_journal, torn_append _ newline_not_mem_long_torn]
  have hnil := repair_of_long (htorn ▸ long_torn_length)
  have hmem : newline ∈ long_torn_journal := by
    rw [long_torn_journal, List.mem_append]
    exact .inr List.mem_cons_self
  refine ⟨hnil, ?_, ?_, ?_⟩
  · intro hlongest
    rw [hlongest.unique (longestEnded_complete _), complete_eq_nil_iff] at hnil
    exact hnil hmem
  · rw [hnil, replay_file, replay_text_nil]
    rfl
  · rw [written_lines_long_torn]
    exact replay_event_line

-- A number that the journal never writes, but that JSON has.
def null_generation_line : List Char :=
  "\x7b\"kind\": \"state\", \"root\": \"a\", \"rel\": \"b\", \"generation\": null\x7d".toList

theorem unconvertible_null_generation : unconvertible no_conversions null_generation_line = true := by
  decide +kernel

theorem decode_null_generation_line :
    Utf8.decode (null_generation_line.map (fun c => UInt8.ofNat c.toNat) ++ [newline]).toByteArray =
      some (null_generation_line ++ ['\n']) := by
  have hline : null_generation_line.map (fun c => UInt8.ofNat c.toNat) ++ [newline] =
      (null_generation_line ++ ['\n']).map fun c => UInt8.ofNat c.toNat := by
    rw [List.map_append]
    rfl
  rw [hline]
  exact decode_ascii (by decide)

theorem corrupt_lines_raise :
    ¬Tolerates plain_casefold no_conversions (fun _ => false) [[0xff]] ∧
      ¬Tolerates plain_casefold no_conversions (fun _ => false)
        [null_generation_line.map fun c => UInt8.ofNat c.toNat] := by
  have hraise : ∀ line : List UInt8,
      fold_text (replay_journal_line plain_casefold no_conversions fun _ => false) .start
        (line ++ [newline]) = none →
      ¬Tolerates plain_casefold no_conversions (fun _ => false) [line] := by
    rintro line hnone ⟨result, hresult, -⟩
    rw [List.flatMap_singleton, replay_journal, hnone] at hresult
    cases hresult
  refine ⟨hraise _ ?_, hraise _ ?_⟩
  · rfl
  · rw [fold_text, decode_null_generation_line, Option.bind_some, foldlM_lines, if_pos]
    rw [List.any_eq_true]
    refine ⟨null_generation_line, by decide, ?_⟩
    rw [raises, unconvertible_null_generation, Bool.or_true]

end Samples

end KnowledgeCompiler.Desktop
