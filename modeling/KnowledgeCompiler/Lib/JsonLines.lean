import KnowledgeCompiler.Lib.Json.Torn
import KnowledgeCompiler.Lib.Text
import KnowledgeCompiler.Lib.Utf8

namespace KnowledgeCompiler.Lib

open Text

-- A file of JSON records, one a line, that is folded into a state as it is read.
structure Reader (σ ε : Type) where
  start : σ
  undecodable : ε
  blank : Nat → ε
  malformed : Nat → ε
  accept : Nat → σ → Json → Except ε σ

namespace Reader

variable {σ ε : Type} (reader : Reader σ ε)

def readLine (position : Nat) (state : σ) (raw : List Char) : Except ε σ :=
  let stripped := strip raw
  if stripped = [] then .error (reader.blank position)
  else
    match Json.loads stripped with
    | none => .error (reader.malformed position)
    | some record => reader.accept position state record

def readLines (position : Nat) (state : σ) : List (List Char) → Except ε σ
  | [] => .ok state
  | raw :: rest =>
      match reader.readLine position state raw with
      | .error refused => .error refused
      | .ok next => readLines (position + 1) next rest

def read (bytes : ByteArray) : Except ε σ :=
  match Utf8.decode bytes with
  | none => .error reader.undecodable
  | some text => reader.readLines 1 reader.start (splitlines (universalNewlines text))

-- What every accepted record keeps holds of the state a file is read to.
theorem readLines_keeps {holds : σ → Prop}
    (haccept : ∀ position state record next, holds state →
      reader.accept position state record = .ok next → holds next)
    (lines : List (List Char)) {position : Nat} {state final : σ} (hstate : holds state)
    (hread : reader.readLines position state lines = .ok final) : holds final := by
  induction lines generalizing position state with
  | nil =>
      obtain rfl := Except.ok.inj hread
      exact hstate
  | cons raw rest ih =>
      simp only [readLines] at hread
      cases hline : reader.readLine position state raw with
      | error refused => simp [hline] at hread
      | ok next =>
          rw [hline] at hread
          refine ih ?_ hread
          simp only [readLine] at hline
          split at hline
          · cases hline
          · split at hline
            · cases hline
            · exact haccept position state _ next hstate hline

theorem read_keeps {holds : σ → Prop}
    (haccept : ∀ position state record next, holds state →
      reader.accept position state record = .ok next → holds next)
    (hstart : holds reader.start) {bytes : ByteArray} {final : σ}
    (hread : reader.read bytes = .ok final) : holds final := by
  simp only [read] at hread
  split at hread
  · cases hread
  · exact reader.readLines_keeps haccept _ hstart hread

end Reader

-- The writer's side of such a file: the record an entry is stored as, and the
-- state it leads to. A record's first key begins with a small letter.
structure JsonLines (α σ ε : Type) extends Reader σ ε where
  record : σ → α → List (String × Json)
  push : σ → α → σ
  Next : σ → α → Prop
  printable : ∀ state entry, (Json.obj (record state entry)).Printable
  opens : ∀ state entry, ∃ d more, (97 ≤ d.toNat ∧ d.toNat ≤ 122) ∧
    Json.text (.obj (record state entry)) = '{' :: '"' :: d :: more
  accepts : ∀ position state entry, Next state entry →
    accept position state (.obj (record state entry)) = .ok (push state entry)
  in_turn : ∀ position state before entry next,
    accept position state (.obj (record before entry)) = .ok next → Next state entry
  malformed_ne : ∀ position, malformed position ≠ undecodable

namespace JsonLines

variable {α σ ε : Type} (log : JsonLines α σ ε)

def line (state : σ) (entry : α) : List Char := Json.text (.obj (log.record state entry))

def written (state : σ) : List α → List Char
  | [] => []
  | entry :: rest => log.line state entry ++ '\n' :: written (log.push state entry) rest

def after (state : σ) (entries : List α) : σ := entries.foldl log.push state

def Follows (state : σ) : List α → Prop
  | [] => True
  | entry :: rest => log.Next state entry ∧ Follows (log.push state entry) rest

-- The reader finds the line's end where the writer put it.
def Clean (state : σ) (entry : α) : Prop := ∀ c ∈ log.line state entry, isLineBreak c = false

def AllClean (state : σ) : List α → Prop
  | [] => True
  | entry :: rest => log.Clean state entry ∧ AllClean (log.push state entry) rest

theorem after_append (state : σ) (first second : List α) :
    log.after state (first ++ second) = log.after (log.after state first) second :=
  List.foldl_append

theorem written_append (state : σ) (first second : List α) :
    log.written state (first ++ second) =
      log.written state first ++ log.written (log.after state first) second := by
  induction first generalizing state with
  | nil => rfl
  | cons entry rest ih => simp [written, after, ih]

theorem follows_append (state : σ) (first second : List α) :
    log.Follows state (first ++ second) ↔
      log.Follows state first ∧ log.Follows (log.after state first) second := by
  induction first generalizing state with
  | nil => simp [Follows, after]
  | cons entry rest ih => simp [Follows, after, ih, and_assoc]

-- Lines.

theorem isLineBreak_range {c : Char} (hc : isLineBreak c = true) :
    c.toNat < 0x20 ∨ 0x7f ≤ c.toNat := by
  simp only [isLineBreak, inRanges, List.any_cons, List.any_nil, Bool.or_false, Bool.or_eq_true,
    Bool.and_eq_true, decide_eq_true_eq] at hc
  omega

theorem return_not_mem_line (state : σ) (entry : α) : '\r' ∉ log.line state entry := by
  intro hm
  have h := (Json.mem_text_iff (by decide) _ (log.printable state entry)).mp hm
  exact absurd h.2 (by decide)

theorem exists_line (state : σ) (entry : α) :
    ∃ inner, log.line state entry = '{' :: inner ++ ['}'] := ⟨_, rfl⟩

theorem line_ne_nil (state : σ) (entry : α) : log.line state entry ≠ [] := by
  obtain ⟨inner, hinner⟩ := log.exists_line state entry
  simp [hinner]

theorem strip_line (state : σ) (entry : α) : strip (log.line state entry) = log.line state entry := by
  obtain ⟨inner, hinner⟩ := log.exists_line state entry
  have hlast := rstrip_append ('{' :: inner) [] (c := '}') (by decide)
  rw [strip, hinner, List.cons_append, lstrip_cons (by decide), ← List.cons_append, hlast]
  rfl

theorem readLine_line {position : Nat} {state : σ} {entry : α} (hnext : log.Next state entry) :
    log.readLine position state (log.line state entry) = .ok (log.push state entry) := by
  have hloads : Json.loads (log.line state entry) = some (.obj (log.record state entry)) :=
    Json.loads_text _ (log.printable state entry)
  rw [Reader.readLine, log.strip_line, if_neg (log.line_ne_nil state entry), hloads]
  exact log.accepts position state entry hnext

theorem readLine_malformed {position : Nat} {state : σ} {inner : List Char}
    (hloads : ∀ lost kept, inner = kept ++ lost → Json.loads ('{' :: kept) = none) :
    log.readLine position state ('{' :: inner) = .error (log.malformed position) := by
  obtain ⟨lost, hlost⟩ := exists_rstrip inner
  have hstrip : strip ('{' :: inner) = '{' :: rstrip inner := by
    rw [strip, lstrip_cons (by decide)]
    exact rstrip_append [] inner (by decide)
  rw [Reader.readLine, hstrip, if_neg (List.cons_ne_nil _ _), hloads lost _ hlost]

-- Part of a line, cut before its closing brace.
theorem readLine_torn {position : Nat} {state before : σ} {entry : α} {kept lost : List Char}
    (hline : log.line before entry = kept ++ lost) (hkept : kept ≠ []) (hlost : lost ≠ []) :
    log.readLine position state kept = .error (log.malformed position) := by
  obtain ⟨inner, hinner⟩ := log.exists_line before entry
  cases kept with
  | nil => exact absurd rfl hkept
  | cons c more =>
      obtain rfl : '{' = c := (List.cons.inj (hinner.symm.trans hline)).1
      refine log.readLine_malformed (fun spaces held hmore => ?_)
      have htext : Json.text (.obj (log.record before entry)) = ('{' :: held) ++ (spaces ++ lost) := by
        rw [← line, hline, hmore]
        simp
      exact Json.loads_torn (log.printable before entry) htext (by simp [hlost])

theorem isLineBreak_ascii {c : Char} (hc : 0x20 ≤ c.toNat ∧ c.toNat < 0x7f) :
    isLineBreak c = false := by
  cases hbreak : isLineBreak c with
  | false => rfl
  | true =>
      have := isLineBreak_range hbreak
      omega

theorem letter_plain {d : Char} (hd : 97 ≤ d.toNat ∧ d.toNat ≤ 122) :
    isSpace d = false ∧ Json.isBlank d = false ∧ d ≠ ':' ∧ d ≠ ',' ∧ d ≠ ']' ∧ d ≠ '}' := by
  have hne (e : Char) (he : e.toNat < 97 ∨ 122 < e.toNat) : d ≠ e := by
    rintro rfl
    omega
  have hspace : isSpace d = false := by
    simp only [isSpace, inRanges, List.any_cons, List.any_nil, Bool.or_false, Bool.or_eq_false_iff,
      Bool.and_eq_false_iff, decide_eq_false_iff_not]
    omega
  simp [hspace, Json.isBlank, hne ' ' (by decide), hne '\t' (by decide), hne '\n' (by decide),
    hne '\r' (by decide), hne ':' (by decide), hne ',' (by decide), hne ']' (by decide),
    hne '}' (by decide)]

-- A line whose beginning is not its own.
theorem readLine_glued {position : Nat} {state before : σ} {entry : α}
    {inner glued lost more : List Char} {d : Char} (hline : log.line before entry = glued ++ lost)
    (hd : 97 ≤ d.toNat ∧ d.toNat ≤ 122) (hglued : glued = '{' :: '"' :: d :: more) :
    log.readLine position state ('{' :: inner ++ glued) = .error (log.malformed position) := by
  obtain ⟨hspace, hplain⟩ := letter_plain hd
  obtain ⟨spaces, hspaces⟩ := exists_rstrip more
  have hstrip : strip ('{' :: inner ++ glued) = '{' :: inner ++ '{' :: '"' :: d :: rstrip more := by
    have h := rstrip_append ('{' :: inner ++ ['{', '"']) more hspace
    rw [strip, hglued, List.cons_append, lstrip_cons (by decide)]
    simpa using h
  have htext : Json.text (.obj (log.record before entry)) =
      ('{' :: '"' :: d :: rstrip more) ++ (spaces ++ lost) := by
    have hkept : glued = ('{' :: '"' :: d :: rstrip more) ++ spaces := by
      rw [hglued, List.cons_append, List.cons_append, List.cons_append, ← hspaces]
    rw [← line, hline, hkept, List.append_assoc]
  rw [Reader.readLine, hstrip, if_neg (by simp),
    Json.loads_glued (log.printable before entry) htext rfl hplain]

-- Files.

theorem readLines_cons {position : Nat} {state next : σ} {raw : List Char}
    (hraw : log.readLine position state raw = .ok next) (rest : List (List Char)) :
    log.readLines position state (raw :: rest) = log.readLines (position + 1) next rest := by
  simp [Reader.readLines, hraw]

theorem readLines_refused {position : Nat} {state : σ} {raw : List Char} {refused : ε}
    (hraw : log.readLine position state raw = .error refused) (rest : List (List Char)) :
    log.readLines position state (raw :: rest) = .error refused := by
  simp [Reader.readLines, hraw]

theorem readLines_written {position : Nat} {state : σ} {entries : List α} (rest : List Char)
    (hfollows : log.Follows state entries) (hclean : log.AllClean state entries) :
    log.readLines position state (splitlines (log.written state entries ++ rest)) =
      log.readLines (position + entries.length) (log.after state entries) (splitlines rest) := by
  induction entries generalizing position state with
  | nil => rfl
  | cons entry more ih =>
      have hsplit : log.written state (entry :: more) ++ rest =
          log.line state entry ++ '\n' :: (log.written (log.push state entry) more ++ rest) := by
        simp [written]
      rw [hsplit, splitlines_line _ _ hclean.1,
        log.readLines_cons (log.readLine_line hfollows.1), ih hfollows.2 hclean.2]
      simp [after, Nat.add_comm, Nat.add_left_comm]

-- A part of a line that breaks inside is refused at its first piece, whatever follows it.
theorem readLines_broken {position : Nat} {state before : σ} {entry : α} {kept lost : List Char}
    (hline : log.line before entry = kept ++ lost) {c : Char} (hc : c ∈ kept)
    (hbreak : isLineBreak c = true) (rest : List Char) :
    log.readLines position state (splitlines (kept ++ rest)) = .error (log.malformed position) := by
  have hsplit := List.takeWhile_append_dropWhile (p := fun c => !isLineBreak c) (l := kept)
  have hdrop : kept.dropWhile (fun c => !isLineBreak c) ≠ [] := by
    intro h
    have hall := List.dropWhile_eq_nil_iff.mp h c hc
    simp [hbreak] at hall
  have htake : (kept ++ rest).takeWhile (fun c => !isLineBreak c) =
      kept.takeWhile (fun c => !isLineBreak c) := by
    conv_lhs => rw [← hsplit, List.append_assoc]
    obtain ⟨d, more, hmore⟩ := List.exists_cons_of_ne_nil hdrop
    have hd : isLineBreak d = true := by
      have h := List.head_dropWhile_not (fun c => !isLineBreak c) hdrop
      simpa [hmore] using h
    have hall : ∀ e ∈ kept.takeWhile (fun c => !isLineBreak c), (!isLineBreak e) = true :=
      List.all_takeWhile (p := fun c => !isLineBreak c) (l := kept) |> List.all_eq_true.mp
    rw [hmore, List.cons_append, List.takeWhile_append_of_pos hall]
    simp [hd]
  have hnonempty : kept.takeWhile (fun c => !isLineBreak c) ≠ [] := by
    obtain ⟨inner, hinner⟩ := log.exists_line before entry
    cases kept with
    | nil => exact absurd hc List.not_mem_nil
    | cons e more =>
        obtain rfl : '{' = e := (List.cons.inj (hinner.symm.trans hline)).1
        have hopen : isLineBreak '{' = false := isLineBreak_ascii (by decide)
        simp [hopen]
  have hwhole : log.line before entry = kept.takeWhile (fun c => !isLineBreak c) ++
      (kept.dropWhile (fun c => !isLineBreak c) ++ lost) := by
    rw [hline, ← List.append_assoc, hsplit]
  obtain ⟨more, hmore⟩ := splitlines_first
    (List.append_ne_nil_of_left_ne_nil (List.ne_nil_of_mem hc) rest)
  rw [hmore, htake]
  exact log.readLines_refused (log.readLine_torn hwhole hnonempty (by simp [hdrop])) more

theorem exists_break {text : List Char} (htext : ¬∀ c ∈ text, isLineBreak c = false) :
    ∃ c ∈ text, isLineBreak c = true := by
  simpa using htext

theorem readLines_unclean {position : Nat} {state : σ} {entries : List α} (rest : List Char)
    (hfollows : log.Follows state entries) (hclean : ¬log.AllClean state entries) :
    ∃ failed, log.readLines position state (splitlines (log.written state entries ++ rest)) =
      .error (log.malformed failed) := by
  induction entries generalizing position state with
  | nil => exact absurd trivial hclean
  | cons entry more ih =>
      have hsplit : log.written state (entry :: more) ++ rest =
          log.line state entry ++ '\n' :: (log.written (log.push state entry) more ++ rest) := by
        simp [written]
      rw [hsplit]
      by_cases hentry : log.Clean state entry
      · rw [splitlines_line _ _ hentry, log.readLines_cons (log.readLine_line hfollows.1)]
        exact ih hfollows.2 (fun h => hclean ⟨hentry, h⟩)
      · obtain ⟨c, hc, hbreak⟩ := exists_break hentry
        exact ⟨position, log.readLines_broken (List.append_nil _).symm hc hbreak _⟩

theorem readLines_torn {position : Nat} {state before : σ} {entry : α} {kept lost : List Char}
    (hline : log.line before entry = kept ++ lost) (hkept : kept ≠ []) (hlost : lost ≠ []) :
    log.readLines position state (splitlines kept) = .error (log.malformed position) := by
  by_cases hclean : ∀ c ∈ kept, isLineBreak c = false
  · rw [splitlines_end hclean hkept]
    exact log.readLines_refused (log.readLine_torn hline hkept hlost) []
  · obtain ⟨c, hc, hbreak⟩ := exists_break hclean
    rw [← List.append_nil kept]
    exact log.readLines_broken hline hc hbreak []

-- All of a line but its end.
theorem readLines_ended {position : Nat} {state : σ} {entry : α} (hnext : log.Next state entry)
    (hclean : log.Clean state entry) :
    log.readLines position state (splitlines (log.line state entry)) = .ok (log.push state entry) := by
  rw [splitlines_end hclean (log.line_ne_nil state entry),
    log.readLines_cons (log.readLine_line hnext)]
  rfl

-- The next line lands on the torn one.
theorem readLines_glued {position : Nat} {state before between : σ} {entry next : α}
    {kept lost : List Char} (hline : log.line before entry = kept ++ lost) (hkept : kept ≠ [])
    (rest : List Char) :
    log.readLines position state (splitlines (kept ++ (log.line between next ++ '\n' :: rest))) =
      .error (log.malformed position) := by
  by_cases hclean : ∀ c ∈ kept, isLineBreak c = false
  · obtain ⟨d, more, hd, hopens⟩ := log.opens between next
    have hopens : log.line between next = '{' :: '"' :: d :: more := hopens
    have htake : (kept ++ (log.line between next ++ '\n' :: rest)).takeWhile
        (fun c => !isLineBreak c) =
          kept ++ (log.line between next).takeWhile (fun c => !isLineBreak c) := by
      have hnewline : isLineBreak '\n' = true := by decide
      rw [List.takeWhile_append_of_pos (fun c hc => by simp [hclean c hc]), List.takeWhile_append]
      split
      · rename_i hall
        rw [(List.takeWhile_prefix _).eq_of_length hall]
        simp [hnewline]
      · rfl
    have hbrace : isLineBreak '{' = false := isLineBreak_ascii (by decide)
    have hquote : isLineBreak '"' = false := isLineBreak_ascii (by decide)
    have hletter : isLineBreak d = false := isLineBreak_ascii (by omega)
    obtain ⟨tail, htail⟩ := splitlines_first
      (List.append_ne_nil_of_left_ne_nil hkept (log.line between next ++ '\n' :: rest))
    have hpart := (List.takeWhile_append_dropWhile (p := fun c => !isLineBreak c)
      (l := log.line between next)).symm
    have hbegins : (log.line between next).takeWhile (fun c => !isLineBreak c) =
        '{' :: '"' :: d :: more.takeWhile (fun c => !isLineBreak c) := by
      rw [hopens]
      simp [hbrace, hquote, hletter]
    obtain ⟨inner, hinner⟩ := log.exists_line before entry
    rw [htail, htake]
    cases kept with
    | nil => exact absurd rfl hkept
    | cons e held =>
        obtain rfl : '{' = e := (List.cons.inj (hinner.symm.trans hline)).1
        exact log.readLines_refused (log.readLine_glued hpart hd hbegins) tail
  · obtain ⟨c, hc, hbreak⟩ := exists_break hclean
    exact log.readLines_broken hline hc hbreak _

-- Bytes.

def bytes (entries : List α) : ByteArray := Utf8.encode (log.written log.start entries)

def lineBytes (state : σ) (entry : α) : ByteArray := Utf8.encode (log.line state entry ++ ['\n'])

theorem return_not_mem_written (state : σ) (entries : List α) : '\r' ∉ log.written state entries := by
  induction entries generalizing state with
  | nil => exact List.not_mem_nil
  | cons entry rest ih =>
      simp only [written, List.mem_append, List.mem_cons, not_or]
      exact ⟨log.return_not_mem_line state entry, by decide, ih _⟩

theorem bytes_append (entries : List α) (entry : α) :
    log.bytes (entries ++ [entry]) =
      log.bytes entries ++ log.lineBytes (log.after log.start entries) entry := by
  simp [bytes, lineBytes, written_append, written, Utf8.encode_append]

theorem read_encode {text : List Char} (htext : '\r' ∉ text) :
    log.read (Utf8.encode text) = log.readLines 1 log.start (splitlines text) := by
  simp only [Reader.read, Utf8.decode_encode, universalNewlines_of_not_mem htext]

-- Reading back what was written: the reader's lines must be the writer's.
theorem read_bytes {entries : List α} (hfollows : log.Follows log.start entries)
    (hclean : log.AllClean log.start entries) :
    log.read (log.bytes entries) = .ok (log.after log.start entries) := by
  rw [bytes, log.read_encode (log.return_not_mem_written _ _),
    ← List.append_nil (log.written log.start entries), log.readLines_written [] hfollows hclean]
  rfl

theorem read_bytes_unclean {entries : List α} (hfollows : log.Follows log.start entries)
    (hclean : ¬log.AllClean log.start entries) :
    ∃ failed, log.read (log.bytes entries) = .error (log.malformed failed) := by
  rw [bytes, log.read_encode (log.return_not_mem_written _ _),
    ← List.append_nil (log.written log.start entries)]
  exact log.readLines_unclean [] hfollows hclean

-- The file once the first bytes of an entry's line have landed behind the entries before it.
def torn (entries : List α) (entry : α) (cut : Nat) : ByteArray :=
  log.bytes entries ++ (log.lineBytes (log.after log.start entries) entry).extract 0 cut

-- Where a cut leaves the line: inside a character, before it, within it (all of
-- it but its end included), or behind it.
theorem cut_cases (state : σ) (entry : α) {cut : Nat}
    (hmid : ¬Utf8.MidCharacter (log.line state entry ++ ['\n']) cut) :
    cut = 0 ∨
      (∃ kept lost, log.line state entry = kept ++ lost ∧ kept ≠ [] ∧
        (log.lineBytes state entry).extract 0 cut = Utf8.encode kept ∧ cut ≠ 0 ∧
        cut < (log.lineBytes state entry).size ∧
        (lost = [] ↔ cut + 1 = (log.lineBytes state entry).size)) ∨
      cut = (log.lineBytes state entry).size := by
  simp only [Utf8.MidCharacter, not_forall, not_not] at hmid
  obtain ⟨kept, lost, hsplit, hsize⟩ := hmid
  have hextract : (log.lineBytes state entry).extract 0 cut = Utf8.encode kept := by
    rw [lineBytes, hsplit, ← hsize, Utf8.extract_of_append]
  have htotal : (log.lineBytes state entry).size = cut + (Utf8.encode lost).size := by
    rw [lineBytes, hsplit, Utf8.encode_append, ByteArray.size_append, hsize]
  rcases List.eq_nil_or_concat lost with rfl | ⟨held, last, rfl⟩
  · exact Or.inr (Or.inr (by rw [htotal]; rfl))
  · rw [List.concat_eq_append] at hsplit htotal
    rw [← List.append_assoc] at hsplit
    obtain ⟨hline, hlast⟩ := List.append_inj' hsplit rfl
    obtain rfl : '\n' = last := (List.cons.inj hlast).1
    have hheld : (Utf8.encode (held ++ ['\n'])).size = (Utf8.encode held).size + 1 := by
      rw [Utf8.encode_append, ByteArray.size_append]
      rfl
    by_cases hkept : kept = []
    · left
      rw [← hsize, hkept]
      rfl
    · refine Or.inr (Or.inl ⟨kept, held, hline, hkept, hextract, ?_, by omega, ?_⟩)
      · intro hzero
        exact hkept (Utf8.encode_eq_empty (hsize.trans hzero))
      · constructor
        · rintro rfl
          rw [htotal, hheld]
          rfl
        · intro hend
          exact Utf8.encode_eq_empty (by omega)

theorem torn_zero (entries : List α) (entry : α) : log.torn entries entry 0 = log.bytes entries := by
  simp [torn]

theorem torn_size (entries : List α) (entry : α) :
    log.torn entries entry (log.lineBytes (log.after log.start entries) entry).size =
      log.bytes (entries ++ [entry]) := by
  rw [torn, ByteArray.extract_zero_size, bytes_append]

theorem return_not_mem_part {state : σ} {entry : α} {kept lost : List Char}
    (hline : log.line state entry = kept ++ lost) : '\r' ∉ kept :=
  fun hm => log.return_not_mem_line state entry (hline ▸ List.mem_append_left lost hm)

-- What a reader makes of a file that ends within a line, or goes on from there.
theorem read_within {entries : List α} {entry : α} {kept lost rest : List Char}
    (hfollows : log.Follows log.start entries) (hclean : log.AllClean log.start entries)
    (hline : log.line (log.after log.start entries) entry = kept ++ lost) (hrest : '\r' ∉ rest) :
    log.read (log.bytes entries ++ Utf8.encode kept ++ Utf8.encode rest) =
      log.readLines (1 + entries.length) (log.after log.start entries) (splitlines (kept ++ rest)) := by
  rw [bytes, ← Utf8.encode_append, ← Utf8.encode_append, List.append_assoc, log.read_encode,
    log.readLines_written _ hfollows hclean]
  simp only [List.mem_append, not_or]
  exact ⟨log.return_not_mem_written _ _, log.return_not_mem_part hline, hrest⟩

theorem read_unclean {entries : List α} (hfollows : log.Follows log.start entries)
    (hclean : ¬log.AllClean log.start entries) {rest : List Char} (hrest : '\r' ∉ rest) :
    ∃ failed, log.read (log.bytes entries ++ Utf8.encode rest) = .error (log.malformed failed) := by
  rw [bytes, ← Utf8.encode_append, log.read_encode]
  · exact log.readLines_unclean rest hfollows hclean
  · simp only [List.mem_append, not_or]
    exact ⟨log.return_not_mem_written _ _, hrest⟩

theorem return_not_mem_lineEnd (state : σ) (entry : α) : '\r' ∉ log.line state entry ++ ['\n'] := by
  simp only [List.mem_append, not_or]
  exact ⟨log.return_not_mem_line state entry, by decide⟩

section Torn

variable {entries : List α} {entry : α} {cut : Nat}

theorem read_torn_midCharacter
    (hcut : cut ≤ (log.lineBytes (log.after log.start entries) entry).size)
    (hmid : Utf8.MidCharacter (log.line (log.after log.start entries) entry ++ ['\n']) cut) :
    log.read (log.torn entries entry cut) = .error log.undecodable := by
  have h := Utf8.decode_midCharacter hcut hmid (log.written log.start entries) []
  have hempty : Utf8.encode [] = ByteArray.empty := rfl
  rw [hempty, ByteArray.append_empty] at h
  simp only [Reader.read, torn, bytes, lineBytes, h]

-- A further line does not make the torn character whole.
theorem read_appended_midCharacter
    (hcut : cut ≤ (log.lineBytes (log.after log.start entries) entry).size)
    (hmid : Utf8.MidCharacter (log.line (log.after log.start entries) entry ++ ['\n']) cut)
    (state : σ) (next : α) :
    log.read (log.torn entries entry cut ++ log.lineBytes state next) = .error log.undecodable := by
  have h := Utf8.decode_midCharacter hcut hmid (log.written log.start entries)
    (log.line state next ++ ['\n'])
  simp only [Reader.read, torn, bytes, lineBytes, h]

-- What is read before the torn line decides, if it is refused.
theorem read_torn_unclean (hfollows : log.Follows log.start entries)
    (hclean : ¬log.AllClean log.start entries)
    (hmid : ¬Utf8.MidCharacter (log.line (log.after log.start entries) entry ++ ['\n']) cut)
    {rest : List Char} (hrest : '\r' ∉ rest) :
    ∃ failed, log.read (log.torn entries entry cut ++ Utf8.encode rest) =
      .error (log.malformed failed) := by
  simp only [Utf8.MidCharacter, not_forall, not_not] at hmid
  obtain ⟨kept, lost, hsplit, hsize⟩ := hmid
  have hkept : '\r' ∉ kept := fun hm =>
    log.return_not_mem_lineEnd _ entry (hsplit ▸ List.mem_append_left lost hm)
  have hextract : (log.lineBytes (log.after log.start entries) entry).extract 0 cut =
      Utf8.encode kept := by
    rw [lineBytes, hsplit, ← hsize, Utf8.extract_of_append]
  have hreturn : '\r' ∉ kept ++ rest := by
    simp only [List.mem_append, not_or]
    exact ⟨hkept, hrest⟩
  have h := log.read_unclean hfollows hclean hreturn
  rwa [Utf8.encode_append, ← ByteArray.append_assoc, ← hextract] at h

-- Within the line, the reader has its beginning for a last line.
theorem read_torn_within (hfollows : log.Follows log.start entries)
    (hclean : log.AllClean log.start entries) {kept lost : List Char}
    (hline : log.line (log.after log.start entries) entry = kept ++ lost)
    (hextract : (log.lineBytes (log.after log.start entries) entry).extract 0 cut =
      Utf8.encode kept) :
    log.read (log.torn entries entry cut) =
      log.readLines (1 + entries.length) (log.after log.start entries) (splitlines kept) := by
  have hreturn : '\r' ∉ ([] : List Char) := List.not_mem_nil
  have hempty : Utf8.encode [] = ByteArray.empty := rfl
  have h := log.read_within hfollows hclean hline hreturn
  rw [hempty, ByteArray.append_empty, List.append_nil] at h
  rw [torn, hextract, h]

theorem read_appended_within (hfollows : log.Follows log.start entries)
    (hclean : log.AllClean log.start entries) {kept lost : List Char}
    (hline : log.line (log.after log.start entries) entry = kept ++ lost) (hkept : kept ≠ [])
    (hextract : (log.lineBytes (log.after log.start entries) entry).extract 0 cut =
      Utf8.encode kept) (state : σ) (next : α) :
    log.read (log.torn entries entry cut ++ log.lineBytes state next) =
      .error (log.malformed (1 + entries.length)) := by
  have hrest := log.return_not_mem_lineEnd state next
  rw [torn, hextract, lineBytes, log.read_within hfollows hclean hline hrest]
  exact log.readLines_glued hline hkept []

end Torn

theorem brace_size (state : σ) (entry : α) : ∃ inner,
    log.line state entry ++ ['\n'] = '{' :: inner ++ ['}', '\n'] ∧
      (Utf8.encode ('{' :: inner)).size + 2 = (log.lineBytes state entry).size ∧
      0 < (Utf8.encode ('{' :: inner)).size := by
  obtain ⟨inner, hinner⟩ := log.exists_line state entry
  have hbrace : (Utf8.encode ['{']).size = 1 := rfl
  have hend : (Utf8.encode ['}', '\n']).size = 2 := rfl
  have hsplit : log.line state entry ++ ['\n'] = '{' :: inner ++ ['}', '\n'] := by simp [hinner]
  refine ⟨inner, hsplit, ?_, ?_⟩
  · rw [lineBytes, hsplit, Utf8.encode_append, ByteArray.size_append, hend]
  · rw [← List.singleton_append, Utf8.encode_append, ByteArray.size_append, hbrace]
    omega

theorem two_lt_size (state : σ) (entry : α) : 2 < (log.lineBytes state entry).size := by
  obtain ⟨inner, -, hsize, hpos⟩ := log.brace_size state entry
  omega

-- Before its closing brace the line can be cut.
theorem not_midCharacter_brace (state : σ) (entry : α) :
    ¬Utf8.MidCharacter (log.line state entry ++ ['\n']) ((log.lineBytes state entry).size - 2) := by
  obtain ⟨inner, hsplit, hsize, -⟩ := log.brace_size state entry
  intro hmid
  exact hmid _ _ hsplit (by omega)

-- A line that repeats or skips a turn is never read.
theorem read_out_of_turn {entries : List α} {next : α}
    (hfollows : log.Follows log.start entries)
    (hnext : ¬log.Next (log.after log.start entries) next) (state found : σ) :
    log.read (log.bytes entries ++ log.lineBytes state next) ≠ .ok found := by
  intro hread
  have hend := log.return_not_mem_lineEnd state next
  by_cases hclean : log.AllClean log.start entries
  · rw [bytes, lineBytes, ← Utf8.encode_append, log.read_encode (by
        simp only [List.mem_append, not_or]
        exact ⟨log.return_not_mem_written _ _, log.return_not_mem_line _ _, by decide⟩),
      log.readLines_written _ hfollows hclean] at hread
    by_cases hline : log.Clean state next
    · have hloads : Json.loads (log.line state next) = some (.obj (log.record state next)) :=
        Json.loads_text _ (log.printable state next)
      have hturn (position : Nat) : log.readLine position (log.after log.start entries)
          (log.line state next) =
            log.accept position (log.after log.start entries) (.obj (log.record state next)) := by
        rw [Reader.readLine, log.strip_line, if_neg (log.line_ne_nil state next), hloads]
      rw [splitlines_line _ _ hline, Reader.readLines, hturn] at hread
      split at hread
      · cases hread
      · rename_i accepted haccept
        exact hnext (log.in_turn _ _ _ _ _ haccept)
    · obtain ⟨c, hc, hbreak⟩ := exists_break hline
      rw [log.readLines_broken (List.append_nil _).symm hc hbreak] at hread
      cases hread
  · obtain ⟨failed, hfailed⟩ := log.read_unclean hfollows hclean hend
    rw [lineBytes, hfailed] at hread
    cases hread

end JsonLines

end KnowledgeCompiler.Lib
