import KnowledgeCompiler.Exporters.Chunks
import Mathlib.Algebra.Order.BigOperators.Group.List

namespace KnowledgeCompiler.Exporters

open Lib

section Escapes

-- A text with one kind of line end.
def normalized (value : List Char) : List Char := replace '\r' "\n".toList (replace_crlf value)

def row_char (c : Char) : List Char :=
  if c = '\\' then ['\\', '\\'] else if c = '\t' then ['\\', 't'] else if c = '\n' then ['\\', 'n']
  else [c]

def escaped (value : List Char) : List Char := value.flatMap row_char

def unescape_row : List Char → List Char
  | [] => []
  | '\\' :: c :: rest =>
      (if c = 't' then '\t' else if c = 'n' then '\n' else c) :: unescape_row rest
  | c :: rest => c :: unescape_row rest

-- Every backslash begins one of the three escapes.
def WellEscaped : List Char → Prop
  | [] => True
  | '\\' :: c :: rest => (c = '\\' ∨ c = 't' ∨ c = 'n') ∧ WellEscaped rest
  | c :: rest => c ≠ '\\' ∧ WellEscaped rest

theorem escape_row_text_eq (value : List Char) : escape_row_text value = escaped (normalized value) := by
  have hthree : ∀ text : List Char, replace '\n' "\\n".toList (replace '\t' "\\t".toList
      (replace '\\' "\\\\".toList text)) = escaped text := by
    intro text
    induction text with
    | nil => rfl
    | cons c rest ih =>
        simp only [replace, escaped, List.flatMap_cons, List.flatMap_append] at ih ⊢
        rw [ih]
        congr 1
        unfold row_char
        by_cases hslash : c = '\\'
        · subst hslash
          decide
        by_cases htab : c = '\t'
        · subst htab
          decide
        by_cases hnewline : c = '\n'
        · subst hnewline
          decide
        · simp [hslash, htab, hnewline]
  rw [escape_row_text, hthree, normalized]

theorem return_not_mem_normalized (value : List Char) : '\r' ∉ normalized value := by
  rw [normalized, replace, List.mem_flatMap]
  rintro ⟨c, -, hc⟩
  split at hc
  · revert hc
    decide
  · rename_i hne
    exact hne (List.mem_singleton.mp hc).symm

theorem normalized_of_plain {value : List Char} (hvalue : '\r' ∉ value) : normalized value = value := by
  have hcrlf : replace_crlf value = value := by
    induction value with
    | nil => rfl
    | cons c rest ih =>
        obtain ⟨hc, hrest⟩ := not_or.mp (mt List.mem_cons.mpr hvalue)
        rw [replace_crlf, ih hrest]
        intro others h
        exact absurd h.symm hc
  rw [normalized, hcrlf, replace]
  induction value with
  | nil => rfl
  | cons c rest ih =>
      obtain ⟨hc, hrest⟩ := not_or.mp (mt List.mem_cons.mpr hvalue)
      have htail : replace_crlf rest = rest := by
        rw [replace_crlf] at hcrlf
        · exact (List.cons.inj hcrlf).2
        · intro others h
          exact absurd h.symm hc
      rw [List.flatMap_cons, if_neg (Ne.symm hc), ih hrest htail, List.singleton_append]

theorem escaped_cons (c : Char) (rest : List Char) : escaped (c :: rest) = row_char c ++ escaped rest :=
  List.flatMap_cons

theorem row_char_plain {c : Char} (hslash : c ≠ '\\') (htab : c ≠ '\t') (hnewline : c ≠ '\n') :
    row_char c = [c] := by
  rw [row_char, if_neg hslash, if_neg htab, if_neg hnewline]

theorem unescape_escaped (value : List Char) : unescape_row (escaped value) = value := by
  induction value with
  | nil => rfl
  | cons c rest ih =>
      rw [escaped_cons]
      by_cases hslash : c = '\\'
      · subst hslash
        simp [row_char, unescape_row, ih]
      by_cases htab : c = '\t'
      · subst htab
        simp [row_char, unescape_row, ih]
      by_cases hnewline : c = '\n'
      · subst hnewline
        simp [row_char, unescape_row, ih]
      · rw [row_char_plain hslash htab hnewline, List.singleton_append, unescape_row, ih]
        intro d others h
        exact absurd h hslash

theorem escaped_unescape {value : List Char} (hescaped : WellEscaped value) (htab : '\t' ∉ value)
    (hnewline : '\n' ∉ value) : escaped (unescape_row value) = value := by
  induction value using unescape_row.induct with
  | case1 => rfl
  | case2 c rest ih =>
      obtain ⟨hc, hrest⟩ := hescaped
      rw [unescape_row, escaped_cons, ih hrest (fun h => htab (by simp [h]))
        (fun h => hnewline (by simp [h]))]
      rcases hc with rfl | rfl | rfl
      · rfl
      · rfl
      · rfl
  | case3 c rest hpair ih =>
      have hboth : c ≠ '\\' ∧ WellEscaped rest := by
        unfold WellEscaped at hescaped
        split at hescaped
        · rename_i h; cases h
        · rename_i d others h
          obtain ⟨rfl, rfl⟩ := List.cons.inj h
          exact absurd rfl (hpair d others rfl)
        · rename_i d others hnot h
          obtain ⟨rfl, rfl⟩ := List.cons.inj h
          exact hescaped
      have hplain : row_char c = [c] := row_char_plain hboth.1 (fun h => htab (by simp [h]))
        (fun h => hnewline (by simp [h]))
      rw [unescape_row, escaped_cons, ih hboth.2 (fun h => htab (by simp [h]))
        (fun h => hnewline (by simp [h])), hplain, List.singleton_append]
      exact hpair

theorem wellEscaped_plain {c : Char} (hc : c ≠ '\\') (rest : List Char) :
    WellEscaped (c :: rest) ↔ WellEscaped rest := by
  rw [WellEscaped]
  · exact and_iff_right hc
  · intro d others h
    exact absurd h hc

theorem wellEscaped_escaped (value rest : List Char) :
    WellEscaped (escaped value ++ rest) ↔ WellEscaped rest := by
  induction value with
  | nil => rfl
  | cons c more ih =>
      rw [escaped_cons, List.append_assoc]
      by_cases hslash : c = '\\'
      · subst hslash
        simp [row_char, WellEscaped, ih]
      by_cases htab : c = '\t'
      · subst htab
        simp [row_char, WellEscaped, ih]
      by_cases hnewline : c = '\n'
      · subst hnewline
        simp [row_char, WellEscaped, ih]
      · rw [row_char_plain hslash htab hnewline, List.singleton_append,
          wellEscaped_plain hslash, ih]

-- A blank is no part of an escape.
theorem wellEscaped_append {c : Char} (hc : Text.isSpace c = true) (before after : List Char) :
    WellEscaped (before ++ c :: after) ↔ WellEscaped before ∧ WellEscaped after := by
  have hslash : c ≠ '\\' := by
    rintro rfl
    revert hc
    decide
  have hletters : ¬(c = '\\' ∨ c = 't' ∨ c = 'n') := by
    rintro (rfl | rfl | rfl)
    all_goals
      revert hc
      decide
  induction before using unescape_row.induct with
  | case1 =>
      rw [List.nil_append, wellEscaped_plain hslash]
      simp [WellEscaped]
  | case2 d rest ih => simp only [List.cons_append, WellEscaped, ih, and_assoc]
  | case3 d rest hpair ih =>
      by_cases hd : d = '\\'
      · subst hd
        cases rest with
        | nil => simp [WellEscaped, hletters]
        | cons e others => exact absurd rfl (hpair e others rfl)
      · rw [List.cons_append, wellEscaped_plain hd, wellEscaped_plain hd]
        exact ih

end Escapes

section Rows

def encode_line (values : List (List Char)) : List Char := join "\t" (values.map escaped)

def encode_rows (rows : Grid) : List Char := join "\n" (rows.map encode_line)

def decode_line (line : List Char) : List (List Char) := (line.splitOn '\t').map unescape_row

-- The lines of a text, each the texts between its tabs.
def decode_rows (text : List Char) : Grid := (text.splitOn '\n').map decode_line

theorem tab_eq : "\t".toList = ['\t'] := rfl

theorem newline_eq : "\n".toList = ['\n'] := rfl

theorem not_mem_escaped {c : Char} (hc : c = '\t' ∨ c = '\n') (value : List Char) : c ∉ escaped value := by
  rw [escaped, List.mem_flatMap]
  rintro ⟨d, -, hd⟩
  rw [row_char] at hd
  split at hd
  · rcases hc with rfl | rfl
    · simp at hd
    · simp at hd
  split at hd
  · rcases hc with rfl | rfl
    · simp at hd
    · simp at hd
  split at hd
  · rcases hc with rfl | rfl
    · simp at hd
    · simp at hd
  · rename_i hslash htab hnewline
    obtain rfl := List.mem_singleton.mp hd
    exact hc.elim htab hnewline

theorem mem_join {c : Char} {separator : String} {texts : List (List Char)}
    (hc : c ∈ join separator texts) : c ∈ separator.toList ∨ ∃ text ∈ texts, c ∈ text := by
  cases texts with
  | nil => cases hc
  | cons first rest =>
      rw [join, Scan.intercalate_cons, List.mem_append, List.mem_flatMap] at hc
      rcases hc with hfirst | ⟨text, htext, hmem⟩
      · exact .inr ⟨first, List.mem_cons_self, hfirst⟩
      · rcases List.mem_append.mp hmem with hseparator | hlater
        · exact .inl hseparator
        · exact .inr ⟨text, List.mem_cons_of_mem _ htext, hlater⟩

theorem newline_not_mem_encode_line (values : List (List Char)) : '\n' ∉ encode_line values := by
  intro hmem
  rcases mem_join hmem with htab | ⟨text, htext, hc⟩
  · revert htab
    decide
  · obtain ⟨value, -, rfl⟩ := List.mem_map.mp htext
    exact not_mem_escaped (.inr rfl) value hc

theorem decode_encode_line {values : List (List Char)} (hvalues : values ≠ []) :
    decode_line (encode_line values) = values := by
  rw [decode_line, encode_line, join, tab_eq, List.splitOn_intercalate, List.map_map]
  · refine (List.map_congr_left (fun value _ => ?_)).trans (List.map_id values)
    exact unescape_escaped value
  · intro text htext
    obtain ⟨value, -, rfl⟩ := List.mem_map.mp htext
    exact not_mem_escaped (.inl rfl) value
  · simpa using hvalues

theorem decode_encode_rows {rows : Grid} (hrows : rows ≠ []) (hvalues : ∀ row ∈ rows, row ≠ []) :
    decode_rows (encode_rows rows) = rows := by
  rw [decode_rows, encode_rows, join, newline_eq, List.splitOn_intercalate, List.map_map]
  · refine (List.map_congr_left (fun row hrow => ?_)).trans (List.map_id rows)
    exact decode_encode_line (hvalues row hrow)
  · intro text htext
    obtain ⟨row, -, rfl⟩ := List.mem_map.mp htext
    exact newline_not_mem_encode_line row
  · simpa using hrows

theorem wellEscaped_splitOn {c : Char} (hc : Text.isSpace c = true) {text : List Char}
    (htext : WellEscaped text) :
    ∀ piece ∈ text.splitOn c, WellEscaped piece ∧ c ∉ piece ∧ piece ⊆ text := by
  have hrun : ∀ (rest piece : List Char), c ∉ piece → WellEscaped (piece ++ rest) →
      ∀ other ∈ (piece ++ rest).splitOn c,
        WellEscaped other ∧ c ∉ other ∧ other ⊆ piece ++ rest := by
    intro rest
    induction rest with
    | nil =>
        intro piece hpiece hescaped other hother
        rw [List.append_nil] at hother hescaped
        rw [List.splitOn_eq_singleton hpiece, List.mem_singleton] at hother
        rw [hother, List.append_nil]
        exact ⟨hescaped, hpiece, List.Subset.refl _⟩
    | cons d rest ih =>
        intro piece hpiece hescaped other hother
        by_cases hd : d = c
        · subst hd
          rw [wellEscaped_append hc] at hescaped
          rw [List.splitOn_append_cons_self_of_not_mem hpiece, List.mem_cons] at hother
          rcases hother with rfl | hlater
          · exact ⟨hescaped.1, hpiece, List.subset_append_left _ _⟩
          · obtain ⟨hother, hnot, hsubset⟩ := ih [] (by simp) hescaped.2 other hlater
            exact ⟨hother, hnot, fun e he => by simp [List.nil_append _ ▸ hsubset he]⟩
        · have hmore : c ∉ piece ++ [d] := by
            simp [hpiece, Ne.symm hd]
          rw [List.append_cons] at hescaped hother ⊢
          exact ih (piece ++ [d]) hmore hescaped other hother
  exact hrun text [] (by simp) htext

theorem encode_decode_line {line : List Char} (hline : WellEscaped line) (hnewline : '\n' ∉ line) :
    encode_line (decode_line line) = line := by
  have hpieces := wellEscaped_splitOn (c := '\t') (by decide) hline
  have hsame : ((line.splitOn '\t').map unescape_row).map escaped = line.splitOn '\t' := by
    rw [List.map_map]
    refine (List.map_congr_left (fun piece hpiece => ?_)).trans (List.map_id _)
    obtain ⟨hescaped, htab, hsubset⟩ := hpieces piece hpiece
    exact escaped_unescape hescaped htab (fun hmem => hnewline (hsubset hmem))
  rw [encode_line, decode_line, hsame, join, tab_eq, List.intercalate_splitOn]

theorem encode_decode_rows {text : List Char} (htext : WellEscaped text) :
    encode_rows (decode_rows text) = text := by
  have hlines := wellEscaped_splitOn (c := '\n') (by decide) htext
  have hsame : ((text.splitOn '\n').map decode_line).map encode_line = text.splitOn '\n' := by
    rw [List.map_map]
    refine (List.map_congr_left (fun line hline => ?_)).trans (List.map_id _)
    exact encode_decode_line (hlines line hline).1 (hlines line hline).2.1
  rw [encode_rows, decode_rows, hsame, join, newline_eq, List.intercalate_splitOn]

theorem wellEscaped_join {separator : Char} (hseparator : Text.isSpace separator = true)
    {texts : List (List Char)} (htexts : ∀ text ∈ texts, WellEscaped text) :
    WellEscaped (List.intercalate [separator] texts) := by
  induction texts with
  | nil => simp [WellEscaped]
  | cons first rest ih =>
      obtain ⟨hfirst, hrest⟩ := List.forall_mem_cons.mp htexts
      cases rest with
      | nil => simpa using hfirst
      | cons second others =>
          rw [List.intercalate_cons_cons, List.append_assoc, List.singleton_append,
            wellEscaped_append hseparator]
          exact ⟨hfirst, ih hrest⟩

theorem wellEscaped_encode_rows (rows : Grid) : WellEscaped (encode_rows rows) := by
  refine wellEscaped_join (by decide) (fun line hline => ?_)
  obtain ⟨values, -, rfl⟩ := List.mem_map.mp hline
  refine wellEscaped_join (by decide) (fun text htext => ?_)
  obtain ⟨value, -, rfl⟩ := List.mem_map.mp htext
  have hescaped := (wellEscaped_escaped value []).mpr trivial
  rwa [List.append_nil] at hescaped

theorem length_join (separator : Char) {texts : List (List Char)} (htexts : texts ≠ []) :
    (List.intercalate [separator] texts).length + 1 =
      (texts.map (fun text => text.length + 1)).sum := by
  obtain ⟨first, rest, rfl⟩ := List.exists_cons_of_ne_nil htexts
  rw [Scan.intercalate_cons, List.length_append, List.map_cons, List.sum_cons, List.length_flatMap]
  have hrest : rest.map (fun text => ([separator] ++ text).length) =
      rest.map (fun text => text.length + 1) :=
    List.map_congr_left (fun text _ => by simp)
  rw [hrest]
  omega

def weight (rows : Grid) : Nat := (rows.map (fun values => (encode_line values).length + 1)).sum

theorem weight_append (first second : Grid) :
    weight (first ++ second) = weight first + weight second := by
  rw [weight, List.map_append, List.sum_append, weight, weight]

theorem length_encode_rows {rows : Grid} (hrows : rows ≠ []) :
    (encode_rows rows).length + 1 = weight rows := by
  rw [encode_rows, join, newline_eq, length_join '\n' (by simpa using hrows), List.map_map]
  rfl

theorem mem_join_of_mem {c : Char} {separator : String} {text : List Char}
    {texts : List (List Char)} (htext : text ∈ texts) (hc : c ∈ text) : c ∈ join separator texts := by
  obtain ⟨first, rest, rfl⟩ := List.exists_cons_of_ne_nil (List.ne_nil_of_mem htext)
  rw [join, Scan.intercalate_cons, List.mem_append, List.mem_flatMap]
  rcases List.mem_cons.mp htext with rfl | hlater
  · exact .inl hc
  · exact .inr ⟨text, hlater, List.mem_append_right _ hc⟩

theorem return_mem_escaped {value : List Char} : '\r' ∈ escaped value ↔ '\r' ∈ value := by
  rw [escaped, List.mem_flatMap]
  constructor
  · rintro ⟨c, hc, hreturn⟩
    rw [row_char] at hreturn
    split at hreturn
    · simp at hreturn
    split at hreturn
    · simp at hreturn
    split at hreturn
    · simp at hreturn
    · rwa [List.mem_singleton.mp hreturn]
  · exact fun hmem => ⟨'\r', hmem, by decide⟩

theorem return_mem_encode_rows {rows : Grid} :
    '\r' ∈ encode_rows rows ↔ ∃ row ∈ rows, ∃ value ∈ row, '\r' ∈ value := by
  constructor
  · intro hmem
    rcases mem_join hmem with hnewline | ⟨line, hline, hc⟩
    · exact absurd hnewline (by decide)
    obtain ⟨row, hrow, rfl⟩ := List.mem_map.mp hline
    rcases mem_join hc with htab | ⟨text, htext, hvalue⟩
    · exact absurd htab (by decide)
    obtain ⟨value, hmem, rfl⟩ := List.mem_map.mp htext
    exact ⟨row, hrow, value, hmem, return_mem_escaped.mp hvalue⟩
  · rintro ⟨row, hrow, value, hvalue, hc⟩
    exact mem_join_of_mem (List.mem_map_of_mem hrow)
      (mem_join_of_mem (List.mem_map_of_mem hvalue) (return_mem_escaped.mpr hc))

end Rows

section Trimming

theorem exists_strip (text : List Char) : ∃ before after, text = before ++ (Text.strip text ++ after) ∧
    (∀ c ∈ before, Text.isSpace c = true) ∧ ∀ c ∈ after, Text.isSpace c = true := by
  refine ⟨text.takeWhile Text.isSpace,
    ((Text.lstrip text).reverse.takeWhile Text.isSpace).reverse, ?_, ?_, ?_⟩
  · rw [Text.strip, Text.rstrip, ← List.reverse_append, List.takeWhile_append_dropWhile,
      List.reverse_reverse, Text.lstrip, List.takeWhile_append_dropWhile]
  · exact fun c hc => List.mem_takeWhile_imp hc
  · exact fun c hc => List.mem_takeWhile_imp (List.mem_reverse.mp hc)

theorem wellEscaped_strip {text : List Char} (htext : WellEscaped text) :
    WellEscaped (Text.strip text) := by
  obtain ⟨before, after, hsplit, hbefore, hafter⟩ := exists_strip text
  rw [hsplit] at htext
  have hinner : WellEscaped (Text.strip text ++ after) := by
    clear hsplit
    induction before with
    | nil => exact htext
    | cons c rest ih =>
        obtain ⟨hc, hrest⟩ := List.forall_mem_cons.mp hbefore
        exact ih ((wellEscaped_append hc [] _).mp htext).2 hrest
  cases after with
  | nil => rwa [List.append_nil] at hinner
  | cons c rest => exact ((wellEscaped_append (hafter c List.mem_cons_self) _ rest).mp hinner).1

theorem strip_subset (text : List Char) : Text.strip text ⊆ text := by
  obtain ⟨before, after, hsplit, -, -⟩ := exists_strip text
  intro c hc
  rw [hsplit]
  simp [hc]

theorem strip_eq_of_length {text : List Char} (hlength : text.length ≤ (Text.strip text).length) :
    Text.strip text = text := by
  obtain ⟨before, after, hsplit, -, -⟩ := exists_strip text
  have hsum := congrArg List.length hsplit
  rw [List.length_append, List.length_append] at hsum
  have hbefore : before = [] := List.eq_nil_of_length_eq_zero (by omega)
  have hafter : after = [] := List.eq_nil_of_length_eq_zero (by omega)
  rw [hbefore, hafter, List.nil_append, List.append_nil] at hsplit
  exact hsplit.symm

theorem strip_eq_iff (text : List Char) : Text.strip text = text ↔
    (∀ c ∈ text.head?, Text.isSpace c = false) ∧ ∀ c ∈ text.getLast?, Text.isSpace c = false := by
  constructor
  · intro hstrip
    refine ⟨fun c hc => head_strip text c (hstrip.symm ▸ hc), fun c hc => ?_⟩
    have hlast : (Text.rstrip (Text.lstrip text)).getLast? = some c := by
      rw [Text.strip] at hstrip
      rw [hstrip]
      exact hc
    rw [Text.rstrip, List.getLast?_reverse] at hlast
    have hnot := List.head?_dropWhile_not Text.isSpace (Text.lstrip text).reverse
    rw [hlast] at hnot
    simpa using hnot
  · rintro ⟨hhead, hlast⟩
    have hleft : Text.lstrip text = text := by
      cases text with
      | nil => rfl
      | cons c rest => exact Text.lstrip_cons (hhead c rfl) rest
    rw [Text.strip, hleft]
    cases text using List.reverseRecOn with
    | nil => rfl
    | append_singleton front c =>
        have hc := hlast c List.getLast?_concat
        exact Text.rstrip_append front [] hc

-- A character that is written as no blank.
def WritesBare (c : Char) : Prop := Text.isSpace c = false ∨ c = '\t' ∨ c = '\n'

instance : DecidablePred WritesBare := fun _ => inferInstanceAs (Decidable (_ ∨ _))

def RowStarts (row : List (List Char)) : Prop := ∃ value ∈ row.head?, ∃ c ∈ value.head?, WritesBare c

def RowEnds (row : List (List Char)) : Prop := ∃ value ∈ row.getLast?, ∃ c ∈ value.getLast?, WritesBare c

theorem row_char_ends (c : Char) : (∃ d ∈ (row_char c).head?, Text.isSpace d = false ↔ WritesBare c) ∧
    ∃ d ∈ (row_char c).getLast?, Text.isSpace d = false ↔ WritesBare c := by
  by_cases hslash : c = '\\'
  · subst hslash
    exact ⟨⟨'\\', rfl, by decide⟩, '\\', rfl, by decide⟩
  by_cases htab : c = '\t'
  · subst htab
    exact ⟨⟨'\\', rfl, by decide⟩, 't', rfl, by decide⟩
  by_cases hnewline : c = '\n'
  · subst hnewline
    exact ⟨⟨'\\', rfl, by decide⟩, 'n', rfl, by decide⟩
  · rw [row_char_plain hslash htab hnewline]
    have hbare : WritesBare c ↔ Text.isSpace c = false :=
      ⟨fun h => h.resolve_right (not_or.mpr ⟨htab, hnewline⟩), .inl⟩
    exact ⟨⟨c, rfl, hbare.symm⟩, c, rfl, hbare.symm⟩

-- The text begins with what the first value is written as, and ends with what the last one is.
theorem exists_tail (value : List Char) (values : List (List Char)) (rows : Grid) :
    ∃ tail, encode_rows ((value :: values) :: rows) = escaped value ++ tail ∧
      ∀ c ∈ tail.head?, Text.isSpace c = true := by
  refine ⟨values.flatMap (fun other => '\t' :: escaped other) ++
    rows.flatMap (fun row => '\n' :: encode_line row), ?_, ?_⟩
  · rw [encode_rows, join, List.map_cons, Scan.intercalate_cons, encode_line, join, List.map_cons,
      Scan.intercalate_cons, List.flatMap_map, List.flatMap_map, List.append_assoc]
    rfl
  · intro c hc
    cases values with
    | nil =>
        cases rows with
        | nil => cases hc
        | cons row others =>
            obtain rfl : '\n' = c := Option.some.inj hc
            decide
    | cons other others =>
        obtain rfl : '\t' = c := Option.some.inj hc
        decide

theorem intercalate_concat (separator last : List Char) (texts : List (List Char)) :
    ∃ front, List.intercalate separator (texts ++ [last]) = front ++ last ∧
      (front = [] ∨ ∃ start, front = start ++ separator) := by
  cases texts with
  | nil => exact ⟨[], by simp, .inl rfl⟩
  | cons first rest =>
      refine ⟨first ++ rest.flatMap (separator ++ ·) ++ separator, ?_, .inr ⟨_, rfl⟩⟩
      rw [List.cons_append, Scan.intercalate_cons, List.flatMap_append, List.flatMap_singleton]
      simp only [List.append_assoc]

theorem exists_front (rows : Grid) (values : List (List Char)) (value : List Char) :
    ∃ front, encode_rows (rows ++ [values ++ [value]]) = front ++ escaped value ∧
      ∀ c ∈ front.getLast?, Text.isSpace c = true := by
  obtain ⟨before, hbefore, hnewline⟩ := intercalate_concat "\n".toList
    (encode_line (values ++ [value])) (rows.map encode_line)
  obtain ⟨inner, hinner, htab⟩ := intercalate_concat "\t".toList (escaped value) (values.map escaped)
  refine ⟨before ++ inner, ?_, ?_⟩
  · rw [encode_rows, join, List.map_append, List.map_singleton, hbefore, List.append_assoc, ← hinner,
      encode_line, join, List.map_append, List.map_singleton]
  · intro c hc
    rcases htab with rfl | ⟨start, rfl⟩
    · rw [List.append_nil] at hc
      rcases hnewline with rfl | ⟨start, rfl⟩
      · cases hc
      · rw [newline_eq, List.getLast?_concat] at hc
        obtain rfl : '\n' = c := Option.some.inj hc
        decide
    · rw [tab_eq, ← List.append_assoc, List.getLast?_concat] at hc
      obtain rfl : '\t' = c := Option.some.inj hc
      decide

theorem starts_iff {row : List (List Char)} (hrow : row ≠ []) (rows : Grid) :
    (∃ c ∈ (encode_rows (row :: rows)).head?, Text.isSpace c = false) ↔ RowStarts row := by
  obtain ⟨value, values, rfl⟩ := List.exists_cons_of_ne_nil hrow
  obtain ⟨tail, htail, hblank⟩ := exists_tail value values rows
  rw [htail]
  cases value with
  | nil =>
      constructor
      · rintro ⟨c, hc, hnot⟩
        rw [hblank c hc] at hnot
        cases hnot
      · rintro ⟨other, hother, c, hc, -⟩
        obtain rfl : [] = other := Option.some.inj hother
        cases hc
  | cons c more =>
      obtain ⟨d, hd, hbare⟩ := (row_char_ends c).1
      have hhead : (escaped (c :: more) ++ tail).head? = some d := by
        rw [escaped_cons, List.append_assoc, List.head?_append, hd]
        rfl
      rw [hhead]
      constructor
      · rintro ⟨e, he, hnot⟩
        obtain rfl : d = e := Option.some.inj he
        exact ⟨c :: more, rfl, c, rfl, hbare.mp hnot⟩
      · rintro ⟨other, hother, e, he, hmark⟩
        obtain rfl : c :: more = other := Option.some.inj hother
        obtain rfl : c = e := Option.some.inj he
        exact ⟨d, rfl, hbare.mpr hmark⟩

theorem ends_iff {row : List (List Char)} (hrow : row ≠ []) (rows : Grid) :
    (∃ c ∈ (encode_rows (rows ++ [row])).getLast?, Text.isSpace c = false) ↔ RowEnds row := by
  cases row using List.reverseRecOn with
  | nil => exact absurd rfl hrow
  | append_singleton values value =>
      obtain ⟨front, hfront, hblank⟩ := exists_front rows values value
      rw [hfront]
      cases value using List.reverseRecOn with
      | nil =>
          rw [escaped, List.flatMap_nil, List.append_nil]
          constructor
          · rintro ⟨c, hc, hnot⟩
            rw [hblank c hc] at hnot
            cases hnot
          · rintro ⟨other, hother, c, hc, -⟩
            rw [List.getLast?_concat] at hother
            obtain rfl : [] = other := Option.some.inj hother
            cases hc
      | append_singleton more c =>
          obtain ⟨d, hd, hbare⟩ := (row_char_ends c).2
          have hlast : (front ++ escaped (more ++ [c])).getLast? = some d := by
            rw [escaped, List.flatMap_append, List.flatMap_singleton, List.getLast?_append,
              List.getLast?_append, hd]
            rfl
          rw [hlast]
          constructor
          · rintro ⟨e, he, hnot⟩
            obtain rfl : d = e := Option.some.inj he
            exact ⟨_, List.getLast?_concat, c, List.getLast?_concat, hbare.mp hnot⟩
          · rintro ⟨other, hother, e, he, hmark⟩
            rw [List.getLast?_concat] at hother
            obtain rfl : more ++ [c] = other := Option.some.inj hother
            rw [List.getLast?_concat] at he
            obtain rfl : c = e := Option.some.inj he
            exact ⟨d, rfl, hbare.mpr hmark⟩

-- A text that is not trimmed, and not empty.
theorem untrimmed_iff (text : List Char) : text ≠ [] ∧ Text.strip text = text ↔
    (∃ c ∈ text.head?, Text.isSpace c = false) ∧ ∃ c ∈ text.getLast?, Text.isSpace c = false := by
  rw [strip_eq_iff]
  constructor
  · rintro ⟨hne, hhead, hlast⟩
    obtain ⟨c, hc⟩ := Option.isSome_iff_exists.mp (by simpa using hne : text.head?.isSome)
    obtain ⟨d, hd⟩ := Option.isSome_iff_exists.mp (by simpa using hne : text.getLast?.isSome)
    exact ⟨⟨c, hc, hhead c hc⟩, d, hd, hlast d hd⟩
  · rintro ⟨⟨c, hc, hcnot⟩, d, hd, hdnot⟩
    refine ⟨fun hnil => ?_, fun e he => ?_, fun e he => ?_⟩
    · rw [hnil] at hc
      cases hc
    · rw [Option.mem_unique he hc]
      exact hcnot
    · rw [Option.mem_unique he hd]
      exact hdnot

theorem trimmed_rows_iff {rows : Grid} (hrows : ∀ row ∈ rows, row ≠ []) (hne : rows ≠ []) :
    encode_rows rows ≠ [] ∧ Text.strip (encode_rows rows) = encode_rows rows ↔
      (∃ row ∈ rows.head?, RowStarts row) ∧ ∃ row ∈ rows.getLast?, RowEnds row := by
  rw [untrimmed_iff]
  refine and_congr ?_ ?_
  · obtain ⟨first, rest, rfl⟩ := List.exists_cons_of_ne_nil hne
    rw [starts_iff (hrows first List.mem_cons_self) rest]
    exact ⟨fun h => ⟨first, rfl, h⟩, fun ⟨row, hrow, h⟩ => Option.some.inj hrow ▸ h⟩
  · cases rows using List.reverseRecOn with
    | nil => exact absurd rfl hne
    | append_singleton front last =>
        rw [ends_iff (hrows last (List.mem_append_right _ List.mem_cons_self)) front,
          List.getLast?_concat]
        exact ⟨fun h => ⟨last, rfl, h⟩, fun ⟨row, hrow, h⟩ => Option.some.inj hrow ▸ h⟩

end Trimming

section Tables

variable (tokenizer : Tokenizer) (table : CanonicalTable)

def value_rows : Grid := (List.range table.row_count).map (row_values table)

def header_values : Grid := (value_rows table).take table.header_row_count

def body_values : Grid := (value_rows table).drop table.header_row_count

-- The unit's own part in the checks of a chunk that has no other unit.
def Accepted (unit : ChunkUnit) : Prop :=
  chunk_text [unit] ≠ [] ∧ 1 ≤ tokenizer.count (chunk_text [unit])

structure Decodable (units : List ChunkUnit) : Prop where
  accepted : ∀ unit ∈ units, Accepted tokenizer unit
  runs : ∃ runs : List Grid, List.Forall₂ (fun unit run =>
      decode_rows unit.text = header_values table ++ run) units runs ∧
    runs.flatten = body_values table

-- No row that a chunk can begin with begins blank, no row that it can end with ends blank,
-- and no text has the line end that is written as another one.
structure Untrimmed : Prop where
  no_return : ∀ row ∈ value_rows table, ∀ value ∈ row, '\r' ∉ value
  starts : ∀ row ∈ if header_values table = [] then body_values table else
    (header_values table).head?.toList, RowStarts row
  ends : ∀ row ∈ if body_values table = [] then (header_values table).getLast?.toList else
    body_values table, RowEnds row

theorem value_rows_eq : value_rows table = header_values table ++ body_values table :=
  (List.take_append_drop _ _).symm

theorem row_values_length (row_index : Nat) :
    (row_values table row_index).length = table.column_count := by
  have hfold : ∀ (cells : List CanonicalCell) (values : List (List Char)),
      (cells.foldl (fun values cell => if cell.row_index0 = row_index then
        values.set cell.column_index0 cell.text else values) values).length = values.length := by
    intro cells
    induction cells with
    | nil => exact fun values => rfl
    | cons cell rest ih =>
        intro values
        rw [List.foldl_cons, ih]
        split
        · exact List.length_set
        · rfl
  rw [row_values, hfold, List.length_replicate]

theorem value_rows_ne : ∀ row ∈ value_rows table, row ≠ [] := by
  rintro row hrow rfl
  obtain ⟨row_index, -, hvalues⟩ := List.mem_map.mp hrow
  have hlength := row_values_length table row_index
  rw [hvalues] at hlength
  have hpos := table.column_count_pos
  rw [← hlength] at hpos
  cases hpos

def row_text (values : List (List Char)) : List Char := join "\t" (values.map escape_row_text)

theorem table_rows_eq : table_rows table = (value_rows table).map row_text := by
  rw [table_rows, value_rows, List.map_map]
  rfl

theorem join_row_text (rows : Grid) :
    join "\n" (rows.map row_text) = encode_rows (rows.map (·.map normalized)) := by
  rw [encode_rows, List.map_map]
  congr 1
  refine List.map_congr_left (fun values _ => ?_)
  rw [row_text, Function.comp_apply, encode_line, List.map_map]
  congr 1
  exact List.map_congr_left (fun value _ => escape_row_text_eq value)

theorem exists_parts_of_map {α β : Type} (change : α → β) {parts : List (List β)} {items : List α}
    (hparts : parts.flatten = items.map change) :
    ∃ groups : List (List α), groups.flatten = items ∧ parts = groups.map (·.map change) := by
  induction parts generalizing items with
  | nil =>
      have hitems : items = [] := by simpa using hparts.symm
      exact ⟨[], hitems.symm, rfl⟩
  | cons part rest ih =>
      rw [List.flatten_cons] at hparts
      obtain ⟨first, others, rfl, hfirst, hothers⟩ := List.map_eq_append_iff.mp hparts.symm
      obtain ⟨groups, hgroups, hrest⟩ := ih hothers.symm
      exact ⟨first :: groups, by rw [List.flatten_cons, hgroups], by rw [List.map_cons, hfirst, hrest]⟩

theorem flatten_singletons {α : Type} (items : List α) : (items.map ([·])).flatten = items := by
  induction items with
  | nil => rfl
  | cons item rest ih => rw [List.map_cons, List.flatten_cons, ih, List.singleton_append]

theorem body_parts_flatten (max_tokens : Int) (headers body : List (List Char)) :
    (body_parts tokenizer max_tokens headers body).flatten = body ∧
      ∀ part ∈ body_parts tokenizer max_tokens headers body, part ≠ [] := by
  have hgroups : ∀ group ∈ body.map ([·]), group ≠ [] := by
    intro group hgroup
    obtain ⟨row, -, rfl⟩ := List.mem_map.mp hgroup
    exact List.cons_ne_nil _ _
  obtain ⟨bundles, hflatten, hpack, hfilled⟩ := @Packing.pack_bundles (List Char)
    (fun current row => tokenizer.count (Text.strip (join "\n" (headers ++ (current ++ row)))) ≤
      max_tokens) _ (fun _ => True) (fun _ _ _ => trivial) _ hgroups [] (by simp) (by simp)
  rw [List.nil_append] at hflatten
  rw [List.flatten_nil] at hpack
  unfold body_parts
  rw [hpack]
  constructor
  · rw [← List.flatten_flatten, hflatten, flatten_singletons]
  · intro part hpart
    obtain ⟨bundle, hbundle, rfl⟩ := List.mem_map.mp hpart
    obtain ⟨group, rest, rfl⟩ := List.exists_cons_of_ne_nil (hfilled bundle hbundle).1
    have hgroup : group ∈ body.map ([·]) :=
      hflatten ▸ List.mem_flatten.mpr ⟨_, hbundle, List.mem_cons_self⟩
    rw [List.flatten_cons]
    exact List.append_ne_nil_of_left_ne_nil (hgroups group hgroup) _

-- With no room for two rows every row has a chunk of its own.
theorem body_parts_single (hcount : ∀ text, 1 ≤ tokenizer.count text)
    (headers body : List (List Char)) : body_parts tokenizer 0 headers body = body.map ([·]) := by
  have hnone : ∀ current row : List (List Char),
      ¬tokenizer.count (Text.strip (join "\n" (headers ++ (current ++ row)))) ≤ 0 := by
    intro current row
    have hone := hcount (Text.strip (join "\n" (headers ++ (current ++ row))))
    omega
  have hrun : ∀ (rest : List (List Char)) (row : List Char), Packing.pack
      (fun current row => tokenizer.count (Text.strip (join "\n" (headers ++ (current ++ row)))) ≤ 0)
      [row] (rest.map ([·])) = [row] :: rest.map ([·]) := by
    intro rest
    induction rest with
    | nil => exact fun row => rfl
    | cons next rest ih =>
        intro row
        rw [List.map_cons, Packing.pack, if_pos ⟨List.cons_ne_nil _ _, hnone _ _⟩, ih]
  cases body with
  | nil => rfl
  | cons row rest =>
      rw [body_parts, List.map_cons, Packing.pack, if_neg (fun h => h.1 rfl), List.nil_append, hrun]

variable {tokenizer table}

theorem exists_table_parts (max_tokens : Int) {block : CanonicalBlock} (path : List (List Char))
    (htable : block.table = some table) (hspans : ∀ cell ∈ table.cells, cell.row_span = 1) :
    ∃ parts : List Grid, _table_units tokenizer max_tokens block path = parts.map (fun part =>
        table_unit tokenizer max_tokens block path ((header_values table ++ part).map row_text)) ∧
      parts.flatten = body_values table ∧ parts ≠ [] ∧
      (body_values table ≠ [] → ∀ part ∈ parts, part ≠ []) ∧
      (max_tokens = 0 → (∀ text, 1 ≤ tokenizer.count text) → body_values table ≠ [] →
        parts = (body_values table).map ([·])) := by
  have hany : table.cells.any (fun cell => decide (1 < cell.row_span)) = false := by
    rw [List.any_eq_false]
    intro cell hcell
    simp [hspans cell hcell]
  have hheaders : (table_rows table).take table.header_row_count =
      (header_values table).map row_text := by rw [table_rows_eq, ← List.map_take]; rfl
  have hbody : (table_rows table).drop table.header_row_count =
      (body_values table).map row_text := by rw [table_rows_eq, ← List.map_drop]; rfl
  simp only [_table_units, htable, hany, hheaders, hbody, Bool.false_eq_true, if_false]
  by_cases hempty : body_values table = []
  · refine ⟨[[]], ?_, by rw [hempty]; rfl, List.cons_ne_nil _ _, fun hne => absurd hempty hne,
      fun _ _ hne => absurd hempty hne⟩
    rw [if_pos (by rw [hempty]; rfl)]
    simp
  · rw [if_neg (by simpa using hempty)]
    obtain ⟨hflatten, hfilled⟩ := body_parts_flatten tokenizer max_tokens
      ((header_values table).map row_text) ((body_values table).map row_text)
    obtain ⟨parts, hparts, hmap⟩ := exists_parts_of_map row_text hflatten
    refine ⟨parts, ?_, hparts, ?_, ?_, ?_⟩
    · rw [hmap, List.map_map]
      refine List.map_congr_left (fun part _ => ?_)
      rw [Function.comp_apply, List.map_append]
    · rintro rfl
      exact hempty hparts.symm
    · rintro - part hpart rfl
      exact hfilled [] (hmap ▸ List.mem_map_of_mem hpart) rfl
    · rintro rfl hcount -
      rw [body_parts_single tokenizer hcount] at hmap
      have hone : ∀ part ∈ parts, ∃ row, part = [row] := by
        intro part hpart
        have hmem := List.mem_map_of_mem (f := List.map row_text) hpart
        rw [← hmap] at hmem
        obtain ⟨text, -, htext⟩ := List.mem_map.mp hmem
        obtain ⟨row, hrow, -⟩ := List.map_eq_singleton_iff.mp htext.symm
        exact ⟨row, hrow⟩
      rw [← hparts]
      clear hmap hparts hflatten hfilled
      induction parts with
      | nil => rfl
      | cons part rest ih =>
          obtain ⟨⟨row, rfl⟩, hrest⟩ := List.forall_mem_cons.mp hone
          rw [List.flatten_cons, List.singleton_append, List.map_cons, ← ih hrest]

theorem text_table_unit (max_tokens : Int) (block : CanonicalBlock) (path : List (List Char))
    (rows : Grid) : (table_unit tokenizer max_tokens block path (rows.map row_text)).text =
      Text.strip (encode_rows (rows.map (·.map normalized))) := by
  rw [table_unit, join_row_text]

theorem chunk_text_unit (unit : ChunkUnit) : chunk_text [unit] = Text.strip unit.text := by
  rw [chunk_text, List.map_singleton, join, List.intercalate_singleton]

theorem map_normalized {rows : Grid} (hrows : ∀ row ∈ rows, ∀ value ∈ row, '\r' ∉ value) :
    rows.map (·.map normalized) = rows := by
  refine (List.map_congr_left (fun row hrow => ?_)).trans (List.map_id rows)
  refine (List.map_congr_left (fun value hvalue => ?_)).trans (List.map_id row)
  exact normalized_of_plain (hrows row hrow value hvalue)

-- The rows of a chunk: the headers, and then some of the body.
theorem rows_of_part {parts : List Grid} (hflatten : parts.flatten = body_values table)
    (hfilled : body_values table ≠ [] → ∀ part ∈ parts, part ≠ []) {part : Grid}
    (hpart : part ∈ parts) :
    header_values table ++ part ≠ [] ∧
      (∀ row ∈ header_values table ++ part, row ∈ value_rows table) := by
  have hsubset : ∀ row ∈ part, row ∈ body_values table :=
    fun row hrow => hflatten ▸ List.mem_flatten.mpr ⟨part, hpart, hrow⟩
  constructor
  · intro hnil
    obtain ⟨hheaders, hrows⟩ := List.append_eq_nil_iff.mp hnil
    have hbody : body_values table = [] := by
      by_contra hne
      exact hfilled hne part hpart hrows
    have hall := value_rows_eq table
    rw [hheaders, hbody, List.append_nil] at hall
    have hlength := congrArg List.length hall
    rw [value_rows, List.length_map, List.length_range, List.length_nil] at hlength
    have hpos := table.row_count_pos
    omega
  · intro row hrow
    rw [value_rows_eq]
    rcases List.mem_append.mp hrow with hheader | hbody
    · exact List.mem_append_left _ hheader
    · exact List.mem_append_right _ (hsubset row hbody)

theorem Untrimmed.ends_of_part (huntrimmed : Untrimmed table) {parts : List Grid}
    (hflatten : parts.flatten = body_values table)
    (hfilled : body_values table ≠ [] → ∀ part ∈ parts, part ≠ []) {part : Grid}
    (hpart : part ∈ parts) :
    (∃ row ∈ (header_values table ++ part).head?, RowStarts row) ∧
      ∃ row ∈ (header_values table ++ part).getLast?, RowEnds row := by
  have hsubset : ∀ row ∈ part, row ∈ body_values table :=
    fun row hrow => hflatten ▸ List.mem_flatten.mpr ⟨part, hpart, hrow⟩
  have hne := (rows_of_part hflatten hfilled hpart).1
  constructor
  · have hstarts := huntrimmed.starts
    cases hheaders : header_values table with
    | nil =>
        rw [if_pos hheaders] at hstarts
        rw [hheaders, List.nil_append] at hne
        obtain ⟨row, rest, rfl⟩ := List.exists_cons_of_ne_nil hne
        exact ⟨row, rfl, hstarts row (hsubset row List.mem_cons_self)⟩
    | cons row rest =>
        rw [hheaders, if_neg (List.cons_ne_nil _ _)] at hstarts
        exact ⟨row, rfl, hstarts row (by simp)⟩
  · have hends := huntrimmed.ends
    by_cases hbody : body_values table = []
    · have hnil : part = [] := List.eq_nil_iff_forall_not_mem.mpr (fun row hrow => by
        simpa [hbody] using hsubset row hrow)
      rw [if_pos hbody] at hends
      rw [hnil, List.append_nil] at hne ⊢
      obtain ⟨row, hrow⟩ := Option.isSome_iff_exists.mp
        (by simpa using hne : (header_values table).getLast?.isSome)
      exact ⟨row, hrow, hends row (by simp [hrow])⟩
    · rw [if_neg hbody] at hends
      obtain ⟨row, hrow⟩ := Option.isSome_iff_exists.mp
        (by simpa using hfilled hbody part hpart : part.getLast?.isSome)
      refine ⟨row, ?_, hends row (hsubset row (List.mem_of_getLast? hrow))⟩
      rw [List.getLast?_append, hrow]
      rfl

theorem decodable_of_untrimmed (hcount : ∀ text, 1 ≤ tokenizer.count text) (max_tokens : Int)
    {block : CanonicalBlock} (path : List (List Char)) (htable : block.table = some table)
    (hspans : ∀ cell ∈ table.cells, cell.row_span = 1) (huntrimmed : Untrimmed table) :
    Decodable tokenizer table (_table_units tokenizer max_tokens block path) := by
  obtain ⟨parts, hunits, hflatten, -, hfilled, -⟩ :=
    exists_table_parts max_tokens path htable hspans
  have htext : ∀ part ∈ parts,
      (table_unit tokenizer max_tokens block path ((header_values table ++ part).map row_text)).text =
        encode_rows (header_values table ++ part) ∧ encode_rows (header_values table ++ part) ≠ [] ∧
      Text.strip (encode_rows (header_values table ++ part)) =
        encode_rows (header_values table ++ part) := by
    intro part hpart
    obtain ⟨hne, hrows⟩ := rows_of_part hflatten hfilled hpart
    have hplain := map_normalized (fun row hrow => huntrimmed.no_return row (hrows row hrow))
    have hends := (trimmed_rows_iff (fun row hrow => value_rows_ne table row (hrows row hrow)) hne).mpr
      (huntrimmed.ends_of_part hflatten hfilled hpart)
    rw [text_table_unit, hplain]
    exact ⟨hends.2, hends⟩
  constructor
  · intro unit hunit
    rw [hunits] at hunit
    obtain ⟨part, hpart, rfl⟩ := List.mem_map.mp hunit
    obtain ⟨hsame, hne, hstrip⟩ := htext part hpart
    refine ⟨?_, hcount _⟩
    rwa [chunk_text_unit, hsame, hstrip]
  · refine ⟨parts, ?_, hflatten⟩
    rw [hunits, List.forall₂_map_left_iff]
    refine List.forall₂_same.mpr (fun part hpart => ?_)
    obtain ⟨hne, hrows⟩ := rows_of_part hflatten hfilled hpart
    rw [(htext part hpart).1]
    exact decode_encode_rows hne (fun row hrow => value_rows_ne table row (hrows row hrow))

-- With the headers before each part the rows of all chunks are as heavy as the parts' rows.
theorem sum_weights (headers : Grid) (parts : List Grid) :
    (parts.map (fun part => weight (headers ++ part))).sum =
      parts.length * weight headers + weight parts.flatten := by
  induction parts with
  | nil => simp [weight]
  | cons part rest ih =>
      rw [List.map_cons, List.sum_cons, ih, List.flatten_cons, weight_append, weight_append,
        List.length_cons]
      ring

theorem decode_rows_ne (text : List Char) : decode_rows text ≠ [] := by
  rw [decode_rows, ne_eq, List.map_eq_nil_iff]
  exact List.splitOn_ne_nil _ _

theorem forall_right_of_forall₂ {α β : Type} {holds : β → Prop} {items : List α} {others : List β}
    (hall : List.Forall₂ (fun _ other => holds other) items others) : ∀ other ∈ others, holds other := by
  induction hall with
  | nil => simp
  | cons hhead _ ih => exact List.forall_mem_cons.mpr ⟨hhead, ih⟩

-- Texts that are decoded to the rows of the table are as long as these are written.
theorem untrimmed_parts {headers body : Grid} {parts runs : List Grid} (hparts : parts.flatten = body)
    (hruns : runs.flatten = body) (hsome : ∀ part ∈ parts, headers ++ part ≠ [])
    (hdecoded : List.Forall₂ (fun part run => decode_rows (Text.strip (encode_rows
      ((headers ++ part).map (·.map normalized)))) = headers ++ run) parts runs)
    (hne : parts ≠ []) :
    (∀ row ∈ headers ++ body, ∀ value ∈ row, '\r' ∉ value) ∧
      ∀ part ∈ parts, Text.strip (encode_rows (headers ++ part)) = encode_rows (headers ++ part) := by
  have hencoded : List.Forall₂ (fun part run => headers ++ run ≠ [] ∧
      Text.strip (encode_rows ((headers ++ part).map (·.map normalized))) =
        encode_rows (headers ++ run)) parts runs := by
    refine hdecoded.imp (fun part run hdecode => ⟨hdecode ▸ decode_rows_ne _, ?_⟩)
    rw [← hdecode, encode_decode_rows (wellEscaped_strip (wellEscaped_encode_rows _))]
  have hplain : ∀ run ∈ runs, ∀ row ∈ headers ++ run, ∀ value ∈ row, '\r' ∉ value := by
    refine forall_right_of_forall₂ (hencoded.imp (fun part run hencode => ?_))
    intro row hrow value hvalue hreturn
    have hmem := return_mem_encode_rows.mpr ⟨row, hrow, value, hvalue, hreturn⟩
    rw [← hencode.2] at hmem
    obtain ⟨_, hnormal, other, hother, hc⟩ := return_mem_encode_rows.mp (strip_subset _ hmem)
    obtain ⟨source, -, rfl⟩ := List.mem_map.mp hnormal
    obtain ⟨_, -, rfl⟩ := List.mem_map.mp hother
    exact return_not_mem_normalized _ hc
  have hall : ∀ row ∈ headers ++ body, ∀ value ∈ row, '\r' ∉ value := by
    intro row hrow
    rcases List.mem_append.mp hrow with hheader | hbody
    · obtain ⟨part, rest, rfl⟩ := List.exists_cons_of_ne_nil hne
      obtain ⟨run, others, -, -, rfl⟩ := List.forall₂_cons_left_iff.mp hdecoded
      exact hplain run List.mem_cons_self row (List.mem_append_left _ hheader)
    · obtain ⟨run, hrun, hmem⟩ := List.mem_flatten.mp (hruns.symm ▸ hbody)
      exact hplain run hrun row (List.mem_append_right _ hmem)
  have hsame : ∀ part ∈ parts, (headers ++ part).map (·.map normalized) = headers ++ part := by
    refine fun part hpart => map_normalized (fun row hrow => hall row ?_)
    rcases List.mem_append.mp hrow with hheader | hmem
    · exact List.mem_append_left _ hheader
    · exact List.mem_append_right _ (hparts ▸ List.mem_flatten.mpr ⟨part, hpart, hmem⟩)
  refine ⟨hall, ?_⟩
  have hlinks : List.Forall₂ (fun part run => weight (headers ++ run) =
      (Text.strip (encode_rows (headers ++ part))).length + 1) parts runs := by
    refine ((List.forall₂_and_left parts runs).mpr ⟨fun part hpart => hpart, hencoded⟩).imp ?_
    rintro part run ⟨hpart, hrun, hencode⟩
    rw [hsame part hpart] at hencode
    rw [hencode, length_encode_rows hrun]
  have hle : ∀ part ∈ parts, (Text.strip (encode_rows (headers ++ part))).length + 1 ≤
      weight (headers ++ part) := by
    intro part hpart
    rw [← length_encode_rows (hsome part hpart)]
    exact Nat.add_le_add_right (length_strip_le _) 1
  have hsums : (parts.map (fun part => weight (headers ++ part))).sum ≤
      (parts.map (fun part => (Text.strip (encode_rows (headers ++ part))).length + 1)).sum := by
    rw [← map_eq_of_forall₂ hlinks, sum_weights, sum_weights, hparts, hruns, hdecoded.length_eq]
  intro part hpart
  refine strip_eq_of_length ?_
  by_contra hshort
  refine absurd (List.sum_lt_sum _ _ hle ⟨part, hpart, ?_⟩) (not_lt.mpr hsums)
  rw [← length_encode_rows (hsome part hpart)]
  omega

theorem untrimmed_of_decodable (hcount : ∀ text, 1 ≤ tokenizer.count text)
    {block : CanonicalBlock} (path : List (List Char)) (htable : block.table = some table)
    (hspans : ∀ cell ∈ table.cells, cell.row_span = 1)
    (hdecodable : Decodable tokenizer table (_table_units tokenizer 0 block path)) :
    Untrimmed table := by
  obtain ⟨parts, hunits, hflatten, hsome, hfilled, hsingle⟩ :=
    exists_table_parts 0 path htable hspans
  obtain ⟨haccepted, runs, hruns, hbody⟩ := hdecodable
  rw [hunits, List.forall₂_map_left_iff] at hruns
  have hrows := fun part (hpart : part ∈ parts) => rows_of_part hflatten hfilled hpart
  obtain ⟨hplain, hstrip⟩ := untrimmed_parts hflatten hbody (fun part hpart => (hrows part hpart).1)
    (hruns.imp (fun part run hdecode => (text_table_unit 0 block path _) ▸ hdecode)) hsome
  rw [← value_rows_eq] at hplain
  have hends : ∀ part ∈ parts, (∃ row ∈ (header_values table ++ part).head?, RowStarts row) ∧
      ∃ row ∈ (header_values table ++ part).getLast?, RowEnds row := by
    intro part hpart
    refine (trimmed_rows_iff (fun row hrow => value_rows_ne table row ((hrows part hpart).2 row hrow))
      (hrows part hpart).1).mp ⟨fun hnil => ?_, hstrip part hpart⟩
    have hne := (haccepted _ (hunits ▸ List.mem_map_of_mem hpart)).1
    rw [chunk_text_unit, text_table_unit,
      map_normalized (fun row hrow => hplain row ((hrows part hpart).2 row hrow)), hnil] at hne
    exact hne rfl
  refine ⟨hplain, fun row hrow => ?_, fun row hrow => ?_⟩
  · split at hrow
    · rename_i hheaders
      have hne := List.ne_nil_of_mem hrow
      rw [hsingle rfl hcount hne] at hends
      obtain ⟨other, hother, hstarts⟩ := (hends [row] (List.mem_map_of_mem hrow)).1
      rw [hheaders] at hother
      exact Option.some.inj hother ▸ hstarts
    · rename_i hheaders
      obtain ⟨part, hpart⟩ := List.exists_mem_of_ne_nil parts hsome
      obtain ⟨other, hother, hstarts⟩ := (hends part hpart).1
      rw [List.head?_append_of_ne_nil _ hheaders] at hother
      rw [Option.mem_toList] at hrow
      exact Option.mem_unique hother hrow ▸ hstarts
  · split at hrow
    · rename_i hempty
      obtain ⟨part, hpart⟩ := List.exists_mem_of_ne_nil parts hsome
      have hnil : part = [] := by
        refine List.eq_nil_iff_forall_not_mem.mpr (fun other hother => ?_)
        have hmem := List.mem_flatten.mpr ⟨part, hpart, hother⟩
        rw [hflatten, hempty] at hmem
        cases hmem
      obtain ⟨other, hother, hlast⟩ := (hends part hpart).2
      rw [hnil, List.append_nil] at hother
      rw [Option.mem_toList] at hrow
      exact Option.mem_unique hother hrow ▸ hlast
    · have hne := List.ne_nil_of_mem hrow
      rw [hsingle rfl hcount hne] at hends
      obtain ⟨other, hother, hlast⟩ := (hends [row] (List.mem_map_of_mem hrow)).2
      rw [List.getLast?_concat] at hother
      exact Option.some.inj hother ▸ hlast

-- Every limit gives chunks that can be read back just when nothing is trimmed.
theorem table_units_decodable_iff (hcount : ∀ text, 1 ≤ tokenizer.count text)
    {block : CanonicalBlock} (path : List (List Char)) (htable : block.table = some table)
    (hspans : ∀ cell ∈ table.cells, cell.row_span = 1) :
    (∀ max_tokens, Decodable tokenizer table (_table_units tokenizer max_tokens block path)) ↔
      Untrimmed table :=
  ⟨fun hall => untrimmed_of_decodable hcount path htable hspans (hall 0),
    fun huntrimmed max_tokens =>
      decodable_of_untrimmed hcount max_tokens path htable hspans huntrimmed⟩

end Tables

section Samples

-- The matches of the estimating tokenizer's pattern in an ASCII text.
def ascii_tokens (in_word : Bool) : List Char → Nat
  | [] => 0
  | c :: rest =>
      if c.isAlphanum || c = '_' then (if in_word then 0 else 1) + ascii_tokens true rest
      else if Text.isSpace c then ascii_tokens false rest
      else 1 + ascii_tokens false rest

def estimator : Tokenizer where
  name := "akmp-unicode-estimator-v1"
  count text := max 1 (ascii_tokens false text)

theorem estimator_count (text : List Char) : 1 ≤ estimator.count text :=
  le_max_left 1 (ascii_tokens false text : Int)

section Labelled

variable (corner : String)

def labelled_cells : List CanonicalCell :=
  [sample_cell 0 0 corner, sample_cell 0 1 "2024", sample_cell 1 0 "sales", sample_cell 1 1 "7"]

theorem labelled_ne : labelled_cells corner ≠ [] := List.cons_ne_nil _ _

theorem labelled_within : ∀ cell ∈ labelled_cells corner,
    cell.row_index0 + cell.row_span ≤ 2 ∧ cell.column_index0 + cell.column_span ≤ 2 := by
  simp [labelled_cells, sample_cell]

theorem labelled_apart : (labelled_cells corner).Pairwise CanonicalCell.Apart := by
  simp only [labelled_cells, List.pairwise_cons, List.mem_cons, List.not_mem_nil, or_false,
    forall_eq_or_imp, forall_eq, IsEmpty.forall_iff, implies_true, List.Pairwise.nil, and_true]
  refine ⟨⟨?_, ?_, ?_⟩, ⟨?_, ?_⟩, ?_⟩
  all_goals
    rintro row column ⟨⟨hfirst, hlast⟩, hleft, hright⟩ ⟨⟨hother, hend⟩, hstart, hstop⟩
    simp only [sample_cell] at hfirst hlast hleft hright hother hend hstart hstop
    omega

-- A head of labels over one row, with the first label given.
def labelled_table : CanonicalTable where
  id := "table"
  row_count := 2
  column_count := 2
  header_row_count := 1
  cells := labelled_cells corner
  caption := none
  row_count_pos := Nat.two_pos
  column_count_pos := Nat.two_pos
  header_le := Nat.two_pos
  cells_ne := labelled_ne corner
  within := labelled_within corner
  apart := labelled_apart corner

end Labelled

def table_block (table : CanonicalTable) : CanonicalBlock :=
  { sample_paragraph "block" 0 [] with
    type := .table
    table := some table
    table_iff := by simp
    formula_given := by simp }

theorem labelled_spans (corner : String) :
    ∀ cell ∈ (labelled_table corner).cells, cell.row_span = 1 := by
  simp [labelled_table, labelled_cells, sample_cell]

-- The label of the second column stands over the first one.
theorem blank_corner_shifted :
    (_table_units estimator 1200 (table_block (labelled_table "")) []).map
        (fun unit => decode_rows unit.text) = [[["2024".toList], ["sales".toList, "7".toList]]] ∧
      value_rows (labelled_table "") = [[[], "2024".toList], ["sales".toList, "7".toList]] ∧
      ¬Decodable estimator (labelled_table "")
        (_table_units estimator 1200 (table_block (labelled_table "")) []) := by
  have hdecoded : (_table_units estimator 1200 (table_block (labelled_table "")) []).map
      (fun unit => decode_rows unit.text) = [[["2024".toList], ["sales".toList, "7".toList]]] := by
    decide
  refine ⟨hdecoded, by decide, fun hdecodable => ?_⟩
  obtain ⟨runs, hruns, -⟩ := hdecodable.runs
  have hheaders : header_values (labelled_table "") = [[[], "2024".toList]] := by decide
  have hfirst := map_eq_of_forall₂ (hruns.flip.imp (fun _ _ hdecode => hdecode) :
    List.Forall₂ (fun run (unit : ChunkUnit) => decode_rows unit.text =
      header_values (labelled_table "") ++ run) runs _)
  rw [hdecoded, hheaders] at hfirst
  cases runs with
  | nil => cases hfirst
  | cons run rest =>
      have hrow := (List.cons.inj (List.cons.inj hfirst).1).1
      revert hrow
      decide

theorem labelled_decodable :
    (∀ max_tokens, Decodable estimator (labelled_table "region")
      (_table_units estimator max_tokens (table_block (labelled_table "region")) [])) ↔
      Untrimmed (labelled_table "region") :=
  table_units_decodable_iff estimator_count [] rfl (labelled_spans "region")

end Samples

end KnowledgeCompiler.Exporters
