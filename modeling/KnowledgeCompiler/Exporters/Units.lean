import KnowledgeCompiler.Exporters.Blocks
import KnowledgeCompiler.Lib.Packing

namespace KnowledgeCompiler.Exporters

open Lib

structure Tokenizer where
  name : String
  count : List Char → Int

structure ChunkUnit where
  text : List Char
  blocks : List CanonicalBlock
  heading_path : List (List Char)
  content_type : String
  standalone : Bool := false

def join (separator : String) (texts : List (List Char)) : List Char :=
  List.intercalate separator.toList texts

section Rows

-- `value.replace("\r\n", "\n")`
def replace_crlf : List Char → List Char
  | [] => []
  | '\r' :: '\n' :: rest => '\n' :: replace_crlf rest
  | c :: rest => c :: replace_crlf rest

def escape_row_text (value : List Char) : List Char :=
  replace '\n' "\\n".toList (replace '\t' "\\t".toList (replace '\\' "\\\\".toList
    (replace '\r' "\n".toList (replace_crlf value))))

def row_values (table : CanonicalTable) (row_index : Nat) : List (List Char) :=
  table.sorted_cells.foldl
    (fun values cell =>
      if cell.row_index0 = row_index then values.set cell.column_index0 cell.text else values)
    (List.replicate table.column_count [])

def _table_row_text (table : CanonicalTable) (row_index : Nat) : List Char :=
  join "\t" ((row_values table row_index).map escape_row_text)

def table_rows (table : CanonicalTable) : List (List Char) :=
  (List.range table.row_count).map (_table_row_text table)

end Rows

def _block_text (block : CanonicalBlock) : List Char :=
  match block.type, block.table, block.formula_latex with
  | .table, some table, _ => join "\n" (table_rows table)
  | .formula, _, some latex =>
      if latex = [] then
        Text.strip (first_text
          [block.markdown, block.normalized_text, block.raw_text, block.sanitized_html])
      else "$$\n".toList ++ Text.strip latex ++ "\n$$".toList
  | _, _, _ =>
      Text.strip (first_text
        [block.markdown, block.normalized_text, block.raw_text, block.sanitized_html])

def _heading (block : CanonicalBlock) (text : List Char) : Option (Nat × List Char) :=
  match block.type with
  | .title => some (1, strip_marks text)
  | .heading => some ((match_heading text).getD (1, text))
  | _ => none

-- The stack has its top first.
abbrev HeadingStack := List (Nat × List Char)

def _update_heading_stack (stack : HeadingStack) (source_level : Nat) (text : List Char) :
    HeadingStack :=
  (source_level, text) :: stack.dropWhile (fun heading => source_level ≤ heading.1)

def heading_path (stack : HeadingStack) : List (List Char) := (stack.map Prod.snd).reverse

section Units

variable (tokenizer : Tokenizer) (max_tokens : Int)

def oversized (text : List Char) (content_type : BlockType) : String :=
  if max_tokens < tokenizer.count text then content_type.value ++ "_oversized"
  else content_type.value

def table_unit (block : CanonicalBlock) (path : List (List Char)) (rows : List (List Char)) :
    ChunkUnit :=
  let text := Text.strip (join "\n" rows)
  { text, blocks := [block], heading_path := path
    content_type := oversized tokenizer max_tokens text .table, standalone := true }

-- The rows of each part, as many as go with the headers into the limit.
def body_parts (headers body : List (List Char)) : List (List (List Char)) :=
  Packing.pack (fun current row =>
      tokenizer.count (Text.strip (join "\n" (headers ++ (current ++ row)))) ≤ max_tokens)
    [] (body.map ([·]))

def _table_units (block : CanonicalBlock) (path : List (List Char)) : List ChunkUnit :=
  match block.table with
  | none => []
  | some table =>
      let all_rows := table_rows table
      let headers := all_rows.take table.header_row_count
      let body := all_rows.drop table.header_row_count
      if table.cells.any (fun cell => 1 < cell.row_span) then
        [table_unit tokenizer max_tokens block path all_rows]
      else if body = [] then [table_unit tokenizer max_tokens block path headers]
      else
        (body_parts tokenizer max_tokens headers body).map (fun rows =>
          table_unit tokenizer max_tokens block path (headers ++ rows))

-- The largest number of characters that the search finds to be within the limit.
def search_cut (remaining : List Char) (low high : Nat) : Nat :=
  if low < high then
    let midpoint := (low + high + 1) / 2
    if tokenizer.count (remaining.take midpoint) ≤ max_tokens then
      search_cut remaining midpoint high
    else search_cut remaining low (midpoint - 1)
  else low
termination_by high - low
decreasing_by
  all_goals omega

-- The last place of a blank or a line end before the cut, `-1` where there is none.
def last_blank (remaining : List Char) (cut : Nat) : Int :=
  let places := (List.range (min cut remaining.length)).filter
    (fun index => remaining[index]? = some ' ' || remaining[index]? = some '\n')
  (places.getLast?.map Int.ofNat).getD (-1)

-- At a blank in the second half of what fits, if there is one.
def cut_place (remaining : List Char) (low : Nat) : Nat :=
  let cut := max 1 low
  let whitespace := last_blank remaining cut
  if (cut / 2 : Nat) ≤ whitespace then whitespace.toNat else cut

-- The next piece, and how much of the text it takes.
def next_piece (remaining : List Char) : List Char × Nat :=
  let low := search_cut tokenizer max_tokens remaining 1 remaining.length
  let cut := cut_place remaining low
  let piece := Text.strip (remaining.take cut)
  if piece = [] then (remaining.take low, low) else (piece, cut)

-- Every piece takes something of the text, so that its length is fuel enough.
def hard_split_from : Nat → List Char → List (List Char)
  | 0, _ => []
  | fuel + 1, remaining =>
      if remaining = [] then []
      else if tokenizer.count remaining ≤ max_tokens then [remaining]
      else
        let piece := next_piece tokenizer max_tokens remaining
        piece.1 :: hard_split_from fuel (Text.strip (remaining.drop piece.2))

def _hard_split (text : List Char) : List (List Char) :=
  let remaining := Text.strip text
  hard_split_from tokenizer max_tokens (remaining.length + 1) remaining

theorem search_cut_pos (remaining : List Char) {low : Nat} (high : Nat) (hlow : 1 ≤ low) :
    1 ≤ search_cut tokenizer max_tokens remaining low high := by
  fun_induction search_cut tokenizer max_tokens remaining low high with
  | case1 low high hlt midpoint hfits ih => exact ih (by omega)
  | case2 low high hlt midpoint hfits ih => exact ih hlow
  | case3 low high hle => exact hlow

theorem last_blank_ne_zero {remaining : List Char} (hfirst : ∀ c ∈ remaining.head?, Text.isSpace c = false) :
    last_blank remaining 1 ≠ 0 := by
  intro hzero
  simp only [last_blank] at hzero
  cases hplaces : ((List.range (min 1 remaining.length)).filter
      (fun index => remaining[index]? = some ' ' || remaining[index]? = some '\n')).getLast? with
  | none =>
      rw [hplaces] at hzero
      cases hzero
  | some index =>
      rw [hplaces] at hzero
      obtain rfl : index = 0 := Int.ofNat.inj hzero
      obtain ⟨-, hblank⟩ := List.mem_filter.mp (List.mem_of_getLast? hplaces)
      rw [← List.head?_eq_getElem?] at hblank
      rcases Bool.or_eq_true _ _ |>.mp hblank with hspace | hnewline
      · have hc := hfirst ' ' (of_decide_eq_true hspace)
        revert hc
        decide
      · have hc := hfirst '\n' (of_decide_eq_true hnewline)
        revert hc
        decide

theorem cut_place_pos {remaining : List Char} {low : Nat} (hlow : 1 ≤ low)
    (hfirst : ∀ c ∈ remaining.head?, Text.isSpace c = false) : 1 ≤ cut_place remaining low := by
  simp only [cut_place]
  split
  · rename_i hblank
    rcases Nat.lt_or_ge 1 low with hmore | hone
    · omega
    · obtain rfl : low = 1 := le_antisymm hone hlow
      have hne := last_blank_ne_zero hfirst
      simp only [max_self] at hblank ⊢
      omega
  · exact le_max_left 1 low

theorem next_piece_pos {remaining : List Char}
    (hfirst : ∀ c ∈ remaining.head?, Text.isSpace c = false) :
    1 ≤ (next_piece tokenizer max_tokens remaining).2 := by
  have hlow := search_cut_pos tokenizer max_tokens remaining remaining.length (le_refl 1)
  simp only [next_piece]
  split
  · exact hlow
  · exact cut_place_pos hlow hfirst

theorem head_strip (text : List Char) : ∀ c ∈ (Text.strip text).head?, Text.isSpace c = false := by
  intro c hc
  obtain ⟨lost, hlost⟩ := Text.exists_rstrip (Text.lstrip text)
  have hhead : (Text.lstrip text).head? = some c := by
    rw [hlost]
    cases hstrip : Text.rstrip (Text.lstrip text) with
    | nil =>
        rw [Text.strip, hstrip] at hc
        cases hc
    | cons d rest =>
        rw [Text.strip, hstrip] at hc
        exact hc
  have hnot := List.head?_dropWhile_not Text.isSpace text
  rw [Text.lstrip] at hhead
  rw [hhead] at hnot
  simpa using hnot

theorem length_strip_le (text : List Char) : (Text.strip text).length ≤ text.length := by
  rw [Text.strip, Text.rstrip, List.length_reverse]
  refine (List.dropWhile_sublist _).length_le.trans ?_
  rw [List.length_reverse]
  exact (List.dropWhile_sublist _).length_le

def ends_sentence (c : Char) : Bool :=
  c ∈ ['.', '!', '?', '。', '！', '？']

-- The length of a match of `(?<=[.!?。！？])\s+|\n{2,}` here, 0 where there is none.
def sentence_break (previous : Option Char) (text : List Char) : Nat :=
  let blanks := (text.takeWhile Text.isSpace).length
  let newlines := (text.takeWhile (· = '\n')).length
  if previous.any ends_sentence && 0 < blanks then blanks
  else if 2 ≤ newlines then newlines
  else 0

-- `_SENTENCE.split(text)`, with what is still left of a break that has been found.
def split_sentences (part : List Char) (previous : Option Char) (skipped : Nat) :
    List Char → List (List Char)
  | [] => [part]
  | c :: rest =>
      match skipped with
      | skipped + 1 => split_sentences part (some c) skipped rest
      | 0 =>
          match sentence_break previous (c :: rest) with
          | 0 => split_sentences (part ++ [c]) (some c) 0 rest
          | length + 1 => part :: split_sentences [] (some c) length rest

def sentences (text : List Char) : List (List Char) :=
  ((split_sentences [] none 0 text).filter (fun value => Text.strip value ≠ [])).flatMap
    (_hard_split tokenizer max_tokens)

def sentence_parts (pieces : List (List Char)) : List (List (List Char)) :=
  Packing.pack (fun current piece => tokenizer.count (join " " (current ++ piece)) ≤ max_tokens)
    [] (pieces.map ([·]))

-- The units of a block that is neither a table nor followed by its caption.
def block_units (block : CanonicalBlock) (blocks : List CanonicalBlock) (path : List (List Char))
    (text : List Char) : List ChunkUnit :=
  if block.type = .figure ∨ block.type = .formula then
    [{ text, blocks, heading_path := path
       content_type := oversized tokenizer max_tokens text block.type, standalone := true }]
  else if max_tokens < tokenizer.count text then
    (sentence_parts tokenizer max_tokens (sentences tokenizer max_tokens text)).map (fun pieces =>
      { text := join " " pieces, blocks, heading_path := path, content_type := block.type.value })
  else [{ text, blocks, heading_path := path, content_type := block.type.value }]

def push_heading (stack : HeadingStack) (block : CanonicalBlock) (text : List Char) :
    HeadingStack :=
  match _heading block text with
  | some (level, value) => if value = [] then stack else _update_heading_stack stack level value
  | none => stack

-- The caption that a figure takes along.
def taken_caption (block : CanonicalBlock) (rest : List CanonicalBlock) : Option CanonicalBlock :=
  if block.type = .figure then
    rest.head?.filter (fun candidate => candidate.type = .caption && _block_text candidate ≠ [])
  else none

-- With the blocks that are left, the first of which may have been taken as a caption.
def units_from (stack : HeadingStack) (taken : Bool) : List CanonicalBlock → List ChunkUnit
  | [] => []
  | block :: rest =>
      if taken then units_from stack false rest
      else
        let text := _block_text block
        let stack := push_heading stack block text
        let path := heading_path stack
        if text = [] then units_from stack false rest
        else if block.type = .table then
          _table_units tokenizer max_tokens block path ++ units_from stack false rest
        else
          match taken_caption block rest with
          | some candidate =>
              block_units tokenizer max_tokens block [block, candidate] path
                  (text ++ "\n\n".toList ++ _block_text candidate) ++
                units_from stack true rest
          | none =>
              block_units tokenizer max_tokens block [block] path text ++
                units_from stack false rest

def _units (document : CanonicalDocument) : List ChunkUnit :=
  units_from tokenizer max_tokens [] false document.ordered_blocks

end Units

end KnowledgeCompiler.Exporters
