import KnowledgeCompiler.Lib.Text
import Mathlib.Data.List.Sort

namespace KnowledgeCompiler.Exporters

open Lib

structure CanonicalCell where
  id : String
  row_index0 : Nat
  column_index0 : Nat
  row_span : Nat
  column_span : Nat
  raw_text : List Char
  normalized_text : List Char
  row_span_pos : 1 ≤ row_span
  column_span_pos : 1 ≤ column_span

namespace CanonicalCell

-- `cell.normalized_text or cell.raw_text`
def text (cell : CanonicalCell) : List Char :=
  if cell.normalized_text = [] then cell.raw_text else cell.normalized_text

def Covers (cell : CanonicalCell) (row column : Nat) : Prop :=
  (cell.row_index0 ≤ row ∧ row < cell.row_index0 + cell.row_span) ∧
    cell.column_index0 ≤ column ∧ column < cell.column_index0 + cell.column_span

theorem covers_start (cell : CanonicalCell) : cell.Covers cell.row_index0 cell.column_index0 :=
  ⟨⟨le_refl _, Nat.lt_add_of_pos_right cell.row_span_pos⟩, le_refl _,
    Nat.lt_add_of_pos_right cell.column_span_pos⟩

def Apart (first second : CanonicalCell) : Prop :=
  ∀ row column, first.Covers row column → ¬second.Covers row column

-- The key `(row_index0, column_index0, id)`.
def no_later (first second : CanonicalCell) : Prop :=
  first.row_index0 < second.row_index0 ∨ first.row_index0 = second.row_index0 ∧
    (first.column_index0 < second.column_index0 ∨
      first.column_index0 = second.column_index0 ∧ first.id ≤ second.id)

instance : DecidableRel no_later := fun _ _ => inferInstanceAs (Decidable (_ ∨ _))

theorem Apart.symm {first second : CanonicalCell} (hapart : first.Apart second) :
    second.Apart first := fun row column hsecond hfirst => hapart row column hfirst hsecond

end CanonicalCell

structure CanonicalTable where
  id : String
  row_count : Nat
  column_count : Nat
  header_row_count : Nat
  cells : List CanonicalCell
  caption : Option (List Char)
  row_count_pos : 1 ≤ row_count
  column_count_pos : 1 ≤ column_count
  header_le : header_row_count ≤ row_count
  cells_ne : cells ≠ []
  within : ∀ cell ∈ cells, cell.row_index0 + cell.row_span ≤ row_count ∧
    cell.column_index0 + cell.column_span ≤ column_count
  apart : cells.Pairwise CanonicalCell.Apart

def CanonicalTable.is_simple_gfm (table : CanonicalTable) : Bool :=
  table.cells.all (fun cell => cell.row_span = 1 && cell.column_span = 1)

def CanonicalTable.sorted_cells (table : CanonicalTable) : List CanonicalCell :=
  table.cells.insertionSort CanonicalCell.no_later

abbrev Grid := List (List (List Char))

-- `rows[cell.row_index0][cell.column_index0] = cell.normalized_text or cell.raw_text`
def place (rows : Grid) (cell : CanonicalCell) : Grid :=
  rows.modify cell.row_index0 (·.set cell.column_index0 cell.text)

def _grid (table : CanonicalTable) : Grid :=
  table.sorted_cells.foldl place
    (List.replicate table.row_count (List.replicate table.column_count []))

-- `value.replace(old, new)` for one character
def replace (old : Char) (new value : List Char) : List Char :=
  value.flatMap (fun c => if c = old then new else [c])

def gfm_text (value : List Char) : List Char :=
  replace '\n' "&#10;".toList (replace '|' "\\|".toList (replace '\\' "\\\\".toList value))

def gfm_line (values : List (List Char)) : List Char :=
  "| ".toList ++ List.intercalate " | ".toList values ++ " |".toList

def gfm_row (values : List (List Char)) : List Char := gfm_line (values.map gfm_text)

def table_to_gfm (table : CanonicalTable) : Except String (List Char) :=
  if !table.is_simple_gfm then
    .error "merged-cell table cannot be represented losslessly as GFM"
  else
    let rows := _grid table
    let header_rows := max 1 table.header_row_count
    let header := rows.headD []
    let body := rows.drop header_rows
    let lines := [gfm_row header, gfm_line (header.map (fun _ => "---".toList))] ++ body.map gfm_row
    .ok (List.intercalate ['\n'] lines)

section Grids

def Shaped (rows columns : Nat) (grid : Grid) : Prop :=
  grid.length = rows ∧ ∀ row ∈ grid, row.length = columns

def entry (grid : Grid) (row column : Nat) : Option (List Char) :=
  grid[row]?.bind (fun values => values[column]?)

theorem Shaped.place {rows columns : Nat} {grid : Grid} (hgrid : Shaped rows columns grid)
    (cell : CanonicalCell) : Shaped rows columns (place grid cell) := by
  refine ⟨by rw [Exporters.place, List.length_modify, hgrid.1], fun values hvalues => ?_⟩
  obtain ⟨index, hindex, rfl⟩ := List.mem_iff_getElem.mp hvalues
  rw [Exporters.place, List.length_modify] at hindex
  simp only [Exporters.place, List.getElem_modify]
  split
  · rw [List.length_set]
    exact hgrid.2 _ (List.getElem_mem hindex)
  · exact hgrid.2 _ (List.getElem_mem hindex)

theorem entry_place_self {rows columns : Nat} {grid : Grid} (hgrid : Shaped rows columns grid)
    {cell : CanonicalCell} (hrow : cell.row_index0 < rows) (hcolumn : cell.column_index0 < columns) :
    entry (place grid cell) cell.row_index0 cell.column_index0 = some cell.text := by
  have hindex : cell.row_index0 < grid.length := hgrid.1.symm ▸ hrow
  have hlength := hgrid.2 _ (List.getElem_mem hindex)
  rw [entry, place, List.getElem?_modify, List.getElem?_eq_getElem hindex]
  simp [hlength, hcolumn]

theorem entry_place_other {grid : Grid} {cell : CanonicalCell} {row column : Nat}
    (hother : row ≠ cell.row_index0 ∨ column ≠ cell.column_index0) :
    entry (place grid cell) row column = entry grid row column := by
  rw [entry, place, List.getElem?_modify, entry]
  cases grid[row]? with
  | none => rfl
  | some values =>
      simp only [Option.map_eq_map, Option.map_some, Option.bind_some]
      split
      · rename_i hrow
        have hcolumn := hother.resolve_left (not_not.mpr hrow.symm)
        exact List.getElem?_set_ne (Ne.symm hcolumn)
      · rfl

theorem Shaped.fold {rows columns : Nat} (cells : List CanonicalCell) {grid : Grid}
    (hgrid : Shaped rows columns grid) : Shaped rows columns (cells.foldl Exporters.place grid) := by
  induction cells generalizing grid with
  | nil => exact hgrid
  | cons cell rest ih => exact ih (hgrid.place cell)

theorem entry_fold_other {row column : Nat} {cells : List CanonicalCell}
    (hother : ∀ cell ∈ cells, row ≠ cell.row_index0 ∨ column ≠ cell.column_index0) (grid : Grid) :
    entry (cells.foldl place grid) row column = entry grid row column := by
  induction cells generalizing grid with
  | nil => rfl
  | cons cell rest ih =>
      rw [List.foldl_cons, ih (fun other h => hother other (List.mem_cons_of_mem _ h)),
        entry_place_other (hother cell List.mem_cons_self)]

theorem entry_fold {rows columns : Nat} {cells : List CanonicalCell}
    (hwithin : ∀ cell ∈ cells, cell.row_index0 < rows ∧ cell.column_index0 < columns)
    (hapart : cells.Pairwise CanonicalCell.Apart) {grid : Grid} (hgrid : Shaped rows columns grid)
    {cell : CanonicalCell} (hcell : cell ∈ cells) :
    entry (cells.foldl place grid) cell.row_index0 cell.column_index0 = some cell.text := by
  induction cells generalizing grid with
  | nil => cases hcell
  | cons first rest ih =>
      obtain ⟨hfirst, hrest⟩ := List.pairwise_cons.mp hapart
      rw [List.foldl_cons]
      rcases List.mem_cons.mp hcell with rfl | hlater
      · have hother : ∀ other ∈ rest, cell.row_index0 ≠ other.row_index0 ∨
            cell.column_index0 ≠ other.column_index0 := by
          intro other hmem
          by_contra hsame
          obtain ⟨hrow, hcolumn⟩ := not_or.mp hsame
          have hcovers := cell.covers_start
          rw [not_not.mp hrow, not_not.mp hcolumn] at hcovers
          exact hfirst other hmem _ _ hcovers other.covers_start
        have hbounds := hwithin cell List.mem_cons_self
        rw [entry_fold_other hother, entry_place_self hgrid hbounds.1 hbounds.2]
      · exact ih (fun other h => hwithin other (List.mem_cons_of_mem _ h)) hrest
          (hgrid.place first) hlater

theorem mem_place {grid : Grid} {cell : CanonicalCell} {value : List Char}
    (hvalue : ∃ values ∈ place grid cell, value ∈ values) :
    value = cell.text ∨ ∃ values ∈ grid, value ∈ values := by
  obtain ⟨values, hvalues, hmem⟩ := hvalue
  obtain ⟨index, hindex, rfl⟩ := List.mem_iff_getElem.mp hvalues
  simp only [place, List.getElem_modify] at hmem
  rw [place, List.length_modify] at hindex
  split at hmem
  · rcases List.mem_or_eq_of_mem_set hmem with hold | hnew
    · exact .inr ⟨_, List.getElem_mem hindex, hold⟩
    · exact .inl hnew
  · exact .inr ⟨_, List.getElem_mem hindex, hmem⟩

theorem mem_fold {cells : List CanonicalCell} {grid : Grid} {value : List Char}
    (hvalue : ∃ values ∈ cells.foldl place grid, value ∈ values) :
    (∃ cell ∈ cells, value = cell.text) ∨ ∃ values ∈ grid, value ∈ values := by
  induction cells generalizing grid with
  | nil => exact .inr hvalue
  | cons cell rest ih =>
      rcases ih hvalue with ⟨other, hother, htext⟩ | hplaced
      · exact .inl ⟨other, List.mem_cons_of_mem _ hother, htext⟩
      · exact (mem_place hplaced).imp (fun htext => ⟨cell, List.mem_cons_self, htext⟩) id

variable (table : CanonicalTable)

theorem shaped_grid : Shaped table.row_count table.column_count (_grid table) := by
  refine Shaped.fold _ ⟨List.length_replicate, fun values hvalues => ?_⟩
  rw [(List.mem_replicate.mp hvalues).2, List.length_replicate]

theorem mem_sorted_cells {cell : CanonicalCell} : cell ∈ table.sorted_cells ↔ cell ∈ table.cells :=
  (List.perm_insertionSort _ _).mem_iff

theorem entry_grid {cell : CanonicalCell} (hcell : cell ∈ table.cells) :
    entry (_grid table) cell.row_index0 cell.column_index0 = some cell.text := by
  have hshaped : Shaped table.row_count table.column_count
      (List.replicate table.row_count (List.replicate table.column_count [])) := by
    refine ⟨List.length_replicate, fun values hvalues => ?_⟩
    rw [(List.mem_replicate.mp hvalues).2, List.length_replicate]
  refine entry_fold (fun other hother => ?_) ?_ hshaped ((mem_sorted_cells table).mpr hcell)
  · have hwithin := table.within other ((mem_sorted_cells table).mp hother)
    have hrow := other.row_span_pos
    have hcolumn := other.column_span_pos
    omega
  · exact ((List.perm_insertionSort _ _).pairwise_iff
      (fun hapart => CanonicalCell.Apart.symm hapart)).mpr table.apart

theorem mem_grid_of_cell {cell : CanonicalCell} (hcell : cell ∈ table.cells) :
    ∃ values ∈ _grid table, cell.text ∈ values := by
  obtain ⟨values, hvalues, htext⟩ := Option.bind_eq_some_iff.mp (entry_grid table hcell)
  exact ⟨values, List.mem_of_getElem? hvalues, List.mem_of_getElem? htext⟩

theorem cell_of_mem_grid {value : List Char} (hvalue : ∃ values ∈ _grid table, value ∈ values) :
    value = [] ∨ ∃ cell ∈ table.cells, value = cell.text := by
  rcases mem_fold hvalue with ⟨cell, hcell, htext⟩ | ⟨values, hvalues, hmem⟩
  · exact .inr ⟨cell, (mem_sorted_cells table).mp hcell, htext⟩
  · rw [(List.mem_replicate.mp hvalues).2] at hmem
    exact .inl (List.mem_replicate.mp hmem).2

end Grids

section Decoding

-- The parts between the pipes that no backslash stands before.
def split_pipes (part : List Char) : List Char → List (List Char)
  | [] => [part]
  | '\\' :: c :: rest => split_pipes (part ++ ['\\', c]) rest
  | c :: rest => if c = '|' then part :: split_pipes [] rest else split_pipes (part ++ [c]) rest

def unescape : List Char → List Char
  | [] => []
  | '\\' :: c :: rest => c :: unescape rest
  | '&' :: '#' :: '1' :: '0' :: ';' :: rest => '\n' :: unescape rest
  | c :: rest => c :: unescape rest

-- Each part between two pipes has a blank before and behind its text.
def decode_row (line : List Char) : List (List Char) :=
  (split_pipes [] line).tail.dropLast.map (fun part => unescape part.tail.dropLast)

def decode_gfm (text : List Char) : Grid := ((text.splitOn '\n').eraseIdx 1).map decode_row

def entity : List Char := ['&', '#', '1', '0', ';']

-- A text with its entities read as line ends.
def collapse : List Char → List Char
  | [] => []
  | '&' :: '#' :: '1' :: '0' :: ';' :: rest => '\n' :: collapse rest
  | c :: rest => c :: collapse rest

def gfm_char (c : Char) : List Char :=
  if c = '\\' then ['\\', '\\'] else if c = '|' then ['\\', '|'] else if c = '\n' then entity else [c]

theorem gfm_text_eq (value : List Char) : gfm_text value = value.flatMap gfm_char := by
  induction value with
  | nil => rfl
  | cons c rest ih =>
      simp only [gfm_text, replace, List.flatMap_cons, List.flatMap_append] at ih ⊢
      rw [ih]
      congr 1
      unfold gfm_char
      by_cases hslash : c = '\\'
      · subst hslash
        decide
      by_cases hpipe : c = '|'
      · subst hpipe
        decide
      by_cases hnewline : c = '\n'
      · subst hnewline
        decide
      · simp [hslash, hpipe, hnewline]

theorem gfm_text_cons (c : Char) (rest : List Char) :
    gfm_text (c :: rest) = gfm_char c ++ gfm_text rest := by
  rw [gfm_text_eq, List.flatMap_cons, gfm_text_eq]

theorem gfm_char_plain {c : Char} (hslash : c ≠ '\\') (hpipe : c ≠ '|') (hnewline : c ≠ '\n') :
    gfm_char c = [c] := by
  rw [gfm_char, if_neg hslash, if_neg hpipe, if_neg hnewline]

-- What begins with a character that no escape begins with began so before it was escaped.
theorem head_of_gfm_text {value more : List Char} {d : Char} (hslash : d ≠ '\\') (hand : d ≠ '&')
    (hvalue : gfm_text value = d :: more) :
    ∃ rest, value = d :: rest ∧ gfm_text rest = more := by
  cases value with
  | nil => cases hvalue
  | cons c rest =>
      rw [gfm_text_cons, gfm_char] at hvalue
      split at hvalue
      · exact absurd (List.cons.inj hvalue).1.symm hslash
      split at hvalue
      · exact absurd (List.cons.inj hvalue).1.symm hslash
      split at hvalue
      · exact absurd (List.cons.inj hvalue).1.symm hand
      · obtain ⟨rfl, hrest⟩ := List.cons.inj hvalue
        exact ⟨rest, rfl, hrest⟩

theorem entity_of_gfm_text {value more : List Char}
    (hvalue : gfm_text value = '#' :: '1' :: '0' :: ';' :: more) :
    ∃ rest, value = '#' :: '1' :: '0' :: ';' :: rest := by
  obtain ⟨first, rfl, hfirst⟩ := head_of_gfm_text (by decide) (by decide) hvalue
  obtain ⟨second, rfl, hsecond⟩ := head_of_gfm_text (by decide) (by decide) hfirst
  obtain ⟨third, rfl, hthird⟩ := head_of_gfm_text (by decide) (by decide) hsecond
  obtain ⟨rest, rfl, -⟩ := head_of_gfm_text (by decide) (by decide) hthird
  exact ⟨rest, rfl⟩

theorem unescape_gfm_text (value : List Char) : unescape (gfm_text value) = collapse value := by
  induction value using collapse.induct with
  | case1 => rfl
  | case2 rest ih =>
      simp [gfm_text_cons, gfm_char, unescape, collapse, ih]
  | case3 c rest hentity ih =>
      rw [gfm_text_cons, collapse, ← ih]
      · by_cases hslash : c = '\\'
        · subst hslash
          simp [gfm_char, unescape]
        by_cases hpipe : c = '|'
        · subst hpipe
          simp [gfm_char, unescape]
        by_cases hnewline : c = '\n'
        · subst hnewline
          simp [gfm_char, entity, unescape]
        · rw [gfm_char_plain hslash hpipe hnewline, List.singleton_append, unescape]
          · exact fun first more hc => absurd hc hslash
          · intro more hc hmore
            obtain ⟨others, hothers⟩ := entity_of_gfm_text hmore
            exact hentity others hc hothers
      · exact hentity

theorem collapse_length (value : List Char) :
    (collapse value).length ≤ value.length ∧
      (entity <:+: value → (collapse value).length < value.length) := by
  induction value using collapse.induct with
  | case1 => simp [collapse, entity]
  | case2 rest ih =>
      simp only [collapse, List.length_cons]
      omega
  | case3 c rest hentity ih =>
      rw [collapse]
      · simp only [List.length_cons, Nat.add_le_add_iff_right, Nat.add_lt_add_iff_right]
        refine ⟨ih.1, fun hinfix => ih.2 ?_⟩
        rcases List.infix_cons_iff.mp hinfix with ⟨more, hmore⟩ | hlater
        · obtain ⟨hc, hrest⟩ := List.cons.inj hmore
          exact absurd hrest.symm (hentity more hc.symm)
        · exact hlater
      · exact hentity

theorem collapse_eq_iff (value : List Char) : collapse value = value ↔ ¬entity <:+: value := by
  constructor
  · intro hsame hinfix
    have hlt := (collapse_length value).2 hinfix
    rw [hsame] at hlt
    exact lt_irrefl _ hlt
  · intro hinfix
    induction value using collapse.induct with
    | case1 => rfl
    | case2 rest ih => exact absurd ⟨[], rest, rfl⟩ hinfix
    | case3 c rest hentity ih =>
        rw [collapse, ih (fun h => hinfix (List.infix_cons_iff.mpr (.inr h)))]
        exact hentity

theorem split_pipes_char (c : Char) (part after : List Char) :
    split_pipes part (gfm_char c ++ after) = split_pipes (part ++ gfm_char c) after := by
  by_cases hslash : c = '\\'
  · subst hslash
    simp [gfm_char, split_pipes]
  by_cases hpipe : c = '|'
  · subst hpipe
    simp [gfm_char, split_pipes]
  by_cases hnewline : c = '\n'
  · subst hnewline
    simp [gfm_char, entity, split_pipes]
  · rw [gfm_char_plain hslash hpipe hnewline, List.singleton_append, split_pipes, if_neg hpipe]
    exact fun first others hc => absurd hc hslash

theorem split_pipes_text (value part rest : List Char) :
    split_pipes part (gfm_text value ++ rest) = split_pipes (part ++ gfm_text value) rest := by
  induction value generalizing part with
  | nil => simp [gfm_text, replace]
  | cons c more ih => rw [gfm_text_cons, List.append_assoc, split_pipes_char, ih, List.append_assoc]

-- The text of a cell between its pipes.
def padded (value : List Char) : List Char := ' ' :: gfm_text value ++ [' ']

theorem gfm_row_cons (value : List Char) (rest : List (List Char)) :
    gfm_row (value :: rest) = '|' :: (value :: rest).flatMap (fun other => padded other ++ ['|']) := by
  have htail : rest.flatMap (fun other => " | ".toList ++ gfm_text other) ++ " |".toList =
      " |".toList ++ rest.flatMap (fun other => padded other ++ ['|']) := by
    induction rest with
    | nil => simp
    | cons other more ih =>
        rw [List.flatMap_cons, List.append_assoc, ih]
        simp [padded]
  rw [gfm_row, gfm_line, List.map_cons, Scan.intercalate_cons, List.flatMap_map, List.append_assoc,
    List.append_assoc, htail]
  simp [padded]

theorem split_pipes_row (values : List (List Char)) :
    split_pipes [] (values.flatMap (fun other => padded other ++ ['|'])) =
      values.map padded ++ [[]] := by
  induction values with
  | nil => rfl
  | cons value rest ih =>
      have hblank : ∀ part after, split_pipes part (' ' :: after) = split_pipes (part ++ [' ']) after :=
        fun part after => by rw [split_pipes]; simp; simp
      rw [List.flatMap_cons, List.map_cons, List.cons_append, ← ih]
      simp only [padded, List.cons_append, List.append_assoc, hblank, split_pipes_text]
      simp [split_pipes]

theorem decode_row_row {values : List (List Char)} (hvalues : values ≠ []) :
    decode_row (gfm_row values) = values.map collapse := by
  obtain ⟨value, rest, rfl⟩ := List.exists_cons_of_ne_nil hvalues
  have hsplit : split_pipes [] (gfm_row (value :: rest)) =
      [] :: ((value :: rest).map padded ++ [[]]) := by
    rw [gfm_row_cons, split_pipes, if_pos rfl, split_pipes_row]
    simp
  rw [decode_row, hsplit, List.tail_cons, List.dropLast_concat, List.map_map]
  refine List.map_congr_left (fun other _ => ?_)
  simp only [Function.comp_apply, padded, List.cons_append, List.tail_cons, List.dropLast_concat]
  exact unescape_gfm_text other

theorem newline_not_mem_gfm_text (value : List Char) : '\n' ∉ gfm_text value := by
  rw [gfm_text_eq, List.mem_flatMap]
  rintro ⟨c, -, hc⟩
  rw [gfm_char] at hc
  split at hc
  · simp at hc
  split at hc
  · simp at hc
  split at hc
  · simp [entity] at hc
  · rename_i hnewline
    exact hnewline (List.mem_singleton.mp hc).symm

theorem newline_not_mem_gfm_line {values : List (List Char)}
    (hvalues : ∀ value ∈ values, '\n' ∉ value) : '\n' ∉ gfm_line values := by
  cases values with
  | nil => simp [gfm_line]
  | cons value rest =>
      rw [gfm_line, Scan.intercalate_cons]
      simp only [List.mem_append, List.mem_flatMap, not_or, not_exists, not_and]
      refine ⟨⟨by decide, hvalues value List.mem_cons_self, fun other hother => ⟨by decide, ?_⟩⟩,
        by decide⟩
      exact hvalues other (List.mem_cons_of_mem _ hother)

theorem decode_gfm_lines {header : List (List Char)} {body : Grid} {delimiter : List (List Char)}
    (hdelimiter : ∀ value ∈ delimiter, '\n' ∉ value) (hrows : ∀ row ∈ header :: body, row ≠ []) :
    decode_gfm (List.intercalate ['\n']
        ([gfm_row header, gfm_line delimiter] ++ body.map gfm_row)) =
      (header :: body).map (·.map collapse) := by
  have hrow : ∀ row : List (List Char), '\n' ∉ gfm_row row := by
    intro row
    refine newline_not_mem_gfm_line (fun value hvalue => ?_)
    obtain ⟨other, -, rfl⟩ := List.mem_map.mp hvalue
    exact newline_not_mem_gfm_text other
  rw [decode_gfm, List.splitOn_intercalate]
  · simp only [List.cons_append, List.nil_append, List.eraseIdx_cons_succ, List.eraseIdx_cons_zero,
      List.map_cons, List.map_map]
    rw [decode_row_row (hrows header List.mem_cons_self)]
    congr 1
    exact List.map_congr_left
      (fun row hmem => decode_row_row (hrows row (List.mem_cons_of_mem _ hmem)))
  · intro line hline
    simp only [List.cons_append, List.nil_append, List.mem_cons, List.mem_map] at hline
    rcases hline with rfl | rfl | ⟨row, -, rfl⟩
    · exact hrow header
    · exact newline_not_mem_gfm_line hdelimiter
    · exact hrow row
  · simp

theorem grid_rows_ne (table : CanonicalTable) : ∀ row ∈ _grid table, row ≠ [] := by
  rintro row hrow rfl
  have hlength := (shaped_grid table).2 [] hrow
  have hpos := table.column_count_pos
  rw [← hlength, List.length_nil] at hpos
  cases hpos

theorem decode_table {table : CanonicalTable} (hsimple : table.is_simple_gfm = true) :
    ∃ text, table_to_gfm table = .ok text ∧ decode_gfm text =
      ((_grid table).headD [] :: (_grid table).drop (max 1 table.header_row_count)).map
        (·.map collapse) := by
  refine ⟨_, by rw [table_to_gfm, hsimple]; rfl, ?_⟩
  refine decode_gfm_lines (fun value hvalue => ?_) (fun row hrow => grid_rows_ne table row ?_)
  · obtain ⟨_, -, rfl⟩ := List.mem_map.mp hvalue
    decide
  · rcases List.mem_cons.mp hrow with rfl | hbody
    · have hlength := (shaped_grid table).1
      have hpos := table.row_count_pos
      cases hgrid : _grid table with
      | nil => simp [hgrid] at hlength; omega
      | cons first rest => exact List.mem_cons_self
    · exact List.mem_of_mem_drop hbody

theorem map_eq_self_iff {α : Type} (f : α → α) (items : List α) :
    items.map f = items ↔ ∀ item ∈ items, f item = item := by
  have hid : items.map f = items ↔ items.map f = items.map id := by rw [List.map_id]
  exact hid.trans List.map_inj_left

theorem map_collapse_eq_iff (grid : Grid) :
    grid.map (·.map collapse) = grid ↔ ∀ row ∈ grid, ∀ value ∈ row, ¬entity <:+: value := by
  have hrow : ∀ row : List (List Char), row.map collapse = row ↔ ∀ value ∈ row, ¬entity <:+: value :=
    fun row => (map_eq_self_iff _ _).trans (forall₂_congr fun value _ => collapse_eq_iff value)
  exact (map_eq_self_iff _ _).trans (forall₂_congr fun row _ => hrow row)

theorem grid_plain_iff (table : CanonicalTable) :
    (∀ row ∈ _grid table, ∀ value ∈ row, ¬entity <:+: value) ↔
      ∀ cell ∈ table.cells, ¬entity <:+: cell.text := by
  constructor
  · intro hplain cell hcell
    obtain ⟨row, hrow, htext⟩ := mem_grid_of_cell table hcell
    exact hplain row hrow _ htext
  · intro hplain row hrow value hvalue
    rcases cell_of_mem_grid table ⟨row, hrow, hvalue⟩ with rfl | ⟨cell, hcell, rfl⟩
    · decide
    · exact hplain cell hcell

-- Header rows after the first one are not written, and an entity is not told from a line end.
theorem gfm_lossless_iff {table : CanonicalTable} (hsimple : table.is_simple_gfm = true) :
    ∃ text, table_to_gfm table = .ok text ∧
      (decode_gfm text = _grid table ↔
        table.header_row_count ≤ 1 ∧ ∀ cell ∈ table.cells, ¬entity <:+: cell.text) := by
  obtain ⟨text, htext, hdecode⟩ := decode_table hsimple
  refine ⟨text, htext, ?_⟩
  have hlength := (shaped_grid table).1
  have hpos := table.row_count_pos
  have hheader := table.header_le
  rw [hdecode, ← grid_plain_iff, ← map_collapse_eq_iff]
  constructor
  · intro hsame
    have hcount := congrArg List.length hsame
    simp only [List.length_map, List.length_cons, List.length_drop, hlength] at hcount
    have hone : max 1 table.header_row_count = 1 := by omega
    refine ⟨by omega, ?_⟩
    cases hgrid : _grid table with
    | nil => simp [hgrid] at hlength; omega
    | cons first rest => simpa [hgrid, hone] using hsame
  · rintro ⟨hle, hsame⟩
    rw [Nat.max_eq_left hle]
    cases hgrid : _grid table with
    | nil => simp [hgrid] at hlength; omega
    | cons first rest => simpa [hgrid] using hsame

end Decoding

section Samples

def sample_cell (row column : Nat) (text : String) : CanonicalCell where
  id := "cell"
  row_index0 := row
  column_index0 := column
  row_span := 1
  column_span := 1
  raw_text := text.toList
  normalized_text := []
  row_span_pos := le_refl 1
  column_span_pos := le_refl 1

-- A unit below the head, both of them header rows.
def two_headers : CanonicalTable where
  id := "table"
  row_count := 3
  column_count := 1
  header_row_count := 2
  cells := [sample_cell 0 0 "sales", sample_cell 1 0 "won", sample_cell 2 0 "7|8"]
  caption := none
  row_count_pos := by decide
  column_count_pos := by decide
  header_le := by decide
  cells_ne := by decide
  within := by decide
  apart := by
    simp only [List.pairwise_cons, List.mem_cons, List.not_mem_nil, or_false, forall_eq_or_imp,
      forall_eq, IsEmpty.forall_iff, implies_true, List.Pairwise.nil, and_true]
    refine ⟨⟨?_, ?_⟩, ?_⟩
    all_goals
      rintro row column ⟨⟨hfirst, hlast⟩, -⟩ ⟨⟨hother, -⟩, -⟩
      simp only [sample_cell] at hfirst hlast hother
      omega

theorem two_headers_lost : two_headers.is_simple_gfm = true ∧ ∃ text,
    table_to_gfm two_headers = .ok text ∧ decode_gfm text = [["sales".toList], ["7|8".toList]] ∧
      _grid two_headers = [["sales".toList], ["won".toList], ["7|8".toList]] := by
  refine ⟨by decide, _, rfl, ?_, ?_⟩
  · decide
  · decide

def one_header : CanonicalTable := { two_headers with header_row_count := 1, header_le := by decide }

theorem one_header_lossless : one_header.is_simple_gfm = true ∧ ∃ text,
    table_to_gfm one_header = .ok text ∧
      (decode_gfm text = _grid one_header ↔
        one_header.header_row_count ≤ 1 ∧ ∀ cell ∈ one_header.cells, ¬entity <:+: cell.text) :=
  ⟨by decide, gfm_lossless_iff (by decide)⟩

end Samples

end KnowledgeCompiler.Exporters
