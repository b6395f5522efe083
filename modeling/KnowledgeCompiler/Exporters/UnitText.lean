import KnowledgeCompiler.Exporters.Units

namespace KnowledgeCompiler.Exporters

open Lib Lib.Text

section Solid

variable (tokenizer : Tokenizer) (max_tokens : Int)

theorem solid_join {separator : String} (hblank : ∀ c ∈ separator.toList, isSpace c = true)
    (texts : List (List Char)) : solid (join separator texts) = texts.flatMap solid := by
  induction texts with
  | nil => rfl
  | cons text rest ih =>
      cases rest with
      | nil => simp [join]
      | cons next more =>
          rw [join, List.intercalate_cons_cons, solid_append, solid_append, solid_eq_nil hblank,
            List.append_nil, List.flatMap_cons, ← ih]
          rfl

theorem solid_next_piece (remaining : List Char) :
    solid (next_piece tokenizer max_tokens remaining).1 =
      solid (remaining.take (next_piece tokenizer max_tokens remaining).2) := by
  simp only [next_piece]
  split
  · rfl
  · rw [solid_strip]

theorem solid_hard_split_from {fuel : ℕ} {remaining : List Char}
    (hfirst : ∀ c ∈ remaining.head?, isSpace c = false) (hfuel : remaining.length < fuel) :
    (hard_split_from tokenizer max_tokens fuel remaining).flatMap solid = solid remaining := by
  induction fuel generalizing remaining with
  | zero => cases hfuel
  | succ fuel ih =>
      rw [hard_split_from]
      by_cases hempty : remaining = []
      · rw [if_pos hempty, hempty]
        rfl
      by_cases hfits : tokenizer.count remaining ≤ max_tokens
      · rw [if_neg hempty, if_pos hfits, List.flatMap_singleton]
      -- The piece takes something, so that what is left has fuel enough.
      have hcut := next_piece_pos tokenizer max_tokens hfirst
      have hlength := length_strip_le (remaining.drop (next_piece tokenizer max_tokens remaining).2)
      have hpos := List.length_pos_of_ne_nil hempty
      rw [List.length_drop] at hlength
      rw [if_neg hempty, if_neg hfits, List.flatMap_cons, ih (head_strip _) (by omega), solid_strip,
        solid_next_piece, ← solid_append, List.take_append_drop]

theorem solid_hard_split (text : List Char) :
    (_hard_split tokenizer max_tokens text).flatMap solid = solid text := by
  rw [_hard_split, solid_hard_split_from tokenizer max_tokens (head_strip text) (Nat.lt_succ_self _),
    solid_strip]

-- A break is made of blanks.
theorem blank_of_break (previous : Option Char) (text : List Char) :
    ∀ c ∈ text.take (sentence_break previous text), isSpace c = true := by
  intro c hc
  unfold sentence_break at hc
  dsimp only at hc
  split_ifs at hc
  · rw [← List.prefix_iff_eq_take.mp (List.takeWhile_prefix _)] at hc
    exact List.mem_takeWhile_imp hc
  · rw [← List.prefix_iff_eq_take.mp (List.takeWhile_prefix _)] at hc
    have hnewline := List.mem_takeWhile_imp hc
    rw [of_decide_eq_true hnewline]
    decide
  · cases hc

theorem solid_split_sentences {part text : List Char} {previous : Option Char} {skipped : ℕ}
    (hskipped : ∀ c ∈ text.take skipped, isSpace c = true) :
    (split_sentences part previous skipped text).flatMap solid = solid part ++ solid text := by
  induction text generalizing part previous skipped with
  | nil => simp [split_sentences, solid]
  | cons c rest ih =>
      have hcons : solid (c :: rest) = solid [c] ++ solid rest := solid_append [c] rest
      cases skipped with
      | succ skipped =>
          obtain ⟨hc, hrest⟩ := List.forall_mem_cons.mp hskipped
          have hblank : solid [c] = [] := solid_eq_nil (List.forall_mem_singleton.mpr hc)
          rw [split_sentences, ih hrest, hcons, hblank, List.nil_append]
      | zero =>
          have hbreak := blank_of_break previous (c :: rest)
          rw [split_sentences]
          cases hlength : sentence_break previous (c :: rest) with
          | zero =>
              dsimp only
              rw [ih (by simp), solid_append, List.append_assoc, ← hcons]
          | succ length =>
              rw [hlength] at hbreak
              obtain ⟨hc, hrest⟩ := List.forall_mem_cons.mp hbreak
              have hblank : solid [c] = [] := solid_eq_nil (List.forall_mem_singleton.mpr hc)
              dsimp only
              rw [List.flatMap_cons, ih hrest, hcons, hblank]
              rfl

theorem solid_sentences (text : List Char) :
    (sentences tokenizer max_tokens text).flatMap solid = solid text := by
  have hkept (parts : List (List Char)) :
      (parts.filter fun value => Text.strip value ≠ []).flatMap solid = parts.flatMap solid := by
    induction parts with
    | nil => rfl
    | cons part rest ih =>
        by_cases hblank : Text.strip part = []
        · have hnone : solid part = [] := by rw [← solid_strip, hblank]; rfl
          rw [List.filter_cons_of_neg (by simpa using hblank), ih, List.flatMap_cons, hnone,
            List.nil_append]
        · rw [List.filter_cons_of_pos (by simpa using hblank), List.flatMap_cons, ih,
            List.flatMap_cons]
  rw [sentences, List.flatMap_assoc, List.flatMap_congr fun part _ =>
    solid_hard_split tokenizer max_tokens part, hkept, solid_split_sentences (by simp)]
  rfl

theorem solid_sentence_parts (pieces : List (List Char)) :
    (sentence_parts tokenizer max_tokens pieces).flatMap (fun part => solid (join " " part)) =
      pieces.flatMap solid := by
  have hjoin : (fun part => solid (join " " part)) = fun part : List (List Char) => part.flatMap solid :=
    funext fun part => solid_join (by exact List.all_eq_true.mp rfl) part
  have hflatten : (sentence_parts tokenizer max_tokens pieces).flatten = pieces := by
    rw [sentence_parts, Packing.flatten_pack, ← List.flatMap_def]
    exact List.flatMap_singleton' pieces
  conv_rhs => rw [← hflatten, ← List.flatMap_id, List.flatMap_assoc]
  exact congrArg (List.flatMap · _) hjoin

theorem solid_block_units (block : CanonicalBlock) (blocks : List CanonicalBlock)
    (path : List (List Char)) (text : List Char) :
    (block_units tokenizer max_tokens block blocks path text).flatMap (fun unit => solid unit.text) =
      solid text := by
  unfold block_units
  split_ifs
  · exact List.flatMap_singleton ..
  · rw [List.flatMap_map]
    exact (solid_sentence_parts tokenizer max_tokens _).trans (solid_sentences tokenizer max_tokens text)
  · exact List.flatMap_singleton ..

-- A unit that no table went into.
def is_prose (unit : ChunkUnit) : Bool := unit.blocks.all fun block => block.type ≠ .table

theorem prose_of_block_units {block : CanonicalBlock} {blocks : List CanonicalBlock}
    {path : List (List Char)} {text : List Char} (hblocks : ∀ part ∈ blocks, part.type ≠ .table) :
    (block_units tokenizer max_tokens block blocks path text).filter is_prose =
      block_units tokenizer max_tokens block blocks path text := by
  have hprose (unit : ChunkUnit) (hunit : unit.blocks = blocks) : is_prose unit = true := by
    rw [is_prose, hunit, List.all_eq_true]
    exact fun part hpart => decide_eq_true (hblocks part hpart)
  refine List.filter_eq_self.mpr fun unit hunit => hprose unit ?_
  unfold block_units at hunit
  split_ifs at hunit
  · rw [List.mem_singleton.mp hunit]
  · obtain ⟨pieces, -, rfl⟩ := List.mem_map.mp hunit
    rfl
  · rw [List.mem_singleton.mp hunit]

theorem not_prose_of_table_units {block : CanonicalBlock} {path : List (List Char)}
    (htype : block.type = .table) :
    (_table_units tokenizer max_tokens block path).filter is_prose = [] := by
  have htable (unit : ChunkUnit) (hunit : unit.blocks = [block]) : ¬is_prose unit = true := by
    rw [is_prose, hunit]
    simp [htype]
  refine List.filter_eq_nil_iff.mpr fun unit hunit => htable unit ?_
  unfold _table_units at hunit
  split at hunit
  · cases hunit
  dsimp only at hunit
  split_ifs at hunit
  · rw [List.mem_singleton.mp hunit]
    rfl
  · rw [List.mem_singleton.mp hunit]
    rfl
  · obtain ⟨rows, -, rfl⟩ := List.mem_map.mp hunit
    rfl

theorem exists_caption {block candidate : CanonicalBlock} {rest : List CanonicalBlock}
    (hcaption : taken_caption block rest = some candidate) :
    ∃ more, rest = candidate :: more ∧ candidate.type ≠ .table := by
  unfold taken_caption at hcaption
  split_ifs at hcaption
  obtain ⟨hhead, htype⟩ := Option.filter_eq_some_iff.mp hcaption
  obtain ⟨more, rfl⟩ := List.head?_eq_some_iff.mp hhead
  refine ⟨more, rfl, fun htable => ?_⟩
  rw [htable] at htype
  simp at htype

def prose_text (units : List ChunkUnit) : List Char :=
  (units.filter is_prose).flatMap fun unit => solid unit.text

def prose_of_blocks (blocks : List CanonicalBlock) : List Char :=
  (blocks.filter fun block => block.type ≠ .table).flatMap fun block => solid (_block_text block)

theorem prose_text_append (first second : List ChunkUnit) :
    prose_text (first ++ second) = prose_text first ++ prose_text second := by
  rw [prose_text, List.filter_append, List.flatMap_append]
  rfl

theorem prose_text_block_units {block : CanonicalBlock} {blocks : List CanonicalBlock}
    {path : List (List Char)} {text : List Char} (hblocks : ∀ part ∈ blocks, part.type ≠ .table) :
    prose_text (block_units tokenizer max_tokens block blocks path text) = solid text := by
  rw [prose_text, prose_of_block_units tokenizer max_tokens hblocks, solid_block_units]

theorem prose_of_blocks_cons {block : CanonicalBlock} (rest : List CanonicalBlock)
    (htype : block.type ≠ .table) :
    prose_of_blocks (block :: rest) = solid (_block_text block) ++ prose_of_blocks rest := by
  rw [prose_of_blocks, List.filter_cons_of_pos (by simpa using htype), List.flatMap_cons]
  rfl

theorem prose_of_units_from (stack : HeadingStack) (taken : Bool) (blocks : List CanonicalBlock) :
    prose_text (units_from tokenizer max_tokens stack taken blocks) =
      prose_of_blocks (if taken then blocks.tail else blocks) := by
  induction blocks generalizing stack taken with
  | nil => cases taken <;> rfl
  | cons block rest ih =>
      rw [units_from]
      cases taken with
      | true => exact ih stack false
      | false =>
          simp only [Bool.false_eq_true, if_false]
          by_cases htable : block.type = .table
          · have hskipped : prose_of_blocks (block :: rest) = prose_of_blocks rest := by
              rw [prose_of_blocks, List.filter_cons_of_neg (by simpa using htable)]
              rfl
            rw [hskipped]
            split_ifs
            · exact ih _ false
            · rw [prose_text_append, prose_text, not_prose_of_table_units tokenizer max_tokens htable]
              exact ih _ false
          · rw [prose_of_blocks_cons rest htable]
            split_ifs with hempty
            · rw [hempty]
              exact ih _ false
            · cases hcaption : taken_caption block rest with
              | none =>
                  dsimp only
                  rw [prose_text_append, ih, prose_text_block_units tokenizer max_tokens
                    (List.forall_mem_singleton.mpr htable)]
                  rfl
              | some candidate =>
                  obtain ⟨more, rfl, hother⟩ := exists_caption hcaption
                  have hbreak : solid "\n\n".toList = [] := solid_eq_nil (List.all_eq_true.mp rfl)
                  dsimp only
                  rw [prose_text_append, ih, prose_text_block_units tokenizer max_tokens
                    (List.forall_mem_cons.mpr ⟨htable, List.forall_mem_singleton.mpr hother⟩),
                    prose_of_blocks_cons more hother, solid_append, solid_append,
                    hbreak, List.append_nil, List.append_assoc]
                  rfl

-- The units of a document hold what its blocks hold besides blanks, once and in order; tables are
-- apart, since each of their parts has the head of the table over it.
theorem units_keep_prose (document : CanonicalDocument) :
    prose_text (_units tokenizer max_tokens document) = prose_of_blocks document.ordered_blocks :=
  prose_of_units_from tokenizer max_tokens [] false document.ordered_blocks

end Solid

end KnowledgeCompiler.Exporters
