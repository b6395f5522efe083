import KnowledgeCompiler.Documents.Blocks
import KnowledgeCompiler.Lib.Ancestors
import KnowledgeCompiler.Lib.Ranked

namespace KnowledgeCompiler.Documents

open Lib

structure Block where
  local_id : String
  text : String := ""
  x0 : Option ℤ := none
deriving DecidableEq

-- Which characters are decimal digits.
structure NumberReader where
  is_digit : Char → Bool

namespace NumberReader

variable (reader : NumberReader)

-- The longest `\d+(?:\.\d+)*`, of a text that starts with a digit.
def dotted : List Char → List Char
  | [] => []
  | c :: rest =>
      if reader.is_digit c then c :: dotted rest
      else if c = '.' ∧ rest.head?.any reader.is_digit then c :: dotted rest
      else []

def isUpper (c : Char) : Bool := 'A' ≤ c && c ≤ 'Z'

def isHangul (c : Char) : Bool := '가' ≤ c && c ≤ '힣'

-- `Block.numbering`: `1`, `1.1`, `A.`, `가.` or `(1)`, and white space after it.
def numbering (block : Block) : String :=
  let rest := Text.lstrip block.text.toList
  if rest.head?.any reader.is_digit then
    let number := reader.dotted rest
    let after := rest.drop number.length
    let after := if after.head? = some '.' then after.drop 1 else after
    if after.head?.any Text.isSpace then String.ofList number else ""
  else
    match rest with
    | '(' :: more =>
        let number := more.takeWhile reader.is_digit
        let after := more.drop number.length
        if number ≠ [] ∧ after.head? = some ')' ∧ (after.drop 1).head?.any Text.isSpace then
          String.ofList number
        else ""
    | c :: '.' :: space :: _ =>
        if (isUpper c || isHangul c) && Text.isSpace space then String.ofList [c] else ""
    | _ => ""

def _numbering_depth (numbering : String) : Option ℕ :=
  let number := numbering.toList
  if number = [] then none
  else if number.head?.any reader.is_digit ∧ reader.dotted number = number then
    some (number.count '.' + 1)
  else some 1

end NumberReader

structure HeadingNode where
  block : Block
  level : ℕ
  parent_id : Option String
deriving DecidableEq

-- What the loop has gathered; the top of the stack comes first.
structure Nesting where
  nodes : List HeadingNode := []
  anomalies : List String := []
  stack : List HeadingNode := []
  previous_depth : Option ℕ := none
deriving DecidableEq

namespace NumberReader

variable (reader : NumberReader)

def depth_of (stack : List HeadingNode) (block : Block) : ℕ :=
  match reader._numbering_depth (reader.numbering block) with
  | some depth => depth
  | none =>
      match block.x0, stack.head?, stack.head?.bind (·.block.x0) with
      | some x0, some top, some parent_x => max 1 (top.level + if parent_x + 10 < x0 then 1 else 0)
      | _, _, _ => 1

def nest (state : Nesting) (block : Block) : Nesting :=
  let depth := reader.depth_of state.stack block
  let jumps := match state.previous_depth with
    | some previous =>
        if previous + 1 < depth then
          [s!"{block.local_id}: level jumped from {previous} to {depth}"]
        else []
    | none => []
  let stack := unwound HeadingNode.level depth state.stack
  let parent := stack.head?.map (·.block.local_id)
  let own := parent = some block.local_id
  let node : HeadingNode := { block, level := depth, parent_id := if own then none else parent }
  { nodes := state.nodes ++ [node]
    anomalies := state.anomalies ++ jumps ++
      if own then [s!"{block.local_id}: heading is its own parent"] else []
    stack := node :: stack
    previous_depth := some depth }

def build_heading_hierarchy (headings : List Block) : List HeadingNode × List String :=
  let final := headings.foldl reader.nest {}
  (final.nodes, final.anomalies)

end NumberReader

-- The nearest heading before, of a smaller level; it does not count when it has the heading's own id.
def NestedNearest (nodes : List HeadingNode) : Prop :=
  EachAfter (fun before node =>
    node.parent_id = ((ancestor HeadingNode.level before node.level).map
      (·.block.local_id)).filter (· ≠ node.block.local_id)) nodes

-- A heading that the nearest one before has the own id of is reported.
def OwnReported (nodes : List HeadingNode) (anomalies : List String) : Prop :=
  EachAfter (fun before node =>
    (ancestor HeadingNode.level before node.level).map (·.block.local_id) = some node.block.local_id →
      s!"{node.block.local_id}: heading is its own parent" ∈ anomalies) nodes

section Nesting

variable (reader : NumberReader)

structure Nested (state : Nesting) : Prop where
  nearest : NestedNearest state.nodes
  reported : OwnReported state.nodes state.anomalies
  tracks : Tracks HeadingNode.level state.nodes state.stack

theorem nested_nest {state : Nesting} (hstate : Nested state) (block : Block) :
    Nested (reader.nest state block) := by
  obtain ⟨hnearest, hreported, htracks⟩ := hstate
  refine ⟨EachAfter.append hnearest ?_, EachAfter.append ?_ ?_, htracks.push _⟩
  · dsimp only
    rw [← htracks.head?]
    cases (unwound HeadingNode.level (reader.depth_of state.stack block) state.stack).head? with
    | none => simp
    | some parent =>
        by_cases hown : parent.block.local_id = block.local_id
        · simp [hown, Option.filter_some]
        · simp [hown, Option.filter_some]
  · exact EachAfter.imp hreported fun _ _ hmessage hown =>
      List.mem_append_left _ (List.mem_append_left _ (hmessage hown))
  · intro hown
    dsimp only at hown
    rw [← htracks.head?] at hown
    unfold NumberReader.nest
    dsimp only
    rw [if_pos hown]
    exact List.mem_append_right _ (List.mem_singleton_self _)

theorem nested_foldl (headings : List Block) {state : Nesting} (hstate : Nested state) :
    Nested (headings.foldl reader.nest state) := by
  induction headings generalizing state with
  | nil => exact hstate
  | cons block headings ih => exact ih (nested_nest reader hstate block)

theorem build_nested (headings : List Block) :
    NestedNearest (reader.build_heading_hierarchy headings).1 ∧
      OwnReported (reader.build_heading_hierarchy headings).1
        (reader.build_heading_hierarchy headings).2 := by
  have hstart : Nested {} := ⟨eachAfter_nil, eachAfter_nil, tracks_nil⟩
  have hnested := nested_foldl reader headings hstart
  exact ⟨hnested.nearest, hnested.reported⟩

end Nesting

structure NumberingSignal where
  family : String
  value : String
  depth : ℕ
deriving DecidableEq

structure TocEntry where
  source_block_id : String
  anchor : String
  level : Option ℤ
deriving DecidableEq

-- A level as a mark of the text states it.
abbrev MarkedLevel : Type := {level : ℤ // 1 ≤ level}

-- What the patterns, the fonts and the scoring read out of the ordered blocks of a document.
structure HeadingReader where
  numbering : String → Option NumberingSignal
  numbers : String → List ℕ
  label_level : String → Option MarkedLevel
  markdown_level : String → Option MarkedLevel
  heading_label : String → Bool
  anchor : String → String
  toc_entries : List NormalizationBlock → List TocEntry × List String
  font_level : List NormalizationBlock → NormalizationBlock → Option MarkedLevel
  score : List NormalizationBlock → NormalizationBlock → Binary64

structure HeadingInferenceRecord where
  block_id : String
  original_type : String
  inferred_type : String
  is_heading : Bool
  level : Option ℤ
  parent_id : Option String
  score : Binary64
  numbering_family : Option String
  numbering_value : Option String
  toc_anchor : Option String
  toc_status : String
  ambiguous : Bool
  llm_candidate : Bool
  warnings : List String
deriving DecidableEq

def _HEADING_TYPES : List String := ["title", "heading"]

def _NON_HEADING_TYPES : List String := [
  "code", "formula", "table", "table_cell", "figure", "caption", "footer", "header", "page_number",
  "footnote"]

def sorted_set (warnings : List String) : List String := warnings.dedup.insertionSort (· ≤ ·)

def clamp (level : ℤ) : ℤ := max 1 (min 6 level)

def text_of (block : NormalizationBlock) : String :=
  if block.normalized_text ≠ "" then block.normalized_text else block.raw_text

-- What the loop over the draft has gathered; the top of the stack comes first.
structure Linking where
  final : List HeadingInferenceRecord := []
  stack : List HeadingInferenceRecord := []
  seen_numbers : List (String × String) := []
  seen_arabic : List (List ℕ) := []
  previous_level : Option ℤ := none
deriving DecidableEq

-- `stack[-1].level or 1`
def open_level (record : HeadingInferenceRecord) : ℤ :=
  match record.level with
  | some level => if level = 0 then 1 else level
  | none => 1

namespace HeadingReader

variable (reader : HeadingReader)

def explicit_heading_level (block : NormalizationBlock) : Option ℤ :=
  match block.explicit_heading_level with
  | some level => some (clamp level)
  | none =>
      match reader.label_level (block.provider_label.getD "") with
      | some level => some level
      | none => (reader.markdown_level (block.markdown.getD "")).map Subtype.val

def ordered (blocks : List NormalizationBlock) : List NormalizationBlock :=
  Ranked.rank (fun block => (toLex (block.order, toLex (block.page_number,
    toLex (_provider_key block, block.block_id))) : ℤ ×ₗ ℤ ×ₗ ProviderKey ×ₗ String)) blocks

def provider_heading (block : NormalizationBlock) : Bool :=
  block.block_type ∈ _HEADING_TYPES || reader.heading_label (block.provider_label.getD "")

def toc_matches (blocks : List NormalizationBlock) (block : NormalizationBlock) : List TocEntry :=
  (reader.toc_entries blocks).1.filter (·.anchor = reader.anchor (text_of block))

def level_of (blocks : List NormalizationBlock) (block : NormalizationBlock) : ℤ :=
  if block.block_type = "title" then 1
  else
    match reader.explicit_heading_level block with
    | some level => level
    | none =>
        match (reader.toc_matches blocks block).findSome? (·.level) with
        | some level => clamp level
        | none =>
            match reader.numbering (text_of block) with
            | some numbering => min 6 (numbering.depth + 1)
            | none =>
                match reader.font_level blocks block with
                | some level => level
                | none => 2

def draft_record (blocks : List NormalizationBlock) (block : NormalizationBlock) :
    HeadingInferenceRecord :=
  let numbering := reader.numbering (text_of block)
  let toc_matches := reader.toc_matches blocks block
  let toc_entry := block.block_id ∈ (reader.toc_entries blocks).2
  let score := reader.score blocks block
  let excluded := block.block_type ∈ _NON_HEADING_TYPES ∨ toc_entry
  let is_heading := ¬excluded ∧ (reader.provider_heading block ∨ (Binary64.of (55 / 100)).le score)
  let ambiguous := ¬excluded ∧ (Binary64.of (38 / 100)).le score ∧ score.lt (.of (72 / 100)) ∧
    ¬(block.block_type ∈ _HEADING_TYPES ∧ (Binary64.of (68 / 100)).le score)
  let level := if is_heading then some (reader.level_of blocks block) else none
  { block_id := block.block_id
    original_type := block.block_type
    inferred_type :=
      if is_heading ∧ level = some 1 ∧ block.block_type ≠ "heading" then "title"
      else if is_heading then "heading" else block.block_type
    is_heading := is_heading
    level := level
    parent_id := none
    score := score
    numbering_family := numbering.map (·.family)
    numbering_value := numbering.map (·.value)
    toc_anchor := if toc_matches ≠ [] then some (reader.anchor (text_of block)) else none
    toc_status :=
      if is_heading ∧ (reader.toc_entries blocks).1 ≠ [] then
        if toc_matches ≠ [] then "matched" else "heading_not_listed"
      else if toc_entry then "toc_entry_source" else "not_applicable"
    ambiguous := ambiguous
    llm_candidate := ambiguous
    warnings := [] }

def link (entries : List TocEntry) (title_count : ℕ) (state : Linking) (record : HeadingInferenceRecord) :
    Linking :=
  match record.is_heading, record.level with
  | true, some level =>
      let stack := unwound open_level level state.stack
      let jump := state.previous_level.any fun previous => previous + 1 < level
      let titles := level = 1 ∧ 1 < title_count
      let number := match record.numbering_family, record.numbering_value with
        | some family, some value => if family ≠ "" ∧ value ≠ "" then some (family, value) else none
        | _, _ => none
      let duplicate := number.any (· ∈ state.seen_numbers)
      let parts := match number with
        | some ("arabic", value) => some (reader.numbers value)
        | _ => none
      let orphan := parts.any fun parts => 1 < parts.length && parts.dropLast ∉ state.seen_arabic
      let expected := (entries.filter (·.anchor = record.toc_anchor.getD "")).filterMap (·.level)
      let mismatch := record.toc_status = "matched" ∧ expected ≠ [] ∧ level ∉ expected
      let warnings :=
        (if jump then ["heading_level_jump"] else []) ++
        (if titles then ["multiple_document_titles"] else []) ++
        (if duplicate then ["duplicate_heading_number"] else []) ++
        (if orphan then ["heading_numbering_parent_missing"] else []) ++
        (if mismatch then ["toc_anchor_level_mismatch"] else [])
      let updated : HeadingInferenceRecord :=
        { record with parent_id := stack.head?.map (·.block_id), warnings := sorted_set warnings }
      { final := state.final ++ [updated]
        stack := updated :: stack
        seen_numbers := if duplicate then state.seen_numbers else state.seen_numbers ++ number.toList
        seen_arabic := state.seen_arabic ++ parts.toList
        previous_level := some level }
  | _, _ => { state with final := state.final ++ [record] }

-- A line of the contents that no block answers to is told to the blocks it stands in.
def warn_unmatched (blocks : List NormalizationBlock) (final : List HeadingInferenceRecord) :
    List HeadingInferenceRecord :=
  let entries := (reader.toc_entries blocks).1
  let anchors := blocks.map fun block => reader.anchor (text_of block)
  let toc_sources : List String :=
    (entries.filter fun entry => decide (entry.anchor ∉ anchors)).map (·.source_block_id)
  final.map fun record =>
    if record.block_id ∈ toc_sources then
      { record with warnings := sorted_set (record.warnings ++ ["toc_anchor_missing_in_body"]) }
    else record

def infer_heading_hierarchy (blocks : List NormalizationBlock) :
    Except String (List HeadingInferenceRecord) :=
  if ¬(blocks.map (·.block_id)).Nodup then .error "heading block IDs must be unique"
  else
    let ordered := ordered blocks
    let draft := ordered.map (reader.draft_record ordered)
    let title_count := draft.countP fun record => record.is_heading && record.level = some 1
    let linked := draft.foldl (reader.link (reader.toc_entries ordered).1 title_count) {}
    .ok (reader.warn_unmatched ordered linked.final)

end HeadingReader

def heading_level (record : HeadingInferenceRecord) : ℤ := record.level.getD 1

-- The nearest heading before, of a smaller level; what is no heading has no parent.
def InferredNearest (records : List HeadingInferenceRecord) : Prop :=
  EachAfter (fun before record =>
    record.parent_id =
      if record.is_heading then
        (ancestor heading_level (before.filter (·.is_heading)) (heading_level record)).map (·.block_id)
      else none) records

section Linking

def Leveled (record : HeadingInferenceRecord) : Prop :=
  record.parent_id = none ∧ (record.is_heading = true → ∃ level, record.level = some level ∧ 1 ≤ level)

theorem open_level_eq {record : HeadingInferenceRecord} {level : ℤ} (hlevel : record.level = some level)
    (hpositive : 1 ≤ level) : open_level record = heading_level record := by
  have hne : level ≠ 0 := by omega
  simp [open_level, heading_level, hlevel, hne]

theorem one_le_clamp (level : ℤ) : 1 ≤ clamp level := le_max_left ..

variable (reader : HeadingReader)

theorem one_le_explicit {block : NormalizationBlock} {level : ℤ}
    (hlevel : reader.explicit_heading_level block = some level) : 1 ≤ level := by
  unfold HeadingReader.explicit_heading_level at hlevel
  split at hlevel
  · cases hlevel
    exact one_le_clamp _
  split at hlevel
  · rename_i marked _
    cases hlevel
    exact marked.2
  · obtain ⟨marked, _, rfl⟩ := Option.map_eq_some_iff.mp hlevel
    exact marked.2

theorem one_le_level_of (blocks : List NormalizationBlock) (block : NormalizationBlock) :
    1 ≤ reader.level_of blocks block := by
  unfold HeadingReader.level_of
  split
  · exact le_rfl
  split
  · exact one_le_explicit reader (by assumption)
  split
  · exact one_le_clamp _
  split
  · omega
  split
  · rename_i marked _
    exact marked.2
  · decide

theorem leveled_draft (blocks : List NormalizationBlock) (block : NormalizationBlock) :
    Leveled (reader.draft_record blocks block) := by
  refine ⟨rfl, fun hheading => ?_⟩
  refine ⟨reader.level_of blocks block, ?_, one_le_level_of reader blocks block⟩
  simp only [HeadingReader.draft_record, decide_eq_true_eq] at hheading ⊢
  exact if_pos hheading

structure Linked (state : Linking) : Prop where
  nearest : InferredNearest state.final
  tracks : Tracks heading_level (state.final.filter (·.is_heading)) state.stack
  positive : ∀ record ∈ state.stack, open_level record = heading_level record

-- What a heading adds to the state, its warnings apart.
structure Added (state : Linking) (record updated : HeadingInferenceRecord) (level : ℤ) (next : Linking) :
    Prop where
  final : next.final = state.final ++ [updated]
  stack : next.stack = updated :: unwound open_level level state.stack
  parent : updated.parent_id = (unwound open_level level state.stack).head?.map (·.block_id)
  level : updated.level = record.level
  heading : updated.is_heading = record.is_heading

theorem exists_added (entries : List TocEntry) (title_count : ℕ) (state : Linking)
    {record : HeadingInferenceRecord} {level : ℤ} (hheading : record.is_heading = true)
    (hlevel : record.level = some level) :
    ∃ updated, Added state record updated level (reader.link entries title_count state record) := by
  unfold HeadingReader.link
  rw [hheading, hlevel]
  exact ⟨_, rfl, rfl, rfl, hlevel.symm ▸ rfl, hheading.symm ▸ rfl⟩

theorem linked_link (entries : List TocEntry) (title_count : ℕ) {state : Linking} (hstate : Linked state)
    {record : HeadingInferenceRecord} (hrecord : Leveled record) :
    Linked (reader.link entries title_count state record) := by
  obtain ⟨hnearest, htracks, hpositive⟩ := hstate
  obtain ⟨hparent, hleveled⟩ := hrecord
  cases hheading : record.is_heading with
  | false =>
      have hlink : reader.link entries title_count state record =
          { state with final := state.final ++ [record] } := by
        simp [HeadingReader.link, hheading]
      rw [hlink]
      refine ⟨EachAfter.append hnearest (by simp [hparent, hheading]), ?_, hpositive⟩
      simpa [hheading] using htracks
  | true =>
      obtain ⟨level, hlevel, hone⟩ := hleveled hheading
      obtain ⟨updated, hadded⟩ := exists_added reader entries title_count state hheading hlevel
      have hupdated : heading_level updated = level := by
        simp [heading_level, hadded.level, hlevel]
      have hstack : unwound open_level level state.stack = unwound heading_level level state.stack :=
        unwound_congr hpositive
      have hkept : updated.is_heading = true := hadded.heading.trans hheading
      refine ⟨?_, ?_, ?_⟩
      · rw [hadded.final]
        refine EachAfter.append hnearest ?_
        rw [if_pos hkept, hadded.parent, hstack, htracks.head?, hupdated]
      · rw [hadded.final, hadded.stack, hstack, List.filter_append]
        simpa [hkept, hupdated] using htracks.push updated
      · rw [hadded.stack]
        refine List.forall_mem_cons.mpr ⟨?_, fun other hother => hpositive other (mem_of_mem_unwound hother)⟩
        exact open_level_eq (hadded.level.trans hlevel) hone

theorem linked_foldl (entries : List TocEntry) (title_count : ℕ) (draft : List HeadingInferenceRecord)
    (hdraft : ∀ record ∈ draft, Leveled record) {state : Linking} (hstate : Linked state) :
    Linked (draft.foldl (reader.link entries title_count) state) := by
  induction draft generalizing state with
  | nil => exact hstate
  | cons record draft ih =>
      obtain ⟨hrecord, hrest⟩ := List.forall_mem_cons.mp hdraft
      exact ih hrest (linked_link reader entries title_count hstate hrecord)

-- The last warnings change no parent.
theorem warned_nearest (blocks : List NormalizationBlock) {final : List HeadingInferenceRecord}
    (hfinal : InferredNearest final) : InferredNearest (reader.warn_unmatched blocks final) := by
  obtain ⟨change, hmap, hkept⟩ : ∃ change : HeadingInferenceRecord → HeadingInferenceRecord,
      reader.warn_unmatched blocks final = final.map change ∧ ∀ record,
        (change record).parent_id = record.parent_id ∧ (change record).level = record.level ∧
          (change record).is_heading = record.is_heading ∧ (change record).block_id = record.block_id := by
    refine ⟨_, rfl, fun record => ?_⟩
    split <;> exact ⟨rfl, rfl, rfl, rfl⟩
  rw [hmap]
  refine EachAfter.map hfinal fun before record hrecord => ?_
  obtain ⟨hparent, hlevel, hheading, _⟩ := hkept record
  have hlevels : heading_level ∘ change = heading_level := by
    funext other
    simp [heading_level, (hkept other).2.1]
  have hheadings : (fun other : HeadingInferenceRecord => other.is_heading) ∘ change =
      fun other => other.is_heading := by
    funext other
    exact (hkept other).2.2.1
  have hids : (fun other : HeadingInferenceRecord => other.block_id) ∘ change =
      fun other => other.block_id := by
    funext other
    exact (hkept other).2.2.2
  rw [hparent, hheading, hrecord, List.filter_map, hheadings, ancestor_map, hlevels, Option.map_map, hids]
  simp [heading_level, hlevel]

theorem infer_nearest {blocks : List NormalizationBlock} {records : List HeadingInferenceRecord}
    (hrun : reader.infer_heading_hierarchy blocks = .ok records) : InferredNearest records := by
  unfold HeadingReader.infer_heading_hierarchy at hrun
  split at hrun
  · cases hrun
  · cases hrun
    have hstart : Linked {} := ⟨eachAfter_nil, tracks_nil, by simp⟩
    refine warned_nearest reader _ (linked_foldl reader _ _ _ ?_ hstart).nearest
    simp only [List.mem_map]
    rintro record ⟨block, _, rfl⟩
    exact leveled_draft reader _ block

end Linking

-- Every parent is among the headings before: no line of parents comes back.
def ParentsEarlier {α : Type} (parent : α → Option String) (id : α → String) (items : List α) : Prop :=
  EachAfter (fun before item => ∀ name, parent item = some name → ∃ other ∈ before, id other = name) items

theorem earlier_of_nested {nodes : List HeadingNode} (hnodes : NestedNearest nodes) :
    ParentsEarlier HeadingNode.parent_id (·.block.local_id) nodes := by
  refine EachAfter.imp hnodes fun before node hnode name hname => ?_
  rw [hnode, Option.filter_eq_some_iff, Option.map_eq_some_iff] at hname
  obtain ⟨⟨parent, hparent, hid⟩, _⟩ := hname
  exact ⟨parent, mem_of_ancestor hparent, hid⟩

theorem earlier_of_inferred {records : List HeadingInferenceRecord} (hrecords : InferredNearest records) :
    ParentsEarlier HeadingInferenceRecord.parent_id HeadingInferenceRecord.block_id records := by
  refine EachAfter.imp hrecords fun before record hrecord name hname => ?_
  rw [hrecord] at hname
  split at hname
  · obtain ⟨parent, hparent, hid⟩ := Option.map_eq_some_iff.mp hname
    exact ⟨parent, (List.mem_filter.mp (mem_of_ancestor hparent)).1, hid⟩
  · cases hname

def ascii_numbers : NumberReader where
  is_digit := Char.isDigit

def twin_headings : List Block := [
  { local_id := "h", text := "1 Aim" }, { local_id := "h", text := "1.1 Scope" }]

-- The nearest heading of a smaller level is the first one, but the second has no parent.
theorem twin_heading_without_parent :
    ¬EachAfter (fun before node => node.parent_id =
      (ancestor HeadingNode.level before node.level).map (·.block.local_id))
        (ascii_numbers.build_heading_hierarchy twin_headings).1 := by
  intro hnearest
  have hnodes : (ascii_numbers.build_heading_hierarchy twin_headings).1 = [
      { block := { local_id := "h", text := "1 Aim" }, level := 1, parent_id := none },
      { block := { local_id := "h", text := "1.1 Scope" }, level := 2, parent_id := none }] := by
    decide
  rw [hnodes] at hnearest
  have hsecond := hnearest 1 _ rfl
  revert hsecond
  decide

end KnowledgeCompiler.Documents
