import KnowledgeCompiler.Documents.Headings
import KnowledgeCompiler.Lib.Json.Size
import KnowledgeCompiler.Lib.Method
import KnowledgeCompiler.Lib.Sha256
import Mathlib.Algebra.Group.Action.Defs
import Mathlib.Algebra.Order.BigOperators.Group.List

namespace KnowledgeCompiler.Documents

open Lib

-- What the patterns and the tables of letters read out of the texts of a document.
structure SignalReader where
  numbering : String → Option NumberingSignal
  numbers : String → List ℕ
  label_level : String → Option MarkedLevel
  markdown_level : String → Option MarkedLevel
  heading_label : String → Bool
  anchor : String → String
  toc_entries : List NormalizationBlock → List TocEntry × List String
  casefold : String → String
  nfkc : String → String

inductive Feature
  | none
  | flag (value : Bool)
  | whole (value : ℤ)
  | real (value : Binary64)
  | text (value : String)
deriving DecidableEq

namespace Feature

def of_int (value : Option ℤ) : Feature := (value.map whole).getD none

def of_float (value : Option Binary64) : Feature := (value.map real).getD none

def of_text (value : Option String) : Feature := (value.map text).getD none

-- `allow_nan=False`
def is_finite : Feature → Bool
  | real (.finite _) => true
  | real _ => false
  | _ => true

def json : Feature → Json
  | none => .null
  | flag value => .bool value
  | whole value => .int value
  | real value => .float value.repr
  | text value => .str value

end Feature

def _feature_tuple (values : List (String × Feature)) : List (String × Feature) :=
  values.insertionSort (fun first second => first.1 ≤ second.1)

section Fonts

-- The font sizes that the statistics go by.
def _font_sizes (blocks : List NormalizationBlock) : List Binary64 :=
  (blocks.filterMap (·.font_size_pt)).filter
    (fun size => (Binary64.finite 1).le size && size.le (.finite 200))

-- `statistics.median`
def median? (values : List Binary64) : Option Binary64 :=
  let ordered := values.insertionSort (fun first second => first.le second = true)
  if ordered.length % 2 = 1 then ordered[ordered.length / 2]?
  else
    match ordered[ordered.length / 2 - 1]?, ordered[ordered.length / 2]? with
    | some lower, some upper => some ((lower.add upper).div (.finite 2))
    | _, _ => none

def _font_statistics (blocks : List NormalizationBlock) : Option Binary64 × List Binary64 :=
  let sizes := _font_sizes blocks
  (median? sizes,
    (sizes.map (·.round 2)).dedup.insertionSort (fun first second => second.le first = true))

def _font_level (block : NormalizationBlock) (sizes : List Binary64) : Option MarkedLevel :=
  match block.font_size_pt with
  | none => none
  | some size => (sizes.idxOf? (size.round 2)).map (fun (rank : ℕ) => ⟨min 6 (rank + 1 : ℤ), by omega⟩)

def font_ratio (blocks : List NormalizationBlock) (block : NormalizationBlock) : Option Binary64 :=
  match block.font_size_pt, (_font_statistics blocks).1 with
  | some size, some median => if (Binary64.finite 0).lt median then some (size.div median) else none
  | _, _ => none

end Fonts

structure StyleKey where
  label : String
  font : Option Binary64
  depth : Option ℕ
  family : String
deriving DecidableEq

def position_signal (block : NormalizationBlock) : Bool :=
  match block.bbox1000 with
  | some (_, top, _, bottom) => top ≤ 220 && bottom ≤ 400
  | none => false

def whitespace_signal (block : NormalizationBlock) : Bool :=
  match block.whitespace_before, block.whitespace_after with
  | some before, some after => ((Binary64.finite 12).max (after.mul (.of (135 / 100)))).le before
  | _, _ => false

def bold_signal (block : NormalizationBlock) : Bool := block.font_weight.any (600 ≤ ·)

namespace SignalReader

variable (reader : SignalReader)

def _style_key (block : NormalizationBlock) : StyleKey where
  label :=
    let label := block.provider_label.getD ""
    reader.casefold (if label ≠ "" then label else block.block_type)
  font := block.font_size_pt.map (·.round 1)
  depth := (reader.numbering (text_of block)).map (·.depth)
  family := ((reader.numbering (text_of block)).map (·.family)).getD ""

-- `style_counts[key]`; a NaN is equal to no other one.
def style_count (ordered : List NormalizationBlock) (block : NormalizationBlock) : ℕ :=
  let key := reader._style_key block
  if key.font = some .nan then 0
  else ordered.countP fun other =>
    other.block_id ∉ (reader.toc_entries ordered).2 && reader._style_key other = key

def repeated_signal (ordered : List NormalizationBlock) (block : NormalizationBlock) : Bool :=
  2 ≤ reader.style_count ordered block

def provider_heading (block : NormalizationBlock) : Bool :=
  block.block_type ∈ _HEADING_TYPES || reader.heading_label (block.provider_label.getD "")

def toc_matched (ordered : List NormalizationBlock) (block : NormalizationBlock) : Bool :=
  (reader.toc_entries ordered).1.any (·.anchor = reader.anchor (text_of block))

-- What adds to the score of a block, and under what name.
def signals (ordered : List NormalizationBlock) (block : NormalizationBlock) :
    List (Binary64 × String) :=
  let ratio := font_ratio ordered block
  (if block.block_type = "title" then [(.of (90 / 100), "provider_title_type")]
    else if block.block_type = "heading" then [(.of (68 / 100), "provider_heading_type")]
    else if reader.provider_heading block then [(.of (50 / 100), "provider_heading_label")]
    else []) ++
  (match reader.numbering (text_of block) with
    | some numbering =>
        [(.of (if numbering.depth = 1 then 16 / 100 else 24 / 100),
          s!"numbering:{numbering.family}:{numbering.depth}")]
    | none => []) ++
  (if ratio.any (Binary64.of (130 / 100)).le then [(.of (24 / 100), "font_size_above_body")]
    else if ratio.any (Binary64.of (112 / 100)).le then
      [(.of (12 / 100), "font_size_slightly_above_body")]
    else []) ++
  (if bold_signal block then [(.of (12 / 100), "font_weight_emphasis")] else []) ++
  (if position_signal block then [(.of (7 / 100), "upper_page_position")] else []) ++
  (if whitespace_signal block then [(.of (10 / 100), "heading_whitespace_pattern")] else []) ++
  (if reader.toc_matched ordered block then [(.of (34 / 100), "toc_anchor_match")] else []) ++
  (if reader.repeated_signal ordered block then [(.of (10 / 100), "repeated_document_style")] else [])

def score (ordered : List NormalizationBlock) (block : NormalizationBlock) : Binary64 :=
  let total := (reader.signals ordered block).foldl (fun score signal => score.add signal.1) (.finite 0)
  ((Binary64.finite 1).min total).round 6

def evidence (ordered : List NormalizationBlock) (block : NormalizationBlock) : List String :=
  (reader.signals ordered block).map Prod.snd

def features (ordered : List NormalizationBlock) (block : NormalizationBlock) :
    List (String × Feature) :=
  _feature_tuple [
    ("providerLabel", .of_text block.provider_label),
    ("providerHeading", .flag (reader.provider_heading block)),
    ("fontSizePt", .of_float block.font_size_pt),
    ("fontRatioToMedian", .of_float ((font_ratio ordered block).map (·.round 6))),
    ("fontWeight", .of_int block.font_weight),
    ("bboxUpperPage", .flag (position_signal block)),
    ("whitespaceBefore", .of_float block.whitespace_before),
    ("whitespaceAfter", .of_float block.whitespace_after),
    ("whitespaceHeadingPattern", .flag (whitespace_signal block)),
    ("numberingDepth", .of_int ((reader.numbering (text_of block)).map (fun numbering => numbering.depth))),
    ("tocMatched", .flag (reader.toc_matched ordered block)),
    ("repeatedStyle", .flag (reader.repeated_signal ordered block))]

-- The rules with the fonts and the scores worked out.
def rules : HeadingReader where
  numbering := reader.numbering
  numbers := reader.numbers
  label_level := reader.label_level
  markdown_level := reader.markdown_level
  heading_label := reader.heading_label
  anchor := reader.anchor
  toc_entries := reader.toc_entries
  font_level := fun ordered block => _font_level block (_font_statistics ordered).2
  score := reader.score

end SignalReader

open Method

-- A record with what was read out of its block.
structure DetailedRecord where
  record : HeadingInferenceRecord
  features : List (String × Feature)
  evidence : List String

structure Candidate where
  block_id : String
  text : String
  text_sha256 : String
  proposed_level : Option ℤ
  features : List (String × Feature)
  evidence : List String

inductive HeadingError
  | value_error (message : String)
  | key_error (key : String)
deriving DecidableEq

structure HeadingInferenceResult where
  records : List DetailedRecord
  heading_block_ids : List String
  toc_entries : List TocEntry
  unmatched_toc_anchors : List String
  llm_candidate_payload : Json

def isControl (c : Char) : Bool :=
  Text.inRanges [(0x00, 0x08), (0x0b, 0x0c), (0x0e, 0x1f), (0x7f, 0x7f)] c

-- `(-item.score, item.block_id)`
def asked_before (first second : DetailedRecord) : Prop :=
  second.record.score.lt first.record.score = true ∨
    first.record.score = second.record.score ∧ first.record.block_id ≤ second.record.block_id

instance : DecidableRel asked_before := fun _ _ => inferInstanceAs (Decidable (_ ∨ _ ∧ _))

def Candidate.json (candidate : Candidate) : Json := .obj [
  ("blockId", .str candidate.block_id),
  ("candidateText", .str candidate.text),
  ("candidateTextSha256", .str candidate.text_sha256),
  ("proposedLevel", (candidate.proposed_level.map Json.int).getD .null),
  ("features", .obj (candidate.features.map (fun feature => (feature.1, feature.2.json)))),
  ("evidence", .arr (candidate.evidence.map Json.str))]

def Candidate.is_finite (candidate : Candidate) : Bool := candidate.features.all (·.2.is_finite)

def payload_of (candidates : List Candidate) : Json := .obj [
  ("schemaVersion", .str "akc-heading-llm-candidates-1.0.0"),
  ("purpose", .str "heading_ambiguity_candidate_review"),
  ("untrustedInput", .bool true),
  ("candidateOnly", .bool true),
  ("neighborBodyIncluded", .bool false),
  ("documentIncluded", .bool false),
  ("llmInvoked", .bool false),
  ("mutationAuthority", .str "none"),
  ("candidates", .arr (candidates.map Candidate.json))]

def exceeds_boundary : HeadingError := .value_error "heading candidate payload exceeds safe boundary"

-- The payload as it is sent, unless it is too large or has a number that JSON has not.
def bounded_payload (candidates : List Candidate) : Except HeadingError Json :=
  if ¬candidates.all Candidate.is_finite then
    .error (.value_error "Out of range float values are not JSON compliant")
  else if 32768 < (Utf8.encode (Json.dumps (payload_of candidates))).size then .error exceeds_boundary
  else .ok (payload_of candidates)

namespace SignalReader

variable (reader : SignalReader) (hasher : Hasher)

def _safe_candidate_text (value : String) : String :=
  let normalized := (reader.nfkc value).toList.map (fun c => if isControl c then ' ' else c)
  String.ofList ((Text.strip (Text.collapseSpaces normalized)).take 240)

def candidate_of (blocks : List NormalizationBlock) (item : DetailedRecord) :
    Except HeadingError Candidate :=
  -- Of blocks with one id the last one is found.
  match blocks.reverse.find? (fun block => block.block_id = item.record.block_id) with
  | some block =>
      let text := reader._safe_candidate_text (text_of block)
      .ok
        { block_id := item.record.block_id
          text
          text_sha256 := hasher.hexdigest (Utf8.encode text.toList)
          proposed_level := item.record.level
          features := item.features
          evidence := item.evidence }
  | none => .error (.key_error item.record.block_id)

def select_candidates (records : List DetailedRecord) (blocks : List NormalizationBlock)
    (max_candidates : ℕ) : Except HeadingError (List Candidate) :=
  (((records.filter (·.record.llm_candidate)).insertionSort asked_before).take max_candidates).mapM
    (reader.candidate_of hasher blocks)

def build_heading_llm_candidate_payload (records : List DetailedRecord)
    (blocks : List NormalizationBlock) (max_candidates : ℤ := 32) : Except HeadingError Json :=
  if ¬(1 ≤ max_candidates ∧ max_candidates ≤ 32) then
    .error (.value_error "max_candidates must be between 1 and 32")
  else do
    let candidates ← reader.select_candidates hasher records blocks max_candidates.toNat
    bounded_payload candidates

-- The records of the rules, each with the features of its block.
def detailed (ordered : List NormalizationBlock) (records : List HeadingInferenceRecord) :
    List DetailedRecord :=
  records.zipWith (fun record block =>
    ⟨record, reader.features ordered block, reader.evidence ordered block⟩) ordered

def unmatched_anchors (ordered : List NormalizationBlock) : List String :=
  let anchors := ordered.map fun block => reader.anchor (text_of block)
  sorted_set (((reader.toc_entries ordered).1.map (·.anchor)).filter (· ∉ anchors))

def infer_heading_hierarchy (blocks : List NormalizationBlock) :
    Except HeadingError HeadingInferenceResult := do
  let final ← (reader.rules.infer_heading_hierarchy blocks).mapError .value_error
  let ordered := HeadingReader.ordered blocks
  let records := reader.detailed ordered final
  let payload ← reader.build_heading_llm_candidate_payload hasher records ordered
  return {
    records
    heading_block_ids := (final.filter (·.is_heading)).map (·.block_id)
    toc_entries := (reader.toc_entries ordered).1
    unmatched_toc_anchors := reader.unmatched_anchors ordered
    llm_candidate_payload := payload }

end SignalReader

section Sizes

-- The bytes of a candidate with an empty text.
def Candidate.frame_size (candidate : Candidate) : ℕ :=
  Json.size (Candidate.json { candidate with text := "" })

theorem size_candidate (candidate : Candidate) :
    Json.size candidate.json = candidate.frame_size + Json.escapedSize candidate.text := by
  have hempty : Json.escapedSize "" = 0 := rfl
  rw [Candidate.frame_size, Candidate.json, Candidate.json, Json.size_obj, Json.size_obj]
  simp only [List.map_cons, List.sum_cons, Json.memberSize, Json.size_str, hempty]
  omega

def request_size (candidates : List Candidate) : ℕ :=
  258 + ((candidates.map fun candidate =>
    1 + (candidate.frame_size + Json.escapedSize candidate.text)).sum - 1)

theorem features_le_frame (candidate : Candidate) :
    Json.size (.obj (candidate.features.map (fun feature => (feature.1, feature.2.json)))) + 97 ≤
      candidate.frame_size := by
  have hempty : Json.escapedSize "" = 0 := rfl
  have hkeys : Json.escapedSize "blockId" = 7 ∧ Json.escapedSize "candidateText" = 13 ∧
      Json.escapedSize "candidateTextSha256" = 19 ∧ Json.escapedSize "proposedLevel" = 13 ∧
      Json.escapedSize "features" = 8 ∧ Json.escapedSize "evidence" = 8 := by decide
  rw [Candidate.frame_size, Candidate.json]
  dsimp only
  generalize Json.obj (candidate.features.map (fun feature => (feature.1, feature.2.json))) = features
  rw [Json.size_obj]
  simp only [List.map_cons, List.sum_cons, Json.memberSize, Json.size_str, hempty, hkeys]
  omega

-- The names of the features alone take so many bytes.
theorem features_size (reader : SignalReader) (ordered : List NormalizationBlock)
    (block : NormalizationBlock) :
    219 ≤ Json.size (.obj ((reader.features ordered block).map
      (fun feature => (feature.1, feature.2.json)))) := by
  have hkeys : (["providerLabel", "providerHeading", "fontSizePt", "fontRatioToMedian", "fontWeight",
      "bboxUpperPage", "whitespaceBefore", "whitespaceAfter", "whitespaceHeadingPattern",
      "numberingDepth", "tocMatched", "repeatedStyle"].map
        (fun key => 4 + Json.escapedSize key)).sum = 218 := by decide
  have hnames : ∀ features : List (String × Feature),
      (features.map (fun feature => 4 + Json.escapedSize feature.1)).sum ≤
        (features.map (fun feature => Json.memberSize (feature.1, feature.2.json))).sum :=
    fun features => List.sum_le_sum fun feature _ => Nat.le_add_right _ _
  have hsorted := hnames (reader.features ordered block)
  rw [Json.size_obj, List.map_map]
  have hnamed : ((reader.features ordered block).map
      (fun feature => 4 + Json.escapedSize feature.1)).sum = 218 := by
    rw [SignalReader.features, _feature_tuple, ((List.perm_insertionSort _ _).map _).sum_eq]
    exact hkeys
  rw [hnamed] at hsorted
  have hsame : (Json.memberSize ∘ fun feature : String × Feature => (feature.1, feature.2.json)) =
      fun feature => Json.memberSize (feature.1, feature.2.json) := rfl
  rw [hsame]
  omega

theorem features_finite (reader : SignalReader) (ordered : List NormalizationBlock)
    {block : NormalizationBlock} (hfont : block.font_size_pt = none)
    (hbefore : block.whitespace_before = none) (hafter : block.whitespace_after = none) :
    (reader.features ordered block).all (·.2.is_finite) = true := by
  rw [List.all_eq_true]
  intro feature hfeature
  rw [SignalReader.features, _feature_tuple, (List.perm_insertionSort _ _).mem_iff] at hfeature
  have hratio : font_ratio ordered block = none := by rw [font_ratio, hfont]
  rw [hfont, hbefore, hafter, hratio] at hfeature
  have hint : ∀ value : Option ℤ, (Feature.of_int value).is_finite = true := fun value => by
    cases value <;> rfl
  have htext : ∀ value : Option String, (Feature.of_text value).is_finite = true := fun value => by
    cases value <;> rfl
  simp only [List.mem_cons, List.not_mem_nil, or_false] at hfeature
  rcases hfeature with rfl | rfl | rfl | rfl | rfl | rfl | rfl | rfl | rfl | rfl | rfl | rfl <;>
    first | rfl | exact hint _ | exact htext _

theorem size_payload (candidates : List Candidate) :
    Json.size (payload_of candidates) = request_size candidates := by
  let fixed : List (String × Json) := [
    ("schemaVersion", .str "akc-heading-llm-candidates-1.0.0"),
    ("purpose", .str "heading_ambiguity_candidate_review"),
    ("untrustedInput", .bool true),
    ("candidateOnly", .bool true),
    ("neighborBodyIncluded", .bool false),
    ("documentIncluded", .bool false),
    ("llmInvoked", .bool false),
    ("mutationAuthority", .str "none")]
  have hfixed : (fixed.map Json.memberSize).sum = 241 := by decide
  have hkey : Json.escapedSize "candidates" = 10 := rfl
  have hpayload : payload_of candidates =
      .obj (fixed ++ [("candidates", .arr (candidates.map Candidate.json))]) := rfl
  rw [hpayload, Json.size_obj, List.map_append, List.sum_append, hfixed, List.map_singleton,
    List.sum_singleton, Json.memberSize, Json.size_arr, List.map_map, hkey, request_size]
  simp only [Function.comp_def, size_candidate]
  omega

end Sizes

section Texts

theorem mem_collapseSpaces {text : List Char} {c : Char} (hc : c ∈ Text.collapseSpaces text) :
    c = ' ' ∨ c ∈ text ∧ Text.isSpace c = false := by
  induction text with
  | nil => cases hc
  | cons d rest ih =>
      have hlater : c ∈ Text.collapseSpaces rest → c = ' ' ∨ c ∈ d :: rest ∧ Text.isSpace c = false := by
        intro hrest
        exact (ih hrest).imp_right fun ⟨hmem, hspace⟩ => ⟨List.mem_cons_of_mem d hmem, hspace⟩
      unfold Text.collapseSpaces at hc
      split at hc
      · split at hc
        · exact Or.inl (List.mem_singleton.mp hc)
        · split at hc
          · exact hlater hc
          · exact (List.mem_cons.mp hc).elim Or.inl hlater
      · rename_i hd
        rcases List.mem_cons.mp hc with rfl | hrest
        · exact Or.inr ⟨List.mem_cons_self, by simpa using hd⟩
        · exact hlater hrest

theorem mem_of_mem_strip {text : List Char} {c : Char} (hc : c ∈ Text.strip text) : c ∈ text := by
  rw [Text.strip, Text.rstrip, Text.lstrip, List.mem_reverse] at hc
  exact (List.dropWhile_sublist _).mem (List.mem_reverse.mp ((List.dropWhile_sublist _).mem hc))

-- A character that is neither white space nor replaced is no control character.
theorem printable_of_kept {c : Char} (hcontrol : isControl c = false) (hspace : Text.isSpace c = false) :
    0x20 ≤ c.toNat := by
  simp [isControl, Text.isSpace, Text.inRanges] at hcontrol hspace
  omega

variable (reader : SignalReader)

theorem safe_text_spec (value : String) :
    (reader._safe_candidate_text value).length ≤ 240 ∧
      ∀ c ∈ (reader._safe_candidate_text value).toList, 0x20 ≤ c.toNat := by
  constructor
  · rw [SignalReader._safe_candidate_text, String.length_ofList]
    exact List.length_take_le _ _
  · intro c hc
    rw [SignalReader._safe_candidate_text, String.toList_ofList] at hc
    rcases mem_collapseSpaces (mem_of_mem_strip (List.mem_of_mem_take hc)) with rfl | ⟨hkept, hspace⟩
    · decide
    · obtain ⟨d, -, rfl⟩ := List.mem_map.mp hkept
      by_cases hcontrol : isControl d = true
      · rw [if_pos hcontrol]
        decide
      · rw [if_neg hcontrol] at hspace ⊢
        exact printable_of_kept (by simpa using hcontrol) hspace

theorem collapseSpaces_of_not_space {text : List Char} (htext : ∀ c ∈ text, Text.isSpace c = false) :
    Text.collapseSpaces text = text := by
  induction text with
  | nil => rfl
  | cons c rest ih =>
      obtain ⟨hc, hrest⟩ := List.forall_mem_cons.mp htext
      unfold Text.collapseSpaces
      rw [hc, if_neg Bool.false_ne_true, ih hrest]

-- A short text without white space and control characters is asked about as it is.
theorem safe_text_eq {value : String} (hnfkc : reader.nfkc value = value)
    (hplain : ∀ c ∈ value.toList, isControl c = false ∧ Text.isSpace c = false)
    (hlength : value.length ≤ 240) : reader._safe_candidate_text value = value := by
  have hkept : value.toList.map (fun c => if isControl c then ' ' else c) = value.toList := by
    conv_rhs => rw [← List.map_id value.toList]
    refine List.map_congr_left fun c hc => ?_
    rw [(hplain c hc).1]
    rfl
  have hspace : ∀ c ∈ value.toList, Text.isSpace c = false := fun c hc => (hplain c hc).2
  rw [SignalReader._safe_candidate_text, hnfkc, hkept, collapseSpaces_of_not_space hspace,
    Text.strip_of_not_space hspace, List.take_of_length_le (by rwa [String.length_toList]),
    String.ofList_toList]

theorem size_escapeChar {c : Char} (hc : 0x20 ≤ c.toNat) : Utf8.size (Json.escapeChar c) ≤ 4 := by
  have hlow : ∀ d : Char, d.toNat < 0x20 → c ≠ d := by
    rintro d hd rfl
    omega
  unfold Json.escapeChar
  split_ifs with hquote hslash hline hreturn htab hfeed hback hcontrol
  · decide
  · decide
  · exact absurd hline (hlow _ (by decide))
  · exact absurd hreturn (hlow _ (by decide))
  · exact absurd htab (hlow _ (by decide))
  · omega
  · omega
  · omega
  · rw [Utf8.size_cons, Utf8.size_nil]
    exact c.utf8Size_le_four

theorem escapedSize_le {value : String} (hvalue : ∀ c ∈ value.toList, 0x20 ≤ c.toNat) :
    Json.escapedSize value ≤ 4 * value.length := by
  have hsize : ∀ text : List Char, (∀ c ∈ text, 0x20 ≤ c.toNat) →
      Utf8.size (text.flatMap Json.escapeChar) ≤ 4 * text.length := by
    intro text htext
    induction text with
    | nil => exact le_rfl
    | cons c rest ih =>
        obtain ⟨hc, hrest⟩ := List.forall_mem_cons.mp htext
        have hfirst := size_escapeChar hc
        have hlater := ih hrest
        rw [List.flatMap_cons, Utf8.size_append, List.length_cons]
        omega
  exact hsize value.toList hvalue

end Texts

section Records

variable (reader : SignalReader)

theorem link_final (entries : List TocEntry) (title_count : ℕ) (state : Linking)
    (record : HeadingInferenceRecord) : ∃ updated, updated.block_id = record.block_id ∧
      (reader.rules.link entries title_count state record).final = state.final ++ [updated] := by
  unfold HeadingReader.link
  split
  · refine ⟨_, ?_, rfl⟩
    rfl
  · exact ⟨record, rfl, rfl⟩

theorem ids_foldl (entries : List TocEntry) (title_count : ℕ) (draft : List HeadingInferenceRecord)
    (state : Linking) :
    (draft.foldl (reader.rules.link entries title_count) state).final.map (·.block_id) =
      state.final.map (·.block_id) ++ draft.map (·.block_id) := by
  induction draft generalizing state with
  | nil => simp
  | cons record draft ih =>
      obtain ⟨updated, hid, hfinal⟩ := link_final reader entries title_count state record
      rw [List.foldl_cons, ih, hfinal]
      simp [hid]

-- The records come in the order of their blocks.
theorem ids_of_infer {blocks : List NormalizationBlock} {final : List HeadingInferenceRecord}
    (hfinal : reader.rules.infer_heading_hierarchy blocks = .ok final) :
    final.map (·.block_id) = (HeadingReader.ordered blocks).map (·.block_id) := by
  unfold HeadingReader.infer_heading_hierarchy at hfinal
  split at hfinal
  · cases hfinal
  · cases hfinal
    have hwarned : ∀ records : List HeadingInferenceRecord,
        (reader.rules.warn_unmatched (HeadingReader.ordered blocks) records).map (·.block_id) =
          records.map (·.block_id) := by
      intro records
      rw [HeadingReader.warn_unmatched, List.map_map]
      refine List.map_congr_left fun record _ => ?_
      dsimp only [Function.comp]
      split <;> rfl
    rw [hwarned, ids_foldl, List.map_nil, List.nil_append, List.map_map]
    rfl

theorem detailed_spec {ordered : List NormalizationBlock} {final : List HeadingInferenceRecord}
    {item : DetailedRecord} (hitem : item ∈ reader.detailed ordered final) :
    ∃ record ∈ final, ∃ block ∈ ordered,
      item = ⟨record, reader.features ordered block, reader.evidence ordered block⟩ := by
  rw [SignalReader.detailed, ← List.map_uncurry_zip_eq_zipWith, List.mem_map] at hitem
  obtain ⟨⟨record, block⟩, hpair, hitem⟩ := hitem
  exact ⟨record, (List.of_mem_zip hpair).1, block, (List.of_mem_zip hpair).2, hitem.symm⟩

theorem SignalReader.records_detailed {ordered : List NormalizationBlock}
    {final : List HeadingInferenceRecord} (hlength : final.length = ordered.length) :
    (reader.detailed ordered final).map (·.record) = final := by
  rw [SignalReader.detailed, ← List.map_uncurry_zip_eq_zipWith, List.map_map]
  exact List.map_fst_zip hlength.le

variable (hasher : Hasher)

theorem candidate_spec {blocks : List NormalizationBlock} {item : DetailedRecord} {candidate : Candidate}
    (hcandidate : reader.candidate_of hasher blocks item = .ok candidate) :
    candidate.features = item.features ∧
      ∃ block ∈ blocks, candidate.text = reader._safe_candidate_text (text_of block) := by
  unfold SignalReader.candidate_of at hcandidate
  split at hcandidate
  · rename_i block hfound
    cases hcandidate
    exact ⟨rfl, block, List.mem_reverse.mp (List.mem_of_find?_eq_some hfound), rfl⟩
  · cases hcandidate

theorem exists_candidate {blocks : List NormalizationBlock} {item : DetailedRecord}
    (hitem : item.record.block_id ∈ blocks.map (·.block_id)) :
    ∃ candidate, reader.candidate_of hasher blocks item = .ok candidate := by
  obtain ⟨block, hblock, hid⟩ := List.mem_map.mp hitem
  unfold SignalReader.candidate_of
  split
  · exact ⟨_, rfl⟩
  · rename_i hnone
    have hother := List.find?_eq_none.mp hnone block (List.mem_reverse.mpr hblock)
    exact absurd hid (by simpa using hother)

theorem select_spec {records : List DetailedRecord} {blocks : List NormalizationBlock} {count : ℕ}
    {candidates : List Candidate}
    (hselect : reader.select_candidates hasher records blocks count = .ok candidates) :
    candidates.length ≤ count ∧ ∀ candidate ∈ candidates, ∃ block ∈ blocks,
      candidate.text = reader._safe_candidate_text (text_of block) := by
  constructor
  · rw [← (mapM_eq_ok_iff.mp hselect).length_eq]
    exact List.length_take_le _ _
  · intro candidate hcandidate
    obtain ⟨item, -, hmade⟩ := exists_item_of_mapM hselect hcandidate
    exact (candidate_spec reader hasher hmade).2

theorem exists_select {records : List DetailedRecord} {blocks : List NormalizationBlock} (count : ℕ)
    (hrecords : ∀ item ∈ records, item.record.block_id ∈ blocks.map (·.block_id)) :
    ∃ candidates, reader.select_candidates hasher records blocks count = .ok candidates := by
  obtain ⟨candidates, hcandidates, -⟩ := @exists_mapM_eq_ok _ _ _ (reader.candidate_of hasher blocks)
    (fun _ _ => True) (((records.filter (·.record.llm_candidate)).insertionSort asked_before).take count)
    fun item hitem => by
      have hmem : item ∈ records := List.mem_of_mem_filter
        ((List.perm_insertionSort _ _).mem_iff.mp (List.mem_of_mem_take hitem))
      obtain ⟨candidate, hcandidate⟩ := exists_candidate reader hasher (hrecords item hmem)
      exact ⟨candidate, hcandidate, trivial⟩
  exact ⟨candidates, hcandidates⟩

end Records

section Guard

variable (reader : SignalReader) (hasher : Hasher)

theorem bounded_payload_exceeds_iff (candidates : List Candidate) :
    bounded_payload candidates = .error exceeds_boundary ↔
      candidates.all Candidate.is_finite = true ∧ 32768 < request_size candidates := by
  rw [bounded_payload, Json.size_encode_dumps, size_payload]
  by_cases hfinite : candidates.all Candidate.is_finite = true
  · rw [if_neg (not_not.mpr hfinite)]
    by_cases hlarge : 32768 < request_size candidates
    · rw [if_pos hlarge]
      exact ⟨fun _ => ⟨hfinite, hlarge⟩, fun _ => rfl⟩
    · rw [if_neg hlarge]
      exact ⟨fun h => (by cases h), fun h => absurd h.2 hlarge⟩
  · rw [if_pos hfinite]
    refine ⟨fun h => ?_, fun h => absurd h.1 hfinite⟩
    exact absurd (HeadingError.value_error.inj (Except.error.inj h)) (by decide)

-- What the request of a document asks for.
structure Requested (blocks : List NormalizationBlock) (candidates : List Candidate) : Prop where
  count : candidates.length ≤ 32
  texts : ∀ candidate ∈ candidates, ∃ block ∈ blocks,
    candidate.text = reader._safe_candidate_text (text_of block)
  guard : reader.infer_heading_hierarchy hasher blocks = .error exceeds_boundary ↔
    candidates.all Candidate.is_finite = true ∧ 32768 < request_size candidates

-- With distinct ids the request for the ambiguous headings decides.
theorem exists_inferred {blocks : List NormalizationBlock} (hids : (blocks.map (·.block_id)).Nodup) :
    ∃ final candidates, reader.rules.infer_heading_hierarchy blocks = .ok final ∧
      reader.select_candidates hasher (reader.detailed (HeadingReader.ordered blocks) final)
        (HeadingReader.ordered blocks) 32 = .ok candidates ∧
      ∃ result : Json → HeadingInferenceResult,
        (∀ payload, (result payload).records.map (·.record) = final) ∧
        reader.infer_heading_hierarchy hasher blocks = (bounded_payload candidates).map result := by
  obtain ⟨final, hfinal⟩ : ∃ final, reader.rules.infer_heading_hierarchy blocks = .ok final :=
    ⟨_, if_neg (not_not.mpr hids)⟩
  have hfound : ∀ item ∈ reader.detailed (HeadingReader.ordered blocks) final,
      item.record.block_id ∈ (HeadingReader.ordered blocks).map (·.block_id) := by
    intro item hitem
    obtain ⟨record, hrecord, block, -, rfl⟩ := detailed_spec reader hitem
    rw [← ids_of_infer reader hfinal]
    exact List.mem_map_of_mem hrecord
  obtain ⟨candidates, hselect⟩ := exists_select reader hasher 32 hfound
  have hpayload : reader.build_heading_llm_candidate_payload hasher
      (reader.detailed (HeadingReader.ordered blocks) final) (HeadingReader.ordered blocks) =
      bounded_payload candidates := by
    rw [SignalReader.build_heading_llm_candidate_payload, if_neg (by decide)]
    have hcap : (32 : ℤ).toNat = 32 := rfl
    rw [hcap, hselect]
    rfl
  refine ⟨final, candidates, hfinal, hselect, fun payload => {
    records := reader.detailed (HeadingReader.ordered blocks) final
    heading_block_ids := (final.filter (·.is_heading)).map (·.block_id)
    toc_entries := (reader.toc_entries (HeadingReader.ordered blocks)).1
    unmatched_toc_anchors := reader.unmatched_anchors (HeadingReader.ordered blocks)
    llm_candidate_payload := payload }, fun _ => ?_, ?_⟩
  · exact reader.records_detailed (by simpa using congrArg List.length (ids_of_infer reader hfinal))
  · rw [← hpayload, SignalReader.infer_heading_hierarchy, hfinal]
    rfl

theorem exists_requested {blocks : List NormalizationBlock} (hids : (blocks.map (·.block_id)).Nodup) :
    ∃ final candidates, reader.rules.infer_heading_hierarchy blocks = .ok final ∧
      reader.select_candidates hasher (reader.detailed (HeadingReader.ordered blocks) final)
        (HeadingReader.ordered blocks) 32 = .ok candidates ∧ Requested reader hasher blocks candidates := by
  obtain ⟨final, candidates, hfinal, hselect, result, -, hinfer⟩ := exists_inferred reader hasher hids
  obtain ⟨hcount, htexts⟩ := select_spec reader hasher hselect
  refine ⟨final, candidates, hfinal, hselect, hcount, fun candidate hcandidate => ?_, ?_⟩
  · obtain ⟨block, hblock, htext⟩ := htexts candidate hcandidate
    exact ⟨block, (Ranked.rank_perm _ blocks).mem_iff.mp hblock, htext⟩
  · rw [← bounded_payload_exceeds_iff, hinfer]
    cases bounded_payload candidates with
    | error raised => rw [Except.map, Except.error.injEq, Except.error.injEq]
    | ok payload => exact iff_of_false nofun nofun

-- The request is refused where it is too large or has a number that JSON has not.
theorem refused_payload {candidates : List Candidate} {raised : HeadingError}
    (hraised : bounded_payload candidates = .error raised) :
    raised = exceeds_boundary ∨
      raised = .value_error "Out of range float values are not JSON compliant" := by
  unfold bounded_payload at hraised
  split at hraised
  · exact .inr (Except.error.inj hraised).symm
  split at hraised
  · exact .inl (Except.error.inj hraised).symm
  · cases hraised

-- What comes of the headings of a document. Repeated ids are refused, and so is a document
-- whose request is.
def Inferred (blocks : List NormalizationBlock) :
    Except HeadingError HeadingInferenceResult → Prop
  | .ok result => (blocks.map (·.block_id)).Nodup ∧
      result.records.map (·.record.block_id) = (HeadingReader.ordered blocks).map (·.block_id) ∧
      InferredNearest (result.records.map (·.record)) ∧
      ParentsEarlier HeadingInferenceRecord.parent_id HeadingInferenceRecord.block_id
        (result.records.map (·.record))
  | .error raised =>
      if (blocks.map (·.block_id)).Nodup then raised = exceeds_boundary ∨
        raised = .value_error "Out of range float values are not JSON compliant"
      else raised = .value_error "heading block IDs must be unique"

theorem inferred (blocks : List NormalizationBlock) :
    Inferred blocks (reader.infer_heading_hierarchy hasher blocks) := by
  by_cases hids : (blocks.map (·.block_id)).Nodup
  · obtain ⟨final, candidates, hfinal, -, result, hrecords, hinfer⟩ := exists_inferred reader hasher hids
    rw [hinfer]
    cases hpayload : bounded_payload candidates with
    | error raised =>
        rw [Except.map, Inferred, if_pos hids]
        exact refused_payload hpayload
    | ok payload =>
        have hnearest := infer_nearest reader.rules hfinal
        have hblocks : (result payload).records.map (·.record.block_id) = final.map (·.block_id) := by
          rw [← hrecords payload, List.map_map]
          rfl
        rw [Except.map, Inferred, hrecords, hblocks]
        exact ⟨hids, ids_of_infer reader hfinal, hnearest, earlier_of_inferred hnearest⟩
  · have hrefused : reader.infer_heading_hierarchy hasher blocks =
        .error (.value_error "heading block IDs must be unique") := by
      rw [SignalReader.infer_heading_hierarchy, HeadingReader.infer_heading_hierarchy, if_pos hids]
      rfl
    rw [hrefused, Inferred, if_neg hids]

theorem headings_nearest (numbers : NumberReader) :
    (∀ blocks, Inferred blocks (reader.infer_heading_hierarchy hasher blocks)) ∧
      ∀ headings, NestedNearest (numbers.build_heading_hierarchy headings).1 ∧
        OwnReported (numbers.build_heading_hierarchy headings).1
          (numbers.build_heading_hierarchy headings).2 ∧
        ParentsEarlier HeadingNode.parent_id (·.block.local_id)
          (numbers.build_heading_hierarchy headings).1 := by
  refine ⟨inferred reader hasher, fun headings => ?_⟩
  obtain ⟨hnearest, hreported⟩ := build_nested numbers headings
  exact ⟨hnearest, hreported, earlier_of_nested hnearest⟩

theorem request_size_le {candidates : List Candidate} {bound : ℕ}
    (hframes : ∀ candidate ∈ candidates, candidate.frame_size ≤ bound)
    (htexts : ∀ candidate ∈ candidates, Json.escapedSize candidate.text ≤ 960) :
    request_size candidates ≤ 258 + candidates.length * (bound + 961) := by
  have hsum := List.sum_le_card_nsmul
    (candidates.map fun candidate => 1 + (candidate.frame_size + Json.escapedSize candidate.text))
    (bound + 961) fun size hsize => by
      obtain ⟨candidate, hcandidate, rfl⟩ := List.mem_map.mp hsize
      have hframe := hframes candidate hcandidate
      have htext := htexts candidate hcandidate
      omega
  rw [List.length_map, smul_eq_mul] at hsum
  rw [request_size]
  omega

theorem heading_request_bounded (blocks : List NormalizationBlock)
    (hids : (blocks.map (·.block_id)).Nodup) :
    ∃ final candidates, reader.rules.infer_heading_hierarchy blocks = .ok final ∧
      reader.select_candidates hasher (reader.detailed (HeadingReader.ordered blocks) final)
        (HeadingReader.ordered blocks) 32 = .ok candidates ∧
      candidates.length ≤ 32 ∧
      (∀ candidate ∈ candidates, candidate.text.length ≤ 240 ∧ Json.escapedSize candidate.text ≤ 960) ∧
      (reader.infer_heading_hierarchy hasher blocks = .error exceeds_boundary ↔
        candidates.all Candidate.is_finite = true ∧ 32768 < request_size candidates) ∧
      ∀ bound, (∀ candidate ∈ candidates, candidate.frame_size ≤ bound) →
        258 + candidates.length * (bound + 961) ≤ 32768 →
        reader.infer_heading_hierarchy hasher blocks ≠ .error exceeds_boundary := by
  obtain ⟨final, candidates, hfinal, hselect, hcount, htexts, hguard⟩ := exists_requested reader hasher hids
  have hsizes : ∀ candidate ∈ candidates,
      candidate.text.length ≤ 240 ∧ Json.escapedSize candidate.text ≤ 960 := by
    intro candidate hcandidate
    obtain ⟨block, -, htext⟩ := htexts candidate hcandidate
    obtain ⟨hlength, hprintable⟩ := safe_text_spec reader (text_of block)
    rw [← htext] at hlength hprintable
    have hescaped := escapedSize_le hprintable
    exact ⟨hlength, by omega⟩
  refine ⟨final, candidates, hfinal, hselect, hcount, hsizes, hguard, fun bound hframes hroom hraised => ?_⟩
  have hlarge := (hguard.mp hraised).2
  have hsmall := request_size_le hframes fun candidate hcandidate => (hsizes candidate hcandidate).2
  omega

end Guard

section Samples

-- A reader that knows headings by their type and `1.1 Title` by its number.
def plain_reader : SignalReader where
  numbering text :=
    let number := ascii_numbers.numbering { local_id := "", text := text }
    if number = "" then none
    else some { family := "arabic", value := number, depth := number.toList.count '.' + 1 }
  numbers text := (text.splitOn ".").map fun part => part.toNat?.getD 0
  label_level _ := none
  markdown_level _ := none
  heading_label _ := false
  anchor := id
  toc_entries _ := ([], [])
  casefold := id
  nfkc := id

def heading_block (block_id text : String) (order : ℤ) (block_type : String := "heading") :
    NormalizationBlock where
  block_id := block_id
  page_number := 1
  order := order
  block_type := block_type
  raw_text := text
  normalized_text := text
  bbox1000 := none
  source_ref_ids := []

def report_blocks : List NormalizationBlock := [
  heading_block "t" "Report" 0 "title", heading_block "a" "1 Aim" 1, heading_block "b" "1.1 Scope" 2,
  heading_block "p" "Some text." 3 "paragraph", heading_block "c" "2 Method" 4]

theorem report_nearest :
    (plain_reader.infer_heading_hierarchy sha256 report_blocks).toOption.map
        (fun result => result.records.map (·.record.parent_id)) =
      some [none, some "t", some "a", none, some "t"] ∧
    Inferred report_blocks (plain_reader.infer_heading_hierarchy sha256 report_blocks) :=
  ⟨by decide +kernel, (headings_nearest plain_reader sha256 ascii_numbers).1 report_blocks⟩

def hangul_reader : SignalReader where
  numbering _ := none
  numbers _ := []
  label_level _ := none
  markdown_level _ := none
  heading_label label := label = "section_header"
  anchor := id
  toc_entries _ := ([], [])
  casefold := id
  nfkc := id

def hangul_text (count : ℕ) : String := String.ofList (List.replicate count '가')

def hangul_block (order : ℕ) : NormalizationBlock where
  block_id := s!"block-{order}"
  page_number := 1
  order := order
  block_type := "paragraph"
  raw_text := hangul_text 240
  normalized_text := hangul_text 240
  bbox1000 := none
  source_ref_ids := []
  provider_label := some "section_header"

def hangul_blocks (count : ℕ) : List NormalizationBlock := (List.range count).map hangul_block

def hangul_final : List HeadingInferenceRecord :=
  ((hangul_reader.rules.infer_heading_hierarchy (hangul_blocks 32)).toOption).getD []

theorem hangul_asked : ((hangul_reader.detailed (HeadingReader.ordered (hangul_blocks 32))
    hangul_final).filter (·.record.llm_candidate)).length = 32 := by
  decide +kernel

theorem safe_hangul_text {count : ℕ} (hcount : count ≤ 240) :
    hangul_reader._safe_candidate_text (hangul_text count) = hangul_text count := by
  have hplain : isControl '가' = false ∧ Text.isSpace '가' = false := by decide
  refine safe_text_eq hangul_reader rfl (fun c hc => ?_) ?_
  · rw [hangul_text, String.toList_ofList] at hc
    rw [List.eq_of_mem_replicate hc]
    exact hplain
  · rwa [hangul_text, String.length_ofList, List.length_replicate]

theorem size_hangul_text (count : ℕ) : Json.escapedSize (hangul_text count) = 3 * count := by
  have hsize : Utf8.size (Json.escapeChar '가') = 3 := by decide
  rw [Json.escapedSize, hangul_text, String.toList_ofList]
  induction count with
  | zero => rfl
  | succ count ih =>
      rw [List.replicate_succ, List.flatMap_cons, Utf8.size_append, ih, hsize]
      omega

theorem three_hangul_bounded : ∃ candidates : List Candidate, candidates.length ≤ 32 ∧
    (hangul_reader.infer_heading_hierarchy sha256 (hangul_blocks 3) = .error exceeds_boundary ↔
      candidates.all Candidate.is_finite = true ∧ 32768 < request_size candidates) := by
  have hids : ((hangul_blocks 3).map (·.block_id)).Nodup := by decide
  obtain ⟨_, candidates, -, -, hcount, -, hguard, -⟩ :=
    heading_request_bounded hangul_reader sha256 (hangul_blocks 3) hids
  exact ⟨candidates, hcount, hguard⟩

theorem text_of_hangul {block : NormalizationBlock} (hblock : block ∈ hangul_blocks 32) :
    text_of block = hangul_text 240 := by
  obtain ⟨order, -, rfl⟩ := List.mem_map.mp hblock
  rw [text_of, hangul_block, ite_self]

theorem hangul_candidate_spec {ordered : List NormalizationBlock}
    (hordered : ∀ block ∈ ordered, block ∈ hangul_blocks 32) {final : List HeadingInferenceRecord}
    {candidate : Candidate} {item : DetailedRecord} (hitem : item ∈ hangul_reader.detailed ordered final)
    (hcandidate : hangul_reader.candidate_of sha256 ordered item = .ok candidate) :
    candidate.is_finite = true ∧ 1037 ≤ 1 + (candidate.frame_size + Json.escapedSize candidate.text) := by
  obtain ⟨hfeatures, chosen, hchosen, htext⟩ := candidate_spec hangul_reader sha256 hcandidate
  obtain ⟨record, -, block, hblock, hmade⟩ := detailed_spec hangul_reader hitem
  have hsame : candidate.features = hangul_reader.features ordered block := by rw [hfeatures, hmade]
  constructor
  · have hfont : block.font_size_pt = none ∧ block.whitespace_before = none ∧
        block.whitespace_after = none := by
      obtain ⟨order, -, rfl⟩ := List.mem_map.mp (hordered block hblock)
      exact ⟨rfl, rfl, rfl⟩
    rw [Candidate.is_finite, hsame]
    exact features_finite hangul_reader ordered hfont.1 hfont.2.1 hfont.2.2
  · have hframe := features_le_frame candidate
    have hsize := features_size hangul_reader ordered block
    rw [hsame] at hframe
    rw [text_of_hangul (hordered chosen hchosen), safe_hangul_text le_rfl] at htext
    rw [htext, size_hangul_text]
    omega

theorem hangul_request_refused : ((hangul_blocks 32).map (·.block_id)).Nodup ∧
    hangul_reader.infer_heading_hierarchy sha256 (hangul_blocks 32) = .error exceeds_boundary := by
  have hids : ((hangul_blocks 32).map (·.block_id)).Nodup := by decide
  obtain ⟨final, candidates, hfinal, hselect, -, -, hguard⟩ := exists_requested hangul_reader sha256 hids
  have hasked : ((hangul_reader.detailed (HeadingReader.ordered (hangul_blocks 32)) final).filter
      (·.record.llm_candidate)).length = 32 := by
    have hsame : hangul_final = final := by
      rw [hangul_final, hfinal]
      rfl
    rw [← hsame]
    exact hangul_asked
  have hcount : candidates.length = 32 := by
    rw [← (mapM_eq_ok_iff.mp hselect).length_eq, List.length_take, List.length_insertionSort, hasked,
      Nat.min_self]
  have hlower : ∀ candidate ∈ candidates, candidate.is_finite = true ∧
      1037 ≤ 1 + (candidate.frame_size + Json.escapedSize candidate.text) := by
    intro candidate hcandidate
    obtain ⟨item, hitem, hmade⟩ := exists_item_of_mapM hselect hcandidate
    have hmem := List.mem_of_mem_filter
      ((List.perm_insertionSort _ _).mem_iff.mp (List.mem_of_mem_take hitem))
    exact hangul_candidate_spec (fun block => (Ranked.rank_perm _ _).mem_iff.mp) hmem hmade
  refine ⟨hids, hguard.mpr ⟨List.all_eq_true.mpr fun candidate hcandidate =>
    (hlower candidate hcandidate).1, ?_⟩⟩
  have hsum := List.card_nsmul_le_sum
    (candidates.map fun candidate => 1 + (candidate.frame_size + Json.escapedSize candidate.text))
    1037 fun size hsize => by
      obtain ⟨candidate, hcandidate, rfl⟩ := List.mem_map.mp hsize
      exact (hlower candidate hcandidate).2
  rw [List.length_map, hcount, smul_eq_mul] at hsum
  rw [request_size]
  omega

end Samples

end KnowledgeCompiler.Documents
