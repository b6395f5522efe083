import KnowledgeCompiler.Identity.Fingerprint
import KnowledgeCompiler.Lib.Ranked
import Mathlib.Data.Finset.Dedup

namespace KnowledgeCompiler.Absorption

open Lib Identity

-- What the regular expressions and `str` methods read of the Unicode database beside the
-- identity tables: the class `\d`, `str.isdigit` and `str.isalpha` of a character.
structure Characters extends Unicode where
  is_decimal : Char → Bool
  is_digit : Char → Bool
  is_alpha : Char → Bool

inductive ElementType
  | TEXT
  | HEADING
  | TABLE
  | TABLE_ROW
  | TABLE_CELL
  | FORMULA
  | FIGURE
  | CAPTION
  | FOOTNOTE
deriving DecidableEq, Repr

inductive ChangeRefinement
  | MODALITY_CHANGE
  | EXCEPTION_SCOPE_CHANGE
  | DATE_PERIOD_CHANGE
  | NUMERIC_VALUE_CHANGE
  | VALUE_ORDER_CHANGE
  | RENDERING_ONLY
  | TEXT_EDIT
deriving DecidableEq, Repr

section Scanning

-- The matches from the left: `length` is that of a match here, zero if there is none, and
-- `skip` characters are still to go of the last one.
def findall (length : Option Char → List Char → ℕ) :
    Option Char → ℕ → List Char → List (List Char)
  | _, _, [] => []
  | _, skip + 1, c :: rest => findall length (some c) skip rest
  | before, 0, c :: rest =>
      match length before (c :: rest) with
      | 0 => findall length (some c) 0 rest
      | more + 1 => (c :: rest.take more) :: findall length (some c) more rest

-- `text.replace(source, target)`, with `skip` characters still to go of the last source.
def replace (source target : List Char) : ℕ → List Char → List Char
  | _, [] => []
  | skip + 1, _ :: rest => replace source target skip rest
  | 0, c :: rest =>
      if source.isPrefixOf (c :: rest) then target ++ replace source target (source.length - 1) rest
      else c :: replace source target 0 rest

variable (characters : Characters)

def digits (text : List Char) : ℕ := (text.takeWhile characters.is_decimal).length

-- `[-+]?\d[\d,]*(?:\.\d+)?`
def unsigned_length (text : List Char) : ℕ :=
  if digits characters text = 0 then 0
  else
    let whole := (text.takeWhile fun c => characters.is_decimal c || c = ',').length
    match text.drop whole with
    | '.' :: rest => if digits characters rest = 0 then whole else whole + 1 + digits characters rest
    | _ => whole

def number_length (_before : Option Char) (text : List Char) : ℕ :=
  match text with
  | '-' :: rest | '+' :: rest =>
      if unsigned_length characters rest = 0 then 0 else unsigned_length characters rest + 1
  | _ => unsigned_length characters text

def canonical_number (found : List Char) : List Char :=
  let raw := found.filter (· ≠ ',')
  let raw := if raw.head? = some '+' then raw.tail else raw
  let raw := if '.' ∈ raw then (raw.rdropWhile (· = '0')).rdropWhile (· = '.') else raw
  if raw = [] then ['0'] else raw

def numeric_tokens (text : String) : List String :=
  (findall (number_length characters) none 0 text.toList).map fun found =>
    String.ofList (canonical_number found)

-- `\b`
def boundary (before : Option Char) (after : List Char) : Bool :=
  before.any characters.is_word != after.head?.any characters.is_word

-- `(?:19|20)\d{2}`
def is_year (text : List Char) : Bool :=
  (['1', '9'].isPrefixOf text || ['2', '0'].isPrefixOf text) &&
    2 ≤ digits characters ((text.drop 2).take 2)

def year_length (before : Option Char) (text : List Char) : ℕ :=
  if boundary characters before text && is_year characters text &&
      boundary characters (text[3]?) (text.drop 4) then 4 else 0

-- `[-/]\d{1,2}`
def part_length (text : List Char) : ℕ :=
  if text.head? = some '-' || text.head? = some '/' then
    let found := min 2 (digits characters text.tail)
    if found = 0 then 0 else found + 1
  else 0

def iso_length (before : Option Char) (text : List Char) : ℕ :=
  let month := part_length characters (text.drop 4)
  let day := part_length characters (text.drop (4 + month))
  let length := 4 + month + day
  if boundary characters before text && is_year characters text && month ≠ 0 && day ≠ 0 &&
      boundary characters (text[length - 1]?) (text.drop length) then length else 0

end Scanning

def _MODALS : List String := ["must", "shall", "may", "should", "will", "can", "cannot"]

def _EXCEPTION_MARKERS : List String :=
  ["except", "unless", "notwithstanding", "provided", "excluding", "save"]

def _MONTHS : List String :=
  ["january", "february", "march", "april", "may", "june", "july", "august", "september",
    "october", "november", "december"]

def _CONFUSABLES : List (String × String) :=
  [("rn", "m"), ("vv", "w"), ("cl", "d"), ("0", "o"), ("1", "l"), ("5", "s"), ("8", "b")]

section Refinement

variable (characters : Characters)

def tokens (basis : String) : List String := (Text.words basis.toList).map String.ofList

def fold_token (token : List Char) : List Char :=
  if token.any characters.is_alpha then
    _CONFUSABLES.foldl (fun token pair => replace pair.1.toList pair.2.toList 0 token) token
  else token

def _ocr_fold (normalized : String) : String :=
  " ".intercalate ((Text.words normalized.toList).map fun token =>
    String.ofList (fold_token characters token))

-- `[\\,!;\s{}]+`
def is_formula_noise (c : Char) : Bool :=
  ['\\', ',', '!', ';', '\x7b', '\x7d'].contains c || Text.isSpace c

def _formula_basis (text : String) : String :=
  String.ofList ((normalize_text_for_identity characters.toUnicode text).toList.filter
    fun c => !is_formula_noise c)

-- `str.isdigit`
def isdigit (word : String) : Bool := word ≠ "" && word.toList.all characters.is_digit

-- `may` is a month only where a number stands beside it.
def is_month_position (words : List String) (position : ℕ) : Bool :=
  (words[position]?).any (_MONTHS.contains ·) &&
    ((words.take position).drop (position - 1) ++ (words.drop (position + 1)).take 1).any
      (isdigit characters)

def _modal_counts (basis : String) : List ℕ :=
  let words := tokens basis
  _MODALS.map fun modal => words.zipIdx.countP fun entry =>
    entry.1 = modal && !is_month_position characters words entry.2

def _counts (basis : String) (vocabulary : List String) : List ℕ :=
  vocabulary.map fun word => (tokens basis).count word

def _date_tokens (basis : String) : List String :=
  let words := tokens basis
  Ranked.rank id
    ((findall (iso_length characters) none 0 basis.toList).map String.ofList ++
      (findall (year_length characters) none 0 basis.toList).map String.ofList ++
      (words.zipIdx.filter fun entry => is_month_position characters words entry.2).map Prod.fst)

def numbers_agree (before after : String) : Bool :=
  numeric_tokens characters before = numeric_tokens characters after

def left_basis (before after : String) : String :=
  let basis := normalize_text_for_identity characters.toUnicode before
  if numbers_agree characters before after then _ocr_fold characters basis else basis

def right_basis (before after : String) : String :=
  let basis := normalize_text_for_identity characters.toUnicode after
  if numbers_agree characters before after then _ocr_fold characters basis else basis

def numeric_fired (before after : String) : List ChangeRefinement :=
  if numbers_agree characters before after then []
  else if Ranked.rank id (numeric_tokens characters before) =
      Ranked.rank id (numeric_tokens characters after) then [.VALUE_ORDER_CHANGE]
  else [.NUMERIC_VALUE_CHANGE]

def specific_fired (before after : String) : List ChangeRefinement :=
  let left := left_basis characters before after
  let right := right_basis characters before after
  (if _modal_counts characters left ≠ _modal_counts characters right then [.MODALITY_CHANGE]
    else []) ++
  (if _counts left _EXCEPTION_MARKERS ≠ _counts right _EXCEPTION_MARKERS then
    [.EXCEPTION_SCOPE_CHANGE] else []) ++
  (if _date_tokens characters left ≠ _date_tokens characters right then [.DATE_PERIOD_CHANGE]
    else []) ++
  numeric_fired characters before after

def fired (before after : String) : List ChangeRefinement :=
  let found := specific_fired characters before after
  if found = [] then [.TEXT_EDIT]
  else if found = [.VALUE_ORDER_CHANGE] &&
      (tokens (left_basis characters before after)).toFinset ≠
        (tokens (right_basis characters before after)).toFinset then found ++ [.TEXT_EDIT]
  else found

-- The primary refinement, and all that fired.
def refine_pair (before after : String) (element_type : ElementType) :
    ChangeRefinement × List ChangeRefinement :=
  if element_type = .FORMULA ∧ _formula_basis characters before = _formula_basis characters after then
    (.RENDERING_ONLY, [.RENDERING_ONLY])
  else if left_basis characters before after = right_basis characters before after then
    (.RENDERING_ONLY, [.RENDERING_ONLY])
  else
    let found := fired characters before after
    ((found.find? (· ≠ .VALUE_ORDER_CHANGE)).getD .VALUE_ORDER_CHANGE, found)

end Refinement

section Guard

variable (characters : Characters) (before after : String) (element_type : ElementType)

-- What a pair that is not folded is compared by.
def comparison_basis (text : String) : String :=
  if element_type = .FORMULA then _formula_basis characters text
  else normalize_text_for_identity characters.toUnicode text

-- Numbers that differ are no rendering, and are reported.
def Guarded : Prop :=
  ((refine_pair characters before after element_type).1 = .RENDERING_ONLY →
    numeric_tokens characters before = numeric_tokens characters after) ∧
  (numeric_tokens characters before ≠ numeric_tokens characters after →
    ∃ change ∈ (refine_pair characters before after element_type).2,
      change ∈ [.NUMERIC_VALUE_CHANGE, .VALUE_ORDER_CHANGE, .DATE_PERIOD_CHANGE, .TEXT_EDIT])

variable {characters before after element_type}

theorem numbers_agree_iff : numbers_agree characters before after = true ↔
    numeric_tokens characters before = numeric_tokens characters after := decide_eq_true_iff

theorem bases_of_disagree
    (hdiffer : numeric_tokens characters before ≠ numeric_tokens characters after) :
    left_basis characters before after = normalize_text_for_identity characters.toUnicode before ∧
      right_basis characters before after =
        normalize_text_for_identity characters.toUnicode after := by
  have hagree := mt numbers_agree_iff.mp hdiffer
  exact ⟨if_neg hagree, if_neg hagree⟩

theorem numeric_fired_of_disagree
    (hdiffer : numeric_tokens characters before ≠ numeric_tokens characters after) :
    numeric_fired characters before after = [.VALUE_ORDER_CHANGE] ∨
      numeric_fired characters before after = [.NUMERIC_VALUE_CHANGE] := by
  unfold numeric_fired
  rw [if_neg (mt numbers_agree_iff.mp hdiffer)]
  split
  · exact .inl rfl
  · exact .inr rfl

theorem mem_fired_of_specific {change : ChangeRefinement}
    (hchange : change ∈ specific_fired characters before after) :
    change ∈ fired characters before after := by
  unfold fired
  dsimp only
  split
  · rename_i hempty
    rw [hempty] at hchange
    exact absurd hchange List.not_mem_nil
  · split
    · exact List.mem_append_left _ hchange
    · exact hchange

-- A change of the numbers fires whatever else does.
theorem mem_fired_of_numeric {change : ChangeRefinement}
    (hchange : change ∈ numeric_fired characters before after) :
    change ∈ fired characters before after :=
  mem_fired_of_specific (List.mem_append_right _ hchange)

theorem rendering_only_not_fired : .RENDERING_ONLY ∉ fired characters before after := by
  have hnumeric : .RENDERING_ONLY ∉ numeric_fired characters before after := by
    unfold numeric_fired
    split
    · exact List.not_mem_nil
    · split <;> decide
  have hpart (condition : Prop) [Decidable condition] {change : ChangeRefinement}
      (hchange : .RENDERING_ONLY ≠ change) :
      .RENDERING_ONLY ∉ if condition then [change] else [] := by
    split
    · exact fun hmem => hchange (List.mem_singleton.mp hmem)
    · exact List.not_mem_nil
  have hspecific : .RENDERING_ONLY ∉ specific_fired characters before after := by
    unfold specific_fired
    simp only [List.mem_append, not_or]
    exact ⟨⟨⟨hpart _ (by decide), hpart _ (by decide)⟩, hpart _ (by decide)⟩, hnumeric⟩
  unfold fired
  dsimp only
  split
  · decide
  · split
    · rw [List.mem_append, not_or]
      exact ⟨hspecific, by decide⟩
    · exact hspecific

theorem rendering_only_iff : (refine_pair characters before after element_type).1 = .RENDERING_ONLY ↔
    (element_type = .FORMULA ∧ _formula_basis characters before = _formula_basis characters after) ∨
      left_basis characters before after = right_basis characters before after := by
  unfold refine_pair
  split
  · rename_i hformula
    exact ⟨fun _ => .inl hformula, fun _ => rfl⟩
  · rename_i hformula
    split
    · rename_i hbasis
      exact ⟨fun _ => .inr hbasis, fun _ => rfl⟩
    · rename_i hbasis
      refine ⟨fun hprimary => ?_, fun hcase => (hcase.elim hformula hbasis).elim⟩
      dsimp only at hprimary
      cases hfind : (fired characters before after).find? (· ≠ .VALUE_ORDER_CHANGE) with
      | none =>
        rw [hfind] at hprimary
        cases hprimary
      | some change =>
        rw [hfind] at hprimary
        obtain rfl : change = .RENDERING_ONLY := hprimary
        exact absurd (List.mem_of_find?_eq_some hfind) rendering_only_not_fired

-- Where the numbers differ nothing is folded.
theorem rendering_only_iff_of_disagree
    (hdiffer : numeric_tokens characters before ≠ numeric_tokens characters after) :
    (refine_pair characters before after element_type).1 = .RENDERING_ONLY ↔
      comparison_basis characters element_type before =
        comparison_basis characters element_type after := by
  obtain ⟨hleft, hright⟩ := bases_of_disagree hdiffer
  rw [rendering_only_iff, hleft, hright]
  unfold comparison_basis
  by_cases hformula : element_type = .FORMULA
  · rw [if_pos hformula, if_pos hformula]
    constructor
    · rintro (⟨-, hbasis⟩ | hnormalized)
      · exact hbasis
      · rw [_formula_basis, _formula_basis, hnormalized]
    · exact fun hbasis => .inl ⟨hformula, hbasis⟩
  · rw [if_neg hformula, if_neg hformula]
    exact or_iff_right fun hcase => hformula hcase.1

theorem fired_of_not_rendering_only
    (hprimary : (refine_pair characters before after element_type).1 ≠ .RENDERING_ONLY) :
    (refine_pair characters before after element_type).2 = fired characters before after := by
  obtain ⟨hformula, hbasis⟩ := not_or.mp (mt rendering_only_iff.mpr hprimary)
  unfold refine_pair
  rw [if_neg hformula, if_neg hbasis]

end Guard

theorem rendering_guarded_iff (characters : Characters) (before after : String) (element_type : ElementType) :
    Guarded characters before after element_type ↔
      (numeric_tokens characters before = numeric_tokens characters after ∨
        comparison_basis characters element_type before ≠
          comparison_basis characters element_type after) := by
  constructor
  · rintro ⟨hguard, -⟩
    refine or_iff_not_imp_left.mpr fun hdiffer hbasis => hdiffer (hguard ?_)
    exact (rendering_only_iff_of_disagree hdiffer).mpr hbasis
  · intro hcase
    have hprimary (hdiffer : numeric_tokens characters before ≠ numeric_tokens characters after) :
        (refine_pair characters before after element_type).1 ≠ .RENDERING_ONLY :=
      mt (rendering_only_iff_of_disagree hdiffer).mp (hcase.resolve_left hdiffer)
    refine ⟨fun hrendering => by_contra fun hdiffer => hprimary hdiffer hrendering, fun hdiffer => ?_⟩
    rw [fired_of_not_rendering_only (hprimary hdiffer)]
    rcases numeric_fired_of_disagree hdiffer with hnumeric | hnumeric
    · exact ⟨.VALUE_ORDER_CHANGE, mem_fired_of_numeric (by simp [hnumeric]), by decide⟩
    · exact ⟨.NUMERIC_VALUE_CHANGE, mem_fired_of_numeric (by simp [hnumeric]), by decide⟩

def Characters.ascii : Characters where
  toUnicode := Unicode.ascii
  is_decimal := Char.isDigit
  is_digit := Char.isDigit
  is_alpha := Char.isAlpha

-- The sign is punctuation to the basis, and so are the point and the braces of a formula.
theorem sign_lost : ¬Guarded Characters.ascii "-5" "5" .TEXT ∧
    ¬Guarded Characters.ascii "1.5" "1 5" .TEXT ∧
    ¬Guarded Characters.ascii "x^\x7b1\x7d2" "x^\x7b12\x7d" .FORMULA := by
  have hfails {before after : String} {element_type : ElementType}
      (hrendering : (refine_pair Characters.ascii before after element_type).1 = .RENDERING_ONLY)
      (hdiffer : numeric_tokens Characters.ascii before ≠ numeric_tokens Characters.ascii after) :
      ¬Guarded Characters.ascii before after element_type :=
    fun hguarded => hdiffer (hguarded.1 hrendering)
  exact ⟨hfails (by decide +kernel) (by decide +kernel), hfails (by decide +kernel) (by decide +kernel),
    hfails (by decide +kernel) (by decide +kernel)⟩

end KnowledgeCompiler.Absorption
