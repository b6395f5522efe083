import Mathlib.Data.List.Basic
import Mathlib.Algebra.Order.Floor.Ring
import Mathlib.Data.List.DropRight
import Mathlib.Data.Rat.Floor
import Mathlib.Data.String.Basic

namespace KnowledgeCompiler.Lib.Text

def inRanges (ranges : List (Nat × Nat)) (c : Char) : Bool :=
  ranges.any (fun range => range.1 ≤ c.toNat && c.toNat ≤ range.2)

-- `str.isspace`, which `str.strip`, `str.split` and `\s` share.
def isSpace (c : Char) : Bool :=
  inRanges [(0x09, 0x0d), (0x1c, 0x20), (0x85, 0x85), (0xa0, 0xa0), (0x1680, 0x1680),
    (0x2000, 0x200a), (0x2028, 0x2029), (0x202f, 0x202f), (0x205f, 0x205f), (0x3000, 0x3000)] c

-- The characters at which `str.splitlines` ends a line.
def isLineBreak (c : Char) : Bool :=
  inRanges [(0x0a, 0x0d), (0x1c, 0x1e), (0x85, 0x85), (0x2028, 0x2029)] c

def lstrip (text : List Char) : List Char := text.dropWhile isSpace

def rstrip (text : List Char) : List Char := (text.reverse.dropWhile isSpace).reverse

def strip (text : List Char) : List Char := rstrip (lstrip text)

-- `str.split()` without a separator.
def words (text : List Char) : List (List Char) :=
  (text.splitOnP isSpace).filter (· ≠ [])

-- `re.sub(r"\s+", " ", text)`
def collapseSpaces : List Char → List Char
  | [] => []
  | c :: rest =>
      if isSpace c then
        match rest with
        | [] => [' ']
        | next :: _ => if isSpace next then collapseSpaces rest else ' ' :: collapseSpaces rest
      else c :: collapseSpaces rest

-- `str.splitlines()`; a carriage return and the line feed after it end one line.
def splitlinesFrom (afterReturn : Bool) (line : List Char) : List Char → List (List Char)
  | [] => if line = [] then [] else [line.reverse]
  | c :: rest =>
      if afterReturn && c = '\n' then splitlinesFrom false line rest
      else if isLineBreak c then line.reverse :: splitlinesFrom (c = '\r') [] rest
      else splitlinesFrom false (c :: line) rest

def splitlines (text : List Char) : List (List Char) := splitlinesFrom false [] text

-- `str.splitlines(keepends=True)`, with the line under way in front.
def keptLines (line : List Char) : List Char → List (List Char)
  | [] => if line = [] then [] else [line]
  | '\r' :: '\n' :: rest => (line ++ ['\r', '\n']) :: keptLines [] rest
  | c :: rest =>
      if isLineBreak c then (line ++ [c]) :: keptLines [] rest else keptLines (line ++ [c]) rest

-- A text file read with universal newlines.
def universalNewlines : List Char → List Char
  | [] => []
  | '\r' :: '\n' :: rest => '\n' :: universalNewlines rest
  | '\r' :: rest => '\n' :: universalNewlines rest
  | c :: rest => c :: universalNewlines rest

theorem flatten_keptLines (line text : List Char) : (keptLines line text).flatten = line ++ text := by
  fun_induction keptLines line text with
  | case1 => rfl
  | case2 line hne => simp
  | case3 line rest ih => simp [ih]
  | case4 line c rest hreturn hbreak ih => simp [ih]
  | case5 line c rest hreturn hbreak ih => simp [ih]

theorem universalNewlines_of_not_mem {text : List Char} (htext : '\r' ∉ text) :
    universalNewlines text = text := by
  induction text with
  | nil => rfl
  | cons c rest ih =>
      obtain ⟨hc, hrest⟩ := not_or.mp (mt List.mem_cons.mpr htext)
      unfold universalNewlines
      split
      · rename_i h; cases h
      · rename_i h; exact absurd (List.cons.inj h).1.symm hc
      · rename_i h; exact absurd (List.cons.inj h).1.symm hc
      · rename_i d more h
        obtain ⟨rfl, rfl⟩ := List.cons.inj h
        rw [ih hrest]

theorem splitlinesFrom_line (line rest begun : List Char) (hline : ∀ c ∈ line, isLineBreak c = false) :
    splitlinesFrom false begun (line ++ '\n' :: rest) =
      (begun.reverse ++ line) :: splitlinesFrom false [] rest := by
  induction line generalizing begun with
  | nil => simp [splitlinesFrom, isLineBreak, inRanges]
  | cons c more ih =>
      have hc := hline c List.mem_cons_self
      have hmore := ih (c :: begun) (fun d hd => hline d (List.mem_cons_of_mem _ hd))
      simp [splitlinesFrom, hc, hmore]

theorem splitlines_line (line rest : List Char) (hline : ∀ c ∈ line, isLineBreak c = false) :
    splitlines (line ++ '\n' :: rest) = line :: splitlines rest :=
  splitlinesFrom_line line rest [] hline

-- The first line ends before the first break, or with the text.
theorem splitlinesFrom_first (text begun : List Char) (hne : begun ≠ [] ∨ text ≠ []) :
    ∃ more, splitlinesFrom false begun text =
      (begun.reverse ++ text.takeWhile (fun c => !isLineBreak c)) :: more := by
  induction text generalizing begun with
  | nil =>
      have hbegun : begun ≠ [] := hne.resolve_right (fun h => h rfl)
      exact ⟨[], by simp [splitlinesFrom, hbegun]⟩
  | cons c rest ih =>
      by_cases hc : isLineBreak c = true
      · exact ⟨splitlinesFrom (c = '\r') [] rest, by simp [splitlinesFrom, hc]⟩
      · obtain ⟨more, hmore⟩ := ih (c :: begun) (Or.inl (List.cons_ne_nil _ _))
        exact ⟨more, by simp [splitlinesFrom, hc, hmore]⟩

theorem splitlines_first {text : List Char} (hne : text ≠ []) :
    ∃ more, splitlines text = text.takeWhile (fun c => !isLineBreak c) :: more :=
  splitlinesFrom_first text [] (Or.inr hne)

theorem splitlinesFrom_end (text begun : List Char) (htext : ∀ c ∈ text, isLineBreak c = false)
    (hne : begun ≠ [] ∨ text ≠ []) :
    splitlinesFrom false begun text = [begun.reverse ++ text] := by
  induction text generalizing begun with
  | nil =>
      have hbegun : begun ≠ [] := hne.resolve_right (fun h => h rfl)
      simp [splitlinesFrom, hbegun]
  | cons c rest ih =>
      have hc := htext c List.mem_cons_self
      have hrest := ih (c :: begun) (fun d hd => htext d (List.mem_cons_of_mem _ hd))
        (Or.inl (List.cons_ne_nil _ _))
      simp [splitlinesFrom, hc, hrest]

-- The last line without its break.
theorem splitlines_end {text : List Char} (htext : ∀ c ∈ text, isLineBreak c = false)
    (hne : text ≠ []) : splitlines text = [text] :=
  splitlinesFrom_end text [] htext (Or.inr hne)

theorem rstrip_append (before more : List Char) {c : Char} (hc : isSpace c = false) :
    rstrip (before ++ c :: more) = before ++ c :: rstrip more := by
  simp only [rstrip, List.reverse_append, List.reverse_cons, List.append_assoc,
    List.singleton_append, List.dropWhile_append]
  split
  · rename_i hempty
    have hnil : more.reverse.dropWhile isSpace = [] := List.isEmpty_iff.mp hempty
    simp [hc, hnil]
  · simp

theorem exists_rstrip (text : List Char) : ∃ lost, text = rstrip text ++ lost := by
  obtain ⟨lost, hlost⟩ := List.dropWhile_suffix isSpace (l := text.reverse)
  refine ⟨lost.reverse, ?_⟩
  have h := congrArg List.reverse hlost
  simpa [rstrip] using h.symm

theorem lstrip_cons {c : Char} (hc : isSpace c = false) (rest : List Char) :
    lstrip (c :: rest) = c :: rest := by
  simp [lstrip, hc]

theorem rstrip_rstrip (text : List Char) : rstrip (rstrip text) = rstrip text := by
  simp [rstrip, List.dropWhile_idempotent]

theorem strip_of_not_space {text : List Char} (htext : ∀ c ∈ text, isSpace c = false) :
    strip text = text := by
  have hstart : lstrip text = text := by
    cases text with
    | nil => rfl
    | cons c rest => exact lstrip_cons (htext c List.mem_cons_self) rest
  have hback : text.reverse.dropWhile isSpace = text.reverse := by
    rw [List.dropWhile_eq_self_iff]
    intro hlength
    simp [htext]
  rw [strip, hstart, rstrip, hback, List.reverse_reverse]

theorem strip_strip (text : List Char) : strip (strip text) = strip text := by
  unfold strip
  cases hstart : lstrip text with
  | nil => rfl
  | cons c rest =>
      have hc : isSpace c = false := by
        have hne : text.dropWhile isSpace ≠ [] := fun h => by simp [lstrip, h] at hstart
        have hhead : (text.dropWhile isSpace).head hne = c := by
          simp only [lstrip] at hstart
          simp [hstart]
        exact hhead ▸ List.head_dropWhile_not isSpace hne
      have hstrip := rstrip_append [] rest hc
      rw [List.nil_append, List.nil_append] at hstrip
      have hagain := rstrip_append [] (rstrip rest) hc
      rw [List.nil_append, List.nil_append] at hagain
      rw [hstrip, lstrip_cons hc, hagain, rstrip_rstrip]

-- What a text holds besides blanks.
def solid (text : List Char) : List Char := text.filter (!isSpace ·)

@[simp] theorem solid_append (first second : List Char) :
    solid (first ++ second) = solid first ++ solid second := List.filter_append ..

theorem solid_eq_nil {text : List Char} (hblank : ∀ c ∈ text, isSpace c = true) : solid text = [] :=
  List.filter_eq_nil_iff.mpr fun c hc => by simp [hblank c hc]

theorem solid_lstrip (text : List Char) : solid (lstrip text) = solid text := by
  have hblank : solid (text.takeWhile isSpace) = [] :=
    solid_eq_nil fun c hc => List.mem_takeWhile_imp hc
  conv_rhs => rw [← List.takeWhile_append_dropWhile (p := isSpace) (l := text)]
  rw [solid_append, hblank]
  rfl

@[simp] theorem solid_strip (text : List Char) : solid (strip text) = solid text := by
  have hreverse (chars : List Char) : solid chars.reverse = (solid chars).reverse := List.filter_reverse ..
  rw [strip, rstrip, hreverse]
  change (solid (lstrip _)).reverse = _
  rw [solid_lstrip, hreverse, List.reverse_reverse, solid_lstrip]

-- Only characters that no text line breaks at and no escape spells.
def isPlain (text : String) : Bool := text.toList.all fun c => 0x20 ≤ c.toNat && c.toNat < 0x7f

theorem ascii_of_isPlain {text : String} (hplain : isPlain text = true) :
    ∀ c ∈ text.toList, 0x20 ≤ c.toNat ∧ c.toNat < 0x7f := by
  intro c hc
  simpa using List.all_eq_true.mp hplain c hc

-- Python's `round`: halves go to the even neighbour.
def roundHalfEven (value : ℚ) : ℤ :=
  let base := value.floor
  let excess := value - base
  if excess < 1 / 2 then base
  else if 1 / 2 < excess then base + 1
  else if base % 2 = 0 then base else base + 1

-- `f"{value:.2f}"`
def fixed2 (value : ℚ) : String :=
  let hundredths := (roundHalfEven (|value| * 100)).toNat
  (if value < 0 then "-" else "") ++ toString (hundredths / 100) ++ "." ++
    toString (hundredths / 10 % 10) ++ toString (hundredths % 10)

example : fixed2 (2 / 3) = "0.67" := by decide +kernel

-- What a model makes of a text.

-- The blanks that a pydantic model strips; those of `str.strip` have four more.
def is_blank (c : Char) : Bool :=
  Text.inRanges [(0x09, 0x0d), (0x20, 0x20), (0x85, 0x85), (0xa0, 0xa0), (0x1680, 0x1680),
    (0x2000, 0x200a), (0x2028, 0x2029), (0x202f, 0x202f), (0x205f, 0x205f), (0x3000, 0x3000)] c

def trim_where (out : Char → Bool) (text : List Char) : List Char :=
  ((text.dropWhile out).reverse.dropWhile out).reverse

def trim (text : String) : String := String.ofList (trim_where is_blank text.toList)

theorem trim_where_self {out : Char → Bool} {text : List Char} (hhead : ∀ c ∈ text.head?, out c = false)
    (hlast : ∀ c ∈ text.getLast?, out c = false) : trim_where out text = text := by
  have hkeep : ∀ word : List Char, (∀ c ∈ word.head?, out c = false) → word.dropWhile out = word := by
    intro word hword
    cases word with
    | nil => rfl
    | cons c rest => rw [List.dropWhile_cons_of_neg (by rw [hword c rfl]; exact Bool.false_ne_true)]
  rw [trim_where, hkeep text hhead, hkeep _ (by rwa [List.head?_reverse]), List.reverse_reverse]

theorem trim_where_ends (out : Char → Bool) (text : List Char) :
    (∀ c ∈ (trim_where out text).head?, out c = false) ∧
      ∀ c ∈ (trim_where out text).getLast?, out c = false := by
  have hfirst : ∀ word : List Char, ∀ c ∈ (word.dropWhile out).head?, out c = false := by
    intro word c hc
    have hnot := List.head?_dropWhile_not out word
    rw [hc] at hnot
    simpa using hnot
  constructor
  · intro c hc
    rw [trim_where, List.head?_reverse] at hc
    refine hfirst text c ?_
    have hsuffix := List.dropWhile_suffix (l := (text.dropWhile out).reverse) out
    obtain ⟨taken, htaken⟩ := hsuffix
    have hne : (text.dropWhile out).reverse.dropWhile out ≠ [] := by
      intro hnil
      rw [hnil] at hc
      cases hc
    have hlast := List.getLast?_append_of_ne_nil taken hne
    rw [htaken, hc, List.getLast?_reverse] at hlast
    exact hlast
  · intro c hc
    rw [trim_where, List.getLast?_reverse] at hc
    exact hfirst _ c hc

theorem trim_where_eq_iff {out : Char → Bool} {text : List Char} :
    trim_where out text = text ↔
      (∀ c ∈ text.head?, out c = false) ∧ ∀ c ∈ text.getLast?, out c = false := by
  constructor
  · intro htrimmed
    have hends := trim_where_ends out text
    rwa [htrimmed] at hends
  · rintro ⟨hhead, hlast⟩
    exact trim_where_self hhead hlast

theorem trim_eq_iff {text : String} : trim text = text ↔
    (∀ c ∈ text.toList.head?, is_blank c = false) ∧ ∀ c ∈ text.toList.getLast?, is_blank c = false := by
  rw [← trim_where_eq_iff]
  constructor
  · intro htrimmed
    have hlist := congrArg String.toList htrimmed
    rwa [trim, String.toList_ofList] at hlist
  · intro htrimmed
    rw [trim, htrimmed, String.ofList_toList]

theorem trim_trim (text : String) : trim (trim text) = trim text := by
  obtain ⟨hhead, hlast⟩ := trim_where_ends is_blank text.toList
  rw [trim, trim, String.toList_ofList, trim_where_self hhead hlast]

end KnowledgeCompiler.Lib.Text

namespace KnowledgeCompiler.Lib

section Instances

-- Instances that hold for all orders and all pairs, named here for texts: what a
-- definition takes of them is then the same wherever it stands.

instance instIsTransText : IsTrans String (fun first second => first ≤ second) := inferInstance

instance instAntisymmText : Std.Antisymm (fun first second : String => first ≤ second) :=
  inferInstance

instance instLawfulBEqTexts : LawfulBEq (String × String) := inferInstance

end Instances

end KnowledgeCompiler.Lib

namespace KnowledgeCompiler.Lib.Scan

-- The text after a tag that it must begin with.
def expect (tag text : List Char) : Option (List Char) :=
  if tag.isPrefixOf text then some (text.drop tag.length) else none

@[simp] theorem expect_append (tag rest : List Char) : expect tag (tag ++ rest) = some rest := by
  simp [expect]

-- The text before the first stop, and the text after it.
def readUntil (stop : Char) : List Char → Option (List Char × List Char)
  | [] => none
  | c :: rest =>
      if c = stop then some ([], rest)
      else (readUntil stop rest).map (fun found => (c :: found.1, found.2))

theorem readUntil_append {stop : Char} {word : List Char} (hword : stop ∉ word)
    (rest : List Char) : readUntil stop (word ++ stop :: rest) = some (word, rest) := by
  induction word with
  | nil => simp [readUntil]
  | cons c word ih =>
      obtain ⟨hc, hword⟩ := not_or.mp (mt List.mem_cons.mpr hword)
      rw [List.cons_append, readUntil, if_neg (Ne.symm hc), ih hword]
      rfl

theorem intercalate_cons {α : Type*} (separator head : List α) (rest : List (List α)) :
    List.intercalate separator (head :: rest) = head ++ rest.flatMap (separator ++ ·) := by
  induction rest generalizing head with
  | nil => simp
  | cons next rest ih => rw [List.intercalate_cons_cons, ih, List.flatMap_cons, List.append_assoc,
      List.append_assoc]

-- What stands between each `<` and the next `>`.
def tagsFrom : Option (List Char) → List Char → List (List Char)
  | _, [] => []
  | none, c :: rest => tagsFrom (if c = '<' then some [] else none) rest
  | some taken, c :: rest =>
      if c = '>' then taken.reverse :: tagsFrom none rest else tagsFrom (some (c :: taken)) rest

def tags (text : List Char) : List (List Char) := tagsFrom none text

theorem tags_plain {plain : List Char} (hplain : '<' ∉ plain) (rest : List Char) :
    tags (plain ++ rest) = tags rest := by
  induction plain with
  | nil => rfl
  | cons c plain ih =>
      obtain ⟨hc, hplain⟩ := not_or.mp (mt List.mem_cons.mpr hplain)
      rw [List.cons_append, tags, tagsFrom, if_neg (Ne.symm hc)]
      exact ih hplain

theorem tagsFrom_name {name : List Char} (hname : '>' ∉ name) (taken rest : List Char) :
    tagsFrom (some taken) (name ++ '>' :: rest) = (taken.reverse ++ name) :: tags rest := by
  induction name generalizing taken with
  | nil => simp [tagsFrom, tags]
  | cons c name ih =>
      obtain ⟨hc, hname⟩ := not_or.mp (mt List.mem_cons.mpr hname)
      rw [List.cons_append, tagsFrom, if_neg (Ne.symm hc), ih hname]
      simp

theorem tags_tag {name : List Char} (hname : '>' ∉ name) (rest : List Char) :
    tags ('<' :: (name ++ '>' :: rest)) = name :: tags rest := by
  rw [tags, tagsFrom, if_pos rfl, tagsFrom_name hname]
  rfl

end KnowledgeCompiler.Lib.Scan
