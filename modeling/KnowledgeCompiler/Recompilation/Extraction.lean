import KnowledgeCompiler.Identity.Fingerprint
import KnowledgeCompiler.Lib.Datetime
import KnowledgeCompiler.Lib.Dict
import KnowledgeCompiler.Lib.Lines
import Mathlib

namespace KnowledgeCompiler.Recompilation.Extraction

open Lib Identity

inductive AuthorityClass
  | DRAFT
  | INFORMAL
  | DEPARTMENTAL
  | OFFICIAL
  | CONTRACTUAL
  | REGULATORY
deriving DecidableEq, Repr

inductive SourceStatus
  | ACTIVE
  | SUPERSEDED
  | WITHDRAWN
deriving DecidableEq, Repr

inductive TemporalSource
  | EXPLICIT
  | UNKNOWN
deriving DecidableEq, Repr

inductive ClaimKind
  | fact
  | status
  | dependency
deriving DecidableEq, Repr

def _AUTHORITY_ALIASES : List (String × AuthorityClass) :=
  [("draft", .DRAFT), ("informal", .INFORMAL), ("note", .INFORMAL), ("departmental", .DEPARTMENTAL),
    ("spec", .DEPARTMENTAL), ("official", .OFFICIAL), ("policy", .OFFICIAL),
    ("contractual", .CONTRACTUAL), ("contract", .CONTRACTUAL), ("regulatory", .REGULATORY)]

def _FOLDER_AUTHORITY : List (String × AuthorityClass) :=
  [("contracts", .CONTRACTUAL), ("policies", .OFFICIAL), ("specs", .DEPARTMENTAL),
    ("projects", .DEPARTMENTAL), ("meetings", .INFORMAL), ("notes", .INFORMAL)]

structure ParsedFile where
  rel_path : String
  sha256 : String
  text : List Char

structure ClaimDraft where
  anchor : String
  text : List Char
  subject : String
  section_path : List String
  line_number : ℕ
  kind : ClaimKind
  valid_from : Option Datetime := none
  valid_to : Option Datetime := none
  recorded_at : Option Datetime := none
  temporal_source : TemporalSource := .UNKNOWN
  source_status : SourceStatus := .ACTIVE
  depends_on_refs : List (List Char) := []
  derived_from_refs : List (List Char) := []

-- A date as a pattern finds it: the text of the match, and its groups.
structure DateMatch where
  text : List Char
  year : Option ℕ
  month : ℕ
  day : ℕ

-- What the patterns of the module find in a line; a pattern with a group gives the group.
structure Patterns where
  unicode : Unicode
  is_decimal : Char → Bool
  heading : List Char → Option (ℕ × List Char)
  authority_line : List Char → Option (List Char)
  date_line : List Char → Option (List Char)
  status_line : List Char → Option (List Char)
  effective : List Char → Option (List Char)
  until_date : List Char → Option (List Char)
  depends : List Char → Option (List Char)
  derived : List Char → Option (List Char)
  superseded_by : List Char → Bool
  supersedes : List Char → Bool
  claim_verb : List Char → Bool
  definition : List Char → Option (List Char)
  date_fullmatch : Fin 3 → List Char → Option DateMatch
  date_search : Fin 3 → List Char → Option DateMatch

section Frontmatter

-- What follows the first `\n---`.
def after_close : List Char → Option (List Char)
  | [] => none
  | c :: rest =>
      if ['\n', '-', '-', '-'].isPrefixOf (c :: rest) then some (rest.drop 3) else after_close rest

-- What may follow `\s*\n`, the longest match first.
def after_open : List Char → List (List Char)
  | [] => []
  | c :: rest =>
      if Text.isSpace c then after_open rest ++ if c = '\n' then [rest] else [] else []

-- `\A---\s*\n.*?\n---\s*\n?`, taken out once
def _strip_frontmatter (text : List Char) : List Char :=
  if ['-', '-', '-'].isPrefixOf text then
    match (after_open (text.drop 3)).findSome? after_close with
    | some rest => rest.dropWhile Text.isSpace
    | none => text
  else text

end Frontmatter

section Lines

variable (patterns : Patterns)

def casefold (text : List Char) : String := patterns.unicode.casefold (String.ofList text)

def normalized (text : List Char) : String :=
  normalize_text_for_identity patterns.unicode (String.ofList text)

def _authority_from_word (word : List Char) : Option AuthorityClass :=
  (_AUTHORITY_ALIASES.find? fun entry => entry.1 = casefold patterns (Text.strip word)).map Prod.snd

def _midnight (found : DateMatch) : Option Datetime :=
  Datetime.make (found.year.getD 2026, found.month, found.day) (0, 0, 0, 0) (some 0)

def is_date_end (c : Char) : Bool := c = '.' || c = ',' || c = ';'

def _parse_date (token : List Char) : Option Datetime :=
  let token := (Text.strip token).rdropWhile is_date_end
  (List.finRange 3).findSome? fun pattern =>
    ((patterns.date_fullmatch pattern token).or (patterns.date_search pattern token)).bind _midnight

def _first_date (text : List Char) : Option Datetime :=
  (List.finRange 3).findSome? fun pattern =>
    (patterns.date_search pattern text).bind fun found => _parse_date patterns found.text

-- `re.split(r"\s+(?:—|–|--|-)\s+", ref)[0]`
def before_dash : List Char → List Char
  | [] => []
  | c :: rest =>
      let dash := (c :: rest).dropWhile Text.isSpace
      let ends (mark : List Char) : Bool :=
        mark.isPrefixOf dash && (dash.drop mark.length).head?.any Text.isSpace
      if Text.isSpace c && [['—'], ['–'], ['-', '-'], ['-']].any ends then []
      else c :: before_dash rest

-- `re.sub(r"\s*\(.*\)\s*$", "", ref)`
def without_parenthesis (ref : List Char) : List Char :=
  let tail := ref.dropWhile (· ≠ '(')
  if 2 ≤ (Text.rstrip tail).length && (Text.rstrip tail).getLast? = some ')' then
    Text.rstrip (ref.takeWhile (· ≠ '('))
  else ref

def _clean_ref (ref : List Char) : List Char :=
  let ref := (Text.strip ref).rdropWhile fun c => c = '.' || c = ';' || c = ','
  let ref := Text.strip (without_parenthesis (Text.strip (before_dash ref)))
  (ref.takeWhile (· ≠ '#')).map fun c => if c = '\\' then '/' else c

def path_parts (rel_path : String) : List (List Char) :=
  (rel_path.toList.map fun c => if c = '\\' then '/' else c).splitOn '/'

def path_name (rel_path : String) : List Char := (rel_path.toList.splitOn '/').getLastD []

-- How long a name is without its suffix.
def stem_length (name : List Char) : ℕ :=
  let after := (name.reverse.takeWhile (· ≠ '.')).length
  if 0 < after && after + 1 < name.length then name.length - after - 1 else name.length

def path_stem (rel_path : String) : List Char :=
  (path_name rel_path).take (stem_length (path_name rel_path))

def path_suffix (rel_path : String) : List Char :=
  (path_name rel_path).drop (stem_length (path_name rel_path))

def _folder_authority (rel_path : String) : AuthorityClass :=
  let top := casefold patterns ((path_parts rel_path).headD [])
  ((_FOLDER_AUTHORITY.find? fun entry => entry.1 = top).map Prod.snd).getD .INFORMAL

def _subject_from (headings : List (List Char)) (rel_path : String) : String :=
  match headings.getLast? with
  | none => casefold patterns (path_stem rel_path)
  | some title =>
      let title := (casefold patterns (Text.strip title)).toList.dropWhile fun c =>
        patterns.is_decimal c || c = '.' || Text.isSpace c
      if normalized patterns title = "" then casefold patterns (path_stem rel_path)
      else normalized patterns title

def _section_path (rel_path : String) (headings : List (List Char)) : List String :=
  ((path_parts rel_path).dropLast ++ headings).map (normalized patterns)

-- `[-*+]|\d+[.)]`
def after_marker (text : List Char) : Option (List Char) :=
  match text with
  | '-' :: after | '*' :: after | '+' :: after => some after
  | _ =>
      let digits := text.takeWhile patterns.is_decimal
      if digits = [] then none
      else
        match text.drop digits.length with
        | '.' :: after | ')' :: after => some after
        | _ => none

-- `_BULLET_RE.sub(r"\1", line)`
def without_bullet (line : List Char) : List Char :=
  match after_marker patterns (line.dropWhile Text.isSpace) with
  | some (c :: rest) => if Text.isSpace c then rest.dropWhile Text.isSpace else line
  | _ => line

def body_of (line : List Char) : List Char := Text.strip (without_bullet patterns line)

def depends_refs (body : List Char) : List (List Char) :=
  match patterns.depends body with
  | some found =>
      if "depends on".toList <:+: (casefold patterns body).toList then [_clean_ref found] else []
  | none => []

def derived_from_refs (body : List Char) : List (List Char) :=
  match patterns.derived body with
  | some found =>
      if "derived from".toList <:+: (casefold patterns body).toList then [_clean_ref found] else []
  | none => []

def is_draft (body : List Char) : Bool :=
  (patterns.status_line body).any fun status => casefold patterns (Text.strip status) = "draft"

-- A heading, an authority line or a date line is context; what else states something is a claim.
def states_claim (line : List Char) : Bool :=
  let body := body_of patterns line
  Text.strip line ≠ [] && (patterns.heading line).isNone && (patterns.authority_line line).isNone &&
    (patterns.date_line line).isNone &&
    ((_first_date patterns body).isSome || (patterns.status_line body).isSome ||
      patterns.claim_verb body || depends_refs patterns body ≠ [] ||
      derived_from_refs patterns body ≠ [])

def claim_kind (body : List Char) : ClaimKind :=
  if is_draft patterns body then .status
  else if depends_refs patterns body ≠ [] || derived_from_refs patterns body ≠ [] then .dependency
  else if patterns.superseded_by body || patterns.supersedes body then .status
  else .fact

def markdown_claim (rel_path : String) (headings : List (List Char)) (recorded_at : Option Datetime)
    (index : ℕ) (body : List Char) : ClaimDraft :=
  let valid_from := (patterns.effective body).bind (_parse_date patterns)
  let valid_to := (patterns.until_date body).bind (_parse_date patterns)
  { anchor := normalized patterns body
    text := body
    subject := _subject_from patterns headings rel_path
    section_path := _section_path patterns rel_path headings
    line_number := index + 1
    kind := claim_kind patterns body
    valid_from
    valid_to
    recorded_at
    temporal_source := if valid_from.isSome || valid_to.isSome then .EXPLICIT else .UNKNOWN
    source_status := if patterns.superseded_by body then .SUPERSEDED else .ACTIVE
    depends_on_refs := depends_refs patterns body
    derived_from_refs := derived_from_refs patterns body }

structure MarkdownState where
  claims : List ClaimDraft := []
  headings : List (List Char) := []
  explicit_authority : Option AuthorityClass := none
  draft_status : Bool := false
  doc_recorded_at : Option Datetime := none

def read_markdown_line (rel_path : String) (state : MarkdownState) (entry : List Char × ℕ) :
    MarkdownState :=
  let line := Text.rstrip entry.1
  if Text.strip line = [] then state
  else
    match patterns.heading line with
    | some (level, title) =>
        { state with headings := state.headings.take (level - 1) ++ [Text.strip title] }
    | none =>
        match patterns.authority_line line with
        | some word => { state with explicit_authority := _authority_from_word patterns word }
        | none =>
            match patterns.date_line line with
            | some token =>
                { state with doc_recorded_at := (_parse_date patterns token).or state.doc_recorded_at }
            | none =>
                if states_claim patterns line then
                  { state with
                    draft_status := state.draft_status || is_draft patterns (body_of patterns line)
                    claims := state.claims ++ [markdown_claim patterns rel_path state.headings
                      state.doc_recorded_at entry.2 (body_of patterns line)] }
                else state

def _parse_markdown (lines : List (List Char)) (rel_path : String) (doc_authority : AuthorityClass) :
    List ClaimDraft × AuthorityClass :=
  let state := lines.zipIdx.foldl (read_markdown_line patterns rel_path) {}
  (state.claims,
    if state.draft_status then .DRAFT else state.explicit_authority.getD doc_authority)

-- `^\s*#\s?(.*)$`
def py_comment (line : List Char) : Option (List Char) :=
  match line.dropWhile Text.isSpace with
  | '#' :: c :: rest => some (if Text.isSpace c then rest else c :: rest)
  | ['#'] => some []
  | _ => none

-- `(?:\*/|-->)?\s*$` matches.
def ends_comment (rest : List Char) : Bool :=
  rest.all Text.isSpace ||
    (['*', '/'].isPrefixOf rest && (rest.drop 2).all Text.isSpace) ||
    (['-', '-', '>'].isPrefixOf rest && (rest.drop 3).all Text.isSpace)

def comment_text : List Char → List Char
  | [] => []
  | c :: rest => if ends_comment (c :: rest) then [] else c :: comment_text rest

-- `^\s*(?://|/?\*|<!--)\s?(.*?)(?:\*/|-->)?\s*$`
def c_comment (line : List Char) : Option (List Char) :=
  let rest : Option (List Char) :=
    match line.dropWhile Text.isSpace with
    | '/' :: '/' :: rest | '/' :: '*' :: rest | '*' :: rest | '<' :: '!' :: '-' :: '-' :: rest => some rest
    | _ => none
  rest.map fun rest =>
    match rest with
    | [] => []
    | c :: more => comment_text (if Text.isSpace c then more else c :: more)

def comment (rel_path : String) (line : List Char) : Option (List Char) :=
  if ".py".toList.isSuffixOf rel_path.toList then py_comment line else c_comment line

def comment_states_claim (body : List Char) : Bool :=
  12 ≤ body.length && ((_first_date patterns body).isSome || patterns.claim_verb body)

def code_claim (rel_path : String) (title : List Char) (index : ℕ) (body : List Char) : ClaimDraft :=
  let valid_from := (patterns.effective body).bind (_parse_date patterns)
  { anchor := normalized patterns body
    text := body
    subject := _subject_from patterns [title] rel_path
    section_path := _section_path patterns rel_path [title]
    line_number := index + 1
    kind := if patterns.superseded_by body then .status else .fact
    valid_from
    temporal_source := if valid_from.isSome then .EXPLICIT else .UNKNOWN
    source_status := if patterns.superseded_by body then .SUPERSEDED else .ACTIVE }

-- The claims so far, and the definition they stand in.
def read_code_line (rel_path : String) (state : List ClaimDraft × List Char)
    (entry : List Char × ℕ) : List ClaimDraft × List Char :=
  match comment rel_path entry.1 with
  | none => (state.1, (patterns.definition entry.1).getD state.2)
  | some found =>
      let body := Text.strip found
      if comment_states_claim patterns body then
        (state.1 ++ [code_claim patterns rel_path state.2 entry.2 body], state.2)
      else state

def _parse_code (lines : List (List Char)) (rel_path : String) : List ClaimDraft :=
  (lines.zipIdx.foldl (read_code_line patterns rel_path) ([], path_stem rel_path)).1

def MARKDOWN_SUFFIXES : List String := [".md", ".markdown"]

def is_markdown (file : ParsedFile) : Bool :=
  casefold patterns (path_suffix file.rel_path) ∈ MARKDOWN_SUFFIXES

def parse_file (file : ParsedFile) : List ClaimDraft × AuthorityClass :=
  let lines := Text.splitlines (_strip_frontmatter file.text)
  let doc_authority := _folder_authority patterns file.rel_path
  if is_markdown patterns file then _parse_markdown patterns lines file.rel_path doc_authority
  else (_parse_code patterns lines file.rel_path, doc_authority)

-- What an entry of the evidence index is made of.
structure Row where
  evidence_id : String
  rel_path : String
  line_number : ℕ
  sha256 : String
  value : List Char

structure Evidence where
  rel_path : String
  line_number : ℕ
  sha256 : String
  span : List Char

def _row_from_draft (evidence_id : ParsedFile → ClaimDraft → String) (file : ParsedFile)
    (draft : ClaimDraft) : Row where
  evidence_id := evidence_id file draft
  rel_path := file.rel_path
  line_number := draft.line_number
  sha256 := file.sha256
  value := draft.text

def evidence_index (rows : List Row) : Dict String Evidence :=
  Dict.ofPairs (rows.map fun row =>
    (row.evidence_id,
      { rel_path := row.rel_path, line_number := row.line_number, sha256 := row.sha256
        span := row.value }))

end Lines

section Reading

variable (patterns : Patterns)

-- The body that a line is read as a claim with.
def line_claim (file : ParsedFile) (line : List Char) : Option (List Char) :=
  if is_markdown patterns file then
    if states_claim patterns (Text.rstrip line) then some (body_of patterns (Text.rstrip line)) else none
  else
    (comment file.rel_path line).bind fun found =>
      if comment_states_claim patterns (Text.strip found) then some (Text.strip found) else none

def numbered (draft : ClaimDraft) : ℕ × List Char := (draft.line_number, draft.text)

theorem read_markdown_line_claims (rel_path : String) (state : MarkdownState) (entry : List Char × ℕ) :
    (read_markdown_line patterns rel_path state entry).claims.map numbered =
      state.claims.map numbered ++
        (if states_claim patterns (Text.rstrip entry.1) then
          some (entry.2 + 1, body_of patterns (Text.rstrip entry.1)) else none).toList := by
  have hnone (hcontext : states_claim patterns (Text.rstrip entry.1) = false) :
      state.claims.map numbered = state.claims.map numbered ++
        (if states_claim patterns (Text.rstrip entry.1) then
          some (entry.2 + 1, body_of patterns (Text.rstrip entry.1)) else none).toList := by
    rw [hcontext]
    simp
  unfold read_markdown_line
  dsimp only
  split
  · rename_i hblank
    exact hnone (by simp [states_claim, hblank])
  · split
    · rename_i hheading
      exact hnone (by simp [states_claim, hheading])
    · split
      · rename_i hauthority
        exact hnone (by simp [states_claim, hauthority])
      · split
        · rename_i hdate
          exact hnone (by simp [states_claim, hdate])
        · split
          · simp [numbered, markdown_claim]
          · simp

theorem read_code_line_claims (rel_path : String) (state : List ClaimDraft × List Char)
    (entry : List Char × ℕ) : (read_code_line patterns rel_path state entry).1.map numbered =
      state.1.map numbered ++ (((comment rel_path entry.1).bind fun found =>
        if comment_states_claim patterns (Text.strip found) then some (Text.strip found)
          else none).map fun body => (entry.2 + 1, body)).toList := by
  unfold read_code_line
  split
  · rename_i hnone
    simp [hnone]
  · rename_i found hfound
    dsimp only
    rw [hfound, Option.bind_some]
    split
    · simp [numbered, code_claim]
    · simp

-- The drafts of a file are the lines that state a claim, in order and numbered as they are read.
theorem parse_file_numbered (file : ParsedFile) : (parse_file patterns file).1.map numbered =
    (Text.splitlines (_strip_frontmatter file.text)).zipIdx.filterMap fun entry =>
      (line_claim patterns file entry.1).map fun body => (entry.2 + 1, body) := by
  have hmarkdown (entries : List (List Char × ℕ)) (state : MarkdownState) :
      (entries.foldl (read_markdown_line patterns file.rel_path) state).claims.map numbered =
        state.claims.map numbered ++ entries.filterMap fun entry =>
          if states_claim patterns (Text.rstrip entry.1) then
            some (entry.2 + 1, body_of patterns (Text.rstrip entry.1)) else none := by
    induction entries generalizing state with
    | nil => simp
    | cons entry rest ih =>
      rw [List.foldl_cons, ih, read_markdown_line_claims, List.append_assoc, List.filterMap_cons]
      split <;> simp_all
  have hcode (entries : List (List Char × ℕ)) (state : List ClaimDraft × List Char) :
      (entries.foldl (read_code_line patterns file.rel_path) state).1.map numbered =
        state.1.map numbered ++ entries.filterMap fun entry =>
          ((comment file.rel_path entry.1).bind fun found =>
            if comment_states_claim patterns (Text.strip found) then some (Text.strip found)
              else none).map fun body => (entry.2 + 1, body) := by
    induction entries generalizing state with
    | nil => simp
    | cons entry rest ih =>
      rw [List.foldl_cons, ih, read_code_line_claims, List.append_assoc, List.filterMap_cons]
      split <;> simp_all
  unfold parse_file
  dsimp only
  by_cases hfile : is_markdown patterns file = true
  · rw [if_pos hfile, _parse_markdown, hmarkdown]
    refine List.filterMap_congr fun entry _ => ?_
    rw [line_claim, if_pos hfile]
    split <;> rfl
  · rw [if_neg hfile, _parse_code, hcode]
    refine List.filterMap_congr fun entry _ => ?_
    rw [line_claim, if_neg hfile]

theorem after_marker_suffix {text after : List Char}
    (hafter : after_marker patterns text = some after) : after <:+ text := by
  have hdigits {c : Char} {rest : List Char}
      (hdrop : text.drop (text.takeWhile patterns.is_decimal).length = c :: rest) : rest <:+ text :=
    (List.suffix_cons c rest).trans (hdrop ▸ List.drop_suffix _ _)
  unfold after_marker at hafter
  split at hafter
  · exact Option.some.inj hafter ▸ List.suffix_cons _ _
  · exact Option.some.inj hafter ▸ List.suffix_cons _ _
  · exact Option.some.inj hafter ▸ List.suffix_cons _ _
  · dsimp only at hafter
    split at hafter
    · cases hafter
    · split at hafter
      · rename_i hdrop
        exact Option.some.inj hafter ▸ hdigits hdrop
      · rename_i hdrop
        exact Option.some.inj hafter ▸ hdigits hdrop
      · cases hafter

theorem without_bullet_suffix (line : List Char) : without_bullet patterns line <:+ line := by
  unfold without_bullet
  split
  · rename_i c rest hmarker
    have hafter := (after_marker_suffix patterns hmarker).trans (List.dropWhile_suffix _)
    split
    · exact ((List.dropWhile_suffix _).trans (List.suffix_cons c rest)).trans hafter
    · exact List.suffix_refl _
  · exact List.suffix_refl _

theorem comment_text_initial (text : List Char) : comment_text text <+: text := by
  induction text with
  | nil => exact List.prefix_refl _
  | cons c rest ih =>
    unfold comment_text
    split
    · exact List.nil_prefix
    · exact List.cons_prefix_cons.mpr ⟨rfl, ih⟩

theorem infix_of_comment {rel_path : String} {line found : List Char}
    (hfound : comment rel_path line = some found) : found <:+: line := by
  have hline : line.dropWhile Text.isSpace <:+ line := List.dropWhile_suffix _
  unfold comment at hfound
  split at hfound
  · unfold py_comment at hfound
    split at hfound
    · rename_i c rest heq
      rw [heq] at hline
      obtain rfl := Option.some.inj hfound
      have hrest : (c :: rest) <:+: line := ((List.suffix_cons _ _).trans hline).isInfix
      split
      · exact (List.suffix_cons c rest).isInfix.trans hrest
      · exact hrest
    · obtain rfl := Option.some.inj hfound
      exact List.nil_infix
    · cases hfound
  · unfold c_comment at hfound
    obtain ⟨rest, hrest, rfl⟩ := Option.map_eq_some_iff.mp hfound
    have hsuffix : rest <:+ line.dropWhile Text.isSpace := by
      split at hrest
      · rename_i heq
        rw [heq, ← Option.some.inj hrest]
        exact ⟨['/', '/'], rfl⟩
      · rename_i heq
        rw [heq, ← Option.some.inj hrest]
        exact ⟨['/', '*'], rfl⟩
      · rename_i heq
        rw [heq, ← Option.some.inj hrest]
        exact ⟨['*'], rfl⟩
      · rename_i heq
        rw [heq, ← Option.some.inj hrest]
        exact ⟨['<', '!', '-', '-'], rfl⟩
      · cases hrest
    have hinfix : rest <:+: line := (hsuffix.trans hline).isInfix
    split
    · exact List.nil_infix
    · rename_i c more
      refine (comment_text_initial _).isInfix.trans ?_
      split
      · exact (List.suffix_cons c more).isInfix.trans hinfix
      · exact hinfix

theorem infix_of_line_claim {file : ParsedFile} {line body : List Char}
    (hclaim : line_claim patterns file line = some body) : body <:+: line := by
  unfold line_claim at hclaim
  split at hclaim
  · split at hclaim
    · obtain rfl := Option.some.inj hclaim
      exact ((Text.infix_of_strip _).trans (without_bullet_suffix patterns _).isInfix).trans
        (Text.infix_of_rstrip line)
    · cases hclaim
  · obtain ⟨found, hfound, hbody⟩ := Option.bind_eq_some_iff.mp hclaim
    split at hbody
    · obtain rfl := Option.some.inj hbody
      exact (Text.infix_of_strip found).trans (infix_of_comment hfound)
    · cases hbody

end Reading

section Exactness

variable (patterns : Patterns) (evidence_id : ParsedFile → ClaimDraft → String)

-- The lines that are read, each with its end.
def kept (file : ParsedFile) : List (List Char) := Text.keptLines [] (_strip_frontmatter file.text)

def frontmatter (file : ParsedFile) : List Char :=
  file.text.take (file.text.length - (_strip_frontmatter file.text).length)

-- The line of the file, counted by its newlines, in which a line that is read begins.
def source_line (file : ParsedFile) (index : ℕ) : ℕ :=
  (frontmatter file ++ ((kept file).take index).flatten).count '\n' + 1

def ContainsSpan (file : ParsedFile) (line_number : ℕ) (span : List Char) : Prop :=
  ∃ line, (file.text.splitOn '\n')[line_number - 1]? = some line ∧ span <:+: line

-- The draft is numbered by the line it was read from, and that line contains it.
def Exact (file : ParsedFile) (draft : ClaimDraft) : Prop :=
  draft.line_number = source_line file (draft.line_number - 1) ∧
    ContainsSpan file draft.line_number draft.text

def FromDrafts (files : List ParsedFile) (rows : List Row) : Prop :=
  ∀ row ∈ rows, ∃ file ∈ files, ∃ draft ∈ (parse_file patterns file).1,
    row = _row_from_draft evidence_id file draft

-- The entry names the line of a file that states its claim.
def PointsAt (files : List ParsedFile) (evidence : Evidence) : Prop :=
  ∃ file ∈ files, ∃ draft ∈ (parse_file patterns file).1, evidence.rel_path = file.rel_path ∧
    evidence.sha256 = file.sha256 ∧ evidence.span = draft.text ∧
    evidence.line_number = draft.line_number ∧ Exact file draft

def EvidenceExact (files : List ParsedFile) : Prop :=
  (∀ file ∈ files, ∀ draft ∈ (parse_file patterns file).1, Exact file draft) ∧
  ∀ rows, FromDrafts patterns evidence_id files rows →
    ∀ entry ∈ (evidence_index rows).entries, PointsAt patterns files entry.2

-- Before every line that states a claim, as many newlines are lost with the frontmatter as there
-- are other separators in the rest.
def Level (file : ParsedFile) : Prop :=
  ∀ index line, (Text.splitlines (_strip_frontmatter file.text))[index]? = some line →
    (line_claim patterns file line).isSome = true →
      (frontmatter file).count '\n' = ((kept file).take index).countP fun part => '\n' ∉ part

variable {patterns} {evidence_id}

theorem strip_frontmatter_suffix (text : List Char) : _strip_frontmatter text <:+ text := by
  have hclose (begun found : List Char) (hfound : after_close begun = some found) : found <:+ begun := by
    induction begun with
    | nil => cases hfound
    | cons c rest ih =>
      unfold after_close at hfound
      split at hfound
      · obtain rfl := Option.some.inj hfound
        exact (List.drop_suffix _ _).trans (List.suffix_cons c rest)
      · exact (ih hfound).trans (List.suffix_cons c rest)
  have hopen (begun : List Char) : ∀ rest ∈ after_open begun, rest <:+ begun := by
    induction begun with
    | nil => exact fun _ hmem => absurd hmem List.not_mem_nil
    | cons c rest ih =>
      intro other hother
      unfold after_open at hother
      split at hother
      · rcases List.mem_append.mp hother with hother | hother
        · exact (ih other hother).trans (List.suffix_cons c rest)
        · split at hother
          · rw [List.mem_singleton.mp hother]
            exact List.suffix_cons c rest
          · exact absurd hother List.not_mem_nil
      · exact absurd hother List.not_mem_nil
  unfold _strip_frontmatter
  split
  · split
    · rename_i rest hrest
      obtain ⟨begun, hbegun, hclosed⟩ := List.exists_of_findSome?_eq_some hrest
      exact (List.dropWhile_suffix _).trans
        ((hclose begun rest hclosed).trans ((hopen _ begun hbegun).trans (List.drop_suffix _ _)))
    · exact List.suffix_refl _
  · exact List.suffix_refl _

theorem frontmatter_append (file : ParsedFile) :
    frontmatter file ++ _strip_frontmatter file.text = file.text := by
  obtain ⟨front, hfront⟩ := strip_frontmatter_suffix file.text
  have hlength : file.text.length - (_strip_frontmatter file.text).length = front.length := by
    have hcount := congrArg List.length hfront
    rw [List.length_append] at hcount
    omega
  rw [frontmatter, hlength]
  nth_rewrite 1 [← hfront]
  rw [List.take_left, hfront]

-- A line that is read is a piece of the text behind the frontmatter and the lines before it.
theorem text_at_line {file : ParsedFile} {index : ℕ} {line : List Char}
    (hline : (Text.splitlines (_strip_frontmatter file.text))[index]? = some line) :
    index < (kept file).length ∧ '\n' ∉ line ∧
      ∃ after, file.text =
        (frontmatter file ++ ((kept file).take index).flatten) ++ line ++ after := by
  rw [Text.splitlines_eq_kept, List.getElem?_map, Option.map_eq_some_iff] at hline
  obtain ⟨part, hpart, rfl⟩ := hline
  have hindex : index < (kept file).length := (List.getElem?_eq_some_iff.mp hpart).1
  refine ⟨hindex, fun hmem => ?_, ?_⟩
  · have hbreak := List.mem_takeWhile_imp hmem
    exact absurd hbreak (by decide)
  · obtain ⟨rest, hrest⟩ := List.takeWhile_prefix (fun c => !Text.isLineBreak c) (l := part)
    have hsplit : kept file = (kept file).take index ++ part :: (kept file).drop (index + 1) := by
      have hdrop : (kept file).drop index = part :: (kept file).drop (index + 1) := by
        rw [List.drop_eq_getElem_cons hindex]
        congr 1
        exact (List.getElem?_eq_some_iff.mp hpart).2
      rw [← hdrop, List.take_append_drop]
    have hflat : (kept file).flatten = _strip_frontmatter file.text :=
      Text.flatten_keptLines [] (_strip_frontmatter file.text)
    have hbehind (more : List Char) :
        part ++ more = part.takeWhile (fun c => !Text.isLineBreak c) ++ (rest ++ more) := by
      rw [← List.append_assoc, hrest]
    refine ⟨rest ++ ((kept file).drop (index + 1)).flatten, ?_⟩
    calc file.text
        = frontmatter file ++ (kept file).flatten := by rw [hflat, frontmatter_append]
      _ = frontmatter file ++ ((kept file).take index ++ part :: (kept file).drop (index + 1)).flatten := by
          rw [← hsplit]
      _ = _ := by
          rw [List.flatten_append, List.flatten_cons, hbehind]
          simp only [List.append_assoc]

theorem exact_iff {file : ParsedFile} {draft : ClaimDraft} {index : ℕ} {line : List Char}
    (hline : (Text.splitlines (_strip_frontmatter file.text))[index]? = some line)
    (hclaim : line_claim patterns file line = some draft.text)
    (hnumber : draft.line_number = index + 1) :
    Exact file draft ↔ (frontmatter file).count '\n' =
      ((kept file).take index).countP fun part => '\n' ∉ part := by
  obtain ⟨hindex, hnewline, after, htext⟩ := text_at_line hline
  have hparts : ∀ part ∈ (kept file).take index, part.count '\n' ≤ 1 := fun part hpart =>
    Text.count_kept_le [] _ (fun _ hc => absurd hc List.not_mem_nil) part (List.mem_of_mem_take hpart)
  have hcount := Text.count_flatten_add_countP hparts
  rw [List.length_take, Nat.min_eq_left hindex.le] at hcount
  have hnumber' : draft.line_number = source_line file (draft.line_number - 1) ↔
      (frontmatter file).count '\n' = ((kept file).take index).countP fun part => '\n' ∉ part := by
    rw [hnumber, Nat.add_sub_cancel, source_line, List.count_append]
    omega
  refine ⟨fun hexact => hnumber'.mp hexact.1, fun hlevel => ⟨hnumber'.mpr hlevel, ?_⟩⟩
  obtain ⟨found, hfound, hinfix⟩ := Text.infix_splitOn
    (frontmatter file ++ ((kept file).take index).flatten) line after hnewline
  refine ⟨found, ?_, (infix_of_line_claim patterns hclaim).trans hinfix⟩
  have hbefore : (frontmatter file ++ ((kept file).take index).flatten).count '\n' = index := by
    have heq := hnumber'.mpr hlevel
    rw [hnumber, Nat.add_sub_cancel, source_line] at heq
    omega
  rw [hbefore, ← htext] at hfound
  rw [hnumber]
  exact hfound

theorem exists_line_of_draft {file : ParsedFile} {draft : ClaimDraft}
    (hdraft : draft ∈ (parse_file patterns file).1) : ∃ index line,
      (Text.splitlines (_strip_frontmatter file.text))[index]? = some line ∧
      line_claim patterns file line = some draft.text ∧ draft.line_number = index + 1 := by
  have hmem := List.mem_map_of_mem (f := numbered) hdraft
  rw [parse_file_numbered, List.mem_filterMap] at hmem
  obtain ⟨⟨line, index⟩, hentry, hclaim⟩ := hmem
  obtain ⟨body, hbody, heq⟩ := Option.map_eq_some_iff.mp hclaim
  obtain ⟨hnumber, rfl⟩ := Prod.mk.inj heq
  exact ⟨index, line, List.mem_zipIdx_iff_getElem?.mp hentry, hbody, hnumber.symm⟩

theorem exists_draft_of_line {file : ParsedFile} {index : ℕ} {line body : List Char}
    (hline : (Text.splitlines (_strip_frontmatter file.text))[index]? = some line)
    (hclaim : line_claim patterns file line = some body) :
    ∃ draft ∈ (parse_file patterns file).1, draft.text = body ∧ draft.line_number = index + 1 := by
  have hmem : (index + 1, body) ∈ (parse_file patterns file).1.map numbered := by
    rw [parse_file_numbered, List.mem_filterMap]
    exact ⟨(line, index), List.mem_zipIdx_iff_getElem?.mpr hline, by rw [hclaim]; rfl⟩
  obtain ⟨draft, hdraft, heq⟩ := List.mem_map.mp hmem
  obtain ⟨hnumber, htext⟩ := Prod.mk.inj heq
  exact ⟨draft, hdraft, htext, hnumber⟩

theorem drafts_exact_iff (file : ParsedFile) :
    (∀ draft ∈ (parse_file patterns file).1, Exact file draft) ↔ Level patterns file := by
  constructor
  · intro hexact index line hline hclaim
    obtain ⟨body, hbody⟩ := Option.isSome_iff_exists.mp hclaim
    obtain ⟨draft, hdraft, htext, hnumber⟩ := exists_draft_of_line hline hbody
    exact (exact_iff hline (htext ▸ hbody) hnumber).mp (hexact draft hdraft)
  · intro hlevel draft hdraft
    obtain ⟨index, line, hline, hclaim, hnumber⟩ := exists_line_of_draft hdraft
    exact (exact_iff hline hclaim hnumber).mpr (hlevel index line hline (by rw [hclaim]; rfl))

-- An entry of the index is made of one of the rows.
theorem mem_evidence_index {rows : List Row} {entry : String × Evidence}
    (hentry : entry ∈ (evidence_index rows).entries) : ∃ row ∈ rows,
      entry.2 = { rel_path := row.rel_path, line_number := row.line_number, sha256 := row.sha256
                  span := row.value } := by
  have hpair := Dict.mem_of_get?_ofPairs ((Dict.mem_entries_iff _ _ _).mp hentry)
  obtain ⟨row, hrow, heq⟩ := List.mem_map.mp hpair
  exact ⟨row, hrow, (congrArg Prod.snd heq).symm⟩

theorem evidence_exact_iff (patterns : Patterns) (evidence_id : ParsedFile → ClaimDraft → String)
    (files : List ParsedFile) : EvidenceExact patterns evidence_id files ↔
      ∀ file ∈ files, Level patterns file := by
  constructor
  · exact fun hexact file hfile => (drafts_exact_iff file).mp (hexact.1 file hfile)
  · intro hlevel
    have hdrafts : ∀ file ∈ files, ∀ draft ∈ (parse_file patterns file).1, Exact file draft :=
      fun file hfile => (drafts_exact_iff file).mpr (hlevel file hfile)
    refine ⟨hdrafts, fun rows hrows entry hentry => ?_⟩
    obtain ⟨row, hrow, heq⟩ := mem_evidence_index hentry
    obtain ⟨file, hfile, draft, hdraft, rfl⟩ := hrows row hrow
    rw [heq]
    exact ⟨file, hfile, draft, hdraft, rfl, rfl, rfl, rfl, hdrafts file hfile draft hdraft⟩

end Exactness

section Samples

-- The patterns on a text without headings, dates and references whose one verb is `is`.
def plain_patterns : Patterns where
  unicode := Unicode.ascii
  is_decimal := Char.isDigit
  heading _ := none
  authority_line _ := none
  date_line _ := none
  status_line _ := none
  effective _ := none
  until_date _ := none
  depends _ := none
  derived _ := none
  superseded_by _ := false
  supersedes _ := false
  claim_verb body := " is ".toList <:+: body
  definition _ := none
  date_fullmatch _ _ := none
  date_search _ _ := none

def headed_file : ParsedFile where
  rel_path := "notes/gate.md"
  sha256 := ""
  text := "---\ntitle: Gate\n---\nThe gate is open.\n".toList

theorem frontmatter_not_counted : ¬EvidenceExact plain_patterns (fun _ _ => "ev") [headed_file] := by
  have hdraft : (parse_file plain_patterns headed_file).1.map numbered =
      [(1, "The gate is open.".toList)] := by
    decide
  have hline : source_line headed_file 0 = 4 := by decide
  intro hexact
  have hmem : (1, "The gate is open.".toList) ∈ (parse_file plain_patterns headed_file).1.map numbered := by
    rw [hdraft]
    exact List.mem_singleton_self _
  obtain ⟨draft, hmem, heq⟩ := List.mem_map.mp hmem
  have hnumber : draft.line_number = 1 := (Prod.mk.inj heq).1
  have hsource := (hexact.1 headed_file (List.mem_singleton_self _) draft hmem).1
  rw [hnumber, hline] at hsource
  cases hsource

end Samples

end KnowledgeCompiler.Recompilation.Extraction
