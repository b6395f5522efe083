import KnowledgeCompiler.Lib.Text

namespace KnowledgeCompiler.Identity

open Lib

-- The tables of the Unicode database that identity normalisation reads:
-- `unicodedata.normalize("NFKC", text)`, `str.casefold` and the class `\w`.
structure Unicode where
  nfkc : String → String
  casefold : String → String
  is_word : Char → Bool

-- The tables on ASCII text.
def Unicode.ascii : Unicode where
  nfkc := id
  casefold text := String.ofList (text.toList.map Char.toLower)
  is_word c := c.isAlphanum || c = '_'

def normalize_text_for_identity (unicode : Unicode) (text : String) : String :=
  let folded := (unicode.casefold (unicode.nfkc text)).toList
  let spaced := folded.map (fun c => if unicode.is_word c || Text.isSpace c then c else ' ')
  String.ofList (Text.strip (Text.collapseSpaces spaced))

inductive LogicalMatch
  | MATCHED
  | NEW
  | AMBIGUOUS
deriving DecidableEq, Repr

inductive LogicalRelation
  | SAME_AS_VERSION
  | SPLIT_INTO
  | MERGED_FROM
  | MOVED_FROM
deriving DecidableEq, Repr

inductive MissingReason
  | MODEL_UNAVAILABLE
  | NOT_APPLICABLE
  | RESOURCE_LIMIT
  | ERROR
deriving DecidableEq, Repr

inductive Signal
  | source_continuity
  | structural_path
  | explicit_identifier
  | semantic
  | previous_neighbor
  | next_neighbor
  | geometry_style
deriving DecidableEq, Repr

def Signal.name : Signal → String
  | source_continuity => "source_continuity"
  | structural_path => "structural_path"
  | explicit_identifier => "explicit_identifier"
  | semantic => "semantic"
  | previous_neighbor => "previous_neighbor"
  | next_neighbor => "next_neighbor"
  | geometry_style => "geometry_style"

def Signal.all : List Signal :=
  [source_continuity, structural_path, explicit_identifier, semantic, previous_neighbor,
    next_neighbor, geometry_style]

def IDENTITY_SIGNAL_WEIGHTS : Signal → ℚ
  | .source_continuity => 25 / 100
  | .structural_path => 20 / 100
  | .explicit_identifier => 15 / 100
  | .semantic => 15 / 100
  | .previous_neighbor => 10 / 100
  | .next_neighbor => 10 / 100
  | .geometry_style => 5 / 100

-- In the order `sorted` gives their names.
def CRITICAL_IDENTITY_SIGNALS : List Signal := [.semantic, .source_continuity, .structural_path]

def MERGE_THRESHOLD : ℚ := 92 / 100
def NEW_IDENTITY_THRESHOLD : ℚ := 75 / 100
def TIE_BAND : ℚ := 5 / 100
def LINEAGE_DECAY : ℚ := 15 / 100
def LINEAGE_FLOOR : ℚ := 25 / 100

structure LogicalUnitFingerprint where
  logical_id : String
  document_path : List String
  anchor : String
  normalized_text : String
  source_lineage : String := ""
  version_distance : Int := 1
  explicit_identifier : String := ""
  previous_anchor : String := ""
  next_anchor : String := ""
  geometry_style : String := ""
deriving DecidableEq, Repr, Inhabited

-- The arguments of `LogicalUnitFingerprint.of`, before the text is normalised.
structure UnitFields where
  logical_id : String
  document_path : List String
  anchor : String
  text : String
  source_lineage : String := ""
  version_distance : Int := 1
  explicit_identifier : String := ""
  previous_anchor : String := ""
  next_anchor : String := ""
  geometry_style : String := ""
  neighbour_anchors : List String := []

-- An explicit previous or next anchor wins over the neighbour sequence.
def LogicalUnitFingerprint.of (unicode : Unicode) (fields : UnitFields) :
    LogicalUnitFingerprint where
  logical_id := fields.logical_id
  document_path := fields.document_path
  anchor := fields.anchor
  normalized_text := normalize_text_for_identity unicode fields.text
  source_lineage := fields.source_lineage
  version_distance := fields.version_distance
  explicit_identifier := fields.explicit_identifier
  previous_anchor :=
    if fields.previous_anchor = "" then fields.neighbour_anchors.headD ""
    else fields.previous_anchor
  next_anchor :=
    if fields.next_anchor = "" then fields.neighbour_anchors.getLastD "" else fields.next_anchor
  geometry_style := fields.geometry_style

structure LogicalIdentityDecision where
  verdict : LogicalMatch
  logical_id : Option String
  score : ℚ
  signals : List (Signal × ℚ) := []
  reason : String := ""
  candidates : List String := []
  missing : List (Signal × MissingReason) := []
  relation : Option LogicalRelation := none
deriving DecidableEq, Repr

-- Three ordered bands, as the constructor checks them, and the weights of the seven signals.
structure LogicalIdentityResolver where
  merge_threshold : ℚ
  new_threshold : ℚ
  tie_band : ℚ
  weights : Signal → ℚ
  thresholds_ordered : 0 < new_threshold ∧ new_threshold < merge_threshold ∧ merge_threshold ≤ 1

def LogicalIdentityResolver.default : LogicalIdentityResolver where
  merge_threshold := MERGE_THRESHOLD
  new_threshold := NEW_IDENTITY_THRESHOLD
  tie_band := TIE_BAND
  weights := IDENTITY_SIGNAL_WEIGHTS
  thresholds_ordered := by decide +kernel

end KnowledgeCompiler.Identity
