import KnowledgeCompiler.Identity.Window
import KnowledgeCompiler.Lib.Json
import KnowledgeCompiler.Lib.Sha256
import KnowledgeCompiler.Lib.Utf8
import KnowledgeCompiler.Recompilation.Plan
import Mathlib.Data.Finset.Sort

namespace KnowledgeCompiler.Recompilation

open Lib Identity

-- `_LEVEL_ORDER`
def DiffLevel.order : DiffLevel → Nat
  | .BINARY => 0
  | .STRUCTURAL => 1
  | .EVIDENCE => 2
  | .SEMANTIC => 3
  | .GRAPH => 4

def ChangeKind.value : ChangeKind → String
  | .CONTENT_UNCHANGED => "content_unchanged"
  | .STRUCTURE_CHANGED => "structure_changed"
  | .EVIDENCE_ADDED => "evidence_added"
  | .EVIDENCE_REMOVED => "evidence_removed"
  | .EVIDENCE_MOVED => "evidence_moved"
  | .UNIT_ADDED => "unit_added"
  | .UNIT_REMOVED => "unit_removed"
  | .MODIFIED_CLAIM => "modified_claim"
  | .ENTITY_CHANGED => "entity_changed"
  | .RELATIONSHIP_ADDED => "relationship_added"
  | .RELATIONSHIP_REMOVED => "relationship_removed"
  | .AUTHORITY_CHANGED => "authority_changed"
  | .IDENTITY_UNRESOLVED => "identity_unresolved"

-- Three strings, ordered as Python orders tuples.
abbrev Relation := String ×ₗ String ×ₗ String

-- `" ".join(relation)`
def Relation.joined (relation : Relation) : String :=
  " ".intercalate [relation.1, relation.2.1, relation.2.2]

structure UnitSnapshot where
  logical_id : String
  text : String
  document_path : List String := []
  anchor : String := ""
  neighbour_anchors : List String := []
  evidence_id : Option String := none
  page_number1 : Option Int := none
  entities : Finset String := ∅
  relationships : Finset Relation := ∅
  authority : Option String := none
  explicit_identifier : String := ""
  geometry_style : String := ""

structure DocumentShape where
  heading_path_set : Finset (List String) := ∅
  block_count : Int := 0
  table_shapes : List (Int × Int) := []
  figure_refs : Finset String := ∅

-- `str(table_shapes)`, a tuple of pairs
def shown_shapes (shapes : List (Int × Int)) : String :=
  let pairs := shapes.map (fun shape => s!"({shape.1}, {shape.2})")
  "(" ++ ", ".intercalate pairs ++ (if shapes.length = 1 then ",)" else ")")

-- `f"{number}"`
def shown_page : Option Int → String
  | none => "None"
  | some number => toString number

def SemanticChange.as_record (change : SemanticChange) : Json :=
  let named := [("logical_id", change.logical_id), ("before", change.before),
    ("after", change.after), ("detail", if change.detail = "" then none else some change.detail)]
  .obj (("kind", .str change.kind.value) ::
    named.filterMap (fun entry => entry.2.map (fun value => (entry.1, .str value))) ++
    (if change.candidates = [] then []
      else [("candidates", .arr (change.candidates.map .str))]))

def _change_id (hasher : Hasher) (records : List Json) : String :=
  let encoded := Utf8.encode (Json.dumps (.arr records))
  "chg_" ++ String.ofList ((hasher.hexdigest encoded).toList.take 32)

def _DIFF_SCOPE_LINEAGE : String := "<diff-scope>"

-- The arguments of `diff_documents` other than the level.
structure Versions where
  before_sha256 : String
  after_sha256 : String
  before_shape : Option DocumentShape := none
  after_shape : Option DocumentShape := none
  before_units : List UnitSnapshot := []
  after_units : List UnitSnapshot := []
  resolver : LogicalIdentityResolver := .default
  source : String := ""

section Diff

-- `shown` is `str` on a list of strings.
variable (unicode : Unicode) (shown : List String → String) (hasher : Hasher)

def UnitSnapshot.fingerprint (unit : UnitSnapshot) (source_lineage : String) :
    LogicalUnitFingerprint :=
  .of unicode
    { logical_id := unit.logical_id
      document_path := unit.document_path
      anchor := unit.anchor
      text := unit.text
      source_lineage := source_lineage
      explicit_identifier := unit.explicit_identifier
      geometry_style := unit.geometry_style
      neighbour_anchors := unit.neighbour_anchors }

def UnitSnapshot.identity_text (unit : UnitSnapshot) : String :=
  normalize_text_for_identity unicode unit.text

def _structural_changes (before after : DocumentShape) : List SemanticChange :=
  let moved (count : Nat) (lost : Nat) := s!"{count} added, {lost} removed"
  (if before.heading_path_set ≠ after.heading_path_set then
    [{ kind := .STRUCTURE_CHANGED
       detail := "heading tree changed: " ++
        moved (after.heading_path_set \ before.heading_path_set).card
          (before.heading_path_set \ after.heading_path_set).card }] else []) ++
  (if before.block_count ≠ after.block_count then
    [{ kind := .STRUCTURE_CHANGED
       before := some (toString before.block_count)
       after := some (toString after.block_count)
       detail := "block count changed" }] else []) ++
  (if before.table_shapes ≠ after.table_shapes then
    [{ kind := .STRUCTURE_CHANGED
       before := some (shown_shapes before.table_shapes)
       after := some (shown_shapes after.table_shapes)
       detail := "table shape changed" }] else []) ++
  (if before.figure_refs ≠ after.figure_refs then
    [{ kind := .STRUCTURE_CHANGED
       detail := "figure references changed: " ++
        moved (after.figure_refs \ before.figure_refs).card
          (before.figure_refs \ after.figure_refs).card }] else [])

def _graph_changes (before after : UnitSnapshot) : List SemanticChange :=
  (if before.entities ≠ after.entities then
    [{ kind := .ENTITY_CHANGED
       logical_id := some after.logical_id
       detail := "entities changed: +" ++
        shown ((after.entities \ before.entities).sort (· ≤ ·)) ++ " -" ++
        shown ((before.entities \ after.entities).sort (· ≤ ·)) }] else []) ++
  ((after.relationships \ before.relationships).sort (· ≤ ·)).map (fun relation =>
    { kind := .RELATIONSHIP_ADDED
      logical_id := some after.logical_id
      after := some relation.joined }) ++
  ((before.relationships \ after.relationships).sort (· ≤ ·)).map (fun relation =>
    { kind := .RELATIONSHIP_REMOVED
      logical_id := some after.logical_id
      before := some relation.joined }) ++
  (if before.authority ≠ after.authority then
    [{ kind := .AUTHORITY_CHANGED
       logical_id := some after.logical_id
       before := before.authority
       after := after.authority
       detail := "a claim's authority changed, which changes how much it should be trusted" }]
    else [])

def added_change (decision : LogicalIdentityDecision) (incoming : UnitSnapshot) :
    SemanticChange where
  kind := .UNIT_ADDED
  logical_id := decision.logical_id
  after := some incoming.text

def unresolved_change (decision : LogicalIdentityDecision) : SemanticChange where
  kind := .IDENTITY_UNRESOLVED
  detail := decision.reason
  candidates := decision.candidates

def removed_change (unit : UnitSnapshot) : SemanticChange where
  kind := .UNIT_REMOVED
  logical_id := some unit.logical_id
  before := some unit.text

def moved_change (counterpart incoming : UnitSnapshot) : SemanticChange where
  kind := .EVIDENCE_MOVED
  logical_id := some counterpart.logical_id
  before := counterpart.evidence_id
  after := incoming.evidence_id
  detail :=
    if counterpart.page_number1 ≠ incoming.page_number1 then
      "page " ++ shown_page counterpart.page_number1 ++ " -> " ++ shown_page incoming.page_number1
    else "anchor changed within the same page"

-- The comparisons of a unit with the unit it continues.
def continued_changes (wanted : DiffLevel) (counterpart incoming : UnitSnapshot) :
    List SemanticChange :=
  (if counterpart.identity_text unicode ≠ incoming.identity_text unicode then
    [{ kind := .MODIFIED_CLAIM
       logical_id := some counterpart.logical_id
       before := some counterpart.text
       after := some incoming.text }] else []) ++
  (if DiffLevel.EVIDENCE.order ≤ wanted.order ∧
      (counterpart.evidence_id ≠ incoming.evidence_id ∨
        counterpart.page_number1 ≠ incoming.page_number1) then
    [moved_change counterpart incoming] else []) ++
  (if DiffLevel.GRAPH.order ≤ wanted.order then _graph_changes shown counterpart incoming else [])

-- The loop's variables.
structure Progress where
  changes : List SemanticChange
  matched_before : List String := []
  unsettled : List String := []

def compare_unit (wanted : DiffLevel) (by_logical : Dict String UnitSnapshot)
    (progress : Progress) (entry : UnitSnapshot × LogicalIdentityDecision) : Progress :=
  let incoming := entry.1
  let decision :=
    if entry.2.verdict = .NEW ∧ entry.2.logical_id = none then
      { entry.2 with logical_id := some incoming.logical_id }
    else entry.2
  match decision.verdict with
  | .AMBIGUOUS =>
      { progress with
        changes := progress.changes ++ [unresolved_change decision]
        unsettled := progress.unsettled ++ decision.candidates }
  | .NEW => { progress with changes := progress.changes ++ [added_change decision incoming] }
  | .MATCHED =>
      match by_logical.get? (decision.logical_id.getD "") with
      | none => { progress with changes := progress.changes ++ [added_change decision incoming] }
      | some counterpart =>
          { progress with
            changes := progress.changes ++ continued_changes unicode shown wanted counterpart incoming
            matched_before := progress.matched_before ++ [counterpart.logical_id] }

-- `{unit.evidence_id for unit in units if unit.evidence_id}`
def evidence_ids (units : List UnitSnapshot) : Finset String :=
  ((units.filterMap UnitSnapshot.evidence_id).filter (· ≠ "")).toFinset

def evidence_changes (before_units after_units : List UnitSnapshot) : List SemanticChange :=
  let before_ids := evidence_ids before_units
  let after_ids := evidence_ids after_units
  ((after_ids \ before_ids).sort (· ≤ ·)).map (fun evidence =>
    { kind := .EVIDENCE_ADDED, after := some evidence }) ++
  ((before_ids \ after_ids).sort (· ≤ ·)).map (fun evidence =>
    { kind := .EVIDENCE_REMOVED, before := some evidence })

variable (versions : Versions) (level : DiffLevel)

def identity_decisions : Option (List LogicalIdentityDecision) :=
  let lineage := if versions.source = "" then _DIFF_SCOPE_LINEAGE else versions.source
  versions.resolver.assign_one_to_one unicode
    (versions.after_units.map (fun unit => unit.fingerprint unicode lineage))
    (versions.before_units.map (fun unit => unit.fingerprint unicode lineage))

def semantic_changes (structural : List SemanticChange)
    (decisions : List LogicalIdentityDecision) : List SemanticChange :=
  let by_logical := Dict.ofPairs (versions.before_units.map (fun unit => (unit.logical_id, unit)))
  let progress := (versions.after_units.zip decisions).foldl
    (compare_unit unicode shown level by_logical) { changes := structural }
  let removed := versions.before_units.filter (fun unit =>
    ¬(unit.logical_id ∈ progress.matched_before ∨ unit.logical_id ∈ progress.unsettled))
  progress.changes ++ removed.map removed_change

def diff_of (content_changed : Bool) (changes : List SemanticChange) : SemanticDiff where
  level := level
  content_changed := content_changed
  changes := changes
  change_id := _change_id hasher (changes.map SemanticChange.as_record)

-- The changes above those of the structural level.
def changes_beyond (structural : List SemanticChange) : Except String (List SemanticChange) :=
  if DiffLevel.SEMANTIC.order ≤ level.order then
    match identity_decisions unicode versions with
    | none => .error "list index out of range"
    | some decisions =>
        if decisions.length ≠ versions.after_units.length then
          .error "zip() arguments have different lengths"
        else .ok (semantic_changes unicode shown versions level structural decisions)
  else if DiffLevel.EVIDENCE.order ≤ level.order then
    .ok (structural ++ evidence_changes versions.before_units versions.after_units)
  else .ok structural

def diff_documents : Except String SemanticDiff :=
  if versions.before_sha256 = versions.after_sha256 then
    .ok (diff_of hasher level false [{ kind := .CONTENT_UNCHANGED }])
  else if DiffLevel.STRUCTURAL.order ≤ level.order then
    match versions.before_shape, versions.after_shape with
    | some before, some after =>
        (changes_beyond unicode shown versions level
          (_structural_changes before after)).map (diff_of hasher level true)
    | _, _ => .error "L1 and above need a DocumentShape for both versions"
  else .ok (diff_of hasher level true [])

-- The changes of a diff that returns, as kind and logical id.
def reported : List (ChangeKind × Option String) :=
  match diff_documents unicode shown hasher versions level with
  | .ok diff => diff.changes.map (fun change => (change.kind, change.logical_id))
  | .error _ => []

theorem structural_kinds (before after : DocumentShape) {change : SemanticChange}
    (hc : change ∈ _structural_changes before after) : change.kind = .STRUCTURE_CHANGED := by
  simp only [_structural_changes, List.mem_append, List.mem_ite_nil_right, List.mem_singleton] at hc
  rcases hc with ((⟨-, rfl⟩ | ⟨-, rfl⟩) | ⟨-, rfl⟩) | ⟨-, rfl⟩ <;> rfl

-- What the loop adds for one incoming unit, whatever it found before.
def own_progress (by_logical : Dict String UnitSnapshot)
    (entry : UnitSnapshot × LogicalIdentityDecision) : Progress :=
  compare_unit unicode shown level by_logical { changes := [] } entry

theorem compare_unit_eq (by_logical : Dict String UnitSnapshot) (progress : Progress)
    (entry : UnitSnapshot × LogicalIdentityDecision) :
    compare_unit unicode shown level by_logical progress entry =
      { changes := progress.changes ++ (own_progress unicode shown level by_logical entry).changes
        matched_before := progress.matched_before ++
          (own_progress unicode shown level by_logical entry).matched_before
        unsettled := progress.unsettled ++
          (own_progress unicode shown level by_logical entry).unsettled } := by
  simp only [own_progress, compare_unit]
  generalize (if entry.2.verdict = .NEW ∧ entry.2.logical_id = none then
    { entry.2 with logical_id := some entry.1.logical_id } else entry.2) = decision
  cases decision.verdict with
  | AMBIGUOUS => simp
  | NEW => simp
  | MATCHED =>
      cases by_logical.get? (decision.logical_id.getD "") with
      | none => simp
      | some counterpart => simp

theorem foldl_compare_unit (by_logical : Dict String UnitSnapshot)
    (entries : List (UnitSnapshot × LogicalIdentityDecision)) (progress : Progress) :
    entries.foldl (compare_unit unicode shown level by_logical) progress =
      { changes := progress.changes ++
          entries.flatMap (fun entry => (own_progress unicode shown level by_logical entry).changes)
        matched_before := progress.matched_before ++ entries.flatMap (fun entry =>
          (own_progress unicode shown level by_logical entry).matched_before)
        unsettled := progress.unsettled ++ entries.flatMap (fun entry =>
          (own_progress unicode shown level by_logical entry).unsettled) } := by
  induction entries generalizing progress with
  | nil => simp
  | cons entry rest ih =>
      rw [List.foldl_cons, ih, compare_unit_eq]
      simp

-- The assignment is total, and it decides every incoming unit.
theorem exists_identity_decisions : ∃ decisions,
    identity_decisions unicode versions = some decisions ∧
      decisions.length = versions.after_units.length := by
  obtain ⟨_, decisions, -, -, hassign, hlength, -⟩ :=
    versions.resolver.assign_one_to_one_rows unicode
      (versions.after_units.map (fun unit => unit.fingerprint unicode
        (if versions.source = "" then _DIFF_SCOPE_LINEAGE else versions.source)))
      (versions.before_units.map (fun unit => unit.fingerprint unicode
        (if versions.source = "" then _DIFF_SCOPE_LINEAGE else versions.source)))
  exact ⟨decisions, hassign, by simpa using hlength⟩

theorem diff_semantic (hchanged : versions.before_sha256 ≠ versions.after_sha256)
    {before after : DocumentShape} (hbefore : versions.before_shape = some before)
    (hafter : versions.after_shape = some after) {decisions : List LogicalIdentityDecision}
    (hlevel : DiffLevel.SEMANTIC.order ≤ level.order)
    (hdecisions : identity_decisions unicode versions = some decisions)
    (hlength : decisions.length = versions.after_units.length) :
    diff_documents unicode shown hasher versions level =
      .ok (diff_of hasher level true (semantic_changes unicode shown versions level
        (_structural_changes before after) decisions)) := by
  have hstructural : DiffLevel.STRUCTURAL.order ≤ level.order :=
    le_trans (by decide) hlevel
  simp [diff_documents, hchanged, hbefore, hafter, changes_beyond, hlevel, hstructural, hdecisions,
    hlength, Except.map]

end Diff

-- `str` on a list of strings that need no escape.
def shown_plain (names : List String) : String :=
  "[" ++ ", ".intercalate (names.map (fun name => "'" ++ name ++ "'")) ++ "]"

end KnowledgeCompiler.Recompilation
