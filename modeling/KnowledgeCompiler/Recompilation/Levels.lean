import KnowledgeCompiler.Recompilation.SemanticDiff

namespace KnowledgeCompiler.Recompilation

open Lib Identity

variable (unicode : Unicode) (shown : List String → String) (hasher : Hasher)

-- A change as a diff reports it.
def SemanticChange.head (change : SemanticChange) : ChangeKind × Option String :=
  (change.kind, change.logical_id)

-- Raising the level hides nothing.
def LevelsMonotone : Prop :=
  ∀ (versions : Versions) (first second : DiffLevel), first.order ≤ second.order →
    reported unicode shown hasher versions first ⊆ reported unicode shown hasher versions second

-- The evidence level reports anchors that came or went, and the levels above it
-- take another branch.
def AnchorsHidden (versions : Versions) (first second : DiffLevel) : Prop :=
  first = .EVIDENCE ∧ DiffLevel.SEMANTIC.order ≤ second.order ∧
    versions.before_sha256 ≠ versions.after_sha256 ∧ versions.before_shape.isSome ∧
    versions.after_shape.isSome ∧
    evidence_ids versions.before_units ≠ evidence_ids versions.after_units

section Kinds

-- The kinds of the semantic and the graph level.
def ChangeKind.IsUnitKind (kind : ChangeKind) : Prop :=
  kind ≠ .EVIDENCE_ADDED ∧ kind ≠ .EVIDENCE_REMOVED

theorem graph_kinds (before after : UnitSnapshot) {change : SemanticChange}
    (hc : change ∈ _graph_changes shown before after) : change.kind.IsUnitKind := by
  simp only [_graph_changes, List.mem_append, List.mem_ite_nil_right, List.mem_singleton,
    List.mem_map] at hc
  rcases hc with ((⟨-, rfl⟩ | ⟨_, -, rfl⟩) | ⟨_, -, rfl⟩) | ⟨-, rfl⟩ <;>
    exact ⟨ChangeKind.noConfusion, ChangeKind.noConfusion⟩

theorem continued_kinds (level : DiffLevel) (counterpart incoming : UnitSnapshot)
    {change : SemanticChange}
    (hc : change ∈ continued_changes unicode shown level counterpart incoming) :
    change.kind.IsUnitKind := by
  simp only [continued_changes, List.mem_append, List.mem_ite_nil_right, List.mem_singleton] at hc
  rcases hc with (⟨-, rfl⟩ | ⟨-, rfl⟩) | ⟨-, hgraph⟩
  · exact ⟨ChangeKind.noConfusion, ChangeKind.noConfusion⟩
  · exact ⟨ChangeKind.noConfusion, ChangeKind.noConfusion⟩
  · exact graph_kinds shown counterpart incoming hgraph

theorem own_kinds (level : DiffLevel) (by_logical : Dict String UnitSnapshot)
    (entry : UnitSnapshot × LogicalIdentityDecision) {change : SemanticChange}
    (hc : change ∈ (own_progress unicode shown level by_logical entry).changes) :
    change.kind.IsUnitKind := by
  simp only [own_progress, compare_unit] at hc
  generalize (if entry.2.verdict = .NEW ∧ entry.2.logical_id = none then
    { entry.2 with logical_id := some entry.1.logical_id } else entry.2) = decision at hc
  cases hverdict : decision.verdict with
  | AMBIGUOUS =>
      simp only [hverdict, List.nil_append, List.mem_singleton] at hc
      rw [hc]
      exact ⟨ChangeKind.noConfusion, ChangeKind.noConfusion⟩
  | NEW =>
      simp only [hverdict, List.nil_append, List.mem_singleton] at hc
      rw [hc]
      exact ⟨ChangeKind.noConfusion, ChangeKind.noConfusion⟩
  | MATCHED =>
      cases hcounterpart : by_logical.get? (decision.logical_id.getD "") with
      | none =>
          simp only [hverdict, hcounterpart, List.nil_append, List.mem_singleton] at hc
          rw [hc]
          exact ⟨ChangeKind.noConfusion, ChangeKind.noConfusion⟩
      | some counterpart =>
          simp only [hverdict, hcounterpart, List.nil_append] at hc
          exact continued_kinds unicode shown level counterpart entry.1 hc

variable (versions : Versions)

theorem semantic_kinds (level : DiffLevel) (before after : DocumentShape)
    (decisions : List LogicalIdentityDecision) {change : SemanticChange}
    (hc : change ∈ semantic_changes unicode shown versions level
      (_structural_changes before after) decisions) : change.kind.IsUnitKind := by
  simp only [semantic_changes, foldl_compare_unit, List.mem_append, List.mem_flatMap,
    List.mem_map] at hc
  rcases hc with (hstructural | ⟨entry, -, hown⟩) | ⟨unit, -, rfl⟩
  · rw [structural_kinds before after hstructural]
    exact ⟨ChangeKind.noConfusion, ChangeKind.noConfusion⟩
  · exact own_kinds unicode shown level _ entry hown
  · exact ⟨ChangeKind.noConfusion, ChangeKind.noConfusion⟩

end Kinds

section Raising

variable (versions : Versions)

-- The graph level only appends to what the semantic level says of a unit.
theorem own_progress_graph (by_logical : Dict String UnitSnapshot)
    (entry : UnitSnapshot × LogicalIdentityDecision) :
    let semantic := own_progress unicode shown .SEMANTIC by_logical entry
    let graph := own_progress unicode shown .GRAPH by_logical entry
    semantic.changes ⊆ graph.changes ∧ semantic.matched_before = graph.matched_before ∧
      semantic.unsettled = graph.unsettled := by
  simp only [own_progress, compare_unit]
  generalize (if entry.2.verdict = .NEW ∧ entry.2.logical_id = none then
    { entry.2 with logical_id := some entry.1.logical_id } else entry.2) = decision
  cases decision.verdict with
  | AMBIGUOUS => simp
  | NEW => simp
  | MATCHED =>
      cases by_logical.get? (decision.logical_id.getD "") with
      | none => simp
      | some counterpart => simp [continued_changes, DiffLevel.order]

theorem semantic_subset_graph (structural : List SemanticChange)
    (decisions : List LogicalIdentityDecision) :
    semantic_changes unicode shown versions .SEMANTIC structural decisions ⊆
      semantic_changes unicode shown versions .GRAPH structural decisions := by
  have hown := fun entry => own_progress_graph unicode shown
    (Dict.ofPairs (versions.before_units.map (fun unit => (unit.logical_id, unit)))) entry
  simp only [semantic_changes, foldl_compare_unit]
  simp only [(hown _).2.1, (hown _).2.2]
  intro change hc
  simp only [List.mem_append, List.mem_flatMap] at hc ⊢
  rcases hc with (hstructural | ⟨entry, hentry, hchange⟩) | hremoved
  · exact .inl (.inl hstructural)
  · exact .inl (.inr ⟨entry, hentry, (hown entry).1 hchange⟩)
  · exact .inr hremoved

theorem structural_subset_semantic (level : DiffLevel) (structural : List SemanticChange)
    (decisions : List LogicalIdentityDecision) :
    structural ⊆ semantic_changes unicode shown versions level structural decisions := by
  intro change hc
  simp only [semantic_changes, foldl_compare_unit, List.mem_append]
  exact .inl (.inl hc)

end Raising

section Evidence

theorem evidence_changes_of_eq (before_units after_units : List UnitSnapshot)
    (hids : evidence_ids before_units = evidence_ids after_units) :
    evidence_changes before_units after_units = [] := by
  simp [evidence_changes, hids]

-- Anchors that differ are reported, under a kind no higher level knows.
theorem exists_evidence_change (before_units after_units : List UnitSnapshot)
    (hids : evidence_ids before_units ≠ evidence_ids after_units) :
    ∃ change ∈ evidence_changes before_units after_units, ¬change.kind.IsUnitKind := by
  rw [Ne, Finset.ext_iff, not_forall] at hids
  obtain ⟨evidence, hdiffer⟩ := hids
  by_cases hbefore : evidence ∈ evidence_ids before_units
  · have hafter : evidence ∉ evidence_ids after_units := by tauto
    refine ⟨{ kind := .EVIDENCE_REMOVED, before := some evidence }, ?_, fun hkind => hkind.2 rfl⟩
    simp [evidence_changes, hbefore, hafter]
  · have hafter : evidence ∈ evidence_ids after_units := by tauto
    refine ⟨{ kind := .EVIDENCE_ADDED, after := some evidence }, ?_, fun hkind => hkind.1 rfl⟩
    simp [evidence_changes, hbefore, hafter]

end Evidence

section Reported

variable (versions : Versions)

theorem reported_same (level : DiffLevel) (hsame : versions.before_sha256 = versions.after_sha256) :
    reported unicode shown hasher versions level = [(.CONTENT_UNCHANGED, none)] := by
  simp [reported, diff_documents, hsame, diff_of]

variable (hchanged : versions.before_sha256 ≠ versions.after_sha256)

include hchanged

theorem reported_binary : reported unicode shown hasher versions .BINARY = [] := by
  simp [reported, diff_documents, hchanged, diff_of, DiffLevel.order]

theorem reported_unshaped (level : DiffLevel)
    (hshape : versions.before_shape = none ∨ versions.after_shape = none) :
    reported unicode shown hasher versions level = [] := by
  by_cases hlevel : DiffLevel.STRUCTURAL.order ≤ level.order
  · rcases hshape with hshape | hshape <;>
      simp [reported, diff_documents, hchanged, hlevel, hshape]
  · simp [reported, diff_documents, hchanged, hlevel, diff_of]

variable {before after : DocumentShape} (hbefore : versions.before_shape = some before)
  (hafter : versions.after_shape = some after)

include hbefore hafter

theorem reported_structural : reported unicode shown hasher versions .STRUCTURAL =
    (_structural_changes before after).map SemanticChange.head := by
  simp [reported, diff_documents, hchanged, hbefore, hafter, diff_of, changes_beyond,
    DiffLevel.order, Except.map, SemanticChange.head]

theorem reported_evidence : reported unicode shown hasher versions .EVIDENCE =
    (_structural_changes before after ++
      evidence_changes versions.before_units versions.after_units).map SemanticChange.head := by
  simp only [reported, diff_documents, hchanged, hbefore, hafter, changes_beyond, DiffLevel.order]
  rfl

theorem reported_semantic {decisions : List LogicalIdentityDecision} (level : DiffLevel)
    (hlevel : DiffLevel.SEMANTIC.order ≤ level.order)
    (hdecisions : identity_decisions unicode versions = some decisions)
    (hlength : decisions.length = versions.after_units.length) :
    reported unicode shown hasher versions level =
      (semantic_changes unicode shown versions level
        (_structural_changes before after) decisions).map SemanticChange.head := by
  simp only [reported, diff_semantic unicode shown hasher versions level hchanged hbefore hafter
    hlevel hdecisions hlength]
  rfl

theorem anchors_hidden_not_subset (second : DiffLevel)
    (hsecond : DiffLevel.SEMANTIC.order ≤ second.order)
    (hids : evidence_ids versions.before_units ≠ evidence_ids versions.after_units) :
    ¬reported unicode shown hasher versions .EVIDENCE ⊆
      reported unicode shown hasher versions second := by
  obtain ⟨decisions, hdecisions, hlength⟩ := exists_identity_decisions unicode versions
  obtain ⟨change, hchange, hkind⟩ :=
    exists_evidence_change versions.before_units versions.after_units hids
  rw [reported_evidence unicode shown hasher versions hchanged hbefore hafter,
    reported_semantic unicode shown hasher versions hchanged hbefore hafter second hsecond
      hdecisions hlength]
  intro hsubset
  obtain ⟨other, hother, hhead⟩ :=
    List.mem_map.mp (hsubset (List.mem_map_of_mem (List.mem_append_right _ hchange)))
  have hsame : other.kind = change.kind := congrArg Prod.fst hhead
  exact hkind (hsame ▸ semantic_kinds unicode shown versions second before after decisions hother)

theorem reported_subset_of_shapes (first second : DiffLevel) (hle : first.order ≤ second.order)
    (hseen : first = .EVIDENCE → DiffLevel.SEMANTIC.order ≤ second.order →
      evidence_ids versions.before_units = evidence_ids versions.after_units) :
    reported unicode shown hasher versions first ⊆
      reported unicode shown hasher versions second := by
  obtain ⟨decisions, hdecisions, hlength⟩ := exists_identity_decisions unicode versions
  have hstructural := reported_structural unicode shown hasher versions hchanged hbefore hafter
  have hevidence := reported_evidence unicode shown hasher versions hchanged hbefore hafter
  have hsemantic := fun level hlevel => reported_semantic unicode shown hasher versions hchanged
    hbefore hafter level hlevel hdecisions hlength
  have hbeyond : ∀ level, DiffLevel.SEMANTIC.order ≤ level.order →
      (_structural_changes before after).map SemanticChange.head ⊆
        reported unicode shown hasher versions level := fun level hlevel => by
    rw [hsemantic level hlevel]
    exact List.map_subset _ (structural_subset_semantic unicode shown versions level _ decisions)
  cases first with
  | BINARY =>
      rw [reported_binary unicode shown hasher versions hchanged]
      exact List.nil_subset _
  | STRUCTURAL =>
      rw [hstructural]
      cases second with
      | BINARY => exact absurd hle (by decide)
      | STRUCTURAL => exact hstructural ▸ List.Subset.refl _
      | EVIDENCE =>
          rw [hevidence]
          exact List.map_subset _ (List.subset_append_left _ _)
      | SEMANTIC => exact hbeyond .SEMANTIC (by decide)
      | GRAPH => exact hbeyond .GRAPH (by decide)
  | EVIDENCE =>
      cases second with
      | BINARY => exact absurd hle (by decide)
      | STRUCTURAL => exact absurd hle (by decide)
      | EVIDENCE => exact List.Subset.refl _
      | SEMANTIC =>
          rw [hevidence, evidence_changes_of_eq _ _ (hseen rfl (by decide)), List.append_nil]
          exact hbeyond .SEMANTIC (by decide)
      | GRAPH =>
          rw [hevidence, evidence_changes_of_eq _ _ (hseen rfl (by decide)), List.append_nil]
          exact hbeyond .GRAPH (by decide)
  | SEMANTIC =>
      cases second with
      | BINARY => exact absurd hle (by decide)
      | STRUCTURAL => exact absurd hle (by decide)
      | EVIDENCE => exact absurd hle (by decide)
      | SEMANTIC => exact List.Subset.refl _
      | GRAPH =>
          rw [hsemantic .SEMANTIC (by decide), hsemantic .GRAPH (by decide)]
          exact List.map_subset _ (semantic_subset_graph unicode shown versions _ decisions)
  | GRAPH =>
      cases second with
      | BINARY => exact absurd hle (by decide)
      | STRUCTURAL => exact absurd hle (by decide)
      | EVIDENCE => exact absurd hle (by decide)
      | SEMANTIC => exact absurd hle (by decide)
      | GRAPH => exact List.Subset.refl _

end Reported

-- Exactly the anchors that the evidence level reports get lost above it.
theorem levels_monotone_iff (versions : Versions) (first second : DiffLevel)
    (hle : first.order ≤ second.order) :
    reported unicode shown hasher versions first ⊆ reported unicode shown hasher versions second ↔
      ¬AnchorsHidden versions first second := by
  by_cases hsame : versions.before_sha256 = versions.after_sha256
  · rw [reported_same unicode shown hasher versions first hsame,
      reported_same unicode shown hasher versions second hsame]
    simp [AnchorsHidden, hsame]
  · cases hbefore : versions.before_shape with
    | none =>
        rw [reported_unshaped unicode shown hasher versions hsame first (.inl hbefore)]
        simp [AnchorsHidden, hbefore]
    | some before =>
        cases hafter : versions.after_shape with
        | none =>
            rw [reported_unshaped unicode shown hasher versions hsame first (.inr hafter)]
            simp [AnchorsHidden, hafter]
        | some after =>
            refine ⟨?_, fun hseen => ?_⟩
            · rintro hsubset ⟨rfl, hsecond, -, -, -, hids⟩
              exact anchors_hidden_not_subset unicode shown hasher versions hsame hbefore hafter
                second hsecond hids hsubset
            · refine reported_subset_of_shapes unicode shown hasher versions hsame hbefore hafter
                first second hle (fun hfirst hsecond => ?_)
              by_contra hids
              exact hseen ⟨hfirst, hsecond, hsame, by simp [hbefore], by simp [hafter], hids⟩

-- A document whose only unit was anchored between the two versions.
def newly_anchored : Versions where
  before_sha256 := "before"
  after_sha256 := "after"
  before_shape := some { block_count := 1 }
  after_shape := some { block_count := 1 }
  before_units := [{ logical_id := "ku_terms", text := "warranty: two years" }]
  after_units :=
    [{ logical_id := "ku_terms", text := "warranty: two years", evidence_id := some "ev_1" }]

theorem levels_monotone_newly_anchored :
    reported .ascii shown_plain sha256 newly_anchored .STRUCTURAL ⊆
        reported .ascii shown_plain sha256 newly_anchored .GRAPH ↔
      ¬AnchorsHidden newly_anchored .STRUCTURAL .GRAPH :=
  levels_monotone_iff .ascii shown_plain sha256 newly_anchored .STRUCTURAL .GRAPH (by decide)

theorem raising_the_level_hides_anchors : ¬LevelsMonotone .ascii shown_plain sha256 := by
  intro hmonotone
  refine anchors_hidden_not_subset .ascii shown_plain sha256 newly_anchored (by decide) rfl rfl
    .SEMANTIC (by decide) (fun hids => ?_) (hmonotone newly_anchored .EVIDENCE .SEMANTIC (by decide))
  have hmem : "ev_1" ∈ evidence_ids newly_anchored.after_units := by decide
  rw [← hids] at hmem
  exact absurd hmem (by decide)

end KnowledgeCompiler.Recompilation
