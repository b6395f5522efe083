import KnowledgeCompiler.Recompilation.SemanticDiff

namespace KnowledgeCompiler.Recompilation

open Lib Identity

-- Where the loop leaves an incoming unit.
inductive Standing
  | matched (counterpart : UnitSnapshot)
  | added
  | unresolved (candidates : List String)

namespace Standing

def counterpart : Standing → Option UnitSnapshot
  | .matched unit => some unit
  | _ => none

def candidates : Standing → Option (List String)
  | .unresolved names => some names
  | _ => none

def isAdded : Standing → Bool
  | .added => true
  | _ => false

end Standing

def standing_of (by_logical : Dict String UnitSnapshot) (decision : LogicalIdentityDecision) :
    Standing :=
  match decision.verdict with
  | .AMBIGUOUS => .unresolved decision.candidates
  | .NEW => .added
  | .MATCHED =>
      match by_logical.get? (decision.logical_id.getD "") with
      | none => .added
      | some counterpart => .matched counterpart

def Versions.by_logical (versions : Versions) : Dict String UnitSnapshot :=
  .ofPairs (versions.before_units.map (fun unit => (unit.logical_id, unit)))

-- The standing of every incoming unit, in order.
def standings (versions : Versions) (decisions : List LogicalIdentityDecision) : List Standing :=
  decisions.map (standing_of versions.by_logical)

def ExactlyOne (first second third : Prop) : Prop :=
  (first ∧ ¬second ∧ ¬third) ∨ (¬first ∧ second ∧ ¬third) ∨ (¬first ∧ ¬second ∧ third)

-- The diff accounts for every unit of both versions.
structure Accounts (versions : Versions) (diff : SemanticDiff) (standings : List Standing) :
    Prop where
  one_each : standings.length = versions.after_units.length
  added_reported :
    (diff.changes.filter (fun change => change.kind = .UNIT_ADDED)).map SemanticChange.after =
      ((versions.after_units.zip standings).filter (fun entry => entry.2.isAdded)).map
        (fun entry => some entry.1.text)
  unresolved_reported :
    diff.unresolved.map SemanticChange.candidates = standings.filterMap Standing.candidates
  before_accounted : ∀ unit ∈ versions.before_units,
    ExactlyOne (.matched unit ∈ standings) (unit.logical_id ∈ diff.unresolved_candidates)
      (∃ change ∈ diff.changes,
        change.kind = .UNIT_REMOVED ∧ change.logical_id = some unit.logical_id)
  settled_only : ∀ id ∈ diff.changed_logical_ids, ∃ change ∈ diff.changes,
    change.kind ≠ .IDENTITY_UNRESOLVED ∧ change.logical_id = some id

section Own

variable (unicode : Unicode) (shown : List String → String) (by_logical : Dict String UnitSnapshot)
  (incoming : UnitSnapshot) (decision : LogicalIdentityDecision)

-- Naming a new unit leaves it new.
theorem own_progress_eq (level : DiffLevel) :
    own_progress unicode shown level by_logical (incoming, decision) =
      match standing_of by_logical decision with
      | .unresolved candidates =>
          { changes := [unresolved_change decision], unsettled := candidates }
      | .added =>
          let named := if decision.verdict = .NEW ∧ decision.logical_id = none then
            { decision with logical_id := some incoming.logical_id } else decision
          { changes := [added_change named incoming] }
      | .matched counterpart =>
          { changes := continued_changes unicode shown level counterpart incoming
            matched_before := [counterpart.logical_id] } := by
  simp only [own_progress, compare_unit, standing_of]
  cases hverdict : decision.verdict with
  | AMBIGUOUS => simp [hverdict]
  | NEW =>
      cases hid : decision.logical_id with
      | none => simp
      | some id => simp [hverdict]
  | MATCHED =>
      cases hcounterpart : by_logical.get? (decision.logical_id.getD "") with
      | none => simp [hverdict, hcounterpart]
      | some counterpart => simp [hverdict, hcounterpart]

theorem continued_changes_kinds (counterpart : UnitSnapshot) {change : SemanticChange}
    (hc : change ∈ continued_changes unicode shown .SEMANTIC counterpart incoming) :
    change.kind = .MODIFIED_CLAIM ∨ change.kind = .EVIDENCE_MOVED := by
  simp only [continued_changes, List.mem_append, List.mem_ite_nil_right, List.mem_singleton] at hc
  rcases hc with (⟨-, rfl⟩ | ⟨-, rfl⟩) | ⟨hgraph, -⟩
  · exact .inl rfl
  · exact .inr rfl
  · exact absurd hgraph (by decide)

end Own

section Loop

variable (unicode : Unicode) (shown : List String → String) (by_logical : Dict String UnitSnapshot)

-- The loop's variables after a list of entries, read off the standings.
theorem matched_before_of_standings (entries : List (UnitSnapshot × LogicalIdentityDecision)) :
    entries.flatMap (fun entry =>
        (own_progress unicode shown .SEMANTIC by_logical entry).matched_before) =
      (entries.filterMap (fun entry => (standing_of by_logical entry.2).counterpart)).map
        UnitSnapshot.logical_id := by
  induction entries with
  | nil => rfl
  | cons entry rest ih =>
      rw [List.flatMap_cons, ih, own_progress_eq unicode shown by_logical entry.1 entry.2]
      cases hstanding : standing_of by_logical entry.2 <;>
        simp [hstanding, Standing.counterpart]

theorem unsettled_of_standings (entries : List (UnitSnapshot × LogicalIdentityDecision)) :
    entries.flatMap (fun entry =>
        (own_progress unicode shown .SEMANTIC by_logical entry).unsettled) =
      (entries.filterMap (fun entry => (standing_of by_logical entry.2).candidates)).flatten := by
  induction entries with
  | nil => rfl
  | cons entry rest ih =>
      rw [List.flatMap_cons, ih, own_progress_eq unicode shown by_logical entry.1 entry.2]
      cases hstanding : standing_of by_logical entry.2 <;>
        simp [hstanding, Standing.candidates]

theorem continued_filter (kind : ChangeKind) (hkind : kind ≠ .MODIFIED_CLAIM ∧ kind ≠ .EVIDENCE_MOVED)
    (counterpart incoming : UnitSnapshot) :
    (continued_changes unicode shown .SEMANTIC counterpart incoming).filter
      (fun change => change.kind = kind) = [] := by
  refine List.filter_eq_nil_iff.mpr (fun change hc h => ?_)
  rcases continued_changes_kinds unicode shown incoming counterpart hc with he | he
  · exact hkind.1 ((of_decide_eq_true h).symm.trans he)
  · exact hkind.2 ((of_decide_eq_true h).symm.trans he)

theorem added_of_standings (entries : List (UnitSnapshot × LogicalIdentityDecision)) :
    ((entries.flatMap (fun entry =>
        (own_progress unicode shown .SEMANTIC by_logical entry).changes)).filter
          (fun change => change.kind = .UNIT_ADDED)).map SemanticChange.after =
      (entries.filter (fun entry => (standing_of by_logical entry.2).isAdded)).map
        (fun entry => some entry.1.text) := by
  induction entries with
  | nil => rfl
  | cons entry rest ih =>
      rw [List.flatMap_cons, List.filter_append, List.map_append, ih,
        own_progress_eq unicode shown by_logical entry.1 entry.2]
      cases hstanding : standing_of by_logical entry.2 with
      | matched counterpart =>
          simp [hstanding, Standing.isAdded, continued_filter]
      | added => simp [hstanding, Standing.isAdded, added_change]
      | unresolved candidates => simp [hstanding, Standing.isAdded, unresolved_change]

theorem unresolved_of_standings (entries : List (UnitSnapshot × LogicalIdentityDecision)) :
    ((entries.flatMap (fun entry =>
        (own_progress unicode shown .SEMANTIC by_logical entry).changes)).filter
          (fun change => change.kind = .IDENTITY_UNRESOLVED)).map SemanticChange.candidates =
      entries.filterMap (fun entry => (standing_of by_logical entry.2).candidates) := by
  induction entries with
  | nil => rfl
  | cons entry rest ih =>
      rw [List.flatMap_cons, List.filter_append, List.map_append, ih,
        own_progress_eq unicode shown by_logical entry.1 entry.2]
      cases hstanding : standing_of by_logical entry.2 with
      | matched counterpart => simp [hstanding, Standing.candidates, continued_filter]
      | added => simp [hstanding, Standing.candidates, added_change]
      | unresolved candidates =>
          have hcandidates : candidates = entry.2.candidates := by
            unfold standing_of at hstanding
            split at hstanding
            · exact (Standing.unresolved.inj hstanding).symm
            · cases hstanding
            · split at hstanding <;> cases hstanding
          simp [hstanding, Standing.candidates, unresolved_change, hcandidates]

end Loop

section Before

variable (unicode : Unicode) (versions : Versions)

theorem by_logical_eq_some (hids : (versions.before_units.map UnitSnapshot.logical_id).Nodup)
    (id : String) (unit : UnitSnapshot) :
    versions.by_logical.get? id = some unit ↔ unit ∈ versions.before_units ∧ unit.logical_id = id := by
  have hentries : versions.by_logical.entries =
      versions.before_units.map (fun unit => (unit.logical_id, unit)) :=
    Dict.entries_ofPairs _ (by simpa [Function.comp_def] using hids)
  rw [← Dict.mem_entries_iff, hentries, List.mem_map]
  constructor
  · rintro ⟨other, hother, hpair⟩
    obtain ⟨rfl, rfl⟩ := Prod.mk.inj hpair
    exact ⟨hother, rfl⟩
  · rintro ⟨hunit, rfl⟩
    exact ⟨unit, hunit, rfl⟩

-- What the identity assignment promises the loop.
structure Settled (decisions : List LogicalIdentityDecision) : Prop where
  continued : ∀ decision ∈ decisions, decision.verdict = .MATCHED →
    ∃ unit ∈ versions.before_units, decision.logical_id = some unit.logical_id
  unclaimed : ∀ decision ∈ decisions, decision.verdict = .AMBIGUOUS →
    ∀ id ∈ decision.candidates, ∀ other ∈ decisions, other.verdict = .MATCHED →
      other.logical_id ≠ some id

theorem exists_settled_decisions
    (hids : (versions.before_units.map UnitSnapshot.logical_id).Nodup) :
    ∃ decisions, identity_decisions unicode versions = some decisions ∧
      decisions.length = versions.after_units.length ∧ Settled versions decisions := by
  let lineage := if versions.source = "" then _DIFF_SCOPE_LINEAGE else versions.source
  obtain ⟨decisions, hassign, hlength, hcontinued, hunclaimed⟩ :=
    versions.resolver.assign_one_to_one_settled unicode
      (versions.after_units.map (fun unit => unit.fingerprint unicode lineage))
      (versions.before_units.map (fun unit => unit.fingerprint unicode lineage))
      (by simpa [Function.comp_def, UnitSnapshot.fingerprint, LogicalUnitFingerprint.of] using hids)
  refine ⟨decisions, hassign, by simpa using hlength, ?_, ?_⟩
  · intro decision hd hm
    obtain ⟨print, hprint, hid⟩ := hcontinued decision hd hm
    obtain ⟨unit, hunit, rfl⟩ := List.mem_map.mp hprint
    exact ⟨unit, hunit, hid⟩
  · intro decision hd hm id hid
    exact (hunclaimed decision hd hm id hid).2

variable {versions} {decisions : List LogicalIdentityDecision}
  (hids : (versions.before_units.map UnitSnapshot.logical_id).Nodup)

include hids

theorem matched_mem_standings {unit : UnitSnapshot} (hmatched : .matched unit ∈ standings versions decisions) :
    unit ∈ versions.before_units ∧ ∃ decision ∈ decisions, decision.verdict = .MATCHED ∧
      unit.logical_id = decision.logical_id.getD "" := by
  obtain ⟨decision, hd, hstanding⟩ := List.mem_map.mp hmatched
  unfold standing_of at hstanding
  cases hverdict : decision.verdict with
  | AMBIGUOUS => simp [hverdict] at hstanding
  | NEW => simp [hverdict] at hstanding
  | MATCHED =>
      cases hget : versions.by_logical.get? (decision.logical_id.getD "") with
      | none => simp [hverdict, hget] at hstanding
      | some counterpart =>
          simp only [hverdict, hget, Standing.matched.injEq] at hstanding
          obtain ⟨hunit, hid⟩ := (by_logical_eq_some versions hids _ _).mp hget
          exact ⟨hstanding ▸ hunit, decision, hd, hverdict, hstanding ▸ hid⟩

theorem matched_iff {unit : UnitSnapshot} (hunit : unit ∈ versions.before_units) :
    .matched unit ∈ standings versions decisions ↔
      unit.logical_id ∈ ((standings versions decisions).filterMap Standing.counterpart).map
        UnitSnapshot.logical_id := by
  simp only [List.mem_map, List.mem_filterMap]
  constructor
  · intro hmatched
    exact ⟨unit, ⟨_, hmatched, rfl⟩, rfl⟩
  · rintro ⟨other, ⟨standing, hstanding, hcounterpart⟩, hid⟩
    cases standing with
    | matched counterpart =>
        obtain rfl := Option.some.inj hcounterpart
        have hother := (matched_mem_standings hids hstanding).1
        have hsame := List.inj_on_of_nodup_map hids hother hunit hid
        exact hsame ▸ hstanding
    | added => cases hcounterpart
    | unresolved candidates => cases hcounterpart

theorem matched_not_candidate (hsettled : Settled versions decisions) {unit : UnitSnapshot}
    (hmatched : .matched unit ∈ standings versions decisions) :
    unit.logical_id ∉ ((standings versions decisions).filterMap Standing.candidates).flatten := by
  intro hcandidate
  obtain ⟨names, hnames, hid⟩ := List.mem_flatten.mp hcandidate
  obtain ⟨standing, hstanding, hcandidates⟩ := List.mem_filterMap.mp hnames
  obtain ⟨decision, hd, rfl⟩ := List.mem_map.mp hstanding
  obtain ⟨-, other, hother, hverdict, hunit⟩ := matched_mem_standings hids hmatched
  obtain ⟨continued, -, hlogical⟩ := hsettled.continued other hother hverdict
  rw [hlogical, Option.getD_some] at hunit
  have hambiguous : decision.verdict = .AMBIGUOUS ∧ names = decision.candidates := by
    unfold standing_of at hcandidates
    split at hcandidates
    · rename_i hverdict
      exact ⟨hverdict, (Option.some.inj hcandidates).symm⟩
    · cases hcandidates
    · split at hcandidates <;> cases hcandidates
  exact hsettled.unclaimed decision hd hambiguous.1 unit.logical_id (hambiguous.2 ▸ hid) other hother
    hverdict (by rw [hlogical, hunit])

end Before

section Accounts

variable (unicode : Unicode) (shown : List String → String) (hasher : Hasher) (versions : Versions)

theorem filter_structural (kind : ChangeKind) (hkind : kind ≠ .STRUCTURE_CHANGED)
    (before after : DocumentShape) :
    (_structural_changes before after).filter (fun change => change.kind = kind) = [] := by
  refine List.filter_eq_nil_iff.mpr (fun change hc h => hkind ?_)
  exact (of_decide_eq_true h).symm.trans (structural_kinds before after hc)

theorem filter_removed (kind : ChangeKind) (hkind : kind ≠ .UNIT_REMOVED) (units : List UnitSnapshot) :
    (units.map removed_change).filter (fun change => change.kind = kind) = [] := by
  refine List.filter_eq_nil_iff.mpr (fun change hc h => hkind ?_)
  obtain ⟨unit, -, rfl⟩ := List.mem_map.mp hc
  exact (of_decide_eq_true h).symm

theorem own_not_removed (by_logical : Dict String UnitSnapshot)
    (entry : UnitSnapshot × LogicalIdentityDecision) {change : SemanticChange}
    (hc : change ∈ (own_progress unicode shown .SEMANTIC by_logical entry).changes) :
    change.kind ≠ .UNIT_REMOVED := by
  rw [own_progress_eq unicode shown by_logical entry.1 entry.2] at hc
  cases hstanding : standing_of by_logical entry.2 with
  | matched counterpart =>
      simp only [hstanding] at hc
      rcases continued_changes_kinds unicode shown entry.1 counterpart hc with he | he <;> simp [he]
  | added =>
      simp only [hstanding, List.mem_singleton] at hc
      simp [hc, added_change]
  | unresolved candidates =>
      simp only [hstanding, List.mem_singleton] at hc
      simp [hc, unresolved_change]

theorem changed_logical_ids_settled (diff : SemanticDiff) {id : String}
    (hid : id ∈ diff.changed_logical_ids) : ∃ change ∈ diff.changes,
      change.kind ≠ .IDENTITY_UNRESOLVED ∧ change.logical_id = some id := by
  simp only [SemanticDiff.changed_logical_ids, mem_fromkeys, List.mem_filterMap,
    List.mem_filter, decide_eq_true_eq] at hid
  obtain ⟨change, ⟨hchange, hkind⟩, hname⟩ := hid
  exact ⟨change, hchange, hkind, (Option.filter_eq_some_iff.mp hname).1⟩

variable {versions}

theorem zip_standings {decisions : List LogicalIdentityDecision} {β : Type}
    (hlength : decisions.length = versions.after_units.length) (read : Standing → Option β) :
    (versions.after_units.zip decisions).filterMap
        (fun entry => read (standing_of versions.by_logical entry.2)) =
      (standings versions decisions).filterMap read := by
  have hsnd : (versions.after_units.zip decisions).map Prod.snd = decisions :=
    List.map_snd_zip (by omega)
  rw [standings, List.filterMap_map, ← congrArg (List.filterMap _) hsnd, List.filterMap_map]
  rfl

def matched_ids (standings : List Standing) : List String :=
  (standings.filterMap Standing.counterpart).map UnitSnapshot.logical_id

def candidate_ids (standings : List Standing) : List String :=
  (standings.filterMap Standing.candidates).flatten

variable (versions) in
def removed_units (standings : List Standing) : List UnitSnapshot :=
  versions.before_units.filter (fun unit =>
    ¬(unit.logical_id ∈ matched_ids standings ∨ unit.logical_id ∈ candidate_ids standings))

variable (versions) in
def own_changes (decisions : List LogicalIdentityDecision) : List SemanticChange :=
  (versions.after_units.zip decisions).flatMap (fun entry =>
    (own_progress unicode shown .SEMANTIC versions.by_logical entry).changes)

variable {decisions : List LogicalIdentityDecision}
  (hlength : decisions.length = versions.after_units.length)

include hlength

theorem semantic_changes_eq (structural : List SemanticChange) :
    semantic_changes unicode shown versions .SEMANTIC structural decisions =
      structural ++ own_changes unicode shown versions decisions ++
        (removed_units versions (standings versions decisions)).map removed_change := by
  have hmatched := matched_before_of_standings unicode shown versions.by_logical
    (versions.after_units.zip decisions)
  have hunsettled := unsettled_of_standings unicode shown versions.by_logical
    (versions.after_units.zip decisions)
  rw [zip_standings hlength] at hmatched hunsettled
  simp only [Versions.by_logical] at hmatched hunsettled
  simp only [semantic_changes, foldl_compare_unit, List.nil_append]
  rw [hmatched, hunsettled]
  rfl

variable {before after : DocumentShape} {diff : SemanticDiff}
  (hchanges : diff.changes = _structural_changes before after ++
    own_changes unicode shown versions decisions ++
      (removed_units versions (standings versions decisions)).map removed_change)

include hchanges

theorem unresolved_reported_eq : diff.unresolved.map SemanticChange.candidates =
    (standings versions decisions).filterMap Standing.candidates := by
  rw [SemanticDiff.unresolved, hchanges, List.filter_append, List.filter_append,
    filter_structural _ (by decide), filter_removed _ (by decide), List.nil_append,
    List.append_nil, ← zip_standings hlength]
  exact unresolved_of_standings unicode shown versions.by_logical _

omit hlength in
theorem added_reported_eq :
    (diff.changes.filter (fun change => change.kind = .UNIT_ADDED)).map SemanticChange.after =
      ((versions.after_units.zip (standings versions decisions)).filter
        (fun entry => entry.2.isAdded)).map (fun entry => some entry.1.text) := by
  rw [hchanges, List.filter_append, List.filter_append, filter_structural _ (by decide),
    filter_removed _ (by decide), List.nil_append, List.append_nil, own_changes,
    added_of_standings, standings, List.zip_map_right, List.filter_map, List.map_map]
  rfl

omit hlength in
theorem removed_reported_iff {unit : UnitSnapshot} (hunit : unit ∈ versions.before_units) :
    (∃ change ∈ diff.changes,
        change.kind = .UNIT_REMOVED ∧ change.logical_id = some unit.logical_id) ↔
      unit.logical_id ∉ matched_ids (standings versions decisions) ∧
        unit.logical_id ∉ candidate_ids (standings versions decisions) := by
  rw [hchanges, ← not_or]
  constructor
  · rintro ⟨change, hchange, hkind, hid⟩
    rcases List.mem_append.mp hchange with hrest | hgone
    · rcases List.mem_append.mp hrest with hstructural | hown
      · rw [structural_kinds before after hstructural] at hkind
        cases hkind
      · obtain ⟨entry, -, hc⟩ := List.mem_flatMap.mp hown
        exact absurd hkind (own_not_removed unicode shown versions.by_logical entry hc)
    · obtain ⟨gone, hkept, rfl⟩ := List.mem_map.mp hgone
      have hsame : gone.logical_id = unit.logical_id := Option.some.inj hid
      exact hsame ▸ of_decide_eq_true (List.mem_filter.mp hkept).2
  · intro hneither
    refine ⟨removed_change unit, List.mem_append_right _ (List.mem_map_of_mem ?_), rfl, rfl⟩
    exact List.mem_filter.mpr ⟨hunit, decide_eq_true hneither⟩

theorem accounts_of_settled (hids : (versions.before_units.map UnitSnapshot.logical_id).Nodup)
    (hsettled : Settled versions decisions) :
    Accounts versions diff (standings versions decisions) where
  one_each := by simp [standings, hlength]
  added_reported := added_reported_eq unicode shown hchanges
  unresolved_reported := unresolved_reported_eq unicode shown hlength hchanges
  before_accounted unit hunit := by
    have hcandidates : unit.logical_id ∈ diff.unresolved_candidates ↔
        unit.logical_id ∈ candidate_ids (standings versions decisions) := by
      rw [SemanticDiff.unresolved_candidates, List.flatMap_def,
        unresolved_reported_eq unicode shown hlength hchanges, candidate_ids]
    have hremoved := removed_reported_iff unicode shown hchanges hunit
    have hmatched : .matched unit ∈ standings versions decisions ↔
        unit.logical_id ∈ matched_ids (standings versions decisions) := matched_iff hids hunit
    have hexclusive : unit.logical_id ∈ matched_ids (standings versions decisions) →
        unit.logical_id ∉ candidate_ids (standings versions decisions) := fun hm =>
      matched_not_candidate hids hsettled (hmatched.mpr hm)
    rw [ExactlyOne, hcandidates, hremoved, hmatched]
    tauto
  settled_only _ hid := changed_logical_ids_settled diff hid

end Accounts

section Diff

variable (unicode : Unicode) (shown : List String → String) (hasher : Hasher) (versions : Versions)

-- Above differing bytes the diff accounts for every unit; above equal bytes it
-- names none, whatever units it is given.
theorem semantic_diff_accounts (hids : (versions.before_units.map UnitSnapshot.logical_id).Nodup)
    (hbefore : versions.before_shape.isSome) (hafter : versions.after_shape.isSome) :
    ∃ diff decisions, diff_documents unicode shown hasher versions .SEMANTIC = .ok diff ∧
      identity_decisions unicode versions = some decisions ∧
      (versions.before_sha256 ≠ versions.after_sha256 →
        Accounts versions diff (standings versions decisions)) ∧
      (versions.before_sha256 = versions.after_sha256 →
        diff.changes = [{ kind := .CONTENT_UNCHANGED }]) := by
  obtain ⟨before, hbefore⟩ := Option.isSome_iff_exists.mp hbefore
  obtain ⟨after, hafter⟩ := Option.isSome_iff_exists.mp hafter
  obtain ⟨decisions, hdecisions, hlength, hsettled⟩ :=
    exists_settled_decisions unicode versions hids
  by_cases hsame : versions.before_sha256 = versions.after_sha256
  · refine ⟨diff_of hasher .SEMANTIC false [{ kind := .CONTENT_UNCHANGED }], decisions, ?_,
      hdecisions, fun hchanged => absurd hsame hchanged, fun _ => rfl⟩
    rw [diff_documents, if_pos hsame]
  · refine ⟨_, decisions, diff_semantic unicode shown hasher versions .SEMANTIC hsame hbefore hafter
      le_rfl hdecisions hlength, hdecisions, fun _ => ?_, fun h => absurd h hsame⟩
    exact accounts_of_settled unicode shown hlength
      (semantic_changes_eq unicode shown hlength _) hids hsettled

-- The claim without the digests: every unit accounted for.
def AlwaysAccounted : Prop :=
  ∀ versions : Versions, (versions.before_units.map UnitSnapshot.logical_id).Nodup →
    ∀ diff, diff_documents unicode shown hasher versions .SEMANTIC = .ok diff →
      ∃ decisions, identity_decisions unicode versions = some decisions ∧
        Accounts versions diff (standings versions decisions)

end Diff

def clause (logical_id anchor text : String) : UnitSnapshot where
  logical_id := logical_id
  text := text
  document_path := ["policies", "launch"]
  anchor := anchor

-- The gate stays, the owner could be either of two, the memo is new and the terms are gone.
def rewritten : Versions where
  before_sha256 := "first"
  after_sha256 := "second"
  before_shape := some { block_count := 4 }
  after_shape := some { block_count := 3 }
  before_units := [clause "ku_gate" "gate" "the gate is open",
    { logical_id := "ku_terms", text := "warranty: two years" },
    clause "ku_left" "owner" "ops own it", clause "ku_right" "owner" "ops own it"]
  after_units := [clause "seed_gate" "gate" "the gate is open",
    clause "seed_owner" "owner" "ops own it",
    { logical_id := "seed_memo", text := "a new memo", document_path := ["memos"],
      anchor := "memo" }]

theorem rewritten_accounted :
    (identity_decisions .ascii rewritten).map (List.map LogicalIdentityDecision.verdict) =
      some [.MATCHED, .AMBIGUOUS, .NEW] ∧
    ∃ diff decisions, diff_documents .ascii shown_plain sha256 rewritten .SEMANTIC = .ok diff ∧
      identity_decisions .ascii rewritten = some decisions ∧
      ("first" ≠ "second" → Accounts rewritten diff (standings rewritten decisions)) ∧
      ("first" = "second" → diff.changes = [{ kind := .CONTENT_UNCHANGED }]) :=
  ⟨by decide +kernel,
    semantic_diff_accounts .ascii shown_plain sha256 rewritten (by decide) rfl rfl⟩

-- A unit dropped from a version to one with the same bytes.
def dropped_unit : Versions where
  before_sha256 := "same"
  after_sha256 := "same"
  before_shape := some { block_count := 1 }
  after_shape := some { block_count := 1 }
  before_units := [{ logical_id := "ku_terms", text := "warranty: two years" }]

-- Equal bytes end the comparison before any unit is looked at.
theorem equal_bytes_account_for_nothing : ¬AlwaysAccounted .ascii shown_plain sha256 := by
  intro halways
  obtain ⟨decisions, hdecisions, haccounts⟩ := halways dropped_unit (by decide) _ rfl
  obtain rfl : decisions = [] := (Option.some.inj hdecisions).symm
  rcases haccounts.before_accounted _ List.mem_cons_self with
    ⟨hmatched, -, -⟩ | ⟨-, hcandidate, -⟩ | ⟨-, -, change, hchange, hkind, -⟩
  · cases hmatched
  · cases hcandidate
  · rw [List.mem_singleton.mp hchange] at hkind
    cases hkind

end KnowledgeCompiler.Recompilation
