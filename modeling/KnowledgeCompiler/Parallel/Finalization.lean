import KnowledgeCompiler.Ledger.Tamper
import KnowledgeCompiler.Lib.Method
import KnowledgeCompiler.Parallel.Journal

namespace KnowledgeCompiler.Parallel

open Lib Method

-- What finalizing and merging a document raise.
inductive DocumentFault
  | fault (fault : Fault)
  | finalization_conflict (message : String)
  | merge_conflict (message : String)
deriving DecidableEq

structure FinalizationUnit where
  unit_id : String
  state : VerificationState
  prediction_sha256 : Option String
  source_refs : List String
  provenance_attempt_ids : List String
  required : Bool := true
  reason_codes : List String := []
  named : unit_id ≠ ""
  digested : ∀ digest ∈ prediction_sha256, is_sha256 digest = true
  evidenced : state ∈ ACCEPTED_VERIFICATION_STATES →
    prediction_sha256.isSome ∧ source_refs ≠ [] ∧ provenance_attempt_ids ≠ []
  repaired : state = .AUTO_REPAIRED → 2 ≤ provenance_attempt_ids.length

structure UnresolvedManifestEntry where
  unit_id : String
  state : VerificationState
  reason_codes : List String
  source_refs : List String

structure FinalizationResult where
  finalization_id : String
  document_version_id : String
  merge_sha256 : String
  publishable : Bool
  accepted_units : List FinalizationUnit
  unresolved_manifest : List UnresolvedManifestEntry
  excluded_unit_ids : List String
  billable_unit_ids : List String
  manifest_sha256 : String
  reason_codes : List String

structure FinalizeArguments where
  document_version_id : String
  units : List FinalizationUnit
  merge_sha256 : String
  occurred_at : Datetime
  idempotency_key : String

structure Finalizer where
  events : Option EventJournal := none
  results : Dict String (String × FinalizationResult) := .empty

namespace FinalizationUnit

def json (unit : FinalizationUnit) : Json :=
  .obj [("unit_id", .str unit.unit_id), ("state", .str unit.state.value),
    ("prediction_sha256", optional_json unit.prediction_sha256),
    ("source_refs", strings_json unit.source_refs),
    ("provenance_attempt_ids", strings_json unit.provenance_attempt_ids),
    ("required", .bool unit.required), ("reason_codes", strings_json unit.reason_codes)]

def accepted (unit : FinalizationUnit) : Bool := unit.state ∈ ACCEPTED_VERIFICATION_STATES

def unresolved (unit : FinalizationUnit) : Bool := unit.state = .UNRESOLVED

def excluded (unit : FinalizationUnit) : Bool := unit.state ∈ [.QUARANTINED, .FAILED]

def required_failure (unit : FinalizationUnit) : Bool := unit.required && !unit.accepted

def manifest_entry (unit : FinalizationUnit) : UnresolvedManifestEntry where
  unit_id := unit.unit_id
  state := unit.state
  reason_codes :=
    if unit.reason_codes = [] then [s!"{unit.state.value}_excluded"] else unit.reason_codes
  source_refs := unit.source_refs

end FinalizationUnit

def UnresolvedManifestEntry.json (entry : UnresolvedManifestEntry) : Json :=
  .obj [("unit_id", .str entry.unit_id), ("state", .str entry.state.value),
    ("reason_codes", strings_json entry.reason_codes),
    ("source_refs", strings_json entry.source_refs)]

section Manifest

variable (units : List FinalizationUnit)

def accepted_units : List FinalizationUnit := units.filter FinalizationUnit.accepted

def unresolved_manifest : List UnresolvedManifestEntry :=
  (units.filter FinalizationUnit.unresolved).map FinalizationUnit.manifest_entry

def excluded_unit_ids : List String :=
  (units.filter FinalizationUnit.excluded).map FinalizationUnit.unit_id

def required_failures : List FinalizationUnit := units.filter FinalizationUnit.required_failure

-- `sorted({f"required_{unit.state.value}" for unit in required_failures})`
def required_reasons : List String :=
  ((required_failures units).map fun unit => s!"required_{unit.state.value}").dedup.insertionSort
    (· ≤ ·)

def manifest (document_version_id merge_sha256 : String) : Json :=
  .obj [("document_version_id", .str document_version_id), ("merge_sha256", .str merge_sha256),
    ("accepted_unit_ids", strings_json ((accepted_units units).map FinalizationUnit.unit_id)),
    ("unresolved", .arr ((unresolved_manifest units).map UnresolvedManifestEntry.json)),
    ("excluded", strings_json (excluded_unit_ids units)),
    ("publishable", .bool (required_failures units).isEmpty),
    ("reason_codes", strings_json (required_reasons units))]

def finalization_input (document_version_id merge_sha256 : String) : Json :=
  .obj [("document_version_id", .str document_version_id),
    ("units", .arr (units.map FinalizationUnit.json)), ("merge_sha256", .str merge_sha256)]

variable (hasher : Hasher)

def finalized (document_version_id merge_sha256 : String) : FinalizationResult :=
  let digest := canonical_sha256 hasher (manifest units document_version_id merge_sha256)
  { finalization_id := stable_id hasher "finalization" [.str document_version_id, .str digest]
    document_version_id
    merge_sha256
    publishable := (required_failures units).isEmpty
    accepted_units := accepted_units units
    unresolved_manifest := unresolved_manifest units
    excluded_unit_ids := excluded_unit_ids units
    billable_unit_ids := (accepted_units units).map FinalizationUnit.unit_id
    manifest_sha256 := digest
    reason_codes := required_reasons units }

end Manifest

def FinalizationResult.finalized_payload (result : FinalizationResult) : List (String × Json) :=
  [("finalization_id", .str result.finalization_id),
    ("manifest_sha256", .str result.manifest_sha256),
    ("accepted_units", .int result.accepted_units.length)]

def finalized_key (idempotency_key : String) : String := s!"document-finalized:{idempotency_key}"

namespace Finalizer

variable (hasher : Hasher)

def emit (event_type aggregate_id : String) (payload : List (String × Json))
    (occurred_at : Datetime) (idempotency_key : String) : Method Finalizer DocumentFault Unit := do
  let finalizer ← self
  match finalizer.events with
  | none => returns ()
  | some journal =>
      let next ← check
        ((journal.append hasher event_type aggregate_id payload occurred_at idempotency_key).mapError
          .fault)
      assign (fun finalizer => { finalizer with events := some next })

def input_digest (arguments : FinalizeArguments) : String :=
  canonical_sha256 hasher
    (finalization_input arguments.units arguments.document_version_id arguments.merge_sha256)

def announce (arguments : FinalizeArguments) (result : FinalizationResult) :
    Method Finalizer DocumentFault Unit :=
  if result.publishable = true then
    emit hasher "document.finalized.v1" arguments.document_version_id result.finalized_payload
      arguments.occurred_at (finalized_key arguments.idempotency_key)
  else returns ()

-- The result is remembered before its event is written.
def finalize (arguments : FinalizeArguments) :
    Method Finalizer DocumentFault FinalizationResult := do
  require (arguments.units ≠ [] ∧ (arguments.units.map FinalizationUnit.unit_id).Nodup)
    (.fault (.value_error "finalization requires unique non-empty units"))
  check ((require_sha256 arguments.merge_sha256 "merge_sha256").mapError (.fault ∘ .value_error))
  let finalizer ← self
  match finalizer.results.get? arguments.idempotency_key with
  | some (existing_digest, result) =>
      require (existing_digest = input_digest hasher arguments)
        (.finalization_conflict "export idempotency key reused with different finalization input")
      returns result
  | none =>
      let result := finalized arguments.units hasher arguments.document_version_id
        arguments.merge_sha256
      assign (fun finalizer => { finalizer with
        results := finalizer.results.set arguments.idempotency_key
          (input_digest hasher arguments, result) })
      announce hasher arguments result
      returns result

-- A finalizer whose journal others write to as well.
inductive Call
  | finalize (arguments : FinalizeArguments)
  | append_event (event_type aggregate_id : String) (payload : List (String × Json))
      (occurred_at : Datetime) (idempotency_key : String)

def step (finalizer : Finalizer) : Call → Finalizer
  | .finalize arguments => (finalize hasher arguments finalizer).2
  | .append_event event_type aggregate_id payload occurred_at idempotency_key =>
      (emit hasher event_type aggregate_id payload occurred_at idempotency_key finalizer).2

def run (events : Option EventJournal) (calls : List Call) : Finalizer :=
  calls.foldl (step hasher) { events := events }

end Finalizer

section Sorting

theorem sortItems_map {α : Type} (write : α → Json) (items : List α) :
    Json.sortItems (items.map write) = items.map (fun item => Json.sortKeys (write item)) := by
  induction items with
  | nil => rfl
  | cons item rest ih => rw [List.map_cons, Json.sortItems, ih, List.map_cons]

theorem printableItems_map {α : Type} {write : α → Json} (hwrite : ∀ item, (write item).Printable)
    (items : List α) : Json.PrintableItems (items.map write) := by
  induction items with
  | nil => trivial
  | cons item rest ih => exact ⟨hwrite item, ih⟩

theorem printable_strings (values : List String) : (strings_json values).Printable := by
  have hstr (value : String) : (Json.str value).Printable := trivial
  exact printableItems_map hstr values

theorem sortKeys_strings (values : List String) :
    Json.sortKeys (strings_json values) = strings_json values := by
  rw [strings_json, Json.sortKeys, sortItems_map]
  rfl

theorem strings_json_injective : Function.Injective strings_json := by
  intro first second h
  have hitems := Json.arr.inj h
  exact List.map_injective_iff.mpr (fun _ _ h => Json.str.inj h) hitems

theorem sortKeys_optional (value : Option String) :
    Json.sortKeys (optional_json value) = optional_json value := by
  cases value <;> rfl

theorem optional_json_injective : Function.Injective optional_json := by
  intro first second h
  cases first <;> cases second <;> simp_all [optional_json]

theorem VerificationState.value_injective : Function.Injective VerificationState.value := by
  intro first second h
  cases first <;> cases second <;> first | rfl | exact absurd h (by decide)

theorem canonical_sha256_inj {hasher : Hasher} (hinj : Function.Injective hasher.hexdigest)
    {first second : Json} (hfirst : first.Printable) (hsecond : second.Printable)
    (h : canonical_sha256 hasher first = canonical_sha256 hasher second) :
    Json.sortKeys first = Json.sortKeys second :=
  Json.dumps_inj hfirst hsecond (Utf8.encode_injective (hinj h))

end Sorting

namespace FinalizationUnit

def sorted_json (unit : FinalizationUnit) : Json :=
  .obj [("prediction_sha256", optional_json unit.prediction_sha256),
    ("provenance_attempt_ids", strings_json unit.provenance_attempt_ids),
    ("reason_codes", strings_json unit.reason_codes), ("required", .bool unit.required),
    ("source_refs", strings_json unit.source_refs), ("state", .str unit.state.value),
    ("unit_id", .str unit.unit_id)]

theorem sortKeys_json (unit : FinalizationUnit) : Json.sortKeys unit.json = unit.sorted_json := by
  simp [json, sorted_json, Json.sortKeys, Json.sortMembers, sortKeys_strings, sortKeys_optional,
    List.insertionSort, List.orderedInsert]

theorem sorted_json_injective : Function.Injective sorted_json := by
  intro first second h
  simp only [sorted_json, Json.obj.injEq, List.cons.injEq, Prod.mk.injEq, true_and, and_true,
    Json.bool.injEq, Json.str.injEq] at h
  obtain ⟨hprediction, hprovenance, hreasons, hrequired, hrefs, hstate, hid⟩ := h
  cases first
  cases second
  simp only [mk.injEq]
  exact ⟨hid, VerificationState.value_injective hstate, optional_json_injective hprediction,
    strings_json_injective hrefs, strings_json_injective hprovenance, hrequired,
    strings_json_injective hreasons⟩

theorem printable_json (unit : FinalizationUnit) : unit.json.Printable := by
  refine ⟨by simp, trivial, trivial, ?_, printable_strings _, printable_strings _, trivial,
    printable_strings _, trivial⟩
  cases unit.prediction_sha256 <;> trivial

end FinalizationUnit

namespace UnresolvedManifestEntry

def sorted_json (entry : UnresolvedManifestEntry) : Json :=
  .obj [("reason_codes", strings_json entry.reason_codes),
    ("source_refs", strings_json entry.source_refs), ("state", .str entry.state.value),
    ("unit_id", .str entry.unit_id)]

theorem sortKeys_json (entry : UnresolvedManifestEntry) :
    Json.sortKeys entry.json = entry.sorted_json := by
  simp [json, sorted_json, Json.sortKeys, Json.sortMembers, sortKeys_strings,
    List.insertionSort, List.orderedInsert]

theorem sorted_json_injective : Function.Injective sorted_json := by
  intro first second h
  simp only [sorted_json, Json.obj.injEq, List.cons.injEq, Prod.mk.injEq, true_and, and_true,
    Json.str.injEq] at h
  obtain ⟨hreasons, hrefs, hstate, hid⟩ := h
  cases first
  cases second
  simp only [mk.injEq]
  exact ⟨hid, VerificationState.value_injective hstate, strings_json_injective hreasons,
    strings_json_injective hrefs⟩

theorem printable_json (entry : UnresolvedManifestEntry) : entry.json.Printable :=
  ⟨by simp, trivial, trivial, printable_strings _, printable_strings _, trivial⟩

end UnresolvedManifestEntry

theorem printable_manifest (units : List FinalizationUnit) (document_version_id merge_sha256 : String) :
    (manifest units document_version_id merge_sha256).Printable :=
  ⟨by simp, trivial, trivial, printable_strings _,
    printableItems_map UnresolvedManifestEntry.printable_json _, printable_strings _, trivial,
    printable_strings _, trivial⟩

theorem printable_finalization_input (units : List FinalizationUnit)
    (document_version_id merge_sha256 : String) :
    (finalization_input units document_version_id merge_sha256).Printable :=
  ⟨by simp, trivial, printableItems_map FinalizationUnit.printable_json _, trivial, trivial⟩

theorem sortKeys_manifest (units : List FinalizationUnit) (document_version_id merge_sha256 : String) :
    Json.sortKeys (manifest units document_version_id merge_sha256) =
      .obj [("accepted_unit_ids", strings_json ((accepted_units units).map FinalizationUnit.unit_id)),
        ("document_version_id", .str document_version_id),
        ("excluded", strings_json (excluded_unit_ids units)), ("merge_sha256", .str merge_sha256),
        ("publishable", .bool (required_failures units).isEmpty),
        ("reason_codes", strings_json (required_reasons units)),
        ("unresolved",
          .arr ((unresolved_manifest units).map UnresolvedManifestEntry.sorted_json))] := by
  simp [manifest, Json.sortKeys, Json.sortMembers, sortKeys_strings, sortItems_map,
    UnresolvedManifestEntry.sortKeys_json, List.insertionSort, List.orderedInsert]

theorem sortKeys_finalization_input (units : List FinalizationUnit)
    (document_version_id merge_sha256 : String) :
    Json.sortKeys (finalization_input units document_version_id merge_sha256) =
      .obj [("document_version_id", .str document_version_id), ("merge_sha256", .str merge_sha256),
        ("units", .arr (units.map FinalizationUnit.sorted_json))] := by
  simp [finalization_input, Json.sortKeys, Json.sortMembers, sortItems_map,
    FinalizationUnit.sortKeys_json, List.insertionSort, List.orderedInsert]

-- Everything finalizing starts from is in what its input is told apart by.
theorem finalization_input_inj {hasher : Hasher} (hinj : Function.Injective hasher.hexdigest)
    {units others : List FinalizationUnit} {document_version_id merge_sha256 other_id other_merge : String}
    (h : canonical_sha256 hasher (finalization_input units document_version_id merge_sha256) =
      canonical_sha256 hasher (finalization_input others other_id other_merge)) :
    units = others ∧ document_version_id = other_id ∧ merge_sha256 = other_merge := by
  have hsorted := canonical_sha256_inj hinj (printable_finalization_input _ _ _)
    (printable_finalization_input _ _ _) h
  rw [sortKeys_finalization_input, sortKeys_finalization_input] at hsorted
  simp only [Json.obj.injEq, List.cons.injEq, Prod.mk.injEq, true_and, and_true, Json.str.injEq,
    Json.arr.injEq] at hsorted
  obtain ⟨hdocument, hmerge, hunits⟩ := hsorted
  exact ⟨List.map_injective_iff.mpr FinalizationUnit.sorted_json_injective hunits, hdocument, hmerge⟩

-- What two results tell apart but for what was read in the accepted units.
structure FinalizationResult.Agrees (first second : FinalizationResult) : Prop where
  document_version_id : first.document_version_id = second.document_version_id
  merge_sha256 : first.merge_sha256 = second.merge_sha256
  accepted_unit_ids : first.accepted_units.map FinalizationUnit.unit_id =
    second.accepted_units.map FinalizationUnit.unit_id
  unresolved_manifest : first.unresolved_manifest = second.unresolved_manifest
  excluded_unit_ids : first.excluded_unit_ids = second.excluded_unit_ids
  billable_unit_ids : first.billable_unit_ids = second.billable_unit_ids
  publishable : first.publishable = second.publishable
  reason_codes : first.reason_codes = second.reason_codes
  finalization_id : first.finalization_id = second.finalization_id

theorem finalized_agrees {hasher : Hasher} (hinj : Function.Injective hasher.hexdigest)
    {units others : List FinalizationUnit} {document_version_id merge_sha256 other_id other_merge : String}
    (h : (finalized units hasher document_version_id merge_sha256).manifest_sha256 =
      (finalized others hasher other_id other_merge).manifest_sha256) :
    (finalized units hasher document_version_id merge_sha256).Agrees
      (finalized others hasher other_id other_merge) := by
  have hsorted := canonical_sha256_inj hinj (printable_manifest units document_version_id merge_sha256)
    (printable_manifest others other_id other_merge) h
  rw [sortKeys_manifest, sortKeys_manifest] at hsorted
  simp only [Json.obj.injEq, List.cons.injEq, Prod.mk.injEq, true_and, and_true, Json.str.injEq,
    Json.arr.injEq, Json.bool.injEq] at hsorted
  obtain ⟨haccepted, hdocument, hexcluded, hmerge, hpublishable, hreasons, hunresolved⟩ := hsorted
  have hids := strings_json_injective haccepted
  have hdigest : canonical_sha256 hasher (manifest units document_version_id merge_sha256) =
      canonical_sha256 hasher (manifest others other_id other_merge) := h
  constructor
  · exact hdocument
  · exact hmerge
  · exact hids
  · exact List.map_injective_iff.mpr UnresolvedManifestEntry.sorted_json_injective hunresolved
  · exact strings_json_injective hexcluded
  · exact hids
  · exact hpublishable
  · exact strings_json_injective hreasons
  · change stable_id hasher "finalization" [.str document_version_id, .str _] = _
    rw [hdigest, hdocument]
    rfl

-- Every unit is in one of the three classes of a result, and in no other.
structure FinalizationResult.Splits (result : FinalizationResult) (units : List FinalizationUnit) :
    Prop where
  accepted : result.accepted_units = units.filter (·.state ∈ ACCEPTED_VERIFICATION_STATES)
  unresolved : result.unresolved_manifest.map UnresolvedManifestEntry.unit_id =
    (units.filter (·.state = .UNRESOLVED)).map FinalizationUnit.unit_id
  excluded : result.excluded_unit_ids =
    (units.filter fun unit => unit.state = .QUARANTINED ∨ unit.state = .FAILED).map
      FinalizationUnit.unit_id
  whole : (result.accepted_units.map FinalizationUnit.unit_id ++
    result.unresolved_manifest.map UnresolvedManifestEntry.unit_id ++
      result.excluded_unit_ids).Perm (units.map FinalizationUnit.unit_id)
  separate : (result.accepted_units.map FinalizationUnit.unit_id ++
    result.unresolved_manifest.map UnresolvedManifestEntry.unit_id ++ result.excluded_unit_ids).Nodup
  publishable : result.publishable = true ↔
    ∀ unit ∈ units, unit.required = true → unit.state ∈ ACCEPTED_VERIFICATION_STATES

theorem one_class (unit : FinalizationUnit) :
    (unit.accepted = true ∧ unit.unresolved = false ∧ unit.excluded = false) ∨
      (unit.accepted = false ∧ unit.unresolved = true ∧ unit.excluded = false) ∨
        (unit.accepted = false ∧ unit.unresolved = false ∧ unit.excluded = true) := by
  unfold FinalizationUnit.accepted FinalizationUnit.unresolved FinalizationUnit.excluded
  cases unit.state <;> decide

theorem classes_perm (units : List FinalizationUnit) :
    (units.filter FinalizationUnit.accepted ++ units.filter FinalizationUnit.unresolved ++
      units.filter FinalizationUnit.excluded).Perm units := by
  induction units with
  | nil => rfl
  | cons unit rest ih =>
    rcases one_class unit with ⟨ha, hu, he⟩ | ⟨ha, hu, he⟩ | ⟨ha, hu, he⟩
    · simp only [List.filter_cons, ha, hu, he, ite_true, Bool.false_eq_true, ite_false,
        List.cons_append]
      exact ih.cons unit
    · simp only [List.filter_cons, ha, hu, he, ite_true, Bool.false_eq_true, ite_false,
        List.append_assoc, List.cons_append] at ih ⊢
      exact List.perm_middle.trans (ih.cons unit)
    · simp only [List.filter_cons, ha, hu, he, ite_true, Bool.false_eq_true, ite_false]
      exact List.perm_middle.trans (ih.cons unit)

theorem finalized_splits (hasher : Hasher) {units : List FinalizationUnit}
    (document_version_id merge_sha256 : String)
    (hunique : (units.map FinalizationUnit.unit_id).Nodup) :
    (finalized units hasher document_version_id merge_sha256).Splits units := by
  have hunresolved : (unresolved_manifest units).map UnresolvedManifestEntry.unit_id =
      (units.filter FinalizationUnit.unresolved).map FinalizationUnit.unit_id := by
    rw [unresolved_manifest, List.map_map]
    rfl
  have hwhole : ((accepted_units units).map FinalizationUnit.unit_id ++
      (unresolved_manifest units).map UnresolvedManifestEntry.unit_id ++
        excluded_unit_ids units).Perm (units.map FinalizationUnit.unit_id) := by
    have hperm := (classes_perm units).map FinalizationUnit.unit_id
    rwa [List.map_append, List.map_append, ← hunresolved] at hperm
  constructor
  · rfl
  · exact hunresolved
  · have hclass (unit : FinalizationUnit) : unit.excluded =
        decide (unit.state = .QUARANTINED ∨ unit.state = .FAILED) := by
      simp [FinalizationUnit.excluded]
    exact congrArg (·.map FinalizationUnit.unit_id) (List.filter_congr fun unit _ => hclass unit)
  · exact hwhole
  · exact hwhole.nodup_iff.mpr hunique
  · simp [finalized, required_failures, FinalizationUnit.required_failure, FinalizationUnit.accepted]

namespace Finalizer

-- Every kept result is what finalizing gives for the input it is kept under.
def Sound (hasher : Hasher) (finalizer : Finalizer) : Prop :=
  ∀ key digest result, finalizer.results.get? key = some (digest, result) →
    ∃ arguments : FinalizeArguments, digest = input_digest hasher arguments ∧
      result = finalized arguments.units hasher arguments.document_version_id arguments.merge_sha256

variable {hasher : Hasher}

theorem ends_emit (event_type aggregate_id : String) (payload : List (String × Json))
    (occurred_at : Datetime) (idempotency_key : String) (finalizer : Finalizer) :
    Ends (fun _ left => left.results = finalizer.results)
      (fun _ left => left.results = finalizer.results)
      (emit hasher event_type aggregate_id payload occurred_at idempotency_key) finalizer := by
  unfold emit
  cases hevents : finalizer.events with
  | none => simp [hevents]
  | some journal => simp [hevents]

theorem ends_announce (arguments : FinalizeArguments) (result : FinalizationResult)
    (finalizer : Finalizer) :
    Ends (fun _ left => left.results = finalizer.results)
      (fun _ left => left.results = finalizer.results) (announce hasher arguments result) finalizer := by
  unfold announce
  rw [ends_ite]
  exact ⟨fun _ => ends_emit _ _ _ _ _ finalizer, fun _ => rfl⟩

theorem Sound.of_results {finalizer left : Finalizer} (hsound : Sound hasher finalizer)
    (hresults : left.results = finalizer.results) : Sound hasher left := by
  unfold Sound
  rw [hresults]
  exact hsound

-- What finalizing gives, and what it keeps, is computed from its own input.
theorem ends_finalize (hinj : Function.Injective hasher.hexdigest) (arguments : FinalizeArguments)
    {finalizer : Finalizer} (hsound : Sound hasher finalizer) :
    Ends
      (fun result left => Sound hasher left ∧ (arguments.units.map FinalizationUnit.unit_id).Nodup ∧
        result = finalized arguments.units hasher arguments.document_version_id
          arguments.merge_sha256)
      (fun _ left => Sound hasher left) (finalize hasher arguments) finalizer := by
  unfold finalize
  rw [ends_bind, ends_require]
  refine ⟨fun hunits => ?_, fun _ => hsound⟩
  rw [ends_bind, ends_check]
  refine ⟨fun _ _ => ?_, fun _ _ => hsound⟩
  rw [ends_bind, ends_self]
  cases hget : finalizer.results.get? arguments.idempotency_key with
  | some kept =>
    obtain ⟨existing_digest, result⟩ := kept
    simp only [ends_bind, ends_require, ends_returns]
    refine ⟨fun hsame => ⟨hsound, hunits.2, ?_⟩, fun _ => hsound⟩
    obtain ⟨origin, hdigest, hresult⟩ := hsound _ _ _ hget
    obtain ⟨hsame_units, hsame_document, hsame_merge⟩ :=
      finalization_input_inj hinj (hdigest.symm.trans hsame)
    rw [hresult, hsame_units, hsame_document, hsame_merge]
  | none =>
    have hkept : Sound hasher { finalizer with
        results := finalizer.results.set arguments.idempotency_key (input_digest hasher arguments,
          finalized arguments.units hasher arguments.document_version_id arguments.merge_sha256) } := by
      intro key digest result hsome
      rw [Dict.get?_set] at hsome
      split at hsome
      · cases hsome
        exact ⟨arguments, rfl, rfl⟩
      · exact hsound key digest result hsome
    rw [ends_bind, ends_assign, ends_bind]
    exact (ends_announce arguments _ _).imp
      (fun _ left hresults => ⟨hkept.of_results hresults, hunits.2, rfl⟩)
      (fun _ left hresults => hkept.of_results hresults)

theorem Sound.step (hinj : Function.Injective hasher.hexdigest) {finalizer : Finalizer}
    (hsound : Sound hasher finalizer) (call : Call) : Sound hasher (finalizer.step hasher call) := by
  cases call with
  | finalize arguments =>
    exact ((ends_finalize hinj arguments hsound).then fun _ _ hends => hends.1).state
  | append_event event_type aggregate_id payload occurred_at idempotency_key =>
    exact hsound.of_results (ends_emit event_type aggregate_id payload occurred_at idempotency_key
      finalizer).state

theorem sound_run (hinj : Function.Injective hasher.hexdigest) (events : Option EventJournal)
    (calls : List Call) : Sound hasher (run hasher events calls) := by
  induction calls using List.reverseRecOn with
  | nil =>
    intro key digest result hsome
    cases hsome
  | append_singleton calls call ih =>
    have hstep : run hasher events (calls ++ [call]) = (run hasher events calls).step hasher call := by
      simp [run, List.foldl_append]
    rw [hstep]
    exact ih.step hinj call

theorem finalize_returned (hinj : Function.Injective hasher.hexdigest)
    {events : Option EventJournal} {calls : List Call} {arguments : FinalizeArguments}
    {result : FinalizationResult}
    (hresult : (finalize hasher arguments (run hasher events calls)).1 = .ok result) :
    (arguments.units.map FinalizationUnit.unit_id).Nodup ∧
      result = finalized arguments.units hasher arguments.document_version_id
        arguments.merge_sha256 := by
  have hends := ends_finalize hinj arguments (sound_run hinj events calls)
  unfold Ends at hends
  cases hrun : finalize hasher arguments (run hasher events calls) with
  | mk outcome left =>
    rw [hrun] at hends hresult
    cases hresult
    exact hends.2

-- Any two results of any two finalizers, whatever else was asked of them and
-- written to their journals before.
theorem manifest_binds (hasher : Hasher) (hinj : Function.Injective hasher.hexdigest)
    (events : Option EventJournal) (calls : List Call) (arguments : FinalizeArguments)
    (result : FinalizationResult)
    (hresult : (finalize hasher arguments (run hasher events calls)).1 = .ok result) :
    result.Splits arguments.units ∧
      ∀ (journal : Option EventJournal) (others : List Call) (asked : FinalizeArguments)
        (other : FinalizationResult),
        (finalize hasher asked (run hasher journal others)).1 = .ok other →
          result.manifest_sha256 = other.manifest_sha256 → result.Agrees other := by
  obtain ⟨hunique, rfl⟩ := finalize_returned hinj hresult
  refine ⟨finalized_splits hasher _ _ hunique, ?_⟩
  intro journal others asked other hother hdigest
  obtain ⟨-, rfl⟩ := finalize_returned hinj hother
  exact finalized_agrees hinj hdigest

theorem finalize_first (hasher : Hasher) {arguments : FinalizeArguments}
    (hunits : arguments.units ≠ [] ∧ (arguments.units.map FinalizationUnit.unit_id).Nodup)
    (hmerge : is_sha256 arguments.merge_sha256 = true) :
    (finalize hasher arguments (run hasher none [])).1 =
      .ok (finalized arguments.units hasher arguments.document_version_id arguments.merge_sha256) := by
  have hsha : require_sha256 arguments.merge_sha256 "merge_sha256" = .ok () :=
    refuse_if_ok (by simp [hmerge])
  have hends : Ends
      (fun result _ => result = finalized arguments.units hasher arguments.document_version_id
        arguments.merge_sha256) (fun _ _ => False) (finalize hasher arguments)
      (run hasher none []) := by
    unfold finalize
    rw [hsha, ends_bind, ends_require]
    refine ⟨fun _ => ?_, fun hnot => hnot hunits⟩
    rw [ends_bind, ends_check]
    refine ⟨fun _ _ => ?_, fun _ hraised => by cases hraised⟩
    rw [ends_bind, ends_self]
    have hget : (run hasher none []).results.get? arguments.idempotency_key = none := rfl
    rw [hget]
    simp [announce, emit, run]
  unfold Ends at hends
  cases hrun : finalize hasher arguments (run hasher none []) with
  | mk outcome left =>
    rw [hrun] at hends
    cases outcome with
    | ok result => exact congrArg Except.ok hends
    | error fault => exact hends.elim

def read_unit (digest source_ref : String) (hdigest : is_sha256 digest = true) : FinalizationUnit where
  unit_id := "unit-1"
  state := .VERIFIED
  prediction_sha256 := some digest
  source_refs := [source_ref]
  provenance_attempt_ids := ["attempt-1"]
  named := by decide
  digested := by simpa using hdigest
  evidenced := by simp
  repaired := by simp

def a_digest : String := "aaaaaaaaaaaaaaaaaaaaaaaaaaaaaaaaaaaaaaaaaaaaaaaaaaaaaaaaaaaaaaaa"

def b_digest : String := "bbbbbbbbbbbbbbbbbbbbbbbbbbbbbbbbbbbbbbbbbbbbbbbbbbbbbbbbbbbbbbbb"

def optional_unit : FinalizationUnit where
  unit_id := "unit-2"
  state := .UNRESOLVED
  prediction_sha256 := none
  source_refs := ["page-2"]
  provenance_attempt_ids := []
  required := false
  named := by decide
  digested := by simp
  evidenced := by decide
  repaired := by decide

def read_at : Datetime where
  year := 2027
  month := 2
  day := 3
  hour := 9
  minute := 11
  second := 13
  microsecond := 0
  utcoffset := some 7200000000
  year_range := by decide
  month_range := by decide
  day_range := by decide
  time_range := by decide
  offset_range := Datetime.offset_two_hours

def reading : FinalizeArguments where
  document_version_id := "docv-1"
  units := [read_unit a_digest "page-1" (by decide), optional_unit]
  merge_sha256 := a_digest
  occurred_at := read_at
  idempotency_key := "finalize-1"

def rereading : FinalizeArguments :=
  { reading with units := [read_unit b_digest "page-9" (by decide), optional_unit] }

-- Both are computed over the same manifest, digests and references left out.
theorem manifest_of_rereading : manifest rereading.units "docv-1" a_digest =
    manifest reading.units "docv-1" a_digest := rfl

theorem finalize_reading (hasher : Hasher) :
    (finalize hasher reading (run hasher none [])).1 =
      .ok (finalized reading.units hasher "docv-1" a_digest) :=
  finalize_first hasher (by decide) (by decide)

theorem finalize_rereading (hasher : Hasher) :
    (finalize hasher rereading (run hasher none [])).1 =
      .ok (finalized rereading.units hasher "docv-1" a_digest) :=
  finalize_first hasher (by decide) (by decide)

theorem manifest_sha256_rereading (hasher : Hasher) :
    (finalized reading.units hasher "docv-1" a_digest).manifest_sha256 =
      (finalized rereading.units hasher "docv-1" a_digest).manifest_sha256 :=
  congrArg (canonical_sha256 hasher) manifest_of_rereading.symm

theorem rereading_agrees : ∃ hasher : Hasher, Function.Injective hasher.hexdigest ∧
    (finalized reading.units hasher "docv-1" a_digest).Splits reading.units ∧
      (finalized reading.units hasher "docv-1" a_digest).Agrees
        (finalized rereading.units hasher "docv-1" a_digest) := by
  have hinj := Ledger.zeroing_injective ByteArray.empty
  generalize Ledger.zeroing ByteArray.empty = hasher at hinj
  obtain ⟨hsplits, hagrees⟩ := manifest_binds hasher hinj none [] reading _ (finalize_reading hasher)
  exact ⟨hasher, hinj, hsplits, hagrees none [] rereading _ (finalize_rereading hasher)
    (manifest_sha256_rereading hasher)⟩

-- Two readings of a unit, from two sources, under one manifest and one finalization.
theorem rereading_same_manifest : ∃ hasher : Hasher, Function.Injective hasher.hexdigest ∧
    ∃ first second : FinalizationResult,
      (finalize hasher reading (run hasher none [])).1 = .ok first ∧
        (finalize hasher rereading (run hasher none [])).1 = .ok second ∧
          first.manifest_sha256 = second.manifest_sha256 ∧
            first.accepted_units.map FinalizationUnit.prediction_sha256 = [some a_digest] ∧
              second.accepted_units.map FinalizationUnit.prediction_sha256 = [some b_digest] ∧
                first.accepted_units.map FinalizationUnit.source_refs = [["page-1"]] ∧
                  second.accepted_units.map FinalizationUnit.source_refs = [["page-9"]] := by
  have hinj := Ledger.zeroing_injective ByteArray.empty
  generalize Ledger.zeroing ByteArray.empty = hasher at hinj
  exact ⟨hasher, hinj, _, _, finalize_reading hasher, finalize_rereading hasher,
    manifest_sha256_rereading hasher, rfl, rfl, rfl, rfl⟩

end Finalizer

end KnowledgeCompiler.Parallel
