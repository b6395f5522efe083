import KnowledgeCompiler.Ledger.Consumption
import KnowledgeCompiler.Lib.Method
import KnowledgeCompiler.Lib.Minimum
import KnowledgeCompiler.Temporal.Timeline

namespace KnowledgeCompiler.Temporal

open Lib Ledger

inductive ReplayFault
  | replay_error (message : String)
  | value_error
deriving DecidableEq

abbrev AwareDatetime := { moment : Datetime // moment.utcoffset.isSome = true }

-- `first <= second` of aware moments, which never raises.
def no_later (first second : Datetime) : Bool := first.instant ≤ second.instant

structure PolicyRevision where
  revision_id : String
  known_at : AwareDatetime
  valid_from : Option AwareDatetime := none
  rules : Dict String Json := .empty
  named : (Text.strip revision_id.toList) ≠ []

structure WorldSnapshot where
  world_state_id : String
  workspace_id : String
  compiler_version : String
  status : String
  built_at : AwareDatetime
  activated_at : AwareDatetime

structure SnapshotClaim where
  claim_id : String
  text : String
  valid_from : Option AwareDatetime
  valid_until : Option AwareDatetime

structure SnapshotEvidence where
  evidence_id : String
  kind : String
  detail : Dict String Json

structure ContextPackage where
  receipt : ConsumptionReceipt
  world_state : WorldSnapshot
  claims : List SnapshotClaim
  evidence : List SnapshotEvidence
  policy_rev : PolicyRevision
  valid_time : Datetime
  known_time : Datetime
  consumption_time : Datetime

-- The snapshots of a directory by their file names, and how a file's path is printed.
structure WorldHistory where
  read : String → Option ByteArray
  directory : String
  path : String → String

-- `str(value)` of what is no string, and `repr(value)`.
structure Printing where
  str : Json → String
  repr : Json → String

section Snapshot

variable (history : WorldHistory) (printing : Printing)

def text_of : Json → String
  | .str text => text
  | other => printing.str other

def _parse_utc (name : String) (value : Json) : Except ReplayFault AwareDatetime :=
  match value with
  | .str text =>
      match Datetime.fromisoformat text.toList with
      | none => .error (.replay_error (name ++ " is not ISO-8601: " ++ printing.repr value))
      | some parsed =>
          if haware : parsed.utcoffset.isSome = true then .ok ⟨parsed, haware⟩
          else
            .error (.replay_error (name ++ " must carry a timezone offset: " ++ printing.repr value))
  | _ => .error (.replay_error (name ++ " must be an ISO-8601 string"))

def _load_snapshot (world_state_id : String) :
    Except ReplayFault (List (String × Json) × String) :=
  let name := world_state_id ++ ".json"
  match history.read name with
  | none =>
      .error (.replay_error ("world history has no snapshot for " ++ world_state_id ++ " under " ++
        history.directory))
  | some bytes =>
      match (Utf8.decode bytes).bind (fun text => Json.loads (Text.universalNewlines text)) with
      | none => .error .value_error
      | some (.obj payload) => .ok (payload, history.path name)
      | some _ =>
          .error (.replay_error ("snapshot " ++ history.path name ++ " is not a JSON object"))

def field (members : List (String × Json)) (key : String) : Json :=
  (Json.get? members key).getD .null

def required_text (payload : List (String × Json)) (path required : String) :
    Except ReplayFault String :=
  match Json.get? payload required with
  | some (.str text) =>
      if text = "" then
        .error (.replay_error ("snapshot " ++ path ++ " is missing a usable '" ++ required ++ "'"))
      else .ok text
  | _ => .error (.replay_error ("snapshot " ++ path ++ " is missing a usable '" ++ required ++ "'"))

def _parse_snapshot (payload : List (String × Json)) (path expected_world_state_id : String) :
    Except ReplayFault WorldSnapshot := do
  let world_state_id ← required_text payload path "world_state_id"
  let workspace_id ← required_text payload path "workspace_id"
  let compiler_version ← required_text payload path "compiler_version"
  if world_state_id ≠ expected_world_state_id then
    throw (.replay_error ("snapshot " ++ path ++ " records " ++ world_state_id ++ ", not " ++
      expected_world_state_id))
  let built_at ← _parse_utc printing "built_at" (field payload "built_at")
  let activated_at ← _parse_utc printing "activated_at" (field payload "activated_at")
  return { world_state_id, workspace_id, compiler_version
           status := text_of printing ((Json.get? payload "status").getD (.str "ACTIVE"))
           built_at, activated_at }

def optional_utc (name : String) (value : Json) : Except ReplayFault (Option AwareDatetime) :=
  match value with
  | .null => .ok none
  | other => (_parse_utc printing name other).map some

def parse_claim (path : String) (entry : Json) : Except ReplayFault SnapshotClaim :=
  match entry with
  | .obj entry =>
      match Json.get? entry "claim_id" with
      | some (.str claim_id) =>
          if claim_id = "" then
            .error (.replay_error ("snapshot " ++ path ++ " has a claim without a usable 'claim_id'"))
          else do
            let valid_from ←
              optional_utc printing ("claim " ++ claim_id ++ " valid_from") (field entry "valid_from")
            let valid_until ←
              optional_utc printing ("claim " ++ claim_id ++ " valid_until") (field entry "valid_until")
            return { claim_id, text := text_of printing ((Json.get? entry "text").getD (.str ""))
                     valid_from, valid_until }
      | _ => .error (.replay_error ("snapshot " ++ path ++ " has a claim without a usable 'claim_id'"))
  | _ => .error (.replay_error ("snapshot " ++ path ++ " has a non-object claim entry"))

def parse_evidence_entry (path : String) (entry : Json) : Except ReplayFault SnapshotEvidence :=
  match entry with
  | .obj entry =>
      match Json.get? entry "evidence_id" with
      | some (.str evidence_id) =>
          if evidence_id = "" then
            .error (.replay_error ("snapshot " ++ path ++ " has evidence without a usable 'evidence_id'"))
          else
            .ok { evidence_id, kind := text_of printing ((Json.get? entry "kind").getD (.str ""))
                  detail := .ofPairs entry }
      | _ =>
          .error (.replay_error ("snapshot " ++ path ++ " has evidence without a usable 'evidence_id'"))
  | _ => .error (.replay_error ("snapshot " ++ path ++ " has a non-object evidence entry"))

-- The wanted items of a list in the snapshot, each under its id; a later one of the same
-- id takes the place of an earlier one.
def parse_wanted {α : Type} (malformed missing : String) (entries : Option Json)
    (parse : Json → Except ReplayFault α) (id : α → String) (wanted : List String) :
    Except ReplayFault (List α) :=
  match entries.getD (.arr []) with
  | .arr entries => do
      let items ← entries.mapM parse
      let by_id := Dict.ofPairs (items.map (fun item => (id item, item)))
      let absent := (fromkeys wanted).filter (fun name => by_id.get? name |>.isNone)
      if absent ≠ [] then
        throw (.replay_error (missing ++ ", ".intercalate (absent.insertionSort (· ≤ ·))))
      return wanted.filterMap by_id.get?
  | _ => .error (.replay_error malformed)

def _parse_claims (payload : List (String × Json)) (path : String) (wanted : List String) :
    Except ReplayFault (List SnapshotClaim) :=
  parse_wanted ("snapshot " ++ path ++ " has a malformed 'claims' list")
    ("snapshot " ++ path ++ " does not contain claim(s) the receipt names: ")
    (Json.get? payload "claims") (parse_claim printing path) SnapshotClaim.claim_id wanted

def _parse_evidence (payload : List (String × Json)) (path : String) (wanted : List String) :
    Except ReplayFault (List SnapshotEvidence) :=
  parse_wanted ("snapshot " ++ path ++ " has a malformed 'evidence' list")
    ("snapshot " ++ path ++ " does not contain evidence the receipt names: ")
    (Json.get? payload "evidence") (parse_evidence_entry printing path) SnapshotEvidence.evidence_id
    wanted

end Snapshot

section Reconstruct

-- `(first.known_at, first.revision_id) > (second.known_at, second.revision_id)`
def supersedes (first second : PolicyRevision) : Bool :=
  second.known_at.val.instant < first.known_at.val.instant ||
    (second.known_at.val.instant = first.known_at.val.instant &&
      second.revision_id < first.revision_id)

def _select_policy (revisions : List PolicyRevision) (consumption_time : Datetime) :
    Option PolicyRevision :=
  firstMin supersedes (revisions.filter (fun revision => no_later revision.known_at consumption_time))

-- `max(snapshot.activated_at, policy_rev.known_at)`
def known_time_of (snapshot : WorldSnapshot) (policy_rev : PolicyRevision) : Datetime :=
  if snapshot.activated_at.val.instant < policy_rev.known_at.val.instant then policy_rev.known_at
  else snapshot.activated_at

def assemble (receipt : ConsumptionReceipt) (snapshot : WorldSnapshot) (claims : List SnapshotClaim)
    (evidence : List SnapshotEvidence) (policy_rev : PolicyRevision) :
    Except ReplayFault ContextPackage :=
  if receipt.requested_at.instant < (known_time_of snapshot policy_rev).instant then
    .error (.replay_error ("inconsistent history: parts of this context were only known at " ++
      String.ofList (known_time_of snapshot policy_rev).isoformat ++
      ", after the receipt was served at " ++ String.ofList receipt.requested_at.isoformat))
  else
    .ok { receipt, world_state := snapshot, claims, evidence, policy_rev
          valid_time := snapshot.built_at, known_time := known_time_of snapshot policy_rev
          consumption_time := receipt.requested_at }

def reconstruct_context (history : WorldHistory) (printing : Printing) (receipt : ConsumptionReceipt)
    (policy_revisions : List PolicyRevision) : Except ReplayFault ContextPackage := do
  let (payload, path) ← _load_snapshot history receipt.world_state_id.value
  let snapshot ← _parse_snapshot printing payload path receipt.world_state_id.value
  let claims ← _parse_claims printing payload path (receipt.claim_ids.map StrippedText.value)
  let evidence ← _parse_evidence printing payload path (receipt.evidence_ids.map StrippedText.value)
  match _select_policy policy_revisions receipt.requested_at with
  | none =>
      .error (.replay_error ("no policy revision was known at " ++
        String.ofList receipt.requested_at.isoformat ++
        "; the earliest recorded one postdates this consumption"))
  | some policy_rev => assemble receipt snapshot claims evidence policy_rev

end Reconstruct

section Stable

theorem filter_added {α : Type*} {late : α → Prop} {keeps : α → Bool}
    (hlate : ∀ item, late item → keeps item = false) {items more : List α}
    (hadded : Added late items more) : more.filter keeps = items.filter keeps := by
  induction hadded with
  | nil => rfl
  | keep item hrest ih => rw [List.filter_cons, List.filter_cons, ih]
  | add item hitem hrest ih => rw [List.filter_cons_of_neg (by simp [hlate item hitem]), ih]

-- First known after the moment.
def KnownAfter (moment : Datetime) (revision : PolicyRevision) : Prop :=
  moment.lt? revision.known_at = .ok true

theorem select_added {moment : Datetime} {revisions more : List PolicyRevision}
    (hadded : Added (KnownAfter moment) revisions more) :
    _select_policy more moment = _select_policy revisions moment := by
  have hlate : ∀ revision, KnownAfter moment revision →
      no_later revision.known_at moment = false := by
    intro revision hafter
    unfold KnownAfter Datetime.lt? at hafter
    split at hafter
    · simpa [no_later] using hafter
    · cases hafter
  rw [_select_policy, _select_policy, filter_added hlate hadded]

theorem reconstruct_added (history : WorldHistory) (printing : Printing)
    (receipt : ConsumptionReceipt) {revisions more : List PolicyRevision}
    (hadded : Added (KnownAfter receipt.requested_at) revisions more) :
    reconstruct_context history printing receipt more =
      reconstruct_context history printing receipt revisions := by
  rw [reconstruct_context, reconstruct_context, select_added hadded]

theorem assemble_ok {receipt : ConsumptionReceipt} {snapshot : WorldSnapshot}
    {claims : List SnapshotClaim} {evidence : List SnapshotEvidence} {policy_rev : PolicyRevision}
    {package : ContextPackage} (h : assemble receipt snapshot claims evidence policy_rev = .ok package) :
    package.consumption_time = receipt.requested_at ∧
      package.known_time.instant ≤ package.consumption_time.instant := by
  unfold assemble at h
  split at h
  · cases h
  · rename_i hknown
    cases h
    exact ⟨rfl, not_lt.mp hknown⟩

theorem known_time_no_later {history : WorldHistory} {printing : Printing}
    {receipt : ConsumptionReceipt} {revisions : List PolicyRevision} {package : ContextPackage}
    (h : reconstruct_context history printing receipt revisions = .ok package) :
    package.consumption_time = receipt.requested_at ∧
      package.known_time.instant ≤ package.consumption_time.instant := by
  unfold reconstruct_context at h
  obtain ⟨⟨payload, path⟩, -, h⟩ := Method.of_bind_eq_ok h
  obtain ⟨snapshot, -, h⟩ := Method.of_bind_eq_ok h
  obtain ⟨claims, -, h⟩ := Method.of_bind_eq_ok h
  obtain ⟨evidence, -, h⟩ := Method.of_bind_eq_ok h
  split at h
  · cases h
  · exact assemble_ok h

end Stable

theorem replay_stable :
    (∀ (query : AsOf) (moment : Datetime) (facts more : List TemporalFact),
      query.known_at = some moment → Added (RecordedAfter moment) facts more →
        TemporalTimeline.as_of ⟨more⟩ query = TemporalTimeline.as_of ⟨facts⟩ query) ∧
    (∀ (history : WorldHistory) (printing : Printing) (receipt : ConsumptionReceipt)
      (revisions more : List PolicyRevision), Added (KnownAfter receipt.requested_at) revisions more →
        reconstruct_context history printing receipt more =
          reconstruct_context history printing receipt revisions) ∧
    (∀ (history : WorldHistory) (printing : Printing) (receipt : ConsumptionReceipt)
      (revisions : List PolicyRevision) (package : ContextPackage),
      reconstruct_context history printing receipt revisions = .ok package →
        package.consumption_time = receipt.requested_at ∧
          package.known_time.instant ≤ package.consumption_time.instant) := by
  exact ⟨fun query moment facts more hquery hadded => as_of_added hquery hadded,
    fun history printing receipt revisions more hadded =>
      reconstruct_added history printing receipt hadded,
    fun history printing receipt revisions package h => known_time_no_later h⟩

section Backdated

def moment_of (text : String) (hread : (Datetime.fromisoformat text.toList).isSome = true) : Datetime :=
  (Datetime.fromisoformat text.toList).get hread

def served_at : Datetime := moment_of "2019-05-06T08:00:00+00:00" (by decide +kernel)

def recorded_at : Datetime := moment_of "2019-06-01T00:00:00+02:00" (by decide +kernel)

def compiled_at : Datetime := moment_of "2019-05-01T00:00:00+00:00" (by decide +kernel)

def snapshot_text : String :=
  "\x7b\"world_state_id\":\"ws_1\",\"workspace_id\":\"acme\",\"compiler_version\":\"1\"," ++
    "\"built_at\":\"2019-05-02T00:00:00+00:00\",\"activated_at\":\"2019-05-03T00:00:00+00:00\"," ++
    "\"claims\":[\x7b\"claim_id\":\"c1\",\"text\":\"30 days\"\x7d],\"evidence\":[]\x7d"

def one_world : WorldHistory where
  read := fun name => if name = "ws_1.json" then some (Utf8.encode snapshot_text.toList) else none
  directory := "history"
  path := fun name => "history/" ++ name

def plain : Printing := ⟨fun _ => "", fun _ => ""⟩

def text_field (value : String) (hstripped : Text.strip value.toList = value.toList)
    (hnonempty : value ≠ "") : StrippedText := ⟨value, hstripped, hnonempty⟩

def answered : ConsumptionReceipt where
  receipt_id := text_field "r1" (by decide) (by decide)
  consumer_type := .ASK
  consumer_id := text_field "agent" (by decide) (by decide)
  request_id := text_field "q1" (by decide) (by decide)
  query_tool := text_field "ask" (by decide) (by decide)
  requested_at := served_at
  world_state_id := text_field "ws_1" (by decide) (by decide)
  claim_ids := [text_field "c1" (by decide) (by decide)]
  evidence_ids := []
  permission_snapshot_ref := text_field "perm" (by decide) (by decide)
  policy_revision := text_field "rev" (by decide) (by decide)
  outcome := .CURRENT
  response_artifact_hash := text_field "hash" (by decide) (by decide)
  model_identity := none
  is_utc := by decide +kernel

-- A policy in force from the start, and one recorded after the answer that says it was.
def in_force : PolicyRevision where
  revision_id := "rev_a"
  known_at := ⟨compiled_at, by decide +kernel⟩
  named := by decide

def backdated : PolicyRevision where
  revision_id := "rev_b"
  known_at := ⟨recorded_at, by decide +kernel⟩
  valid_from := some ⟨compiled_at, by decide +kernel⟩
  named := by decide

def term_fact (value : String) (known : Datetime) : TemporalFact where
  logical_id := "term"
  value := value
  recorded_at := some known
  valid_in_order := inOrder_none
  known_in_order := by rintro _ _ _ h; cases h
  dated := by decide

def snapshot_members : List (String × Json) :=
  [("world_state_id", .str "ws_1"), ("workspace_id", .str "acme"), ("compiler_version", .str "1"),
    ("built_at", .str "2019-05-02T00:00:00+00:00"),
    ("activated_at", .str "2019-05-03T00:00:00+00:00"),
    ("claims", .arr [.obj [("claim_id", .str "c1"), ("text", .str "30 days")]]), ("evidence", .arr [])]

-- The text is not evaluated where its bytes are read back.
theorem load_one_world :
    _load_snapshot one_world "ws_1" = .ok (snapshot_members, "history/ws_1.json") := by
  have htext : snapshot_text.toList = Json.text (.obj snapshot_members) := by decide +kernel
  have hreturn : '\r' ∉ Json.text (.obj snapshot_members) := by decide +kernel
  have hread : one_world.read ("ws_1" ++ ".json") =
      some (Utf8.encode (Json.text (.obj snapshot_members))) := by
    rw [← htext]
    rfl
  have hloads : Json.loads (Json.text (.obj snapshot_members)) = some (.obj snapshot_members) :=
    Json.loads_text _ (by decide)
  have hpath : one_world.path ("ws_1" ++ ".json") = "history/ws_1.json" := by decide
  rw [_load_snapshot]
  simp only [hread, Utf8.decode_encode, Option.bind_some, Text.universalNewlines_of_not_mem hreturn,
    hloads, hpath]

theorem backdated_policy_has_no_vote :
    TemporalTimeline.as_of ⟨[term_fact "60 days" recorded_at, term_fact "30 days" compiled_at]⟩
        { known_at := some served_at } =
      TemporalTimeline.as_of ⟨[term_fact "30 days" compiled_at]⟩ { known_at := some served_at } ∧
    reconstruct_context one_world plain answered [backdated, in_force] =
      reconstruct_context one_world plain answered [in_force] ∧
    ∃ package, reconstruct_context one_world plain answered [in_force] = .ok package ∧
      package.known_time.instant ≤ package.consumption_time.instant := by
  refine ⟨replay_stable.1 _ served_at _ _ rfl
      (.add _ ⟨recorded_at, rfl, by decide +kernel⟩ (.keep _ .nil)),
    replay_stable.2.1 _ _ _ _ _ (.add _ (by unfold KnownAfter; decide +kernel) (.keep _ .nil)), ?_⟩
  have hok : (reconstruct_context one_world plain answered [in_force]).isOk = true := by
    have hload : _load_snapshot one_world answered.world_state_id.value =
        .ok (snapshot_members, "history/ws_1.json") := load_one_world
    rw [reconstruct_context, hload]
    decide +kernel
  cases h : reconstruct_context one_world plain answered [in_force] with
  | error fault =>
      rw [h] at hok
      cases hok
  | ok package => exact ⟨package, rfl, (replay_stable.2.2 _ _ _ _ package h).2⟩

end Backdated

end KnowledgeCompiler.Temporal
