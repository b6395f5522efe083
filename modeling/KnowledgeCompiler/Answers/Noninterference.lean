import KnowledgeCompiler.Answers.Compiler
import Mathlib.Data.List.ReduceOption

namespace KnowledgeCompiler.Answers

open Lib World

section Ranking

variable (timestamp : Datetime → Except String Int) (context : ClaimContext)
  (rules : List ResolutionRule)

-- The claim is a candidate, and the tuple places it.
def Placed (claim : ScopedClaim) (tuple : List Int) : Prop :=
  applicable context claim = .ok true ∧
    score timestamp context rules claim = .ok (some (tuple, claim))

-- A candidate that no other candidate is placed above.
def Maximal (claims : List ScopedClaim) (claim : ScopedClaim) : Prop :=
  claim ∈ claims ∧ ∃ tuple, Placed timestamp context rules claim tuple ∧
    ∀ other ∈ claims, ∀ rival, Placed timestamp context rules other rival → rival ≤ tuple

theorem mem_reduceOption_of_mapM {α β : Type} {step : α → Except String (Option β)} {items : List α}
    {values : List (Option β)} (hmap : items.mapM step = .ok values) (value : β) :
    value ∈ values.reduceOption ↔ ∃ item ∈ items, step item = .ok (some value) := by
  rw [List.reduceOption_mem_iff]
  have hall := Method.mapM_eq_ok_iff.mp hmap
  clear hmap
  induction hall with
  | nil => simp
  | @cons item found items values hstep _ ih =>
      simp [ih, hstep, eq_comm]

theorem mem_keep {α : Type} {test : α → Except String Bool} {items kept : List α}
    (hkeep : keep test items = .ok kept) (item : α) :
    item ∈ kept ↔ item ∈ items ∧ test item = .ok true := by
  obtain ⟨values, hvalues, hkept⟩ := Method.of_bind_eq_ok hkeep
  obtain rfl := Except.ok.inj hkept
  rw [mem_reduceOption_of_mapM hvalues]
  have htested : ∀ other, (do pure (if ← test other then some other else none) :
      Except String (Option α)) = .ok (some item) ↔ other = item ∧ test item = .ok true := by
    intro other
    cases htest : test other with
    | error message =>
        refine ⟨fun h => (by cases h), ?_⟩
        rintro ⟨rfl, h⟩
        rw [htest] at h
        cases h
    | ok passed =>
        cases passed with
        | false =>
            refine ⟨fun h => (by cases h), ?_⟩
            rintro ⟨rfl, h⟩
            rw [htest] at h
            cases h
        | true =>
            refine ⟨fun h => ?_, ?_⟩
            · obtain rfl := Option.some.inj (Except.ok.inj h)
              exact ⟨rfl, htest⟩
            · rintro ⟨rfl, -⟩
              rfl
  constructor
  · rintro ⟨other, hother, h⟩
    obtain ⟨rfl, hpass⟩ := (htested other).mp h
    exact ⟨hother, hpass⟩
  · rintro ⟨hitem, hpass⟩
    exact ⟨item, hitem, (htested item).mpr ⟨rfl, hpass⟩⟩

-- Items that the test refuses without raising can be left out before.
theorem keep_filter {α : Type} {test : α → Except String Bool} (likely : α → Bool)
    (hrefused : ∀ item, likely item = false → test item = .ok false) (items : List α) :
    keep test items = keep test (items.filter likely) := by
  induction items with
  | nil => rfl
  | cons item rest ih =>
      have hcons : ∀ others, keep test (item :: others) = (do
          let passed ← test item
          let kept ← keep test others
          pure (if passed then item :: kept else kept)) := by
        intro others
        simp only [keep, List.mapM_cons]
        cases test item with
        | error message => rfl
        | ok passed =>
            cases others.mapM (fun item => do pure (if ← test item then some item else none)) with
            | error message => rfl
            | ok kept => cases passed <;> rfl
      cases hlikely : likely item with
      | false =>
          rw [List.filter_cons_of_neg (by simp [hlikely]), ← ih, hcons, hrefused item hlikely]
          cases keep test rest <;> rfl
      | true => rw [List.filter_cons_of_pos hlikely, hcons, hcons, ih]

theorem rank_claims_visible (claims : List ScopedClaim) :
    rank_claims timestamp context rules claims = rank_claims timestamp context rules
      (claims.filter (fun claim => claim.visible_to context)) := by
  unfold rank_claims
  rw [keep_filter (fun claim => claim.visible_to context)
    (fun claim hhidden => by rw [applicable, if_pos hhidden]; rfl)]

-- Hidden claims enter a resolution through the audit's count only.
theorem resolve_authority_hidden (claims : List ScopedClaim) :
    resolve_authority timestamp context rules claims =
      (resolve_authority timestamp context rules
        (claims.filter (fun claim => claim.visible_to context))).map (fun resolution =>
          { resolution with
            permission_filtered := claims.countP (fun claim => claim.visible_to context = false) }) := by
  unfold resolve_authority
  rw [rank_claims_visible]
  cases rank_claims timestamp context rules
      (claims.filter (fun claim => claim.visible_to context)) with
  | error message => rfl
  | ok ranked =>
      cases ranked with
      | nil => rfl
      | cons best rest =>
          simp only [Except.map, bind, Except.bind, pure, Except.pure]
          split <;> rfl

theorem score_names {claim : ScopedClaim} {pair : Scored}
    (hscore : score timestamp context rules claim = .ok (some pair)) : pair.2 = claim := by
  obtain ⟨override, -, hrest⟩ := Method.of_bind_eq_ok hscore
  split at hrest
  · cases hrest
  · obtain ⟨tuple, -, htuple⟩ := Method.of_bind_eq_ok hrest
    rw [← Option.some.inj (Except.ok.inj htuple)]

variable {claims : List ScopedClaim} {ranked : List Scored}
  (hranked : rank_claims timestamp context rules claims = .ok ranked)

include hranked

theorem mem_rank_claims (tuple : List Int) (claim : ScopedClaim) :
    (tuple, claim) ∈ ranked ↔ claim ∈ claims ∧ Placed timestamp context rules claim tuple := by
  obtain ⟨candidates, hcandidates, hrest⟩ := Method.of_bind_eq_ok hranked
  obtain ⟨scored, hscored, hsorted⟩ := Method.of_bind_eq_ok hrest
  obtain rfl := Except.ok.inj hsorted
  rw [sorted_best_first, List.mem_insertionSort, mem_reduceOption_of_mapM hscored]
  constructor
  · rintro ⟨candidate, hcandidate, hscore⟩
    obtain rfl := score_names timestamp context rules hscore
    obtain ⟨hclaim, happlicable⟩ := (mem_keep hcandidates claim).mp hcandidate
    exact ⟨hclaim, happlicable, hscore⟩
  · rintro ⟨hclaim, happlicable, hscore⟩
    exact ⟨claim, (mem_keep hcandidates claim).mpr ⟨hclaim, happlicable⟩, hscore⟩

theorem rank_claims_sorted :
    ranked.Pairwise (fun first second => sort_key second ≤ sort_key first) := by
  obtain ⟨candidates, -, hrest⟩ := Method.of_bind_eq_ok hranked
  obtain ⟨scored, -, hsorted⟩ := Method.of_bind_eq_ok hrest
  obtain rfl := Except.ok.inj hsorted
  have htotal : Std.Total (fun first second : Scored => sort_key second ≤ sort_key first) :=
    ⟨fun first second => le_total (sort_key second) (sort_key first)⟩
  have htrans : IsTrans Scored (fun first second => sort_key second ≤ sort_key first) :=
    ⟨fun _ _ _ h1 h2 => h2.trans h1⟩
  exact List.pairwise_insertionSort _ _

theorem head_maximal {tuple : List Int} {best : ScopedClaim} {rest : List Scored}
    (hhead : ranked = (tuple, best) :: rest) : Maximal timestamp context rules claims best := by
  have hmem := (mem_rank_claims timestamp context rules hranked tuple best).mp (by simp [hhead])
  refine ⟨hmem.1, tuple, hmem.2, fun other hother rival hplaced => ?_⟩
  have hrival := (mem_rank_claims timestamp context rules hranked rival other).mpr ⟨hother, hplaced⟩
  have hsorted := rank_claims_sorted timestamp context rules hranked
  rw [hhead] at hrival hsorted
  rcases List.mem_cons.mp hrival with hsame | hlater
  · exact (congrArg Prod.fst hsame).le
  · have hkey := List.rel_of_pairwise_cons hsorted hlater
    rcases (Prod.Lex.toLex_le_toLex.mp hkey) with hlt | ⟨heq, -⟩
    · exact hlt.le
    · exact heq.le

end Ranking

section Compile

variable (casefold : String → String) (timestamp : Datetime → Except String Int)
variable (query : String) (registry : WorldStateRegistry) (context : ClaimContext)
  (rules : List ResolutionRule)

def visible_drafts (drafts : List DraftClaim) : List DraftClaim :=
  drafts.filter (DraftClaim.visible context)

-- What a CURRENT answer rests on.
structure RestsOn (visible : List DraftClaim) (active : WorldState) (answer : CompiledAnswer) :
    Prop where
  current : registry.current = some active ∧ active.status = .ACTIVE
  bound : answer.world_state_id = active.world_state_id
  fresh : ∀ draft ∈ visible, draft.world_state_id = active.world_state_id
  governs : ∀ id ∈ answer.claim_ids, ∃ draft ∈ visible, draft.claim.claim_id = id ∧
    Maximal timestamp context rules (visible.map DraftClaim.claim) draft.claim
  cites : ∀ occurrence ∈ answer.evidence_occurrences, occurrence.claim_id ∈ answer.claim_ids ∧
    ∃ draft ∈ visible, draft.claim.claim_id = occurrence.claim_id ∧
      draft.claim.evidence_id = some occurrence.evidence_id

-- The drafts whose evidence the answer cites.
def Cited (visible : List DraftClaim) (answer : CompiledAnswer) (draft : DraftClaim) : Prop :=
  draft ∈ visible ∧ ∃ occurrence ∈ answer.evidence_occurrences,
    draft.claim.claim_id = occurrence.claim_id ∧
      draft.claim.evidence_id = some occurrence.evidence_id

theorem mem_occurrences {drafts : List DraftClaim} {occurrence : EvidenceOccurrence}
    (hmem : occurrence ∈ _occurrences drafts) : ∃ draft ∈ drafts,
      draft.claim.claim_id = occurrence.claim_id ∧
        draft.claim.evidence_id = some occurrence.evidence_id := by
  obtain ⟨draft, hdraft, hcited⟩ := List.mem_filterMap.mp hmem
  obtain ⟨evidence_id, hevidence, rfl⟩ := Option.map_eq_some_iff.mp hcited
  exact ⟨draft, hdraft, rfl, hevidence⟩

theorem fresh_of_audit {drafts : List DraftClaim} {active : WorldState}
    (haudit : audit_freshness drafts active = []) {draft : DraftClaim} (hdraft : draft ∈ drafts) :
    draft.world_state_id = active.world_state_id := by
  have hnone := List.filter_eq_nil_iff.mp (List.map_eq_nil_iff.mp haudit) draft hdraft
  simpa using hnone

-- The resolver settles on a claim only where that claim is a maximal candidate.
theorem resolved_maximal {claims : List ScopedClaim} {resolution : Resolution}
    (hresolve : resolve_authority timestamp context rules claims = .ok resolution)
    (hstatus : resolution.status = .RESOLVED) : ∃ best, resolution.claim = some best ∧
      Maximal timestamp context rules claims best := by
  obtain ⟨ranked, hranked, hrest⟩ := Method.of_bind_eq_ok hresolve
  cases ranked with
  | nil =>
      obtain rfl := Except.ok.inj hrest
      cases hstatus
  | cons head rest =>
      obtain ⟨tuple, best⟩ := head
      simp only at hrest
      split at hrest
      · obtain rfl := Except.ok.inj hrest
        cases hstatus
      · obtain rfl := Except.ok.inj hrest
        exact ⟨best, rfl, head_maximal timestamp context rules hranked rfl⟩

theorem resolved_answer_current {intent : QueryIntent} {active : WorldState}
    {visible : List DraftClaim} {resolution : Resolution}
    (houtcome : (resolved_answer intent active visible resolution).outcome = .CURRENT) :
    ∃ winner, resolution.status = .RESOLVED ∧ resolution.claim = some winner ∧
      (resolved_answer intent active visible resolution).claim_ids = [winner.claim_id] ∧
      (resolved_answer intent active visible resolution).world_state_id = active.world_state_id ∧
      (resolved_answer intent active visible resolution).evidence_occurrences =
        _occurrences (visible.filter (fun draft => draft.claim.claim_id = winner.claim_id)) := by
  cases hstatus : resolution.status with
  | CONFLICTED => simp [resolved_answer, hstatus] at houtcome
  | NO_CANDIDATE => simp [resolved_answer, hstatus] at houtcome
  | RESOLVED =>
      cases hclaim : resolution.claim with
      | none => simp [resolved_answer, hstatus, hclaim] at houtcome
      | some winner => exact ⟨winner, rfl, rfl, by simp [resolved_answer, hstatus, hclaim]⟩

theorem rests_on_of_current {drafts : List DraftClaim} {answer : CompiledAnswer}
    (hcompile : compile_answer casefold timestamp query registry context rules drafts = .ok answer)
    (houtcome : answer.outcome = .CURRENT) :
    ∃ active, RestsOn timestamp registry context rules (visible_drafts context drafts) active
      answer := by
  unfold compile_answer at hcompile
  simp only at hcompile
  split at hcompile
  · obtain rfl := Except.ok.inj hcompile
    cases houtcome
  split at hcompile
  · obtain rfl := Except.ok.inj hcompile
    cases houtcome
  rename_i active hactive
  obtain ⟨hcurrent, hstatus⟩ := Option.filter_eq_some_iff.mp hactive
  split at hcompile
  · obtain rfl := Except.ok.inj hcompile
    cases houtcome
  split at hcompile
  · obtain rfl := Except.ok.inj hcompile
    cases houtcome
  rename_i hfresh
  cases hresolve : resolve_authority timestamp context rules
      ((visible_drafts context drafts).map DraftClaim.claim) with
  | error message =>
      simp only [visible_drafts] at hresolve
      rw [hresolve] at hcompile
      cases hcompile
  | ok resolution =>
      have hanswer := hcompile
      simp only [visible_drafts] at hresolve
      rw [hresolve] at hanswer
      obtain rfl := Except.ok.inj hanswer
      obtain ⟨winner, hresolved, hwinner, hids, hworld, hevidence⟩ :=
        resolved_answer_current houtcome
      obtain ⟨best, hbest, hmaximal⟩ := resolved_maximal timestamp context rules hresolve hresolved
      obtain rfl := Option.some.inj (hwinner.symm.trans hbest)
      refine ⟨active, ⟨hcurrent, of_decide_eq_true hstatus⟩, hworld, fun draft hdraft =>
        fresh_of_audit (not_ne_iff.mp hfresh) hdraft, ?_, ?_⟩
      · intro id hid
        rw [hids, List.mem_singleton] at hid
        obtain ⟨draft, hdraft, hclaim⟩ := List.mem_map.mp hmaximal.1
        exact ⟨draft, hdraft, by rw [hclaim, hid], by rw [hclaim]; exact hmaximal⟩
      · intro occurrence hoccurrence
        rw [hevidence] at hoccurrence
        obtain ⟨draft, hdraft, hclaim, hcited⟩ := mem_occurrences hoccurrence
        obtain ⟨hvisible, hsame⟩ := List.mem_filter.mp hdraft
        rw [hids, List.mem_singleton, ← hclaim]
        exact ⟨of_decide_eq_true hsame, draft, hvisible, rfl, hcited⟩

-- Hidden drafts have no influence on an answer, and a CURRENT answer rests on drafts of
-- the ACTIVE world and on a claim that governs among the visible ones. The evidence it
-- cites is that of every visible draft which bears the governing claim's id.
theorem compile_answer_noninterferent (first second : List DraftClaim)
    (hvisible : visible_drafts context first = visible_drafts context second)
    (hsome : visible_drafts context first ≠ []) :
    compile_answer casefold timestamp query registry context rules first =
        compile_answer casefold timestamp query registry context rules second ∧
      ∀ answer, compile_answer casefold timestamp query registry context rules first =
          .ok answer → answer.outcome = .CURRENT →
        (∃ active, RestsOn timestamp registry context rules (visible_drafts context first) active
          answer) ∧
        ∀ draft, Cited (visible_drafts context first) answer draft →
          (∀ other ∈ visible_drafts context first,
            other.claim.claim_id = draft.claim.claim_id → other.claim = draft.claim) →
          Maximal timestamp context rules ((visible_drafts context first).map DraftClaim.claim)
            draft.claim := by
  have hne : ∀ drafts, visible_drafts context drafts ≠ [] → drafts ≠ [] := by
    rintro _ h rfl
    exact h rfl
  refine ⟨?_, fun answer hcompile houtcome => ?_⟩
  · have hsecond := hne second (hvisible ▸ hsome)
    simp only [visible_drafts] at hvisible
    simp only [compile_answer, if_neg (hne first hsome), if_neg hsecond, hvisible]
  · obtain ⟨active, hrests⟩ :=
      rests_on_of_current casefold timestamp query registry context rules hcompile houtcome
    refine ⟨⟨active, hrests⟩, fun draft hcited hunique => ?_⟩
    obtain ⟨-, occurrence, hoccurrence, hid, -⟩ := hcited
    obtain ⟨governing, hgoverning, hsame, hmaximal⟩ :=
      hrests.governs _ (hrests.cites occurrence hoccurrence).1
    rw [← hunique governing hgoverning (hsame.trans hid.symm)]
    exact hmaximal

-- The claim as it reads: whatever a CURRENT answer cites is maximal.
def CitesMaximal : Prop :=
  ∀ (query : String) (registry : WorldStateRegistry) (context : ClaimContext)
    (rules : List ResolutionRule) (drafts : List DraftClaim) (answer : CompiledAnswer),
    compile_answer casefold timestamp query registry context rules drafts = .ok answer →
    answer.outcome = .CURRENT → ∀ draft, Cited (visible_drafts context drafts) answer draft →
      Maximal timestamp context rules ((visible_drafts context drafts).map DraftClaim.claim)
        draft.claim

end Compile

section Duplicate

-- `str.casefold` on ASCII text.
def ascii_casefold (text : String) : String := String.ofList (text.toList.map Char.toLower)

-- `int(moment.timestamp())` for an aware moment.
def utc_timestamp (moment : Datetime) : Except String Int :=
  if moment.utcoffset.isNone then .error "a naive moment is read in the host's zone"
  else .ok ((moment.instant - 62135683200000000).tdiv 1000000)

def asked_at : Datetime where
  year := 2020
  month := 4
  day := 7
  hour := 13
  minute := 0
  second := 0
  microsecond := 0
  utcoffset := some 32400000000
  year_range := by decide
  month_range := Datetime.month_4
  day_range := by decide
  time_range := by decide
  offset_range := by decide

def published : WorldStateRegistry where
  workspace_id := "wspace"
  states := .ofPairs [("ws_2",
    { world_state_id := "ws_2", workspace_id := "wspace", status := .ACTIVE
      compiler_version := "1", built_at := 0 })]
  current_id := some "ws_2"

def asker : ClaimContext where
  subject := "warranty"
  as_of := asked_at

def statement (authority : AuthorityClass) (evidence_id : String) : DraftClaim where
  claim :=
    { claim_id := "clm_1"
      subject := "warranty"
      value := "three years"
      authority := authority
      evidence_id := some evidence_id }
  world_state_id := "ws_2"

def hidden_statement : DraftClaim where
  claim :=
    { claim_id := "clm_2"
      subject := "warranty"
      value := "five years"
      authority := .REGULATORY
      required_permission := some "legal" }
  world_state_id := "ws_1"

theorem hidden_statement_does_not_interfere :
    ∃ answer, compile_answer ascii_casefold utc_timestamp "warranty?" published asker []
        [hidden_statement, statement .OFFICIAL "ev_1"] = .ok answer ∧
      compile_answer ascii_casefold utc_timestamp "warranty?" published asker []
        [statement .OFFICIAL "ev_1"] = .ok answer ∧
      ∃ active, RestsOn utc_timestamp published asker [] [statement .OFFICIAL "ev_1"] active
        answer := by
  obtain ⟨hsame, hcurrent⟩ := compile_answer_noninterferent ascii_casefold utc_timestamp "warranty?"
    published asker [] [hidden_statement, statement .OFFICIAL "ev_1"]
    [statement .OFFICIAL "ev_1"] rfl nofun
  obtain ⟨answer, hcompile, houtcome⟩ : ∃ answer, compile_answer ascii_casefold utc_timestamp
      "warranty?" published asker [] [hidden_statement, statement .OFFICIAL "ev_1"] = .ok answer ∧
      answer.outcome = .CURRENT := ⟨_, rfl, rfl⟩
  exact ⟨answer, hcompile, hsame ▸ hcompile, (hcurrent answer hcompile houtcome).1⟩

-- One claim id on an official and an informal statement: the official one governs, and
-- the evidence of both is cited.
theorem informal_statement_cited : ¬CitesMaximal ascii_casefold utc_timestamp := by
  intro hcites
  have hvisible : visible_drafts asker [statement .OFFICIAL "ev_1", statement .INFORMAL "ev_2"] =
      [statement .OFFICIAL "ev_1", statement .INFORMAL "ev_2"] := rfl
  obtain ⟨answer, hcompile, houtcome, hevidence⟩ : ∃ answer, compile_answer ascii_casefold
      utc_timestamp "warranty?" published asker []
        [statement .OFFICIAL "ev_1", statement .INFORMAL "ev_2"] = .ok answer ∧
      answer.outcome = .CURRENT ∧ answer.evidence_occurrences =
        [⟨"clm_1", "ev_1", .ACTIVE⟩, ⟨"clm_1", "ev_2", .ACTIVE⟩] := ⟨_, rfl, rfl, rfl⟩
  have hcited : Cited [statement .OFFICIAL "ev_1", statement .INFORMAL "ev_2"] answer
      (statement .INFORMAL "ev_2") :=
    ⟨List.mem_cons_of_mem _ List.mem_cons_self, ⟨"clm_1", "ev_2", .ACTIVE⟩,
      by rw [hevidence]; exact List.mem_cons_of_mem _ List.mem_cons_self, rfl, rfl⟩
  obtain ⟨-, tuple, hplaced, habove⟩ :=
    hcites "warranty?" published asker [] _ answer hcompile houtcome _ (hvisible ▸ hcited)
  rw [hvisible] at habove
  have hofficial : Placed utc_timestamp asker [] (statement .OFFICIAL "ev_1").claim
      [1, 1, 0, 0, 3, 0, 3, 0] := ⟨rfl, rfl⟩
  have hinformal : Placed utc_timestamp asker [] (statement .INFORMAL "ev_2").claim
      [1, 1, 0, 0, 1, 0, 3, 0] := ⟨rfl, rfl⟩
  have htuple : tuple = [1, 1, 0, 0, 1, 0, 3, 0] :=
    congrArg Prod.fst (Option.some.inj (Except.ok.inj (hplaced.2.symm.trans hinformal.2)))
  have hle := habove _ List.mem_cons_self _ hofficial
  rw [htuple] at hle
  exact absurd hle (by decide)

end Duplicate

end KnowledgeCompiler.Answers
