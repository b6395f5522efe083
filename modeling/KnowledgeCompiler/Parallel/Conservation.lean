import KnowledgeCompiler.Parallel.Balance

namespace KnowledgeCompiler.Parallel

open Lib Method CreditEntry

namespace CreditLedger

section Answers

variable {hasher : Hasher} {ledger next : CreditLedger} {call : Call} {answer : Answer}

theorem Action.keys (haction : Action hasher ledger call answer next) : next.keys = ledger.keys := by
  cases haction <;> rfl

theorem Action.own (haction : Action hasher ledger call answer next) : call.own answer = true := by
  cases haction <;> rfl

theorem Action.entries (haction : Action hasher ledger call answer next) :
    ledger.entries <+: next.entries := by
  cases haction with
  | unbilled => exact List.prefix_refl _
  | reserved => exact List.prefix_append _ _
  | charged => exact List.prefix_append _ _
  | measured => exact List.prefix_append _ _
  | released => exact List.prefix_append _ _

theorem Action.recorded (haction : Action hasher ledger call answer next) {result : SettlementResult}
    {entry : CreditEntry} (hanswer : answer = .settlement result) (hentry : result.entry = some entry) :
    entry ∈ next.entries := by
  cases haction with
  | unbilled arguments result hnone =>
    obtain rfl := Answer.settlement.inj hanswer
    rw [hnone] at hentry
    cases hentry
  | charged arguments state made result hamount hstate hfirst hle htype hreservation hwork hmade =>
    obtain rfl := Answer.settlement.inj hanswer
    obtain rfl := Option.some.inj (hmade.symm.trans hentry)
    exact List.mem_append_right _ (List.mem_singleton_self _)
  | reserved => cases hanswer
  | measured => cases hanswer
  | released => cases hanswer

-- A reservation is there before, or the call has opened it.
theorem Action.opened (haction : Action hasher ledger call answer next) {reservation_id : String}
    (hsome : (next.reservations.get? reservation_id).isSome) :
    (ledger.reservations.get? reservation_id).isSome ∨
      ∃ arguments, call = .reserve arguments ∧
        reservation_id = reservation_id_of hasher arguments := by
  cases haction with
  | reserved arguments reservation entry hamount htype =>
    simp only [Dict.get?_set] at hsome
    split at hsome
    · rename_i heq
      exact Or.inr ⟨arguments, rfl, heq⟩
    · exact Or.inl hsome
  | unbilled => exact Or.inl hsome
  | measured => exact Or.inl hsome
  | charged arguments state entry result hamount hstate hfirst hle htype hreservation hwork hentry =>
    simp only [Dict.get?_set] at hsome
    split at hsome
    · rename_i heq
      rw [heq, hstate]
      exact Or.inl rfl
    · exact Or.inl hsome
  | released arguments state entry hstate hamount htype =>
    simp only [Dict.get?_set] at hsome
    split at hsome
    · rename_i heq
      rw [heq, hstate]
      exact Or.inl rfl
    · exact Or.inl hsome

end Answers

variable (hasher : Hasher)

-- The hash tells apart what the calls of one idempotency key ask for, and the
-- reservations the calls open.
structure Collisionless (calls : List Call) : Prop where
  documents : ∀ first ∈ calls, ∀ second ∈ calls, first.key = second.key →
    ∀ document act other doing, first.parsed hasher = .ok (document, act) →
      second.parsed hasher = .ok (other, doing) →
        canonical_sha256 hasher document = canonical_sha256 hasher other → document = other
  reservations : ∀ first second, .reserve first ∈ calls → .reserve second ∈ calls →
    reservation_id_of hasher first = reservation_id_of hasher second →
      (first.account_id, first.job_id, first.idempotency_key) =
        (second.account_id, second.job_id, second.idempotency_key)

-- Every answer is kept for a call that asked for it, and every reservation for
-- a call that opened it.
structure Kept (calls : List Call) (ledger : CreditLedger) : Prop where
  answered : ∀ key identity answer, ledger.keys.get? key = some (identity, answer) →
    ∃ call ∈ calls, ∃ document act, call.key = key ∧ call.parsed hasher = .ok (document, act) ∧
      identity = canonical_sha256 hasher document ∧ call.own answer = true
  recorded : ∀ key identity result entry,
    ledger.keys.get? key = some (identity, .settlement result) → result.entry = some entry →
      entry ∈ ledger.entries
  opened : ∀ reservation_id, (ledger.reservations.get? reservation_id).isSome →
    ∃ arguments, .reserve arguments ∈ calls ∧
      reservation_id = reservation_id_of hasher arguments ∧
      (ledger.keys.get? arguments.idempotency_key).isSome

-- What holds between two calls of a run.
structure Sound (calls : List Call) (ledger : CreditLedger) : Prop where
  kept : Kept hasher calls ledger
  consistent : Consistent ledger

-- The ledger after more calls.
def resume (ledger : CreditLedger) (calls : List Call) : CreditLedger :=
  calls.foldl (fun ledger call => (perform hasher call ledger).2) ledger

variable {hasher}

-- An answer kept under the identity of a call is one the call gives.
theorem Kept.own {calls : List Call} {ledger : CreditLedger} (hkept : Kept hasher calls ledger)
    (hfree : Collisionless hasher calls) {call : Call} (hcall : call ∈ calls) {document : Json}
    {act : Method CreditLedger CreditFault Answer} {answer : Answer}
    (hparsed : call.parsed hasher = .ok (document, act))
    (hget : ledger.keys.get? call.key = some (canonical_sha256 hasher document, answer)) :
    call.own answer = true := by
  obtain ⟨other, hother, origin, doing, hkey, hmade, hidentity, hown⟩ :=
    hkept.answered call.key _ answer hget
  obtain rfl := hfree.documents call hcall other hother hkey.symm document act origin doing hparsed
    hmade hidentity
  exact own_of_same_document hasher hparsed hmade hown

theorem Kept.absent {calls : List Call} {ledger : CreditLedger} (hkept : Kept hasher calls ledger)
    (hfree : Collisionless hasher calls) {call : Call} (hcall : call ∈ calls) {document : Json}
    {act : Method CreditLedger CreditFault Answer}
    (hparsed : call.parsed hasher = .ok (document, act))
    (hnew : ∀ identity kept, ledger.keys.get? call.key = some (identity, kept) →
      identity = canonical_sha256 hasher document ∧ call.own kept = false) :
    ledger.keys.get? call.key = none := by
  cases hget : ledger.keys.get? call.key with
  | none => rfl
  | some found =>
    obtain ⟨identity, kept⟩ := found
    obtain ⟨rfl, hnot⟩ := hnew identity kept hget
    rw [hkept.own hfree hcall hparsed hget] at hnot
    cases hnot

theorem Kept.acted {calls : List Call} {ledger next : CreditLedger}
    (hkept : Kept hasher calls ledger) {call : Call} (hcall : call ∈ calls) {document : Json}
    {act : Method CreditLedger CreditFault Answer} {answer : Answer}
    (hparsed : call.parsed hasher = .ok (document, act))
    (haction : Action hasher ledger call answer next) :
    Kept hasher calls
      { next with
        keys := next.keys.set call.key (canonical_sha256 hasher document, answer) } := by
  constructor
  · intro key identity found hget
    rw [Dict.get?_set, haction.keys] at hget
    split at hget
    · rename_i heq
      obtain ⟨rfl, rfl⟩ := Prod.mk.inj (Option.some.inj hget)
      exact ⟨call, hcall, document, act, heq.symm, hparsed, rfl, haction.own⟩
    · exact hkept.answered key identity found hget
  · intro key identity result entry hget hentry
    rw [Dict.get?_set, haction.keys] at hget
    split at hget
    · obtain ⟨-, hanswer⟩ := Prod.mk.inj (Option.some.inj hget)
      exact haction.recorded hanswer hentry
    · exact haction.entries.subset (hkept.recorded key identity result entry hget hentry)
  · intro reservation_id hsome
    simp only [Dict.get?_set, haction.keys]
    cases haction.opened hsome with
    | inl hold =>
      obtain ⟨arguments, hreserve, hid, hset⟩ := hkept.opened reservation_id hold
      refine ⟨arguments, hreserve, hid, ?_⟩
      split
      · rfl
      · exact hset
    | inr hnew =>
      obtain ⟨arguments, rfl, hid⟩ := hnew
      have hkey : arguments.idempotency_key = (Call.reserve arguments).key := rfl
      refine ⟨arguments, hcall, hid, ?_⟩
      rw [if_pos hkey]
      rfl

-- A reservation is opened once: its own call would have been answered before.
theorem Kept.unopened {calls : List Call} {ledger : CreditLedger}
    (hkept : Kept hasher calls ledger) (hfree : Collisionless hasher calls)
    {arguments : ReserveArguments} (hcall : .reserve arguments ∈ calls)
    (habsent : ledger.keys.get? arguments.idempotency_key = none) :
    ledger.reservations.get? (reservation_id_of hasher arguments) = none := by
  by_contra hopen
  obtain ⟨earlier, hearlier, hid, hset⟩ :=
    hkept.opened _ (Option.isSome_iff_ne_none.mpr hopen)
  have hsame := hfree.reservations arguments earlier hcall hearlier hid
  have hkey : arguments.idempotency_key = earlier.idempotency_key :=
    (Prod.mk.inj (Prod.mk.inj hsame).2).2
  rw [← hkey, habsent] at hset
  cases hset

theorem consistent_of_fields {ledger other : CreditLedger} (hconsistent : Consistent ledger)
    (hreservations : other.reservations = ledger.reservations)
    (hentries : other.entries = ledger.entries)
    (hcharged : other.charged_work = ledger.charged_work) : Consistent other := by
  obtain ⟨hbooked, hfounded, hcharges, htraced, honce⟩ := hconsistent
  constructor
  · rwa [hreservations, hentries]
  · rwa [hreservations, hentries]
  · rwa [hcharged, hentries]
  · rwa [hentries]
  · rwa [hentries]

theorem sound_empty (calls : List Call) : Sound hasher calls {} := by
  constructor
  · constructor <;> simp
  · exact consistent_empty

theorem Sound.outcome {calls : List Call} {ledger next : CreditLedger} {call : Call}
    {result : Except CreditFault Answer} (hsound : Sound hasher calls ledger)
    (hfree : Collisionless hasher calls) (hcall : call ∈ calls)
    (houtcome : Outcome hasher ledger call result next) : Sound hasher calls next := by
  cases houtcome with
  | raised => exact hsound
  | repeated => exact hsound
  | acted document act answer next hparsed hnew haction =>
    have habsent := hsound.kept.absent hfree hcall hparsed hnew
    constructor
    · exact hsound.kept.acted hcall hparsed haction
    · have hnext : Consistent next := by
        apply hsound.consistent.action _ haction
        rintro arguments rfl
        exact hsound.kept.unopened hfree hcall habsent
      exact consistent_of_fields hnext rfl rfl rfl

-- What is kept under a key stays.
theorem Sound.persists {calls : List Call} {ledger next : CreditLedger} {call : Call}
    {result : Except CreditFault Answer} (hsound : Sound hasher calls ledger)
    (hfree : Collisionless hasher calls) (hcall : call ∈ calls)
    (houtcome : Outcome hasher ledger call result next) {key : String} {kept : String × Answer}
    (hget : ledger.keys.get? key = some kept) : next.keys.get? key = some kept := by
  cases houtcome with
  | raised => exact hget
  | repeated => exact hget
  | acted document act answer next hparsed hnew haction =>
    have habsent := hsound.kept.absent hfree hcall hparsed hnew
    have hne : key ≠ call.key := by
      rintro rfl
      rw [habsent] at hget
      cases hget
    rw [← haction.keys] at hget
    rwa [Dict.get?_set_of_ne _ _ hne]

theorem Sound.resume {calls more : List Call} {ledger : CreditLedger}
    (hsound : Sound hasher calls ledger) (hfree : Collisionless hasher calls)
    (hmore : more ⊆ calls) : Sound hasher calls (CreditLedger.resume hasher ledger more) := by
  induction more generalizing ledger with
  | nil => exact hsound
  | cons call more ih =>
    obtain ⟨hcall, hrest⟩ := List.cons_subset.mp hmore
    exact ih (hsound.outcome hfree hcall (CreditLedger.outcome hasher call ledger)) hrest

theorem Sound.persists_resume {calls more : List Call} {ledger : CreditLedger}
    (hsound : Sound hasher calls ledger) (hfree : Collisionless hasher calls)
    (hmore : more ⊆ calls) {key : String} {kept : String × Answer}
    (hget : ledger.keys.get? key = some kept) :
    (CreditLedger.resume hasher ledger more).keys.get? key = some kept := by
  induction more generalizing ledger with
  | nil => exact hget
  | cons call more ih =>
    obtain ⟨hcall, hrest⟩ := List.cons_subset.mp hmore
    have houtcome := CreditLedger.outcome hasher call ledger
    exact ih (hsound.outcome hfree hcall houtcome) hrest
      (hsound.persists hfree hcall houtcome hget)

theorem sound_run {calls done : List Call} (hfree : Collisionless hasher calls)
    (hdone : done ⊆ calls) : Sound hasher calls (run hasher done) :=
  (sound_empty calls).resume hfree hdone

-- The same call at another time.
def Call.again : Call → Datetime → Call
  | .reserve arguments, occurred_at => .reserve { arguments with occurred_at }
  | .settle_work arguments, occurred_at => .settle_work { arguments with occurred_at }
  | .record_compute_telemetry arguments, occurred_at =>
      .record_compute_telemetry { arguments with occurred_at }
  | .release_remaining arguments, occurred_at => .release_remaining { arguments with occurred_at }

theorem key_again (call : Call) (occurred_at : Datetime) : (call.again occurred_at).key = call.key := by
  cases call <;> rfl

theorem own_again (call : Call) (occurred_at : Datetime) : (call.again occurred_at).own = call.own := by
  cases call <;> rfl

-- A call's document does not say when it is made.
theorem parsed_again {call : Call} {document : Json} {act : Method CreditLedger CreditFault Answer}
    {occurred_at : Datetime} (hparsed : call.parsed hasher = .ok (document, act))
    (hoffset : occurred_at.utcoffset.isSome = true) :
    ∃ doing, (call.again occurred_at).parsed hasher = .ok (document, doing) := by
  have haware : aware occurred_at = .ok () := by
    apply refuse_if_ok
    rw [Option.isNone_eq_false_iff.mpr hoffset]
    exact Bool.false_ne_true
  cases call with
  | reserve arguments =>
    obtain ⟨amount, hamount, hrest⟩ := of_bind_eq_ok hparsed
    obtain ⟨_, _, hmade⟩ := of_bind_eq_ok hrest
    obtain ⟨rfl, rfl⟩ := Prod.mk.inj (Except.ok.inj hmade)
    simp only [Call.again, Call.parsed, hamount, haware]
    exact ⟨_, rfl⟩
  | settle_work arguments =>
    obtain ⟨canonical_credits, hamount, hrest⟩ := of_bind_eq_ok hparsed
    obtain ⟨_, _, hmade⟩ := of_bind_eq_ok hrest
    obtain ⟨rfl, rfl⟩ := Prod.mk.inj (Except.ok.inj hmade)
    simp only [Call.again, Call.parsed, hamount, haware]
    exact ⟨_, rfl⟩
  | record_compute_telemetry arguments =>
    obtain ⟨gpu_seconds, hseconds, hrest⟩ := of_bind_eq_ok hparsed
    obtain ⟨provider_cost, hcost, hlast⟩ := of_bind_eq_ok hrest
    obtain ⟨_, _, hmade⟩ := of_bind_eq_ok hlast
    obtain ⟨rfl, rfl⟩ := Prod.mk.inj (Except.ok.inj hmade)
    simp only [Call.again, Call.parsed, hseconds, hcost, haware]
    exact ⟨_, rfl⟩
  | release_remaining arguments =>
    obtain ⟨_, _, hmade⟩ := of_bind_eq_ok hparsed
    obtain ⟨rfl, rfl⟩ := Prod.mk.inj (Except.ok.inj hmade)
    simp only [Call.again, Call.parsed, haware]
    exact ⟨_, rfl⟩

theorem perform_kept {call : Call} {ledger : CreditLedger} {document : Json} {answer : Answer}
    {act : Method CreditLedger CreditFault Answer}
    (hparsed : call.parsed hasher = .ok (document, act))
    (hget : ledger.keys.get? call.key = some (canonical_sha256 hasher document, answer))
    (hown : call.own answer = true) : perform hasher call ledger = (.ok answer, ledger) := by
  apply eq_of_ends
  rw [perform_eq, hparsed, check_ok, returns_bind]
  simp only [answered_once, idempotent, ends_bind, ends_self, hget, ends_require, ends_returns,
    Option.filter_some, hown, if_true]
  exact ⟨fun _ => ⟨trivial, trivial⟩, fun hne => hne trivial⟩

-- A call that returns leaves its answer kept under its key.
theorem answer_kept {ledger : CreditLedger} {call : Call} {answer : Answer}
    (hanswer : (perform hasher call ledger).1 = .ok answer) :
    ∃ document act, call.parsed hasher = .ok (document, act) ∧ call.own answer = true ∧
      (perform hasher call ledger).2.keys.get? call.key =
        some (canonical_sha256 hasher document, answer) := by
  have houtcome := outcome hasher call ledger
  rw [hanswer] at houtcome
  generalize (perform hasher call ledger).2 = next at houtcome
  cases houtcome with
  | repeated document act _ hparsed hkept hown => exact ⟨document, act, hparsed, hown, hkept⟩
  | acted document act _ next hparsed hnew haction =>
    exact ⟨document, act, hparsed, haction.own, Dict.get?_set_self _ _ _⟩

theorem perform_raised {call : Call} {ledger : CreditLedger} {error : CreditFault}
    (herror : (perform hasher call ledger).1 = .error error) :
    (perform hasher call ledger).2 = ledger := by
  have houtcome := outcome hasher call ledger
  rw [herror] at houtcome
  generalize (perform hasher call ledger).2 = next at houtcome
  cases houtcome with
  | raised => rfl

-- Work that is charged is not charged again, whatever the new call says.
theorem Consistent.charged_again {ledger : CreditLedger} (hconsistent : Consistent ledger)
    {arguments : SettleArguments} {entry : CreditEntry} (hentry : entry ∈ ledger.entries)
    (hcharge : entry.is_charge arguments.reservation_id arguments.work_key = true) :
    (perform hasher (.settle_work arguments) ledger).2.reservations = ledger.reservations ∧
      (perform hasher (.settle_work arguments) ledger).2.entries = ledger.entries := by
  have houtcome := outcome hasher (.settle_work arguments) ledger
  generalize (perform hasher (.settle_work arguments) ledger).1 = result at houtcome
  generalize (perform hasher (.settle_work arguments) ledger).2 = next at houtcome
  cases houtcome with
  | raised => exact ⟨rfl, rfl⟩
  | repeated => exact ⟨rfl, rfl⟩
  | acted document act answer next hparsed hnew haction =>
    cases haction with
    | unbilled => exact ⟨rfl, rfl⟩
    | charged _ state made result hamount hstate hfirst =>
      have hsome := hconsistent.charged entry hentry _ _ hcharge
      rw [hfirst] at hsome
      cases hsome

-- The books of a reservation, in exact amounts.
structure Balanced (entries : List CreditEntry) (reservation_id : String) (state : ReservationState) :
    Prop where
  finite : ∀ amount ∈ [state.reservation.reserved_credits, state.consumed, state.released,
    state.available], amount.is_finite = true
  conserved : state.consumed.toRat + state.released.toRat + state.available.toRat =
    state.reservation.reserved_credits.toRat
  nonnegative : 0 ≤ state.available.toRat
  summed : state.consumed.toRat = consumed_total entries reservation_id

theorem Consistent.balanced {ledger : CreditLedger} (hconsistent : Consistent ledger)
    {reservation_id : String} {state : ReservationState}
    (hstate : ledger.reservations.get? reservation_id = some state) :
    Balanced ledger.entries reservation_id state := by
  obtain ⟨reserved, consumed, released, hbooks, hsum⟩ :=
    hconsistent.booked reservation_id state hstate
  constructor
  · simp [hbooks.reserved_units.is_finite, hbooks.consumed_units.is_finite,
      hbooks.released_units.is_finite, hbooks.available.is_finite]
  · exact hbooks.balance
  · exact hbooks.available.toRat_nonneg
  · exact hsum

-- A call is answered the same way again after any more calls, and changes nothing then.
theorem answered_again {before after : List Call} {call : Call} {answer : Answer}
    {occurred_at : Datetime} (hfree : Collisionless hasher (before ++ call :: after))
    (hanswer : (perform hasher call (run hasher before)).1 = .ok answer)
    (hoffset : occurred_at.utcoffset.isSome = true) :
    perform hasher (call.again occurred_at) (run hasher (before ++ call :: after)) =
      (.ok answer, run hasher (before ++ call :: after)) := by
  obtain ⟨document, act, hparsed, hown, hget⟩ := answer_kept hanswer
  obtain ⟨doing, hagain⟩ := parsed_again hparsed hoffset
  have hsplit : run hasher (before ++ call :: after) =
      resume hasher (perform hasher call (run hasher before)).2 after := by
    simp [run, resume]
  have hbefore : Sound hasher (before ++ call :: after) (run hasher before) :=
    sound_run hfree (List.subset_append_left _ _)
  have hcall : call ∈ before ++ call :: after :=
    List.mem_append_right _ List.mem_cons_self
  have hafter : after ⊆ before ++ call :: after := fun other hother =>
    List.mem_append_right _ (List.mem_cons_of_mem _ hother)
  have hmiddle := hbefore.outcome hfree hcall (outcome hasher call (run hasher before))
  have hkept := hmiddle.persists_resume hfree hafter hget
  rw [← hsplit, ← key_again call occurred_at] at hkept
  exact perform_kept hagain hkept (own_again call occurred_at ▸ hown)

variable (hasher)

theorem credits_conserved (calls : List Call) (hfree : Collisionless hasher calls) :
    let ledger := run hasher calls
    (∀ reservation_id state, ledger.reservations.get? reservation_id = some state →
      Balanced ledger.entries reservation_id state) ∧
    (∀ reservation_id work_key,
      ledger.entries.countP (·.is_charge reservation_id work_key) ≤ 1) ∧
    (∀ entry ∈ ledger.entries, entry.entry_type = .CONSUMED →
      entry.work_key.isSome ∧ (ledger.reservations.get? entry.reservation_id).isSome) ∧
    (∀ before call after answer occurred_at, calls = before ++ call :: after →
      (perform hasher call (run hasher before)).1 = .ok answer →
        occurred_at.utcoffset.isSome →
          perform hasher (call.again occurred_at) ledger = (.ok answer, ledger) ∧
            ∀ result entry, answer = .settlement result → result.entry = some entry →
              entry ∈ ledger.entries) ∧
    (∀ arguments, ∀ entry ∈ ledger.entries,
      entry.is_charge arguments.reservation_id arguments.work_key →
        let next := (perform hasher (.settle_work arguments) ledger).2
        next.reservations = ledger.reservations ∧ next.entries = ledger.entries) ∧
    (∀ call error, (perform hasher call ledger).1 = .error error →
      (perform hasher call ledger).2 = ledger) := by
  have hsound := sound_run hfree (List.Subset.refl calls)
  refine ⟨?_, ?_, ?_, ?_, ?_, ?_⟩
  · intro reservation_id state hstate
    exact hsound.consistent.balanced hstate
  · exact hsound.consistent.once
  · intro entry hentry hconsumed
    exact ⟨hsound.consistent.traced entry hentry hconsumed,
      hsound.consistent.founded entry hentry hconsumed⟩
  · rintro before call after answer occurred_at rfl hanswer hoffset
    have hagain := answered_again hfree hanswer hoffset
    refine ⟨hagain, ?_⟩
    rintro result entry rfl hentry
    obtain ⟨document, _, -, -, hget⟩ := answer_kept (congrArg Prod.fst hagain)
    rw [hagain] at hget
    exact hsound.kept.recorded _ _ result entry hget hentry
  · intro arguments entry hentry hcharge
    exact hsound.consistent.charged_again hentry hcharge
  · intro call error herror
    exact perform_raised herror

section Page

-- One page of work under a ceiling of five credits.

def billed_at : Datetime where
  year := 2024
  month := 5
  day := 6
  hour := 7
  minute := 8
  second := 0
  microsecond := 0
  utcoffset := some 7200000000
  year_range := Datetime.year_2024
  month_range := by decide
  day_range := by decide
  time_range := by decide
  offset_range := Datetime.offset_two_hours

def page_ceiling : ReserveArguments where
  account_id := "account"
  job_id := "job"
  amount := .finite false 5 0
  occurred_at := billed_at
  idempotency_key := "reserve"

def page_work : SettleArguments where
  reservation_id := reservation_id_of hasher page_ceiling
  work_key := "page"
  attempt_id := "attempt"
  attempt_kind := .PRIMARY
  verification_state := .VERIFIED
  canonical_credits := .finite false 2 0
  occurred_at := billed_at
  idempotency_key := "settle"

def page_calls : List Call := [.reserve page_ceiling, .settle_work (page_work hasher)]

theorem page_collisionless : Collisionless hasher (page_calls hasher) := by
  constructor
  · intro first hfirst second hsecond hkey document act other doing hparsed hmade _
    have hsame : first = second := by
      simp only [page_calls, List.mem_cons, List.not_mem_nil, or_false] at hfirst hsecond
      rcases hfirst with rfl | rfl
      · rcases hsecond with rfl | rfl
        · rfl
        · exact absurd hkey (by simp [Call.key, page_ceiling, page_work])
      · rcases hsecond with rfl | rfl
        · exact absurd hkey (by simp [Call.key, page_ceiling, page_work])
        · rfl
    rw [hsame, hmade] at hparsed
    exact (Prod.mk.inj (Except.ok.inj hparsed)).1.symm
  · intro first second hfirst hsecond _
    simp only [page_calls, List.mem_cons, Call.reserve.injEq, reduceCtorEq, List.not_mem_nil,
      or_false] at hfirst hsecond
    rw [hfirst, hsecond]

theorem page_settled :
    ∃ state, (run hasher (page_calls hasher)).reservations.get?
        (reservation_id_of hasher page_ceiling) = some state ∧
      state.consumed = .finite false 2000000 QUANTUM := by
  obtain ⟨entry, reservation, kept, hopened, hreserved⟩ :
      ∃ entry reservation kept, (perform hasher (.reserve page_ceiling) {}).2 =
        { reservations := Dict.empty.set (reservation_id_of hasher page_ceiling) { reservation }
          keys := Dict.empty.set "reserve" kept
          charged_work := .empty
          entries := [entry] } ∧ reservation.reserved_credits = .finite false 5000000 QUANTUM :=
    ⟨_, _, _, rfl, rfl⟩
  have hcredits : credits (.finite false 2 0) = .ok (.finite false 2000000 QUANTUM) := by
    decide
  have hkey : "settle" ≠ "reserve" := by decide
  have hle : Decimal.toRat (.finite false 2000000 QUANTUM) ≤
      ({ reservation } : ReservationState).available.toRat := by
    simp only [ReservationState.available, hreserved]
    decide +kernel
  have hsum : (Decimal.finite false 0 0).add (.finite false 2000000 QUANTUM) =
      .finite false 2000000 QUANTUM := by decide
  have haware : aware billed_at = .ok () := rfl
  have hverified : VerificationState.VERIFIED ∈ ACCEPTED_VERIFICATION_STATES := by decide
  have hends : Ends
      (fun _ next => ∃ state,
        next.reservations.get? (reservation_id_of hasher page_ceiling) = some state ∧
          state.consumed = .finite false 2000000 QUANTUM)
      (fun _ next => ∃ state,
        next.reservations.get? (reservation_id_of hasher page_ceiling) = some state ∧
          state.consumed = .finite false 2000000 QUANTUM)
      (perform hasher (.settle_work (page_work hasher)))
      (perform hasher (.reserve page_ceiling) {}).2 := by
    rw [hopened]
    simp only [perform, settle_work, page_work, hcredits, haware, check_ok, returns_bind,
      answered_once, idempotent, ends_bind, ends_self, Dict.get?_set_of_ne _ _ hkey,
      Dict.get?_empty, ends_returns, Option.filter_none, settle, state_of, Dict.get?_set_self,
      Option.elim_some, Option.isSome_none, Bool.false_eq_true, if_false, hverified, not_true, charge,
      ends_require, put, append_entry, ends_assign, hle]
    exact ⟨fun _ => ⟨_, rfl, hsum⟩, fun hnot => hnot.elim⟩
  exact hends.state

theorem page_conserved :
    ∃ state, (run sha256 (page_calls sha256)).reservations.get?
        (reservation_id_of sha256 page_ceiling) = some state ∧
      state.consumed = .finite false 2000000 QUANTUM ∧
      Balanced (run sha256 (page_calls sha256)).entries (reservation_id_of sha256 page_ceiling)
        state := by
  obtain ⟨state, hstate, hconsumed⟩ := page_settled sha256
  exact ⟨state, hstate, hconsumed,
    (credits_conserved sha256 (page_calls sha256) (page_collisionless sha256)).1 _ state hstate⟩

end Page

end CreditLedger

end KnowledgeCompiler.Parallel
