import KnowledgeCompiler.Parallel.Credits

namespace KnowledgeCompiler.Parallel

open Lib Method

theorem credits_isUnits {value amount : Decimal} (hcredits : credits value = .ok amount) :
    ∃ units < 10 ^ Decimal.prec, amount.IsUnits QUANTUM units := by
  unfold credits at hcredits
  split at hcredits
  · split at hcredits
    · cases hcredits
    · rename_i negative coefficient exponent hsign
      split at hcredits
      · cases hcredits
      · rename_i quantized hquantize
        obtain rfl := Except.ok.inj hcredits
        refine Decimal.quantize_isUnits (fun hnegative => ?_) hquantize
        by_contra hzero
        exact hsign ⟨hnegative, hzero⟩
  · cases hcredits

theorem credits_same_units {value amount : Decimal} {units : ℕ} (hunits : value.IsUnits QUANTUM units)
    (hcredits : credits value = .ok amount) : amount.IsUnits QUANTUM units := by
  obtain ⟨negative, exponent, rfl, hsign, hexponent⟩ := hunits
  have hrescale : Decimal.rescale units exponent QUANTUM = units := by
    cases hexponent with
    | inl heq => rw [heq, Decimal.rescale_self]
    | inr hzero => rw [hzero.1, Decimal.rescale_zero]
  simp only [credits, Decimal.quantize, hrescale] at hcredits
  split at hcredits
  · cases hcredits
  · split at hcredits
    · cases hcredits
    · rename_i quantized hquantized
      obtain rfl := Except.ok.inj hcredits
      split at hquantized
      · obtain rfl := Option.some.inj hquantized
        exact ⟨negative, QUANTUM, rfl, hsign, Or.inl rfl⟩
      · cases hquantized

namespace CreditLedger

namespace Call

variable (hasher : Hasher)

def key : Call → String
  | reserve arguments => arguments.idempotency_key
  | settle_work arguments => arguments.idempotency_key
  | record_compute_telemetry arguments => arguments.idempotency_key
  | release_remaining arguments => arguments.idempotency_key

def own : Call → Answer → Bool
  | reserve _ => Answer.is_reservation
  | settle_work _ => Answer.is_settlement
  | record_compute_telemetry _ => Answer.is_entry
  | release_remaining _ => Answer.is_entry

-- What a call's identity is taken over, and what it does when it has not been
-- answered before.
def parsed : Call → Except CreditFault (Json × Method CreditLedger CreditFault Answer)
  | reserve arguments => do
      let amount ← credits arguments.amount
      aware arguments.occurred_at
      .ok (reserve_document arguments amount, open_reservation hasher arguments amount)
  | settle_work arguments => do
      let canonical_credits ← credits arguments.canonical_credits
      aware arguments.occurred_at
      .ok (settle_document arguments canonical_credits, settle hasher arguments canonical_credits)
  | record_compute_telemetry arguments => do
      let gpu_seconds ← credits arguments.gpu_seconds
      let provider_cost ← credits arguments.provider_cost
      aware arguments.occurred_at
      .ok (telemetry_document arguments gpu_seconds provider_cost,
        measure hasher arguments gpu_seconds provider_cost)
  | release_remaining arguments => do
      aware arguments.occurred_at
      .ok (release_document arguments, release hasher arguments)

end Call

variable (hasher : Hasher)

theorem perform_eq (call : Call) :
    perform hasher call = (do
      let (document, act) ← check (call.parsed hasher)
      answered_once call.key (canonical_sha256 hasher document) call.own act) := by
  cases call with
  | reserve arguments =>
    simp only [perform, reserve, Call.parsed, check_bind, check_ok, bind_assoc, returns_bind]
    rfl
  | settle_work arguments =>
    simp only [perform, settle_work, Call.parsed, check_bind, check_ok, bind_assoc, returns_bind]
    rfl
  | record_compute_telemetry arguments =>
    simp only [perform, record_compute_telemetry, Call.parsed, check_bind, check_ok, bind_assoc,
      returns_bind]
    rfl
  | release_remaining arguments =>
    simp only [perform, release_remaining, Call.parsed, check_bind, check_ok, bind_assoc,
      returns_bind]
    rfl

-- What a call that has not been answered before may do to the ledger.
inductive Action (ledger : CreditLedger) : Call → Answer → CreditLedger → Prop
  | reserved (arguments : ReserveArguments) (reservation : CreditReservation) (entry : CreditEntry)
      (hamount : credits arguments.amount = .ok reservation.reserved_credits)
      (htype : entry.entry_type = .RESERVED) :
      Action ledger (.reserve arguments) (.reservation reservation)
        { ledger with
          reservations := ledger.reservations.set (reservation_id_of hasher arguments) { reservation }
          entries := ledger.entries ++ [entry] }
  | unbilled (arguments : SettleArguments) (result : SettlementResult)
      (hentry : result.entry = none) :
      Action ledger (.settle_work arguments) (.settlement result) ledger
  | charged (arguments : SettleArguments) (state : ReservationState) (entry : CreditEntry)
      (result : SettlementResult)
      (hamount : credits arguments.canonical_credits = .ok entry.amount)
      (hstate : ledger.reservations.get? arguments.reservation_id = some state)
      (hfirst : ledger.charged_work.get? (arguments.reservation_id, arguments.work_key) = none)
      (hle : entry.amount.toRat ≤ state.available.toRat)
      (htype : entry.entry_type = .CONSUMED)
      (hreservation : entry.reservation_id = arguments.reservation_id)
      (hwork : entry.work_key = some arguments.work_key)
      (hentry : result.entry = some entry) :
      Action ledger (.settle_work arguments) (.settlement result)
        { ledger with
          reservations := ledger.reservations.set arguments.reservation_id
            { state with consumed := state.consumed.add entry.amount }
          entries := ledger.entries ++ [entry]
          charged_work :=
            ledger.charged_work.set (arguments.reservation_id, arguments.work_key) result }
  | measured (arguments : TelemetryArguments) (entry : CreditEntry)
      (htype : entry.entry_type = .COMPUTE_TELEMETRY) :
      Action ledger (.record_compute_telemetry arguments) (.entry entry)
        { ledger with entries := ledger.entries ++ [entry] }
  | released (arguments : ReleaseArguments) (state : ReservationState) (entry : CreditEntry)
      (hstate : ledger.reservations.get? arguments.reservation_id = some state)
      (hamount : credits state.available = .ok entry.amount)
      (htype : entry.entry_type = .RELEASED) :
      Action ledger (.release_remaining arguments) (.entry entry)
        { ledger with
          reservations := ledger.reservations.set arguments.reservation_id
            { state with released := state.released.add entry.amount }
          entries := ledger.entries ++ [entry] }

-- A method that does one of these to the ledger, or raises and leaves it alone.
def Acts (call : Call) (act : Method CreditLedger CreditFault Answer) (ledger : CreditLedger) : Prop :=
  Ends (fun answer next => Action hasher ledger call answer next) (fun _ next => next = ledger) act
    ledger

theorem ends_state_of {returned : ReservationState → CreditLedger → Prop}
    {raised : CreditFault → CreditLedger → Prop} (reservation_id : String) (ledger : CreditLedger)
    (hreturned : ∀ state, ledger.reservations.get? reservation_id = some state →
      returned state ledger)
    (hraised : ∀ error, raised error ledger) :
    Ends returned raised (state_of reservation_id) ledger := by
  simp only [state_of, ends_bind, ends_self, ends_check]
  constructor
  · intro state hstate
    apply hreturned
    cases hget : ledger.reservations.get? reservation_id with
    | none =>
      rw [hget] at hstate
      cases hstate
    | some found =>
      rw [hget] at hstate
      exact congrArg some (Except.ok.inj hstate)
  · intro error _
    exact hraised error

theorem acts_reserve (arguments : ReserveArguments) (amount : Decimal) (ledger : CreditLedger)
    (hamount : credits arguments.amount = .ok amount) :
    Acts hasher (.reserve arguments) (open_reservation hasher arguments amount) ledger := by
  simp only [Acts, open_reservation, put, append_entry, ends_bind, ends_assign, ends_returns]
  exact Action.reserved arguments _ _ hamount rfl

theorem acts_settle (arguments : SettleArguments) (canonical_credits : Decimal)
    (ledger : CreditLedger) (hamount : credits arguments.canonical_credits = .ok canonical_credits) :
    Acts hasher (.settle_work arguments) (settle hasher arguments canonical_credits) ledger := by
  unfold Acts settle
  rw [ends_bind]
  apply ends_state_of
  · intro state hstate
    simp only [ends_bind, ends_self, ends_ite, ends_returns]
    refine ⟨fun _ => Action.unbilled arguments _ rfl, fun hnew => ⟨fun _ => ?_, fun _ => ?_⟩⟩
    · exact Action.unbilled arguments _ rfl
    · have hfirst := Option.not_isSome_iff_eq_none.mp hnew
      simp only [charge, put, append_entry, ends_bind, ends_require, ends_assign, ends_returns]
      refine ⟨fun hle => ?_, fun _ => trivial⟩
      exact Action.charged arguments state (consumption hasher arguments canonical_credits) _ hamount
        hstate hfirst hle rfl rfl rfl rfl
  · intro _
    rfl

theorem acts_measure (arguments : TelemetryArguments) (gpu_seconds provider_cost : Decimal)
    (ledger : CreditLedger) :
    Acts hasher (.record_compute_telemetry arguments)
      (measure hasher arguments gpu_seconds provider_cost) ledger := by
  unfold Acts measure
  rw [ends_bind]
  apply ends_state_of
  · intro _ _
    simp only [append_entry, ends_bind, ends_assign, ends_returns]
    exact Action.measured arguments _ rfl
  · intro _
    rfl

theorem acts_release (arguments : ReleaseArguments) (ledger : CreditLedger) :
    Acts hasher (.release_remaining arguments) (release hasher arguments) ledger := by
  unfold Acts release
  rw [ends_bind]
  apply ends_state_of
  · intro state hstate
    simp only [put, append_entry, ends_bind, ends_check, ends_assign, ends_returns]
    refine ⟨fun amount hamount => ?_, fun _ _ => trivial⟩
    exact Action.released arguments state _ hstate hamount rfl
  · intro _
    rfl

-- Every call's document says first what operation it is.
def Call.operation : Call → String
  | .reserve _ => "reserve"
  | .settle_work _ => "settle_work"
  | .record_compute_telemetry _ => "compute_telemetry"
  | .release_remaining _ => "release_remaining"

theorem parsed_spec {call : Call} {document : Json} {act : Method CreditLedger CreditFault Answer}
    (hparsed : call.parsed hasher = .ok (document, act)) :
    (∃ rest, document = .obj (("operation", .str call.operation) :: rest)) ∧
      ∀ ledger, Acts hasher call act ledger := by
  cases call with
  | reserve arguments =>
    obtain ⟨amount, hamount, hrest⟩ := of_bind_eq_ok hparsed
    obtain ⟨_, _, hmade⟩ := of_bind_eq_ok hrest
    obtain ⟨rfl, rfl⟩ := Prod.mk.inj (Except.ok.inj hmade)
    exact ⟨⟨_, rfl⟩, fun ledger => acts_reserve hasher arguments amount ledger hamount⟩
  | settle_work arguments =>
    obtain ⟨canonical_credits, hamount, hrest⟩ := of_bind_eq_ok hparsed
    obtain ⟨_, _, hmade⟩ := of_bind_eq_ok hrest
    obtain ⟨rfl, rfl⟩ := Prod.mk.inj (Except.ok.inj hmade)
    exact ⟨⟨_, rfl⟩, fun ledger => acts_settle hasher arguments canonical_credits ledger hamount⟩
  | record_compute_telemetry arguments =>
    obtain ⟨gpu_seconds, _, hrest⟩ := of_bind_eq_ok hparsed
    obtain ⟨provider_cost, _, hlast⟩ := of_bind_eq_ok hrest
    obtain ⟨_, _, hmade⟩ := of_bind_eq_ok hlast
    obtain ⟨rfl, rfl⟩ := Prod.mk.inj (Except.ok.inj hmade)
    exact ⟨⟨_, rfl⟩, acts_measure hasher arguments gpu_seconds provider_cost⟩
  | release_remaining arguments =>
    obtain ⟨_, _, hmade⟩ := of_bind_eq_ok hparsed
    obtain ⟨rfl, rfl⟩ := Prod.mk.inj (Except.ok.inj hmade)
    exact ⟨⟨_, rfl⟩, acts_release hasher arguments⟩

-- How a call may end: it raises, gives a kept answer again, or acts and keeps its answer.
inductive Outcome (ledger : CreditLedger) (call : Call) :
    Except CreditFault Answer → CreditLedger → Prop
  | raised (error : CreditFault) : Outcome ledger call (.error error) ledger
  | repeated (document : Json) (act : Method CreditLedger CreditFault Answer) (answer : Answer)
      (hparsed : call.parsed hasher = .ok (document, act))
      (hkept : ledger.keys.get? call.key = some (canonical_sha256 hasher document, answer))
      (hown : call.own answer = true) : Outcome ledger call (.ok answer) ledger
  | acted (document : Json) (act : Method CreditLedger CreditFault Answer) (answer : Answer)
      (next : CreditLedger) (hparsed : call.parsed hasher = .ok (document, act))
      (hnew : ∀ identity kept, ledger.keys.get? call.key = some (identity, kept) →
        identity = canonical_sha256 hasher document ∧ call.own kept = false)
      (haction : Action hasher ledger call answer next) :
      Outcome ledger call (.ok answer)
        { next with keys := next.keys.set call.key (canonical_sha256 hasher document, answer) }

theorem outcome_of_parsed {call : Call} {document : Json}
    {act : Method CreditLedger CreditFault Answer} (ledger : CreditLedger)
    (hparsed : call.parsed hasher = .ok (document, act)) :
    Ends (fun answer => Outcome hasher ledger call (.ok answer))
      (fun error => Outcome hasher ledger call (.error error))
      (answered_once call.key (canonical_sha256 hasher document) call.own act) ledger := by
  have hact (hnew : ∀ identity kept, ledger.keys.get? call.key = some (identity, kept) →
      identity = canonical_sha256 hasher document ∧ call.own kept = false) :
      Ends (fun answer next => Outcome hasher ledger call (.ok answer)
          { next with keys := next.keys.set call.key (canonical_sha256 hasher document, answer) })
        (fun error => Outcome hasher ledger call (.error error)) act ledger := by
    apply ((parsed_spec hasher hparsed).2 ledger).imp
    · intro answer next haction
      exact Outcome.acted document act answer next hparsed hnew haction
    · rintro error _ rfl
      exact Outcome.raised error
  simp only [answered_once, idempotent, ends_bind, ends_self]
  cases hget : ledger.keys.get? call.key with
  | none =>
    simp only [ends_returns, Option.filter_none, ends_bind]
    apply hact
    intro identity kept hkept
    rw [hget] at hkept
    cases hkept
  | some found =>
    obtain ⟨identity, kept⟩ := found
    simp only [ends_bind, ends_require, ends_returns]
    refine ⟨fun hidentity => ?_, fun _ => Outcome.raised _⟩
    cases hown : call.own kept with
    | true =>
      rw [Option.filter_some, hown]
      exact Outcome.repeated document act kept hparsed (hidentity ▸ hget) hown
    | false =>
      simp only [Option.filter_some, hown, Bool.false_eq_true, if_false, ends_bind]
      apply hact
      intro other stored hstored
      rw [hget] at hstored
      obtain ⟨rfl, rfl⟩ := Prod.mk.inj (Option.some.inj hstored)
      exact ⟨hidentity, hown⟩

theorem outcome (call : Call) (ledger : CreditLedger) :
    Outcome hasher ledger call (perform hasher call ledger).1 (perform hasher call ledger).2 := by
  refine @Ends.run _ _ _ (Outcome hasher ledger call) _ _ ?_
  rw [perform_eq, ends_bind, ends_check]
  constructor
  · rintro ⟨document, act⟩ hparsed
    exact outcome_of_parsed hasher ledger hparsed
  · intro error _
    exact Outcome.raised error

-- An answer of one call is of the kind every call with the same document asks for.
theorem own_of_same_document {call other : Call} {document : Json} {answer : Answer}
    {act doing : Method CreditLedger CreditFault Answer}
    (hparsed : call.parsed hasher = .ok (document, act))
    (hother : other.parsed hasher = .ok (document, doing)) (hown : other.own answer = true) :
    call.own answer = true := by
  obtain ⟨rest, rfl⟩ := (parsed_spec hasher hparsed).1
  obtain ⟨more, hmore⟩ := (parsed_spec hasher hother).1
  have hoperation : call.operation = other.operation := by
    injection hmore with hmore
    injection hmore with hfirst
    injection (Prod.mk.inj hfirst).2
  cases call <;> cases other <;> first
    | exact hown
    | exact absurd hoperation (by simp [Call.operation])

end CreditLedger

end KnowledgeCompiler.Parallel
