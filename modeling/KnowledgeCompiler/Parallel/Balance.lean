import KnowledgeCompiler.Parallel.Settlement

namespace KnowledgeCompiler.Parallel

open Lib Method

-- A reservation kept in whole units of the quantum.
structure ReservationState.Books (state : ReservationState) (reserved consumed released : ℕ) : Prop where
  reserved_units : state.reservation.reserved_credits.IsUnits QUANTUM reserved
  consumed_units : state.consumed.IsUnits QUANTUM consumed
  released_units : state.released.IsUnits QUANTUM released
  within : consumed + released ≤ reserved
  fits : reserved < 10 ^ Decimal.prec

namespace ReservationState.Books

variable {state : ReservationState} {reserved consumed released : ℕ}

theorem available (books : state.Books reserved consumed released) :
    state.available.IsUnits QUANTUM (reserved - consumed - released) := by
  have hplace : QUANTUM ≤ 0 := by decide
  have hwithin := books.within
  have hfits := books.fits
  have hfirst := books.reserved_units.sub hplace books.consumed_units (by omega) hfits
  exact hfirst.sub hplace books.released_units (by omega) (by omega)

theorem balance (books : state.Books reserved consumed released) :
    state.consumed.toRat + state.released.toRat + state.available.toRat =
      state.reservation.reserved_credits.toRat := by
  have hwithin := books.within
  rw [books.consumed_units.toRat_eq, books.released_units.toRat_eq, books.available.toRat_eq,
    books.reserved_units.toRat_eq, ← add_mul, ← add_mul]
  congr 1
  exact_mod_cast (by omega : consumed + released + (reserved - consumed - released) = reserved)

theorem consume (books : state.Books reserved consumed released) {amount : Decimal} {units : ℕ}
    (hunits : amount.IsUnits QUANTUM units) (hle : amount.toRat ≤ state.available.toRat) :
    { state with consumed := state.consumed.add amount }.Books reserved (consumed + units) released := by
  have hwithin := books.within
  have hfits := books.fits
  have hunder := (hunits.toRat_le_iff books.available).mp hle
  constructor
  · exact books.reserved_units
  · exact books.consumed_units.add (by decide) hunits (by omega)
  · exact books.released_units
  · omega
  · exact hfits

theorem release (books : state.Books reserved consumed released) {amount : Decimal}
    (hamount : credits state.available = .ok amount) :
    ∃ left, { state with released := state.released.add amount }.Books reserved consumed left := by
  have hwithin := books.within
  have hfits := books.fits
  have hunits := credits_same_units books.available hamount
  refine ⟨released + (reserved - consumed - released), ?_⟩
  constructor
  · exact books.reserved_units
  · exact books.consumed_units
  · exact books.released_units.add (by decide) hunits (by omega)
  · omega
  · exact hfits

end ReservationState.Books

namespace CreditEntry

def is_consumption (entry : CreditEntry) (reservation_id : String) : Bool :=
  entry.entry_type = .CONSUMED && entry.reservation_id = reservation_id

def is_charge (entry : CreditEntry) (reservation_id work_key : String) : Bool :=
  entry.is_consumption reservation_id && entry.work_key = some work_key

theorem not_consumption {entry : CreditEntry} (htype : entry.entry_type ≠ .CONSUMED)
    (reservation_id : String) : entry.is_consumption reservation_id = false := by
  simp [is_consumption, htype]

-- What the consumed entries of a reservation add up to.
def consumed_total (entries : List CreditEntry) (reservation_id : String) : ℚ :=
  ((entries.filter (·.is_consumption reservation_id)).map (·.amount.toRat)).sum

theorem consumed_total_append (entries : List CreditEntry) (entry : CreditEntry)
    (reservation_id : String) :
    consumed_total (entries ++ [entry]) reservation_id =
      consumed_total entries reservation_id +
        if entry.is_consumption reservation_id then entry.amount.toRat else 0 := by
  unfold consumed_total
  rw [List.filter_append, List.map_append, List.sum_append]
  cases hconsumption : entry.is_consumption reservation_id with
  | true => simp [hconsumption]
  | false => simp [hconsumption]

theorem consumed_total_of_forall_not {entries : List CreditEntry} {reservation_id : String}
    (hnone : ∀ entry ∈ entries, entry.is_consumption reservation_id = false) :
    consumed_total entries reservation_id = 0 := by
  have hempty : entries.filter (·.is_consumption reservation_id) = [] := by
    rw [List.filter_eq_nil_iff]
    intro entry hentry
    rw [hnone entry hentry]
    exact Bool.false_ne_true
  simp [consumed_total, hempty]

end CreditEntry

open CreditEntry

namespace CreditLedger

-- What the calls keep about the money.
structure Consistent (ledger : CreditLedger) : Prop where
  booked : ∀ reservation_id state, ledger.reservations.get? reservation_id = some state →
    ∃ reserved consumed released, state.Books reserved consumed released ∧
      state.consumed.toRat = consumed_total ledger.entries reservation_id
  founded : ∀ entry ∈ ledger.entries, entry.entry_type = .CONSUMED →
    (ledger.reservations.get? entry.reservation_id).isSome
  charged : ∀ entry ∈ ledger.entries, ∀ reservation_id work_key,
    entry.is_charge reservation_id work_key = true →
      (ledger.charged_work.get? (reservation_id, work_key)).isSome
  traced : ∀ entry ∈ ledger.entries, entry.entry_type = .CONSUMED → entry.work_key.isSome
  once : ∀ reservation_id work_key,
    ledger.entries.countP (·.is_charge reservation_id work_key) ≤ 1

theorem consistent_empty : Consistent {} := by
  constructor <;> simp

-- Whatever is done, every entry but a charge leaves the sums and the charges as they were.
theorem Consistent.note {ledger : CreditLedger} (hconsistent : Consistent ledger)
    {entry : CreditEntry} (htype : entry.entry_type ≠ .CONSUMED) :
    Consistent { ledger with entries := ledger.entries ++ [entry] } := by
  have hnot (reservation_id work_key : String) : entry.is_charge reservation_id work_key = false := by
    simp [is_charge, not_consumption htype]
  constructor
  · intro reservation_id state hstate
    obtain ⟨reserved, consumed, released, hbooks, hsum⟩ :=
      hconsistent.booked reservation_id state hstate
    refine ⟨reserved, consumed, released, hbooks, ?_⟩
    simp [consumed_total_append, not_consumption htype, hsum]
  · intro other hother hconsumed
    cases List.mem_append.mp hother with
    | inl hold => exact hconsistent.founded other hold hconsumed
    | inr hnew =>
      rw [List.mem_singleton.mp hnew] at hconsumed
      exact absurd hconsumed htype
  · intro other hother reservation_id work_key hcharge
    cases List.mem_append.mp hother with
    | inl hold => exact hconsistent.charged other hold reservation_id work_key hcharge
    | inr hnew =>
      rw [List.mem_singleton.mp hnew, hnot] at hcharge
      cases hcharge
  · intro other hother hconsumed
    cases List.mem_append.mp hother with
    | inl hold => exact hconsistent.traced other hold hconsumed
    | inr hnew =>
      rw [List.mem_singleton.mp hnew] at hconsumed
      exact absurd hconsumed htype
  · intro reservation_id work_key
    have honce := hconsistent.once reservation_id work_key
    simpa [List.countP_append, hnot] using honce

-- A reservation's books may be written again, as long as what is consumed stays.
theorem Consistent.put {ledger : CreditLedger} (hconsistent : Consistent ledger)
    {reservation_id : String} {state : ReservationState} {reserved consumed released : ℕ}
    (hbooks : state.Books reserved consumed released)
    (hsum : state.consumed.toRat = consumed_total ledger.entries reservation_id) :
    Consistent { ledger with reservations := ledger.reservations.set reservation_id state } := by
  constructor
  · intro other found hfound
    rw [Dict.get?_set] at hfound
    split at hfound
    · rename_i heq
      obtain rfl := Option.some.inj hfound
      exact ⟨reserved, consumed, released, hbooks, heq ▸ hsum⟩
    · exact hconsistent.booked other found hfound
  · intro entry hentry hconsumed
    simp only [Dict.get?_set]
    split
    · rfl
    · exact hconsistent.founded entry hentry hconsumed
  · exact hconsistent.charged
  · exact hconsistent.traced
  · exact hconsistent.once

theorem Consistent.charge {ledger : CreditLedger} (hconsistent : Consistent ledger)
    {reservation_id work_key : String} {state : ReservationState} {entry : CreditEntry}
    {result : SettlementResult} (hunits : ∃ units, entry.amount.IsUnits QUANTUM units)
    (hstate : ledger.reservations.get? reservation_id = some state)
    (hfirst : ledger.charged_work.get? (reservation_id, work_key) = none)
    (hle : entry.amount.toRat ≤ state.available.toRat) (htype : entry.entry_type = .CONSUMED)
    (hreservation : entry.reservation_id = reservation_id) (hwork : entry.work_key = some work_key) :
    Consistent
      { ledger with
        reservations := ledger.reservations.set reservation_id
          { state with consumed := state.consumed.add entry.amount }
        entries := ledger.entries ++ [entry]
        charged_work := ledger.charged_work.set (reservation_id, work_key) result } := by
  obtain ⟨units, hunits⟩ := hunits
  have hconsumption (other : String) :
      entry.is_consumption other = true ↔ other = reservation_id := by
    simp [is_consumption, htype, hreservation, eq_comm]
  have hcharge (other key : String) :
      entry.is_charge other key = true ↔ other = reservation_id ∧ key = work_key := by
    rw [is_charge, Bool.and_eq_true, hconsumption, hwork, decide_eq_true_iff, Option.some.injEq,
      @eq_comm _ work_key]
  constructor
  · intro other found hfound
    rw [Dict.get?_set] at hfound
    rw [consumed_total_append]
    split at hfound
    · rename_i heq
      obtain rfl := Option.some.inj hfound
      obtain ⟨reserved, consumed, released, hbooks, hsum⟩ :=
        hconsistent.booked reservation_id state hstate
      have hafter := hbooks.consume hunits hle
      refine ⟨reserved, consumed + units, released, hafter, ?_⟩
      rw [if_pos ((hconsumption other).mpr heq), heq, ← hsum, hafter.consumed_units.toRat_eq,
        hbooks.consumed_units.toRat_eq, hunits.toRat_eq, ← add_mul, Nat.cast_add]
    · rename_i hne
      obtain ⟨reserved, consumed, released, hbooks, hsum⟩ := hconsistent.booked other found hfound
      refine ⟨reserved, consumed, released, hbooks, ?_⟩
      rw [if_neg (fun hother => hne ((hconsumption other).mp hother)), add_zero, hsum]
  · intro other hother hconsumed
    simp only [Dict.get?_set]
    split
    · rfl
    · rename_i hne
      cases List.mem_append.mp hother with
      | inl hold => exact hconsistent.founded other hold hconsumed
      | inr hnew =>
        rw [List.mem_singleton.mp hnew] at hne
        exact absurd hreservation hne
  · intro other hother found key hcharged
    simp only [Dict.get?_set]
    split
    · rfl
    · rename_i hne
      cases List.mem_append.mp hother with
      | inl hold => exact hconsistent.charged other hold found key hcharged
      | inr hnew =>
        rw [List.mem_singleton.mp hnew, hcharge] at hcharged
        exact absurd (Prod.ext hcharged.1 hcharged.2) hne
  · intro other hother hconsumed
    cases List.mem_append.mp hother with
    | inl hold => exact hconsistent.traced other hold hconsumed
    | inr hnew =>
      rw [List.mem_singleton.mp hnew, hwork]
      rfl
  · intro other key
    rw [List.countP_append, List.countP_singleton]
    split
    · rename_i hcharged
      -- work that is charged now has no entry yet
      obtain ⟨rfl, rfl⟩ := (hcharge other key).mp hcharged
      have hnone : ledger.entries.countP (·.is_charge other key) = 0 := by
        rw [List.countP_eq_zero]
        intro previous hprevious hsecond
        have hsome := hconsistent.charged previous hprevious other key hsecond
        rw [hfirst] at hsome
        cases hsome
      omega
    · exact hconsistent.once other key

-- One call that acts keeps the money right, where it opens no reservation twice.
theorem Consistent.action {hasher : Hasher} {ledger next : CreditLedger} {call : Call}
    {answer : Answer} (hconsistent : Consistent ledger)
    (hopen : ∀ arguments, call = .reserve arguments →
      ledger.reservations.get? (reservation_id_of hasher arguments) = none)
    (haction : Action hasher ledger call answer next) : Consistent next := by
  cases haction with
  | reserved arguments reservation entry hamount htype =>
    obtain ⟨reserved, hfits, hunits⟩ := credits_isUnits hamount
    have hunopened := hopen arguments rfl
    have hbooks : ReservationState.Books { reservation } reserved 0 0 :=
      ⟨hunits, Decimal.isUnits_zero _, Decimal.isUnits_zero _, Nat.zero_le _, hfits⟩
    have hnone : consumed_total ledger.entries (reservation_id_of hasher arguments) = 0 := by
      apply consumed_total_of_forall_not
      intro other hother
      by_contra hconsumption
      rw [Bool.not_eq_false, is_consumption, Bool.and_eq_true, decide_eq_true_iff,
        decide_eq_true_iff] at hconsumption
      have hsome := hconsistent.founded other hother hconsumption.1
      rw [hconsumption.2, hunopened] at hsome
      cases hsome
    have hsum : ({ reservation } : ReservationState).consumed.toRat =
        consumed_total ledger.entries (reservation_id_of hasher arguments) := by
      rw [hnone]
      simp [Decimal.toRat, Decimal.signed]
    exact (hconsistent.put hbooks hsum).note (by rw [htype]; decide)
  | unbilled => exact hconsistent
  | charged arguments state entry result hamount hstate hfirst hle htype hreservation hwork hentry =>
    obtain ⟨units, _, hunits⟩ := credits_isUnits hamount
    exact hconsistent.charge ⟨units, hunits⟩ hstate hfirst hle htype hreservation hwork
  | measured arguments entry htype => exact hconsistent.note (by rw [htype]; decide)
  | released arguments state entry hstate hamount htype =>
    obtain ⟨reserved, consumed, released, hbooks, hsum⟩ :=
      hconsistent.booked arguments.reservation_id state hstate
    obtain ⟨left, hleft⟩ := hbooks.release hamount
    exact (hconsistent.put hleft hsum).note (by rw [htype]; decide)

end CreditLedger

end KnowledgeCompiler.Parallel
