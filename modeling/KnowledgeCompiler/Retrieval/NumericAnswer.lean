import KnowledgeCompiler.Lib.Decimal
import KnowledgeCompiler.Lib.Method
import KnowledgeCompiler.Lib.Minimum
import Mathlib.Data.List.Dedup

namespace KnowledgeCompiler.Retrieval

open Lib Decimal

inductive NumericAnswerState
  | VERIFIED
  | UNRESOLVED
  | QUARANTINED
deriving DecidableEq

inductive Raised
  | value_error (message : String)
  -- `decimal.Overflow`, which nothing catches.
  | overflow
deriving DecidableEq

def bounded (text : String) (least most : ℕ) : Bool := least ≤ text.length && text.length ≤ most

def is_hex (c : Char) : Bool := c.isDigit || ('a' ≤ c && c ≤ 'f')

-- The proofs are what the model checks.
structure NumericFactKey where
  entity_id : String
  statement : String
  concept : String
  period_start : Option String := none
  period_end : Option String := none
  instant : Option String := none
  unit : String
  currency : Option String := none
  scale : ℕ := 1
  dimensions_hash : String
  named : (bounded entity_id 1 240 && bounded statement 1 240 && bounded concept 1 240 &&
    bounded unit 1 40 && currency.all (bounded · 3 12)) = true
  hashed : (dimensions_hash.length = 64 && dimensions_hash.toList.all is_hex) = true
  period : if instant = none then period_start ≠ none ∧ period_end ≠ none
    else period_start = none ∧ period_end = none
  scaled : (0 < scale ∧ scale ≤ 10 ^ 18) ∧
    (scale = 1 ∨ 10 ^ ((Nat.toDigits 10 scale).length - 1) = scale)
deriving DecidableEq

-- With a finite `Decimal`.
structure NumericAuthorityFact where
  stable_id : String
  key : NumericFactKey
  value : Numeral
  source_block_ids : List String
  authority_type : String
  evident : source_block_ids ≠ [] ∧ source_block_ids.Nodup

structure NumericAnswerVerification where
  state : NumericAnswerState
  normalized_answer : Option ℚ := none
  authority_fact_id : Option String := none
  source_block_ids : List String := []
  ambiguity_count : ℕ := 0
  reason_codes : List String
  emit_answer : Bool := false
  emits_verified : emit_answer = true ↔ state = .VERIFIED
  emits_evidence : emit_answer = true → normalized_answer ≠ none ∧ authority_fact_id ≠ none ∧
    source_block_ids ≠ [] ∧ ambiguity_count = 1

-- A token as it is written, before any arithmetic.
structure TokenReading where
  negative_parentheses : Bool
  percent : Bool
  written : Numeral
deriving DecidableEq

section Tokens

-- `unicodedata.decimal(c)`
variable (decimal : Char → Option ℕ)

def digits_value (digits : List Char) : ℕ :=
  digits.foldl (fun value c => value * 10 + (decimal c).getD 0) 0

-- `\d+(?:\.\d+)?|\.\d+`, and what `Decimal` makes of it
def unsigned? (candidate : List Char) : Option Numeral :=
  let whole := candidate.takeWhile (fun c => (decimal c).isSome)
  match candidate.dropWhile (fun c => (decimal c).isSome) with
  | [] => if whole = [] then none else some ⟨false, digits_value decimal whole, 0⟩
  | '.' :: fraction =>
      if fraction = [] ∨ ¬fraction.all (fun c => (decimal c).isSome) then none
      else some ⟨false, digits_value decimal (whole ++ fraction), -fraction.length⟩
  | _ => none

-- `_DECIMAL_PATTERN.fullmatch(candidate)` and `Decimal(candidate)`
def decimal? (candidate : List Char) : Option Numeral :=
  match candidate with
  | '+' :: rest => unsigned? decimal rest
  | '-' :: rest => (unsigned? decimal rest).map Numeral.neg
  | _ => unsigned? decimal candidate

def read_token (token : String) : Option TokenReading :=
  let candidate := (Text.strip token.toList).filter (fun c => c ≠ Char.ofNat 0xa0 && c ≠ ' ')
  let negative_parentheses := candidate.head? = some '(' && candidate.getLast? = some ')'
  let candidate := if negative_parentheses then (candidate.drop 1).dropLast else candidate
  let percent := candidate.getLast? = some '%'
  let candidate := if percent then candidate.dropLast else candidate
  (decimal? decimal (candidate.filter (· ≠ ','))).map
    (fun written => ⟨negative_parentheses, percent, written⟩)

-- An operation of the default context.
def operation (value : ℚ) : Except Raised ℚ :=
  match fixed value with
  | none => .error .overflow
  | some value => .ok value

-- `-value` and `value /= Decimal(100)`
def TokenReading.value (reading : TokenReading) : Except Raised ℚ := do
  let value ← if reading.negative_parentheses then operation (-reading.written.toRat)
    else .ok reading.written.toRat
  if reading.percent then operation (value / 100) else .ok value

def normalize_numeric_token (token : String) : Except Raised ℚ :=
  match read_token decimal token with
  | none => .error (.value_error "answer token is not an exact decimal")
  | some reading => reading.value

-- `(fact.authority_type, fact.stable_id)`
def chosen_before (first second : NumericAuthorityFact) : Bool :=
  if first.authority_type ≠ second.authority_type then first.authority_type < second.authority_type
  else first.stable_id < second.stable_id

def quarantined : NumericAnswerVerification where
  state := .QUARANTINED
  reason_codes := ["numeric_token_invalid"]
  emits_verified := by simp
  emits_evidence := by simp

def unresolved (answer : ℚ) (ambiguity_count : ℕ) (reason : String) : NumericAnswerVerification where
  state := .UNRESOLVED
  normalized_answer := some answer
  ambiguity_count := ambiguity_count
  reason_codes := [reason]
  emits_verified := by simp
  emits_evidence := by simp

def verified (answer : ℚ) (chosen : NumericAuthorityFact) : NumericAnswerVerification where
  state := .VERIFIED
  normalized_answer := some answer
  authority_fact_id := some chosen.stable_id
  source_block_ids := chosen.source_block_ids
  ambiguity_count := 1
  reason_codes := ["authority_value_exact", "unit_period_context_exact"]
  emit_answer := true
  emits_verified := by simp
  emits_evidence := by simpa using chosen.evident.1

-- `fact.value * fact.key.scale`, before it is rounded
def NumericAuthorityFact.product (fact : NumericAuthorityFact) : ℚ :=
  fact.value.toRat * fact.key.scale

-- What is answered for a token that stands for a number.
def compared (answer : ℚ) («matches» : List NumericAuthorityFact) :
    Except Raised NumericAnswerVerification := do
  let scaled_values ← «matches».mapM (fun fact => operation fact.product)
  match scaled_values.dedup, firstMin chosen_before «matches» with
  | [authority_value], some chosen =>
      if answer ≠ authority_value then
        return unresolved answer «matches».length "numeric_value_mismatch"
      else return verified answer chosen
  | _, _ => return unresolved answer «matches».length "authority_fact_ambiguous"

def verify_numeric_answer (token : String) (expected_key : NumericFactKey)
    (facts : List NumericAuthorityFact) : Except Raised NumericAnswerVerification :=
  match normalize_numeric_token decimal token with
  | .error (.value_error _) => .ok quarantined
  | .error .overflow => .error .overflow
  | .ok answer =>
      let «matches» := facts.filter (fun fact => fact.key = expected_key)
      if «matches» = [] then .ok (unresolved answer 0 "authority_fact_missing")
      else compared answer «matches»

end Tokens

-- The number that the token stands for.
def TokenReading.exact (reading : TokenReading) : ℚ :=
  (if reading.negative_parentheses then -reading.written.toRat else reading.written.toRat) /
    if reading.percent then 100 else 1

section Exactness

open Method

variable {decimal : Char → Option ℕ} {token : String} {expected_key : NumericFactKey}
  {facts : List NumericAuthorityFact}

theorem operation_eq_ok_iff {value result : ℚ} : operation value = .ok result ↔ fixed value = some result := by
  unfold operation
  cases fixed value with
  | none => simp
  | some found => simp

theorem dedup_eq_singleton {values : List ℚ} {value : ℚ} (hne : values ≠ []) :
    values.dedup = [value] ↔ ∀ other ∈ values, other = value := by
  constructor
  · intro hdedup other hother
    have hmem := List.mem_dedup.mpr hother
    rw [hdedup] at hmem
    exact List.mem_singleton.mp hmem
  · intro hall
    rw [List.eq_replicate_of_mem hall]
    exact List.replicate_dedup (by simpa using hne)

-- The facts are compared with the answer by their rounded products.
theorem compared_verified_iff {answer : ℚ} {found : List NumericAuthorityFact} (hne : found ≠ []) :
    (∃ result, compared answer found = .ok result ∧ result.state = .VERIFIED) ↔
      ∀ fact ∈ found, fixed fact.product = some answer := by
  obtain ⟨chosen, hchosen⟩ : ∃ chosen, firstMin chosen_before found = some chosen :=
    Option.ne_none_iff_exists'.mp fun h => hne (firstMin_eq_none_iff.mp h)
  constructor
  · rintro ⟨result, hresult, hstate⟩ fact hfact
    obtain ⟨scaled_values, hscaled, hrest⟩ := of_bind_eq_ok hresult
    rw [hchosen] at hrest
    obtain ⟨value, hvalue, hproduct⟩ := exists_value_of_mapM hscaled hfact
    rw [← operation_eq_ok_iff, hproduct]
    split at hrest
    · rename_i authority_value _ hdedup _
      have hvalues : scaled_values ≠ [] := List.ne_nil_of_mem hvalue
      have hsame := (dedup_eq_singleton hvalues).mp hdedup value hvalue
      split at hrest
      · obtain rfl := Except.ok.inj hrest
        cases hstate
      · rename_i hequal
        rw [hsame, not_not.mp hequal]
    · obtain rfl := Except.ok.inj hrest
      cases hstate
  · intro hall
    have hscaled : found.mapM (fun fact => operation fact.product) =
        .ok (found.map fun _ => answer) := by
      refine mapM_eq_ok_iff.mpr (List.forall₂_map_right_iff.mpr (List.forall₂_same.mpr ?_))
      exact fun fact hfact => operation_eq_ok_iff.mpr (hall fact hfact)
    have hdedup : (found.map fun _ => answer).dedup = [answer] := by
      refine (dedup_eq_singleton (by simpa using hne)).mpr ?_
      intro other hother
      obtain ⟨_, _, rfl⟩ := List.mem_map.mp hother
      rfl
    refine ⟨verified answer chosen, ?_, rfl⟩
    rw [compared, hscaled]
    simp only [bind, Except.bind, hdedup, hchosen, ne_eq, not_true, if_false]
    rfl

theorem verified_iff :
    (∃ result, verify_numeric_answer decimal token expected_key facts = .ok result ∧
        result.state = .VERIFIED) ↔
      ∃ reading answer, read_token decimal token = some reading ∧ reading.value = .ok answer ∧
        (∃ fact ∈ facts, fact.key = expected_key) ∧
        ∀ fact ∈ facts, fact.key = expected_key → fixed fact.product = some answer := by
  have hfound : facts.filter (fun fact => fact.key = expected_key) ≠ [] ↔
      ∃ fact ∈ facts, fact.key = expected_key := by
    simp [List.filter_eq_nil_iff]
  unfold verify_numeric_answer normalize_numeric_token
  cases hreading : read_token decimal token with
  | none =>
      constructor
      · rintro ⟨result, hresult, hstate⟩
        obtain rfl := Except.ok.inj hresult
        cases hstate
      · rintro ⟨reading, _, hread, -⟩
        cases hread
  | some reading =>
      dsimp only
      cases hvalue : reading.value with
      | error raised =>
          constructor
          · rintro ⟨result, hresult, hstate⟩
            cases raised with
            | value_error message =>
                obtain rfl := Except.ok.inj hresult
                cases hstate
            | overflow => cases hresult
          · rintro ⟨_, answer, hread, hanswer, -⟩
            obtain rfl := Option.some.inj hread
            rw [hvalue] at hanswer
            cases hanswer
      | ok answer =>
          dsimp only
          by_cases hempty : facts.filter (fun fact => fact.key = expected_key) = []
          · rw [if_pos hempty]
            constructor
            · rintro ⟨result, hresult, hstate⟩
              obtain rfl := Except.ok.inj hresult
              cases hstate
            · rintro ⟨_, _, -, -, hsome, -⟩
              exact absurd hempty (hfound.mpr hsome)
          · rw [if_neg hempty, compared_verified_iff hempty]
            constructor
            · intro hall
              exact ⟨reading, answer, rfl, hvalue, hfound.mp hempty, fun fact hfact hkey =>
                hall fact (List.mem_filter.mpr ⟨hfact, decide_eq_true hkey⟩)⟩
            · rintro ⟨_, found, hread, hanswer, -, hall⟩ fact hfact
              obtain rfl := Option.some.inj hread
              obtain rfl := Except.ok.inj (hvalue.symm.trans hanswer)
              obtain ⟨hmem, hkey⟩ := List.mem_filter.mp hfact
              exact hall fact hmem (of_decide_eq_true hkey)

-- What the claim of exactness asks of one call.
def VerifiedExactly (decimal : Char → Option ℕ) (token : String) (expected_key : NumericFactKey)
    (facts : List NumericAuthorityFact) : Prop :=
  (∃ result, verify_numeric_answer decimal token expected_key facts = .ok result ∧
      result.state = .VERIFIED) ↔
    ∃ reading, read_token decimal token = some reading ∧ (∃ fact ∈ facts, fact.key = expected_key) ∧
      ∀ fact ∈ facts, fact.key = expected_key → fact.product = reading.exact

-- A scale is a one and zeros: it moves the point of the value.
def NumericFactKey.zeros (key : NumericFactKey) : ℕ := (Nat.toDigits 10 key.scale).length - 1

def NumericAuthorityFact.moved (fact : NumericAuthorityFact) : Numeral :=
  fact.value.shift fact.key.zeros

-- No arithmetic is done on the token.
def TokenReading.Plain (reading : TokenReading) : Prop :=
  reading.negative_parentheses = false ∧ reading.percent = false

-- The digits of the token's number: parentheses turn the sign, a percent sign moves the point.
def TokenReading.numeral (reading : TokenReading) : Numeral :=
  let value := if reading.negative_parentheses then reading.written.neg else reading.written
  if reading.percent then value.shift (-2) else value

-- The same, cut to 28 digits at each of the two.
def TokenReading.digits (reading : TokenReading) : Option Numeral := do
  let value ← if reading.negative_parentheses then reading.written.neg.kept else some reading.written
  if reading.percent then (value.shift (-2)).kept else some value

-- What is written of the facts and of the token, cut to 28 digits: neither are equal numbers
-- parted nor different ones joined. A plain token is not cut, and its facts are.
structure CutAlike (reading : TokenReading) (found : List NumericAuthorityFact) : Prop where
  plain_kept : reading.Plain → (∀ fact ∈ found, fact.moved.toRat = reading.numeral.toRat) →
    reading.written.Short
  kept : ¬reading.Plain → (∀ fact ∈ found, fact.moved.toRat = reading.numeral.toRat) →
    ∃ digits ∈ reading.digits, ∃ cut ∈ reading.numeral.kept, cut.toRat = digits.toRat
  apart : (∃ fact ∈ found, fact.moved.toRat ≠ reading.numeral.toRat) → ∀ digits ∈ reading.digits,
    ∃ fact ∈ found, ∀ cut ∈ fact.moved.kept, cut.toRat ≠ digits.toRat

theorem product_eq (fact : NumericAuthorityFact) : fact.product = fact.moved.toRat := by
  have hscale : fact.key.scale = 10 ^ fact.key.zeros := by
    rcases fact.key.scaled.2 with hone | hpower
    · rw [NumericFactKey.zeros, hone]
      rfl
    · exact hpower.symm
  rw [NumericAuthorityFact.product, NumericAuthorityFact.moved, Numeral.toRat_shift, hscale,
    Nat.cast_pow, Nat.cast_ofNat, zpow_natCast]

theorem exact_eq (reading : TokenReading) : reading.exact = reading.numeral.toRat := by
  obtain ⟨negative_parentheses, percent, written⟩ := reading
  cases negative_parentheses <;> cases percent <;>
    simp [TokenReading.exact, TokenReading.numeral, Numeral.toRat_shift, Numeral.toRat_neg, div_eq_mul_inv,
      zpow_neg] <;> norm_num

theorem operation_toRat (numeral : Numeral) {answer : ℚ} :
    operation numeral.toRat = .ok answer ↔ ∃ cut ∈ numeral.kept, cut.toRat = answer := by
  rw [operation_eq_ok_iff, numeral.fixed_toRat, Option.map_eq_some_iff]
  rfl

-- The arithmetic on the token is done on its digits.
theorem value_eq_ok_iff {reading : TokenReading} {answer : ℚ} :
    reading.value = .ok answer ↔ ∃ digits ∈ reading.digits, digits.toRat = answer := by
  obtain ⟨negative_parentheses, percent, written⟩ := reading
  have hpercent (numeral : Numeral) : operation (numeral.toRat / 100) = .ok answer ↔
      ∃ cut ∈ (numeral.shift (-2)).kept, cut.toRat = answer := by
    have hshift : numeral.toRat / 100 = (numeral.shift (-2)).toRat := by
      rw [Numeral.toRat_shift, div_eq_mul_inv]
      norm_num
    rw [hshift, operation_toRat]
  cases negative_parentheses with
  | false =>
      cases percent with
      | false => simp [TokenReading.value, TokenReading.digits, bind, Except.bind]
      | true => exact hpercent written
  | true =>
      cases percent with
      | false =>
          have hvalue : TokenReading.value ⟨true, false, written⟩ = operation written.neg.toRat := by
            rw [Numeral.toRat_neg]
            exact bind_pure _
          have hdigits : TokenReading.digits ⟨true, false, written⟩ = written.neg.kept := bind_pure _
          rw [hvalue, hdigits, operation_toRat]
      | true =>
          have hvalue : TokenReading.value ⟨true, true, written⟩ =
              (operation written.neg.toRat).bind fun value => operation (value / 100) := by
            rw [Numeral.toRat_neg]
            rfl
          have hdigits : TokenReading.digits ⟨true, true, written⟩ =
              written.neg.kept.bind fun value => (value.shift (-2)).kept := rfl
          rw [hvalue, hdigits]
          constructor
          · intro hbind
            obtain ⟨value, hfirst, hsecond⟩ := of_bind_eq_ok hbind
            obtain ⟨cut, hcut, rfl⟩ := (operation_toRat _).mp hfirst
            obtain ⟨digits, hdigits, hnumber⟩ := (hpercent cut).mp hsecond
            exact ⟨digits, Option.bind_eq_some_iff.mpr ⟨cut, hcut, hdigits⟩, hnumber⟩
          · rintro ⟨digits, hdigits, hnumber⟩
            obtain ⟨cut, hcut, hdigits⟩ := Option.bind_eq_some_iff.mp hdigits
            rw [(operation_toRat _).mpr ⟨cut, hcut, rfl⟩]
            exact (hpercent cut).mpr ⟨digits, hdigits, hnumber⟩

-- A token without parentheses and percent sign is read as it is written.
theorem digits_of_plain {reading : TokenReading} (hplain : reading.Plain) :
    reading.digits = some reading.written ∧ reading.numeral = reading.written := by
  obtain ⟨hparentheses, hpercent⟩ := hplain
  constructor
  · simp [TokenReading.digits, hparentheses, hpercent]
  · simp [TokenReading.numeral, hparentheses, hpercent]

-- One number is cut to one number.
theorem exists_kept_of_toRat_eq {first second : Numeral} (hequal : first.toRat = second.toRat)
    {cut : Numeral} (hcut : cut ∈ first.kept) : ∃ own ∈ second.kept, own.toRat = cut.toRat := by
  have hsame : first.kept.map Numeral.toRat = second.kept.map Numeral.toRat := by
    rw [← Numeral.fixed_toRat, hequal, Numeral.fixed_toRat]
  rw [Option.mem_def.mp hcut, Option.map_some, eq_comm, Option.map_eq_some_iff] at hsame
  exact hsame

-- What the first two parts come to.
theorem kept_iff {reading : TokenReading} {found : List NumericAuthorityFact} :
    ((reading.Plain → (∀ fact ∈ found, fact.moved.toRat = reading.numeral.toRat) →
        reading.written.Short) ∧
      (¬reading.Plain → (∀ fact ∈ found, fact.moved.toRat = reading.numeral.toRat) →
        ∃ digits ∈ reading.digits, ∃ cut ∈ reading.numeral.kept, cut.toRat = digits.toRat)) ↔
      ((∀ fact ∈ found, fact.moved.toRat = reading.numeral.toRat) →
        ∃ digits ∈ reading.digits, ∃ cut ∈ reading.numeral.kept, cut.toRat = digits.toRat) := by
  by_cases hplain : reading.Plain
  · obtain ⟨hdigits, hnumeral⟩ := digits_of_plain hplain
    have hshort : (∃ digits ∈ reading.digits, ∃ cut ∈ reading.numeral.kept,
        cut.toRat = digits.toRat) ↔ reading.written.Short := by
      rw [hdigits, hnumeral, ← Numeral.fixed_self_iff, Numeral.fixed_toRat, Option.map_eq_some_iff]
      simp
    rw [hshort]
    exact ⟨fun h => h.1 hplain, fun h => ⟨fun _ => h, fun hnot => absurd hplain hnot⟩⟩
  · exact ⟨fun h => h.2 hplain, fun h => ⟨fun hyes => absurd hyes hplain, fun _ => h⟩⟩

-- What is verified, by the digits.
theorem verified_digits_iff :
    (∃ result, verify_numeric_answer decimal token expected_key facts = .ok result ∧
        result.state = .VERIFIED) ↔
      ∃ reading, read_token decimal token = some reading ∧ (∃ fact ∈ facts, fact.key = expected_key) ∧
        ∃ digits ∈ reading.digits, ∀ fact ∈ facts, fact.key = expected_key →
          ∃ cut ∈ fact.moved.kept, cut.toRat = digits.toRat := by
  simp only [verified_iff, product_eq, value_eq_ok_iff, ← operation_eq_ok_iff, operation_toRat]
  constructor
  · rintro ⟨reading, _, hreading, ⟨digits, hdigits, rfl⟩, hsome, hall⟩
    exact ⟨reading, hreading, hsome, digits, hdigits, hall⟩
  · rintro ⟨reading, hreading, hsome, digits, hdigits, hall⟩
    exact ⟨reading, _, hreading, ⟨digits, hdigits, rfl⟩, hsome, hall⟩

theorem verified_exactly_iff (decimal : Char → Option ℕ) (token : String)
    (expected_key : NumericFactKey) (facts : List NumericAuthorityFact) :
    VerifiedExactly decimal token expected_key facts ↔
      ∀ reading, read_token decimal token = some reading → (∃ fact ∈ facts, fact.key = expected_key) →
        CutAlike reading (facts.filter (fun fact => fact.key = expected_key)) := by
  have hmatching {P : NumericAuthorityFact → Prop} :
      (∀ fact ∈ facts.filter (fun fact => fact.key = expected_key), P fact) ↔
        ∀ fact ∈ facts, fact.key = expected_key → P fact := by
    simp [List.mem_filter]
  unfold VerifiedExactly
  simp only [verified_digits_iff, product_eq, exact_eq, ← hmatching]
  constructor
  · intro hexact reading hreading hsome
    have hkept : (∀ fact ∈ facts.filter (fun fact => fact.key = expected_key),
        fact.moved.toRat = reading.numeral.toRat) →
        ∃ digits ∈ reading.digits, ∃ cut ∈ reading.numeral.kept, cut.toRat = digits.toRat := by
      intro hequal
      obtain ⟨_, hread, -, digits, hdigits, hcut⟩ := hexact.mpr ⟨reading, hreading, hsome, hequal⟩
      obtain rfl := Option.some.inj (hreading.symm.trans hread)
      obtain ⟨fact, hfact, hkey⟩ := hsome
      have hmem : fact ∈ facts.filter (fun fact => fact.key = expected_key) :=
        List.mem_filter.mpr ⟨hfact, decide_eq_true hkey⟩
      obtain ⟨cut, hcut, hvalue⟩ := hcut fact hmem
      obtain ⟨own, hown, hnumber⟩ := exists_kept_of_toRat_eq (hequal fact hmem) hcut
      exact ⟨digits, hdigits, own, hown, hnumber.trans hvalue⟩
    obtain ⟨hplain_kept, hother_kept⟩ := kept_iff.mpr hkept
    refine ⟨hplain_kept, hother_kept, ?_⟩
    rintro ⟨fact, hfact, hne⟩ digits hdigits
    by_contra hall
    push Not at hall
    obtain ⟨_, hread, -, hequal⟩ := hexact.mp ⟨reading, hreading, hsome, digits, hdigits, hall⟩
    obtain rfl := Option.some.inj (hreading.symm.trans hread)
    exact hne (hequal fact hfact)
  · intro halike
    constructor
    · rintro ⟨reading, hreading, hsome, digits, hdigits, hall⟩
      refine ⟨reading, hreading, hsome, fun fact hfact => ?_⟩
      by_contra hne
      obtain ⟨other, hother, hapart⟩ :=
        (halike reading hreading hsome).apart ⟨fact, hfact, hne⟩ digits hdigits
      obtain ⟨cut, hcut, hvalue⟩ := hall other hother
      exact hapart cut hcut hvalue
    · rintro ⟨reading, hreading, hsome, hequal⟩
      have halike := halike reading hreading hsome
      obtain ⟨digits, hdigits, cut, hcut, hvalue⟩ :=
        kept_iff.mp ⟨halike.plain_kept, halike.kept⟩ hequal
      refine ⟨reading, hreading, hsome, digits, hdigits, fun fact hfact => ?_⟩
      obtain ⟨own, hown, hnumber⟩ := exists_kept_of_toRat_eq (hequal fact hfact).symm hcut
      exact ⟨own, hown, hnumber.trans hvalue⟩

end Exactness

section Samples

def ascii_digit (c : Char) : Option ℕ := if c.isDigit then some (c.toNat - '0'.toNat) else none

def revenue_key : NumericFactKey where
  entity_id := "corp-1"
  statement := "income"
  concept := "revenue"
  instant := some "2025-12-31"
  unit := "KRW"
  dimensions_hash := String.ofList (List.replicate 64 'c')
  named := by decide
  hashed := by decide
  period := by decide
  scaled := by decide

def revenue_fact (coefficient : ℕ) : NumericAuthorityFact where
  stable_id := "fact-1"
  key := revenue_key
  value := ⟨false, coefficient, 0⟩
  source_block_ids := ["block-1"]
  authority_type := "xbrl"
  evident := ⟨List.cons_ne_nil _ _, List.nodup_singleton _⟩

-- A fact of 29 digits, and the token that says it.
theorem long_number_not_verified :
    ¬VerifiedExactly ascii_digit "12345678901234567890123456789" revenue_key
      [revenue_fact 12345678901234567890123456789] := by
  intro hexact
  have hread : read_token ascii_digit "12345678901234567890123456789" =
      some ⟨false, false, ⟨false, 12345678901234567890123456789, 0⟩⟩ := by decide
  have hcut : ∀ cut ∈ (revenue_fact 12345678901234567890123456789).moved.kept,
      cut.toRat ≠ Numeral.toRat ⟨false, 12345678901234567890123456789, 0⟩ := by decide +kernel
  obtain ⟨reading, hreading, -, digits, hdigits, hall⟩ := verified_digits_iff.mp (hexact.mpr
    ⟨_, hread, ⟨_, List.mem_singleton_self _, rfl⟩, fun fact hfact _ => by
      rw [List.mem_singleton.mp hfact]
      decide +kernel⟩)
  obtain rfl := Option.some.inj (hread.symm.trans hreading)
  obtain rfl := Option.some.inj hdigits
  obtain ⟨cut, hkept, hnumber⟩ := hall _ (List.mem_singleton_self _) rfl
  exact hcut cut hkept hnumber

end Samples

end KnowledgeCompiler.Retrieval
