import KnowledgeCompiler.Lib.Binary64

namespace KnowledgeCompiler.Lib.Binary64

theorem roundHalfEven_mono {first second : ℚ} (hle : first ≤ second) :
    Text.roundHalfEven first ≤ Text.roundHalfEven second := by
  by_contra hlt
  have hstep : Text.roundHalfEven second + 1 ≤ Text.roundHalfEven first := by omega
  have hstep' : (Text.roundHalfEven second : ℚ) + 1 ≤ Text.roundHalfEven first := by exact_mod_cast hstep
  have hfirst := abs_le.mp (roundHalfEven_error first)
  have hsecond := abs_le.mp (roundHalfEven_error second)
  -- both would lie half way between the two results
  have heq : first = second := by linarith
  rw [heq] at hstep
  omega

theorem roundHalfEven_intCast (n : ℤ) : Text.roundHalfEven n = n := by
  have herror := abs_le.mp (roundHalfEven_error n)
  have hlow : (-1 : ℚ) < Text.roundHalfEven n - n := by linarith
  have hhigh : (Text.roundHalfEven n : ℚ) - n < 1 := by linarith
  have hlow' : -1 < Text.roundHalfEven n - n := by exact_mod_cast hlow
  have hhigh' : Text.roundHalfEven n - n < 1 := by exact_mod_cast hhigh
  omega

-- A multiple of the unit in the last place is a bound for the rounded number too.

theorem rounded_le {value : ℚ} {n : ℤ} (hle : value ≤ n * ulp value) :
    rounded value ≤ n * ulp value := by
  have hulp := ulp_pos value
  have hscaled : value / ulp value ≤ n := (div_le_iff₀ hulp).mpr hle
  have hround := roundHalfEven_mono hscaled
  rw [roundHalfEven_intCast] at hround
  exact mul_le_mul_of_nonneg_right (by exact_mod_cast hround) hulp.le

theorem le_rounded {value : ℚ} {n : ℤ} (hle : n * ulp value ≤ value) :
    n * ulp value ≤ rounded value := by
  have hulp := ulp_pos value
  have hscaled : n ≤ value / ulp value := (le_div_iff₀ hulp).mpr hle
  have hround := roundHalfEven_mono hscaled
  rw [roundHalfEven_intCast] at hround
  exact mul_le_mul_of_nonneg_right (by exact_mod_cast hround) hulp.le

theorem rounded_nonneg {value : ℚ} (hvalue : 0 ≤ value) : 0 ≤ rounded value := by
  simpa using le_rounded (n := 0) (by simpa using hvalue)

theorem rounded_zero : rounded 0 = 0 := by
  have h := roundHalfEven_intCast 0
  rw [Int.cast_zero] at h
  simp [rounded, h]

-- A power of two that is no less than the number's own is a multiple of its unit.
theorem exists_mul_ulp (value : ℚ) {k : ℤ} (hlog : Int.log 2 |value| ≤ k) (hk : -1074 ≤ k) :
    ∃ n : ℤ, (2 : ℚ) ^ k = n * ulp value := by
  obtain ⟨exponent, hexponent⟩ : ∃ exponent, exponent = max (Int.log 2 |value| - 52) (-1074) :=
    ⟨_, rfl⟩
  have hle : exponent ≤ k := by omega
  refine ⟨2 ^ (k - exponent).toNat, ?_⟩
  have hsplit : k = ((k - exponent).toNat : ℤ) + exponent := by omega
  rw [ulp, ← hexponent]
  push_cast
  rw [← zpow_natCast, ← zpow_add₀ (by norm_num), ← hsplit]

theorem rounded_mono {first second : ℚ} (hfirst : 0 ≤ first) (hle : first ≤ second) :
    rounded first ≤ rounded second := by
  by_cases hzero : first = 0
  · rw [hzero, rounded_zero]
    exact rounded_nonneg (hfirst.trans hle)
  have hpos : 0 < first := lt_of_le_of_ne hfirst (Ne.symm hzero)
  have hlog : Int.log 2 first ≤ Int.log 2 second := Int.log_mono_right hpos hle
  by_cases hulp : ulp first = ulp second
  · rw [rounded, rounded, hulp]
    have hscaled := div_le_div_of_nonneg_right hle (ulp_pos second).le
    exact mul_le_mul_of_nonneg_right (by exact_mod_cast roundHalfEven_mono hscaled)
      (ulp_pos second).le
  · -- a power of two lies between them
    have habs : |first| = first := abs_of_pos hpos
    have habs' : |second| = second := abs_of_pos (hpos.trans_le hle)
    have hunits : max (Int.log 2 first - 52) (-1074) ≠ max (Int.log 2 second - 52) (-1074) := by
      intro h
      exact hulp (by rw [ulp, ulp, habs, habs', h])
    have hlt : Int.log 2 first < Int.log 2 second := by omega
    have hnormal : -1074 ≤ Int.log 2 second := by omega
    obtain ⟨n, hn⟩ := exists_mul_ulp first (by rw [habs]; exact hlog) hnormal
    obtain ⟨m, hm⟩ := exists_mul_ulp second (by rw [habs']) hnormal
    have hbelow : first ≤ (2 : ℚ) ^ Int.log 2 second := by
      have hnext := Int.lt_zpow_succ_log_self (R := ℚ) one_lt_two first
      have hpower : (2 : ℚ) ^ (Int.log 2 first + 1) ≤ 2 ^ Int.log 2 second :=
        zpow_le_zpow_right₀ one_le_two (by omega)
      push_cast at hnext
      linarith
    have habove : (2 : ℚ) ^ Int.log 2 second ≤ second := by
      have h := Int.zpow_log_le_self (R := ℚ) one_lt_two (hpos.trans_le hle)
      push_cast at h
      exact h
    calc rounded first ≤ n * ulp first := rounded_le (by rw [← hn]; exact hbelow)
      _ = m * ulp second := by rw [← hn, ← hm]
      _ ≤ rounded second := le_rounded (by rw [← hm]; exact habove)

theorem of_eq_finite {value found : ℚ} (hof : of value = finite found) :
    found = rounded value ∧ |rounded value| < 2 ^ 1024 := by
  by_cases hsmall : |rounded value| < 2 ^ 1024
  · rw [of_small hsmall] at hof
    exact ⟨(finite.inj hof).symm, hsmall⟩
  · rw [of_large hsmall] at hof
    cases hof

-- What is no larger than a finite result's number has a result no larger.
theorem of_mono {first second found : ℚ} (hfirst : 0 ≤ first) (hle : first ≤ second)
    (hof : of second = finite found) :
    0 ≤ rounded first ∧ rounded first ≤ found ∧ of first = finite (rounded first) := by
  obtain ⟨rfl, hsmall⟩ := of_eq_finite hof
  have hlow := rounded_nonneg hfirst
  have hmono := rounded_mono hfirst hle
  have hfinite : |rounded first| < 2 ^ 1024 := by
    rw [abs_of_nonneg hlow]
    rw [abs_of_nonneg (hlow.trans hmono)] at hsmall
    exact hmono.trans_lt hsmall
  exact ⟨hlow, hmono, of_small hfinite⟩

theorem not_lt_of_nonpos {value : ℚ} (hvalue : value ≤ 0) : (finite 0).lt (of value) = false := by
  have hle : rounded value ≤ 0 := by
    simpa using rounded_le (n := 0) (by simpa using hvalue)
  by_cases hsmall : |rounded value| < 2 ^ 1024
  · rw [of_small hsmall]
    simpa [lt] using hle
  · have hne : value ≠ 0 := by
      rintro rfl
      rw [rounded_zero, abs_zero] at hsmall
      exact hsmall (pow_pos two_pos _)
    rw [of_large hsmall]
    simp [lt, lt_of_le_of_ne hvalue hne]

theorem of_ne_nan (value : ℚ) : of value ≠ nan := by
  by_cases hsmall : |rounded value| < 2 ^ 1024
  · simp [of_small hsmall]
  · simp [of_large hsmall]

theorem of_eq_infinity {value : ℚ} {negative : Bool} (hof : of value = infinity negative) :
    negative = decide (value < 0) := by
  by_cases hsmall : |rounded value| < 2 ^ 1024
  · rw [of_small hsmall] at hof
    cases hof
  · rw [of_large hsmall] at hof
    exact (infinity.inj hof).symm

theorem lt_of_mono {bound first second : ℚ} (hfirst : 0 ≤ first) (hle : first ≤ second)
    (hlt : (finite bound).lt (of first) = true) : (finite bound).lt (of second) = true := by
  cases hsecond : of second with
  | finite found =>
    obtain ⟨-, hmono, hof⟩ := of_mono hfirst hle hsecond
    rw [hof] at hlt
    simp only [lt, decide_eq_true_eq] at hlt ⊢
    exact hlt.trans_le hmono
  | infinity negative =>
    rw [of_eq_infinity hsecond]
    simp [lt, hfirst.trans hle]
  | nan => exact absurd hsecond (of_ne_nan second)

theorem le_of_mono {bound : Binary64} {first second : ℚ} (hfirst : 0 ≤ first) (hle : first ≤ second)
    (hbound : (of second).le bound = true) : (of first).le bound = true := by
  cases hsecond : of second with
  | finite found =>
    obtain ⟨-, hmono, hof⟩ := of_mono hfirst hle hsecond
    rw [hsecond] at hbound
    rw [hof]
    cases bound with
    | finite limit =>
      have hlimit : found ≤ limit := by
        simpa [le, lt, le_iff_lt_or_eq] using hbound
      simpa [le, lt, le_iff_lt_or_eq] using hmono.trans hlimit
    | infinity negative => simpa [le, lt] using hbound
    | nan => simp [le, lt] at hbound
  | infinity negative =>
    have hpositive : negative = false := by
      rw [of_eq_infinity hsecond]
      simpa using hfirst.trans hle
    rw [hsecond, hpositive] at hbound
    cases bound with
    | finite limit => simp [le, lt] at hbound
    | infinity negative =>
      obtain rfl : negative = false := by simpa [le, lt] using hbound
      cases hof : of first with
      | finite found => simp [le, lt]
      | infinity negative => cases negative <;> simp [le, lt]
      | nan => exact absurd hof (of_ne_nan first)
    | nan => simp [le, lt] at hbound
  | nan => exact absurd hsecond (of_ne_nan second)

theorem eq_zero_of_nonneg {value : ℚ} (hvalue : 0 ≤ value)
    (hlt : (finite 0).lt (of value) = false) : of value = finite 0 := by
  cases hof : of value with
  | finite found =>
    obtain ⟨rfl, -⟩ := of_eq_finite hof
    rw [hof] at hlt
    have hle : rounded value ≤ 0 := by simpa [lt] using hlt
    rw [le_antisymm hle (rounded_nonneg hvalue)]
  | infinity negative =>
    rw [hof] at hlt
    obtain rfl : negative = true := by simpa [lt] using hlt
    have hnegative := of_eq_infinity hof
    exact absurd (of_decide_eq_true hnegative.symm) (not_lt.mpr hvalue)
  | nan => exact absurd hof (of_ne_nan value)

protected theorem lt_irrefl (value : Binary64) : value.lt value = false := by
  cases value with
  | finite value => simp [lt]
  | infinity negative => cases negative <;> rfl
  | nan => rfl

protected theorem lt_trans {first second third : Binary64} (hfirst : first.lt second = true)
    (hsecond : second.lt third = true) : first.lt third = true := by
  cases first <;> cases second <;> cases third <;> simp_all [lt]
  exact hfirst.trans hsecond

theorem lt_or_lt {first second : Binary64} (hne : first ≠ second) (hfirst : first ≠ nan)
    (hsecond : second ≠ nan) : first.lt second = true ∨ second.lt first = true := by
  cases first with
  | nan => exact absurd rfl hfirst
  | finite value =>
    cases second with
    | nan => exact absurd rfl hsecond
    | finite other =>
      have hvalues : value ≠ other := fun h => hne (by rw [h])
      simpa [lt] using lt_or_gt_of_ne hvalues
    | infinity negative => cases negative <;> simp [lt]
  | infinity negative =>
    cases second with
    | nan => exact absurd rfl hsecond
    | finite other => cases negative <;> simp [lt]
    | infinity other => cases negative <;> cases other <;> simp_all [lt]

-- `0 <= value <= bound`
def between (bound value : Binary64) : Bool := (finite 0).le value && value.le bound

theorem between_finite {bound value : ℚ} :
    between (finite bound) (finite value) = true ↔ 0 ≤ value ∧ value ≤ bound := by
  simp [between, le, lt, le_iff_lt_or_eq]

theorem exists_of_between {bound : ℚ} {value : Binary64}
    (hvalue : between (finite bound) value = true) :
    ∃ found, value = finite found ∧ 0 ≤ found ∧ found ≤ bound := by
  cases value with
  | nan => simp [between, le, lt] at hvalue
  | infinity negative => cases negative <;> simp [between, le, lt] at hvalue
  | finite found => exact ⟨found, rfl, between_finite.mp hvalue⟩

-- A number under a bound that is itself a float has a float under it.
theorem between_of {bound value : ℚ} (hexact : rounded bound = bound) (hlarge : bound < 2 ^ 1024)
    (hlow : 0 ≤ value) (hhigh : value ≤ bound) : between (finite bound) (of value) = true := by
  have hrounded := rounded_mono hlow hhigh
  rw [hexact] at hrounded
  have hpositive := rounded_nonneg hlow
  have hsmall : |rounded value| < 2 ^ 1024 := by
    rw [abs_of_nonneg hpositive]
    exact hrounded.trans_lt hlarge
  rw [of_small hsmall]
  exact between_finite.mpr ⟨hpositive, hrounded⟩

theorem lt_largest {bound : ℚ} (hbound : bound < 2 ^ 3) : bound < 2 ^ 1024 :=
  hbound.trans_le (pow_le_pow_right₀ one_le_two (by decide))

theorem between_mul {first second : Binary64} (hfirst : between (finite 1) first = true)
    (hsecond : between (finite 1) second = true) : between (finite 1) (first.mul second) = true := by
  obtain ⟨first, rfl, hlow, hhigh⟩ := exists_of_between hfirst
  obtain ⟨second, rfl, hlow', hhigh'⟩ := exists_of_between hsecond
  exact between_of (by decide +kernel) (lt_largest (by norm_num)) (mul_nonneg hlow hlow')
    (mul_le_one₀ hhigh hlow' hhigh')

theorem between_add {bound more : ℚ} {first second : Binary64}
    (hexact : rounded (bound + more) = bound + more) (hlarge : bound + more < 2 ^ 1024)
    (hfirst : between (finite bound) first = true) (hsecond : between (finite more) second = true) :
    between (finite (bound + more)) (first.add second) = true := by
  obtain ⟨first, rfl, hlow, hhigh⟩ := exists_of_between hfirst
  obtain ⟨second, rfl, hlow', hhigh'⟩ := exists_of_between hsecond
  exact between_of hexact hlarge (add_nonneg hlow hlow') (add_le_add hhigh hhigh')

-- Rounding to decimal places stays under an integer that is itself a float.
theorem between_round {bound : ℕ} {value : Binary64} (places : ℕ) (hexact : rounded bound = bound)
    (hlarge : (bound : ℚ) < 2 ^ 1024) (hvalue : between (finite bound) value = true) :
    between (finite bound) (value.round places) = true := by
  obtain ⟨value, rfl, hlow, hhigh⟩ := exists_of_between hvalue
  have hscale : (0 : ℚ) < 10 ^ places := by positivity
  obtain ⟨units, hunits⟩ : ∃ units, units = Text.roundHalfEven (value * 10 ^ places) := ⟨_, rfl⟩
  have hnonneg : (0 : ℚ) ≤ units := by
    have h := roundHalfEven_mono (mul_nonneg hlow hscale.le)
    have hzero := roundHalfEven_intCast 0
    rw [Int.cast_zero] at hzero
    rw [hzero, ← hunits] at h
    exact_mod_cast h
  have hbound : (units : ℚ) ≤ bound * 10 ^ places := by
    have h := roundHalfEven_mono (mul_le_mul_of_nonneg_right hhigh hscale.le)
    have hint : ((bound * 10 ^ places : ℤ) : ℚ) = (bound : ℚ) * 10 ^ places := by push_cast; rfl
    rw [← hint, roundHalfEven_intCast, ← hunits] at h
    rw [← hint]
    exact_mod_cast h
  have hquotient : 0 ≤ (units : ℚ) / 10 ^ places := div_nonneg hnonneg hscale.le
  have hle : (units : ℚ) / 10 ^ places ≤ bound := (div_le_iff₀ hscale).mpr hbound
  simp only [round, ← hunits]
  exact between_of hexact hlarge hquotient hle

end KnowledgeCompiler.Lib.Binary64
