import KnowledgeCompiler.Lib.Binary64.Order

namespace KnowledgeCompiler.Lib.Binary64

section Nearest

theorem roundHalfEven_nearest (value : ℚ) (n : ℤ) :
    |(Text.roundHalfEven value : ℚ) - value| ≤ |n - value| := by
  by_cases hsame : n = Text.roundHalfEven value
  · rw [hsame]
  · have herror := roundHalfEven_error value
    have hstep : (1 : ℚ) ≤ |(n : ℚ) - Text.roundHalfEven value| := by
      exact_mod_cast Int.one_le_abs (sub_ne_zero.mpr hsame)
    have htriangle := abs_sub_le (n : ℚ) value (Text.roundHalfEven value)
    rw [abs_sub_comm value] at htriangle
    linarith

theorem roundHalfEven_of_near {value : ℚ} {n : ℤ} (hnear : |n - value| < 1 / 2) :
    Text.roundHalfEven value = n := by
  have herror := roundHalfEven_error value
  have htriangle := abs_sub_le (Text.roundHalfEven value : ℚ) value n
  rw [abs_sub_comm value] at htriangle
  have hlt : |(Text.roundHalfEven value : ℚ) - n| < 1 := by linarith
  have hlt' : |Text.roundHalfEven value - n| < 1 := by exact_mod_cast hlt
  rw [Int.abs_lt_one_iff] at hlt'
  omega

theorem even_of_tie {value : ℚ} (htie : |(Text.roundHalfEven value : ℚ) - value| = 1 / 2) :
    Text.roundHalfEven value % 2 = 0 := by
  have hlow : (value.floor : ℚ) ≤ value := Rat.floor_le value
  have hhigh : value < value.floor + 1 := by exact_mod_cast Rat.lt_floor_add_one value
  unfold Text.roundHalfEven at htie ⊢
  dsimp only at htie ⊢
  split at htie
  · rw [abs_of_nonpos (by linarith)] at htie
    linarith
  · split at htie
    · push_cast at htie
      rw [abs_of_nonneg (by linarith)] at htie
      linarith
    · rename_i hnot hnot'
      rw [if_neg hnot, if_neg hnot']
      split
      · assumption
      · omega

theorem roundHalfEven_of_tie {value : ℚ} {n : ℤ} (htie : |n - value| = 1 / 2) (heven : n % 2 = 0) :
    Text.roundHalfEven value = n := by
  have hle := roundHalfEven_nearest value n
  rw [htie] at hle
  by_cases hnear : |(Text.roundHalfEven value : ℚ) - value| < 1 / 2
  · have hother : |(n : ℚ) - Text.roundHalfEven value| < 1 := by
      have htriangle := abs_sub_le (n : ℚ) value (Text.roundHalfEven value)
      rw [abs_sub_comm value] at htriangle
      linarith
    have hother' : |n - Text.roundHalfEven value| < 1 := by exact_mod_cast hother
    rw [Int.abs_lt_one_iff] at hother'
    omega
  · have htie' : |(Text.roundHalfEven value : ℚ) - value| = 1 / 2 := le_antisymm hle (not_lt.mp hnear)
    have heven' := even_of_tie htie'
    -- two even integers at most one apart
    have htriangle := abs_sub_le (n : ℚ) value (Text.roundHalfEven value)
    rw [abs_sub_comm value] at htriangle
    have hone : |(n : ℚ) - Text.roundHalfEven value| ≤ 1 := by linarith
    have hone' : |n - Text.roundHalfEven value| ≤ 1 := by exact_mod_cast hone
    have hbounds := abs_le.mp hone'
    omega

theorem roundHalfEven_neg (value : ℚ) :
    Text.roundHalfEven (-value) = -Text.roundHalfEven value := by
  have hdistance : |((-Text.roundHalfEven value : ℤ) : ℚ) - -value| =
      |(Text.roundHalfEven value : ℚ) - value| := by
    rw [← abs_neg]
    congr 1
    push_cast
    ring
  rcases lt_or_eq_of_le (roundHalfEven_error value) with hnear | htie
  · exact roundHalfEven_of_near (by rw [hdistance]; exact hnear)
  · have heven := even_of_tie htie
    exact roundHalfEven_of_tie (by rw [hdistance, htie]) (by omega)

theorem rounded_neg (value : ℚ) : rounded (-value) = -rounded value := by
  have hulp : ulp (-value) = ulp value := by rw [ulp, ulp, abs_neg]
  rw [rounded, rounded, hulp, neg_div, roundHalfEven_neg]
  push_cast
  ring

theorem rounded_monotone {first second : ℚ} (hle : first ≤ second) :
    rounded first ≤ rounded second := by
  rcases le_total 0 first with hfirst | hfirst
  · exact rounded_mono hfirst hle
  · rcases le_total 0 second with hsecond | hsecond
    · have hnonpos : 0 ≤ rounded (-first) := rounded_nonneg (by linarith)
      rw [rounded_neg] at hnonpos
      have hnonneg := rounded_nonneg hsecond
      linarith
    · have hneg := @rounded_mono (-second) (-first) (by linarith) (by linarith)
      rw [rounded_neg, rounded_neg] at hneg
      linarith

-- The unit in the last place is two to this power.
def exponent (value : ℚ) : ℤ := max (Int.log 2 |value| - 52) (-1074)

theorem ulp_eq (value : ℚ) : ulp value = 2 ^ exponent value := rfl

theorem exists_mul_of_exponent_le {value : ℚ} {k : ℤ} (hle : exponent value ≤ k) (n : ℤ) :
    ∃ m : ℤ, n * (2 : ℚ) ^ k = m * ulp value := by
  refine ⟨n * 2 ^ (k - exponent value).toNat, ?_⟩
  have hsplit : k = ((k - exponent value).toNat : ℤ) + exponent value := by omega
  rw [ulp_eq, hsplit, zpow_add₀ (by norm_num), zpow_natCast]
  push_cast
  rw [← hsplit]
  ring

theorem exists_mul_of_exact {value : ℚ} (hexact : rounded value = value) :
    ∃ n : ℤ, value = n * ulp value := ⟨_, hexact.symm⟩

theorem exact_of_mul {value : ℚ} {n : ℤ} (hmul : value = n * ulp value) : rounded value = value :=
  le_antisymm ((rounded_le hmul.le).trans hmul.ge) (hmul.le.trans (le_rounded hmul.ge))

theorem abs_lt_ulp (value : ℚ) : |value| < 2 ^ 53 * ulp value := by
  have hnext := Int.lt_zpow_succ_log_self (R := ℚ) one_lt_two |value|
  have hpower : (2 : ℚ) ^ (Int.log 2 |value| + 1) ≤ 2 ^ ((53 : ℕ) + exponent value) :=
    zpow_le_zpow_right₀ one_le_two (by unfold exponent; omega)
  have hsplit : (2 : ℚ) ^ ((53 : ℕ) + exponent value) = 2 ^ 53 * ulp value := by
    rw [zpow_add₀ (by norm_num), zpow_natCast, ulp_eq]
  push_cast at hnext
  exact hnext.trans_le (hpower.trans_eq hsplit)

-- A small multiple of a unit is a float.
theorem exact_of_small_mul {value : ℚ} {k n : ℤ} (hk : -1074 ≤ k) (hmul : value = n * 2 ^ k)
    (hsmall : |value| < 2 ^ 53 * 2 ^ k) : rounded value = value := by
  by_cases hzero : value = 0
  · rw [hzero, rounded_zero]
  have hlog : Int.log 2 |value| < 53 + k := by
    rw [← Int.lt_zpow_iff_log_lt one_lt_two (abs_pos.mpr hzero)]
    push_cast
    rw [zpow_add₀ (by norm_num)]
    exact_mod_cast hsmall
  have hle : exponent value ≤ k := by
    unfold exponent
    omega
  obtain ⟨m, hm⟩ := exists_mul_of_exponent_le hle n
  exact exact_of_mul (hmul.trans hm)

theorem rounded_nearest {value other : ℚ} (hother : rounded other = other) :
    |rounded value - value| ≤ |other - value| := by
  have hulp := ulp_pos value
  have hmul : ∀ n : ℤ, |rounded value - value| ≤ |n * ulp value - value| := by
    intro n
    have hscale : ∀ r : ℚ, r * ulp value - value = (r - value / ulp value) * ulp value := by
      intro r
      rw [sub_mul, div_mul_cancel₀ value hulp.ne']
    rw [rounded, hscale, hscale, abs_mul, abs_mul]
    exact mul_le_mul_of_nonneg_right (roundHalfEven_nearest _ n) (abs_nonneg _)
  by_cases hzero : value = 0
  · rw [hzero, rounded_zero, sub_zero, abs_zero]
    exact abs_nonneg _
  rcases le_or_gt (exponent value) (exponent other) with hle | hlt
  · obtain ⟨n, hn⟩ := exists_mul_of_exact hother
    obtain ⟨m, hm⟩ := exists_mul_of_exponent_le hle n
    rw [← ulp_eq] at hm
    rw [hn, hm]
    exact hmul m
  · -- a power of two lies between them, and is a multiple of the unit
    have hdef : exponent value = max (Int.log 2 |value| - 52) (-1074) := rfl
    have hdef' : exponent other = max (Int.log 2 |other| - 52) (-1074) := rfl
    have hbelow : |other| ≤ 2 ^ Int.log 2 |value| := by
      have hnext := Int.lt_zpow_succ_log_self (R := ℚ) one_lt_two |other|
      have hpower : (2 : ℚ) ^ (Int.log 2 |other| + 1) ≤ 2 ^ Int.log 2 |value| :=
        zpow_le_zpow_right₀ one_le_two (by omega)
      push_cast at hnext
      linarith
    have habove : (2 : ℚ) ^ Int.log 2 |value| ≤ |value| := by
      have h := Int.zpow_log_le_self (R := ℚ) one_lt_two (abs_pos.mpr hzero)
      push_cast at h
      exact h
    obtain ⟨n, hn⟩ := exists_mul_ulp value le_rfl (by omega)
    have htriangle := abs_sub_abs_le_abs_sub value other
    rw [abs_sub_comm value other] at htriangle
    obtain ⟨m, hm⟩ : ∃ m : ℤ, |m * ulp value - value| = |value| - 2 ^ Int.log 2 |value| := by
      rcases lt_or_gt_of_ne hzero with hneg | hpos
      · have hsize := abs_of_neg hneg
        refine ⟨-n, ?_⟩
        rw [Int.cast_neg, neg_mul, ← hn, abs_of_nonneg (by linarith)]
        linarith
      · have hsize := abs_of_pos hpos
        refine ⟨n, ?_⟩
        rw [← hn, abs_of_nonpos (by linarith)]
        linarith
    have hnearest := hmul m
    linarith

end Nearest

section TwoSum

theorem exponent_mono {first second : ℚ} (hfirst : 0 < first) (hle : first ≤ second) :
    exponent first ≤ exponent second := by
  have hlog := Int.log_mono_right (b := 2) hfirst hle
  rw [exponent, exponent, abs_of_pos hfirst, abs_of_pos (hfirst.trans_le hle)]
  omega

theorem exact_double {value : ℚ} (hexact : rounded value = value) :
    rounded (2 * value) = 2 * value := by
  obtain ⟨n, hn⟩ := exists_mul_of_exact hexact
  have hfloor : -1074 ≤ exponent value := le_max_right _ _
  have hpower : (2 : ℚ) ^ (exponent value + 1) = 2 * ulp value := by
    rw [ulp_eq, zpow_add_one₀ (by norm_num)]
    ring
  have hsmall : |2 * value| < 2 ^ 53 * 2 ^ (exponent value + 1) := by
    rw [hpower, abs_mul, abs_two]
    linarith [abs_lt_ulp value]
  refine exact_of_small_mul (n := n) (by omega) ?_ hsmall
  rw [hpower]
  linarith

-- What the larger term lost can be computed without losing more.
theorem lost_exact {big small : ℚ} (hbig : rounded big = big) (hsmall : rounded small = small)
    (hnonneg : 0 ≤ small) (hle : small ≤ big) :
    rounded (big - rounded (big + small)) = big - rounded (big + small) ∧
      rounded (big - rounded (big + small) + small) = big - rounded (big + small) + small := by
  rcases eq_or_lt_of_le hnonneg with rfl | hpos
  · simp [hbig, rounded_zero]
  have hlow : big ≤ rounded (big + small) := by
    have hmono := rounded_monotone (show big ≤ big + small by linarith)
    rwa [hbig] at hmono
  have hhigh : rounded (big + small) ≤ 2 * big := by
    have hmono := rounded_monotone (show big + small ≤ 2 * big by linarith)
    rwa [exact_double hbig] at hmono
  have hnear := @rounded_nearest (big + small) big hbig
  rw [show big - (big + small) = -small by ring, abs_neg, abs_of_pos hpos] at hnear
  have hunits := exponent_mono hpos hle
  have hunits' := exponent_mono (hpos.trans_le hle) (show big ≤ big + small by linarith)
  -- everything is a multiple of the smaller term's unit, the first difference of the larger's
  obtain ⟨sum, hsum⟩ : ∃ n : ℤ, rounded (big + small) = n * 2 ^ exponent (big + small) := ⟨_, rfl⟩
  obtain ⟨n, hn⟩ := exists_mul_of_exact hbig
  obtain ⟨m, hm⟩ := exists_mul_of_exact hsmall
  obtain ⟨sum_big, hsum_big⟩ := exists_mul_of_exponent_le hunits' sum
  obtain ⟨sum_small, hsum_small⟩ := exists_mul_of_exponent_le (hunits.trans hunits') sum
  obtain ⟨big_small, hbig_small⟩ := exists_mul_of_exponent_le hunits n
  rw [← ulp_eq, ← hn] at hbig_small
  rw [← hsum] at hsum_big hsum_small
  refine ⟨exact_of_small_mul (k := exponent big) (n := n - sum_big) (le_max_right _ _) ?_ ?_,
    exact_of_small_mul (k := exponent small) (n := big_small - sum_small + m) (le_max_right _ _) ?_ ?_⟩
  · rw [← ulp_eq]
    push_cast
    linarith
  · have hbound := abs_lt_ulp big
    rw [abs_of_pos (hpos.trans_le hle)] at hbound
    rw [← ulp_eq, abs_of_nonpos (by linarith)]
    linarith
  · rw [← ulp_eq]
    push_cast
    linarith
  · have hbound := abs_lt_ulp small
    rw [abs_of_pos hpos] at hbound
    rw [← ulp_eq]
    have hsize : |big - rounded (big + small) + small| = |rounded (big + small) - (big + small)| := by
      rw [← abs_neg]
      congr 1
      ring
    rw [hsize]
    linarith

end TwoSum

section Order

theorem le_finite {first second : ℚ} :
    (finite first).le (finite second) = true ↔ first ≤ second := by
  simp [le, lt, le_iff_lt_or_eq]

theorem le_trans {first second third : Binary64} (hfirst : first.le second = true)
    (hsecond : second.le third = true) : first.le third = true := by
  cases first with
  | nan => simp [le, lt] at hfirst
  | infinity negative =>
    cases second with
    | nan => simp [le, lt] at hsecond
    | infinity other =>
      cases third <;> cases negative <;> cases other <;> simp_all [le, lt]
    | finite _ =>
      cases third <;> cases negative <;> simp_all [le, lt]
  | finite value =>
    cases second with
    | nan => simp [le, lt] at hsecond
    | infinity other =>
      cases third <;> cases other <;> simp_all [le, lt]
    | finite middle =>
      cases third with
      | nan => simp [le, lt] at hsecond
      | infinity other => simpa [le, lt] using hsecond
      | finite last =>
        rw [le_finite] at *
        exact hfirst.trans hsecond

theorem of_eq (value : ℚ) :
    of value = if |rounded value| < 2 ^ 1024 then finite (rounded value)
      else infinity (decide (value < 0)) := by
  by_cases hsmall : |rounded value| < 2 ^ 1024
  · rw [if_pos hsmall, of_small hsmall]
  · rw [if_neg hsmall, of_large hsmall]

theorem rounded_nonpos {value : ℚ} (hvalue : value ≤ 0) : rounded value ≤ 0 := by
  have hmono := rounded_monotone hvalue
  rwa [rounded_zero] at hmono

theorem of_le_of {first second : ℚ} (hle : first ≤ second) : (of first).le (of second) = true := by
  have hround := rounded_monotone hle
  rw [of_eq, of_eq]
  generalize (2 : ℚ) ^ 1024 = largest
  by_cases hfirst : |rounded first| < largest
  · by_cases hsecond : |rounded second| < largest
    · rw [if_pos hfirst, if_pos hsecond]
      exact le_finite.mpr hround
    · have hnonneg : ¬second < 0 := by
        intro hneg
        have hnonpos := rounded_nonpos hneg.le
        rw [abs_of_nonpos hnonpos] at hsecond
        rw [abs_of_nonpos (hround.trans hnonpos)] at hfirst
        linarith
      rw [if_pos hfirst, if_neg hsecond]
      simp [le, lt, hnonneg]
  · by_cases hsecond : |rounded second| < largest
    · have hneg : first < 0 := by
        by_contra hnonneg
        have hnonneg' := rounded_nonneg (not_lt.mp hnonneg)
        rw [abs_of_nonneg hnonneg'] at hfirst
        rw [abs_of_nonneg (hnonneg'.trans hround)] at hsecond
        linarith
      rw [if_neg hfirst, if_pos hsecond]
      simp [le, lt, hneg]
    · rw [if_neg hfirst, if_neg hsecond]
      by_cases hneg : second < 0
      · simp [le, hle.trans_lt hneg, hneg]
      · by_cases hneg' : first < 0 <;> simp [le, lt, hneg, hneg']

-- What a smaller number and another come to is within the bound too.
theorem add_le {smaller larger other bound : Binary64} (hnonneg : (finite 0).le smaller = true)
    (hle : smaller.le larger = true) (hadd : (larger.add other).le bound = true) :
    (smaller.add other).le bound = true := by
  cases smaller with
  | nan => simp [le, lt] at hle
  | infinity negative =>
    have hlarger : larger = infinity negative := by
      cases negative <;> cases larger <;> simp_all [le, lt]
    rwa [hlarger] at hadd
  | finite value =>
    cases larger with
    | nan => simp [le, lt] at hle
    | finite value' =>
      cases other with
      | finite more =>
        have hsum : value + more ≤ value' + more := by
          have := le_finite.mp hle
          linarith
        exact le_trans (of_le_of hsum) hadd
      | infinity _ => exact hadd
      | nan => exact hadd
    | infinity negative =>
      have hpositive : negative = false := by
        cases negative <;> simp_all [le, lt]
      subst hpositive
      cases other with
      | nan => exact hadd
      | infinity negative =>
        cases negative with
        | false => exact hadd
        | true => simp [le, lt, add] at hadd
      | finite more =>
        have hbound : bound = infinity false := by
          cases bound with
          | infinity negative => cases negative <;> simp_all [le, lt, add]
          | finite _ => simp [le, lt, add] at hadd
          | nan => simp [le, lt, add] at hadd
        have hnan := of_ne_nan (value + more)
        rw [hbound, add]
        cases hof : of (value + more) with
        | nan => exact absurd hof hnan
        | finite _ => rfl
        | infinity negative => cases negative <;> rfl

end Order

section Running

-- A number that is a float.
def IsFloat : Binary64 → Prop
  | finite value => rounded value = value ∧ |value| < 2 ^ 1024
  | _ => True

-- Running totals of floats that are not negative, before and after they overflow. What
-- is lost never grows beyond this: there a half of the largest unit is a tie.
inductive Steady : Running → Prop
  | finite (total lost : ℚ) (htotal : IsFloat (finite total)) (hnonneg : 0 ≤ total)
      (hlost : rounded lost = lost) (hbound : |lost| ≤ 2 ^ 1023) :
      Steady ⟨.finite total, .finite lost⟩
  | infinite (lost : Binary64) : Steady ⟨infinity false, lost⟩

theorem value_infinite (lost : Binary64) : Running.value ⟨infinity false, lost⟩ = infinity false := by
  cases lost <;> rfl

theorem rounded_rounded (value : ℚ) : rounded (rounded value) = rounded value := by
  obtain ⟨n, hn⟩ : ∃ n : ℤ, n = Text.roundHalfEven (value / ulp value) := ⟨_, rfl⟩
  have hround : rounded value = n * 2 ^ exponent value := by rw [hn]; rfl
  have hfloor : -1074 ≤ exponent value := le_max_right _ _
  have hunit : (0 : ℚ) < 2 ^ exponent value := ulp_pos value
  have hn_le : |n| ≤ 2 ^ 53 := by
    have hscaled : |value / ulp value| ≤ 2 ^ 53 := by
      rw [abs_div, abs_of_pos (ulp_pos value), div_le_iff₀ (ulp_pos value)]
      exact (abs_lt_ulp value).le
    obtain ⟨hlow, hhigh⟩ := abs_le.mp hscaled
    have hhigh' := @roundHalfEven_mono _ ((2 ^ 53 : ℤ) : ℚ) (by push_cast; exact hhigh)
    have hlow' := @roundHalfEven_mono ((-2 ^ 53 : ℤ) : ℚ) _ (by push_cast; exact hlow)
    rw [roundHalfEven_intCast, ← hn] at hhigh' hlow'
    exact abs_le.mpr ⟨hlow', hhigh'⟩
  rcases lt_or_eq_of_le hn_le with hlt | heq
  · refine exact_of_small_mul hfloor hround ?_
    rw [hround, abs_mul, abs_of_pos hunit]
    exact mul_lt_mul_of_pos_right (by exact_mod_cast hlt) hunit
  · -- the next power of two
    have hpower : (2 : ℚ) ^ (exponent value + (53 : ℕ)) = 2 ^ 53 * 2 ^ exponent value := by
      rw [zpow_add₀ (by norm_num), zpow_natCast, mul_comm]
    have hsize : |rounded value| < 2 ^ 53 * 2 ^ (exponent value + (53 : ℕ)) := by
      have habs : |(n : ℚ)| = 2 ^ 53 := by exact_mod_cast heq
      rw [hround, abs_mul, abs_of_pos hunit, habs, hpower]
      linarith
    rcases abs_choice n with hsign | hsign
    · refine exact_of_small_mul (n := 1) (by omega) ?_ hsize
      have hcast : (n : ℚ) = 2 ^ 53 := by exact_mod_cast hsign.symm.trans heq
      rw [hround, hcast, hpower]
      push_cast
      ring
    · refine exact_of_small_mul (n := -1) (by omega) ?_ hsize
      have hcast : (n : ℚ) = -2 ^ 53 := by
        have hneg : n = -2 ^ 53 := by omega
        exact_mod_cast hneg
      rw [hround, hcast, hpower]
      push_cast
      ring

theorem abs_rounded (value : ℚ) : |rounded value| = rounded |value| := by
  rcases le_total 0 value with hvalue | hvalue
  · rw [abs_of_nonneg hvalue, abs_of_nonneg (rounded_nonneg hvalue)]
  · rw [abs_of_nonpos hvalue, abs_of_nonpos (rounded_nonpos hvalue), rounded_neg]

theorem rounded_largest : rounded (2 ^ 1023 + 2 ^ 970) = 2 ^ 1023 ∧ rounded (2 ^ 1024) = 2 ^ 1024 := by
  decide +kernel

theorem lost_bound {lost more : ℚ} (hlost : |lost| ≤ 2 ^ 1023) (hmore : |more| ≤ 2 ^ 970) :
    |rounded (lost + more)| ≤ 2 ^ 1023 := by
  have htie := rounded_largest.1
  have hsum : |lost + more| ≤ 2 ^ 1023 + 2 ^ 970 := (abs_add_le lost more).trans (add_le_add hlost hmore)
  rw [abs_rounded]
  exact (rounded_monotone hsum).trans_eq htie

theorem rounding_bound {value : ℚ} (hsmall : |rounded value| < 2 ^ 1024) :
    |value - rounded value| ≤ 2 ^ 970 := by
  have hlargest := rounded_largest.2
  have hvalue : |value| < 2 ^ 1024 := by
    by_contra hlarge
    have hmono := rounded_monotone (not_lt.mp hlarge)
    rw [hlargest, ← abs_rounded] at hmono
    exact absurd hsmall (not_lt.mpr hmono)
  have hulp : ulp value ≤ 2 ^ (971 : ℤ) := by
    rw [ulp_eq]
    refine zpow_le_zpow_right₀ one_le_two ?_
    by_cases hzero : value = 0
    · simp [hzero, exponent]
    · have hlog : Int.log 2 |value| < 1024 := by
        rw [← Int.lt_zpow_iff_log_lt one_lt_two (abs_pos.mpr hzero)]
        rw [Nat.cast_ofNat, show (1024 : ℤ) = (1024 : ℕ) from rfl, zpow_natCast]
        exact hvalue
      unfold exponent
      omega
  have hhalf : (2 : ℚ) ^ (971 : ℤ) / 2 = 2 ^ 970 := by
    rw [show (971 : ℤ) = (970 : ℕ) + 1 from rfl, zpow_add_one₀ two_ne_zero, zpow_natCast]
    exact mul_div_cancel_right₀ _ two_ne_zero
  have herror := rounded_error value
  rw [abs_sub_comm] at herror
  calc |value - rounded value| ≤ ulp value / 2 := herror
    _ ≤ 2 ^ (971 : ℤ) / 2 := by linarith
    _ = 2 ^ 970 := hhalf

theorem of_exact {value : ℚ} (hexact : rounded value = value) (hsmall : |value| < 2 ^ 1024) :
    of value = finite value := by
  rw [of_eq, hexact, if_pos hsmall]

-- A step of the sum is never down, however the total and what it lost are rounded.
theorem compensated_le {total lost more : ℚ} (htotal : rounded total = total)
    (hlost : rounded lost = lost) (hmore : 0 ≤ more) :
    total + lost ≤ rounded (total + more) +
      rounded (lost + (total + more - rounded (total + more))) := by
  obtain ⟨next, hnext⟩ : ∃ next, next = rounded (total + more) := ⟨_, rfl⟩
  obtain ⟨error, herror⟩ : ∃ error, error = total + more - next := ⟨_, rfl⟩
  have hnear := @rounded_nearest (total + more) total htotal
  rw [← hnext, show total - (total + more) = -more by ring, abs_neg, abs_of_nonneg hmore,
    abs_sub_comm, ← herror] at hnear
  have hlost_near := @rounded_nearest (lost + error) lost hlost
  rw [show lost - (lost + error) = -error by ring, abs_neg] at hlost_near
  have hlow := (abs_le.mp hlost_near).1
  rw [← hnext, ← herror]
  rcases le_total 0 error with hsign | hsign
  · have hgrows : total ≤ next := by
      have hmono := rounded_monotone (show total ≤ total + more by linarith)
      rwa [htotal, ← hnext] at hmono
    have hkept : lost ≤ rounded (lost + error) := by
      rw [abs_of_nonneg hsign] at hlow
      linarith
    linarith
  · rw [abs_of_nonpos hsign] at hlow hnear
    linarith

theorem lost_eq {big small : ℚ} (hbig : rounded big = big) (hsmall : rounded small = small)
    (hnonneg : 0 ≤ small) (hle : small ≤ big) (hfinite : |rounded (big + small)| < 2 ^ 1024) :
    ((finite big).sub (finite (rounded (big + small)))).add (finite small) =
      finite (big + small - rounded (big + small)) := by
  obtain ⟨hdifference, herror⟩ := lost_exact hbig hsmall hnonneg hle
  have hgrows : big ≤ rounded (big + small) := by
    have hmono := rounded_monotone (show big ≤ big + small by linarith)
    rwa [hbig] at hmono
  have hsize : |big - rounded (big + small)| < 2 ^ 1024 := by
    have hpositive := hnonneg.trans hle
    rw [abs_of_nonneg (hpositive.trans hgrows)] at hfinite
    rw [abs_of_nonpos (sub_nonpos.mpr hgrows), neg_sub]
    exact (sub_le_self _ hpositive).trans_lt hfinite
  have hbound := rounding_bound hfinite
  have herror_eq : big - rounded (big + small) + small = big + small - rounded (big + small) := by ring
  have hlarge : (2 : ℚ) ^ 970 < 2 ^ 1024 := pow_lt_pow_right₀ one_lt_two (by decide)
  rw [sub, neg, add, ← sub_eq_add_neg, of_exact hdifference hsize, add, herror_eq]
  rw [herror_eq] at herror
  exact of_exact herror (hbound.trans_lt hlarge)

theorem next_finite {total lost more : ℚ} (htotal : rounded total = total)
    (hmore : rounded more = more) (hnonneg : 0 ≤ total) (hmore_nonneg : 0 ≤ more)
    (hbound : |lost| ≤ 2 ^ 1023) (hsmall : |rounded (total + more)| < 2 ^ 1024) :
    Running.next ⟨finite total, finite lost⟩ (finite more) =
      ⟨finite (rounded (total + more)),
        finite (rounded (lost + (total + more - rounded (total + more))))⟩ := by
  have hlarge : (2 : ℚ) ^ 1023 < 2 ^ 1024 := pow_lt_pow_right₀ one_lt_two (by decide)
  have htotal_eq : (finite total).add (finite more) = finite (rounded (total + more)) := by
    rw [add, of_eq, if_pos hsmall]
  have hlost_small := lt_of_le_of_lt (lost_bound hbound (rounding_bound hsmall)) hlarge
  have hlost_eq : (finite lost).add (finite (total + more - rounded (total + more))) =
      finite (rounded (lost + (total + more - rounded (total + more)))) := by
    rw [add, of_eq, if_pos hlost_small]
  have herror : (if (finite more).abs.le (finite total).abs then
        ((finite total).sub (finite (rounded (total + more)))).add (finite more)
      else ((finite more).sub (finite (rounded (total + more)))).add (finite total)) =
      finite (total + more - rounded (total + more)) := by
    rw [abs, abs, abs_of_nonneg hnonneg, abs_of_nonneg hmore_nonneg]
    split
    · rename_i hle
      exact lost_eq htotal hmore hmore_nonneg (le_finite.mp hle) hsmall
    · rename_i hnot
      have hle : total ≤ more := le_of_not_ge (fun hge => hnot (le_finite.mpr hge))
      have hswap := lost_eq hmore htotal hnonneg hle (by rw [add_comm more total]; exact hsmall)
      rwa [add_comm more total] at hswap
  simp only [Running.next, htotal_eq, herror, hlost_eq]

theorem next_infinite {total lost more : Binary64} (htotal : total.add more = infinity false) :
    ∃ lost', Running.next ⟨total, lost⟩ more = ⟨infinity false, lost'⟩ := by
  simp only [Running.next, htotal]
  exact ⟨_, rfl⟩

theorem le_infinity {value : Binary64} (hvalue : value ≠ nan) : value.le (infinity false) = true := by
  cases value with
  | nan => exact absurd rfl hvalue
  | finite _ => rfl
  | infinity negative => cases negative <;> rfl

theorem value_ne_nan {running : Running} (hsteady : Steady running) : running.value ≠ nan := by
  cases hsteady with
  | finite total lost _ _ _ _ => exact of_ne_nan (total + lost)
  | infinite lost =>
    rw [value_infinite]
    exact Binary64.noConfusion

-- One more float that is not negative.
theorem steady_next {running : Running} {more : Binary64} (hsteady : Steady running)
    (hmore : IsFloat more) (hnonneg : (Binary64.finite 0).le more = true) :
    Steady (running.next more) ∧ running.value.le (running.next more).value = true := by
  have hoverflow : running.total.add more = infinity false →
      Steady (running.next more) ∧ running.value.le (running.next more).value = true := by
    intro htotal
    obtain ⟨lost, hnext⟩ := @next_infinite running.total running.lost more htotal
    rw [hnext, value_infinite]
    exact ⟨.infinite lost, le_infinity (value_ne_nan hsteady)⟩
  cases hsteady with
  | infinite lost =>
    apply hoverflow
    cases more with
    | nan => simp [le, lt] at hnonneg
    | finite _ => rfl
    | infinity negative =>
      cases negative with
      | false => rfl
      | true => simp [le, lt] at hnonneg
  | finite total lost htotal htotal_nonneg hlost hbound =>
    cases more with
    | nan => simp [le, lt] at hnonneg
    | infinity negative =>
      cases negative with
      | false => exact hoverflow rfl
      | true => simp [le, lt] at hnonneg
    | finite more =>
      have hmore_nonneg := le_finite.mp hnonneg
      by_cases hsmall : |rounded (total + more)| < 2 ^ 1024
      · rw [next_finite htotal.1 hmore.1 htotal_nonneg hmore_nonneg hbound hsmall]
        refine ⟨.finite _ _ ⟨rounded_rounded _, hsmall⟩ (rounded_nonneg (by linarith))
          (rounded_rounded _) (lost_bound hbound (rounding_bound hsmall)), ?_⟩
        exact of_le_of (compensated_le htotal.1 hlost hmore_nonneg)
      · refine hoverflow ?_
        rw [add, of_eq, if_neg hsmall]
        simp only [infinity.injEq, decide_eq_false_iff_not, not_lt]
        linarith

theorem steady_foldl {running : Running} (hsteady : Steady running) {values : List Binary64}
    (hfloats : ∀ value ∈ values, IsFloat value)
    (hnonneg : ∀ value ∈ values, (Binary64.finite 0).le value = true) :
    Steady (values.foldl Running.next running) := by
  induction values generalizing running with
  | nil => exact hsteady
  | cons value rest ih =>
      have hnext := (steady_next hsteady (hfloats value List.mem_cons_self)
        (hnonneg value List.mem_cons_self)).1
      exact ih hnext (fun other hother => hfloats other (List.mem_cons_of_mem value hother))
        (fun other hother => hnonneg other (List.mem_cons_of_mem value hother))

theorem steady_first {first : Binary64} (hfloat : IsFloat first)
    (hnonneg : (Binary64.finite 0).le first = true) : Steady ⟨first, .finite 0⟩ := by
  cases first with
  | nan => simp [le, lt] at hnonneg
  | infinity negative =>
    cases negative with
    | false => exact .infinite _
    | true => simp [le, lt] at hnonneg
  | finite value =>
    refine .finite value 0 hfloat (le_finite.mp hnonneg) rounded_zero ?_
    rw [abs_zero]
    positivity

-- `sum(values + [more])` is no less than `sum(values)`.
theorem sum_le_sum_append {values : List Binary64} {more : Binary64}
    (hfloats : ∀ value ∈ values ++ [more], IsFloat value)
    (hnonneg : ∀ value ∈ values ++ [more], (Binary64.finite 0).le value = true) :
    (sum values).le (sum (values ++ [more])) = true := by
  cases values with
  | nil =>
    have hmore := hnonneg more (by simp)
    cases more with
    | nan => simp [le, lt] at hmore
    | infinity negative =>
      cases negative with
      | false => rfl
      | true => simp [le, lt] at hmore
    | finite value =>
      have hle : (0 : ℚ) + 0 ≤ value + 0 := by
        have := le_finite.mp hmore
        linarith
      have hzero : of (0 + 0) = sum [] := by
        have hsmall : |rounded 0| < 2 ^ 1024 := by
          rw [rounded_zero, abs_zero]
          exact pow_pos two_pos _
        rw [zero_add, of_small hsmall, rounded_zero, sum]
      rw [← hzero]
      exact of_le_of hle
  | cons first rest =>
    have hsteady := @steady_foldl _ (steady_first (hfloats first (by simp)) (hnonneg first (by simp))) rest
      (fun value hvalue => hfloats value (by simp [hvalue]))
      (fun value hvalue => hnonneg value (by simp [hvalue]))
    have hstep := steady_next hsteady (hfloats more (by simp)) (hnonneg more (by simp))
    simpa only [sum, List.cons_append, List.foldl_append, List.foldl_cons, List.foldl_nil] using hstep.2

theorem sum_nonneg {values : List Binary64} (hfloats : ∀ value ∈ values, IsFloat value)
    (hnonneg : ∀ value ∈ values, (Binary64.finite 0).le value = true) :
    (Binary64.finite 0).le (sum values) = true := by
  induction values using List.reverseRecOn with
  | nil => rfl
  | append_singleton values more ih =>
      have hsum := ih (fun value hvalue => hfloats value (by simp [hvalue]))
        (fun value hvalue => hnonneg value (by simp [hvalue]))
      exact le_trans hsum (sum_le_sum_append hfloats hnonneg)

end Running

-- One, half the way from it to the next float, and the next float.
theorem rounded_near_one : rounded 1 = 1 ∧ rounded (1 + 2 ^ (-53 : ℤ)) = 1 ∧
    rounded (1 + 2 ^ (-52 : ℤ)) = 1 + 2 ^ (-52 : ℤ) := by
  decide +kernel

-- A number is rounded down to one up to half the way to the next float.
theorem rounded_le_one_iff (value : ℚ) : rounded value ≤ 1 ↔ value ≤ 1 + 2 ^ (-53 : ℤ) := by
  constructor
  · intro hrounded
    by_contra hlarge
    rw [not_le] at hlarge
    have hnearest := @rounded_nearest value _ rounded_near_one.2.2
    have hbelow := abs_le.mp hnearest
    have hhalf : (2 : ℚ) ^ (-52 : ℤ) = 2 * 2 ^ (-53 : ℤ) := by norm_num
    have hpos : (0 : ℚ) < 2 ^ (-53 : ℤ) := zpow_pos (by norm_num) _
    rcases le_or_gt (1 + 2 ^ (-52 : ℤ)) value with hnext | hnear
    · rw [abs_of_nonpos (sub_nonpos.mpr hnext)] at hbelow
      linarith
    · rw [abs_of_nonneg (sub_nonneg.mpr hnear.le)] at hbelow
      linarith
  · intro hsmall
    have hmono := rounded_monotone hsmall
    rwa [rounded_near_one.2.1] at hmono

theorem rounded_quotient_nonneg (n d : ℕ) : 0 ≤ rounded ((n : ℚ) / d) := rounded_nonneg (by positivity)

theorem rounded_quotient_le_one_iff {n d : ℕ} (hd : 0 < d) :
    rounded ((n : ℚ) / d) ≤ 1 ↔ n * 2 ^ 53 ≤ d * (2 ^ 53 + 1) := by
  have hpos : (0 : ℚ) < d := by exact_mod_cast hd
  have hbound : (1 : ℚ) + 2 ^ (-53 : ℤ) = (2 ^ 53 + 1) / 2 ^ 53 := by norm_num
  rw [rounded_le_one_iff, hbound, div_le_div_iff₀ hpos (by norm_num), mul_comm (_ + _)]
  norm_cast

-- What is found of a quotient that a float can hold.
theorem exists_of_quotient {n d : ℕ} (hd : 0 < d) {value : Binary64} (hquotient : quotient? n d = some value) :
    ∃ found, value = finite found ∧ 0 ≤ found ∧ (found ≤ 1 ↔ n * 2 ^ 53 ≤ d * (2 ^ 53 + 1)) := by
  rw [quotient?, nearest?] at hquotient
  split at hquotient
  · exact ⟨_, (Option.some.inj hquotient).symm, rounded_quotient_nonneg n d, rounded_quotient_le_one_iff hd⟩
  · cases hquotient

-- A part of a whole.
theorem exists_quotient_of_le {n d : ℕ} (hle : n ≤ d) :
    ∃ value, quotient? n d = some (finite value) ∧ 0 ≤ value ∧ value ≤ 1 := by
  have hvalue : (n : ℚ) / d ≤ 1 := by
    rcases Nat.eq_zero_or_pos d with rfl | hpos
    · simp
    · exact (div_le_one (by exact_mod_cast hpos)).mpr (by exact_mod_cast hle)
  have hrounded : rounded ((n : ℚ) / d) ≤ 1 := by
    have hmono := rounded_monotone hvalue
    rwa [rounded_near_one.1] at hmono
  have hnonneg := rounded_quotient_nonneg n d
  refine ⟨_, ?_, hnonneg, hrounded⟩
  rw [quotient?, nearest?, if_pos, Option.map_some]
  rw [abs_of_nonneg hnonneg]
  exact hrounded.trans_lt (one_lt_pow₀ (by norm_num) (by norm_num))

end KnowledgeCompiler.Lib.Binary64
