import KnowledgeCompiler.Lib.Binary64.Order
import KnowledgeCompiler.Lib.Binary64.Sum
import Mathlib.Algebra.Order.Field.Rat
import Mathlib.Tactic.Positivity
import Mathlib.Tactic.Ring

namespace KnowledgeCompiler.Lib

-- `decimal.Decimal`, under the default context.
inductive Decimal
  | finite (negative : Bool) (coefficient : ℕ) (exponent : ℤ)
  | infinity (negative : Bool)
  | nan
deriving DecidableEq

namespace Decimal

def prec : ℕ := 28

def signed (negative : Bool) (coefficient : ℕ) : ℤ := if negative then -coefficient else coefficient

def toRat : Decimal → ℚ
  | finite negative coefficient exponent => signed negative coefficient * 10 ^ exponent
  | _ => 0

def is_finite : Decimal → Bool
  | finite _ _ _ => true
  | _ => false

-- `value < 0`, which raises on a NaN.
def ltZero : Decimal → Option Bool
  | finite negative coefficient _ => some (negative && coefficient ≠ 0)
  | infinity negative => some negative
  | nan => none

-- `first == second`: numbers by value, and a NaN equals nothing.
def same : Decimal → Decimal → Bool
  | nan, _ => false
  | _, nan => false
  | infinity negative, infinity other => negative = other
  | infinity _, finite _ _ _ => false
  | finite _ _ _, infinity _ => false
  | first, second => first.toRat = second.toRat

def rescale (coefficient : ℕ) (exponent target : ℤ) : ℕ :=
  if target ≤ exponent then coefficient * 10 ^ (exponent - target).toNat
  else (Text.roundHalfEven ((coefficient : ℚ) / 10 ^ (target - exponent).toNat)).toNat

-- `value.quantize(Decimal((0, (1,), target)), rounding=ROUND_HALF_EVEN)` of a finite value.
def quantize (negative : Bool) (coefficient : ℕ) (exponent target : ℤ) : Option Decimal :=
  let rescaled := rescale coefficient exponent target
  if rescaled < 10 ^ prec then some (finite negative rescaled target) else none

-- A result with more digits than the context allows is rounded to that many.
def fix (negative : Bool) (coefficient : ℕ) (exponent : ℤ) : Decimal :=
  if coefficient < 10 ^ prec then finite negative coefficient exponent
  else
    let excess := (Nat.toDigits 10 coefficient).length - prec
    let rounded := rescale coefficient exponent (exponent + excess)
    if rounded < 10 ^ prec then finite negative rounded (exponent + excess)
    else finite negative (rounded / 10) (exponent + excess + 1)

def add : Decimal → Decimal → Decimal
  | finite negative coefficient exponent, finite other second place =>
      let low := min exponent place
      let total := signed negative (rescale coefficient exponent low) +
        signed other (rescale second place low)
      let minus := if total = 0 then negative && other else decide (total < 0)
      fix minus total.natAbs low
  | infinity negative, infinity other => if negative = other then infinity negative else nan
  | infinity negative, finite _ _ _ => infinity negative
  | finite _ _ _, infinity negative => infinity negative
  | _, _ => nan

def neg : Decimal → Decimal
  | finite negative coefficient exponent => finite (!negative) coefficient exponent
  | infinity negative => infinity (!negative)
  | nan => nan

def sub (first second : Decimal) : Decimal := add first (neg second)

-- `format(value, "f")` of a finite value.
def formatF (negative : Bool) (coefficient : ℕ) (exponent : ℤ) : List Char :=
  let digits := Nat.toDigits 10 (coefficient * 10 ^ exponent.toNat)
  let places := (-exponent).toNat
  let padded := List.replicate (places + 1 - digits.length) '0' ++ digits
  let whole := padded.take (padded.length - places)
  let fraction := padded.drop (padded.length - places)
  (if negative then ['-'] else []) ++ whole ++ (if fraction = [] then [] else '.' :: fraction)

def text : Decimal → List Char
  | finite negative coefficient exponent => formatF negative coefficient exponent
  | infinity negative => (if negative then ['-'] else []) ++ "Infinity".toList
  | nan => "NaN".toList

example : (finite false 2000000 (-6)).text = "2.000000".toList := by decide

-- A number of units at a place, where zero may also stand at place zero.
def IsUnits (value : Decimal) (place : ℤ) (units : ℕ) : Prop :=
  ∃ negative exponent, value = finite negative units exponent ∧ (negative = true → units = 0) ∧
    (exponent = place ∨ units = 0 ∧ exponent = 0)

theorem isUnits_zero (place : ℤ) : IsUnits (finite false 0 0) place 0 :=
  ⟨false, 0, rfl, Bool.noConfusion, Or.inr ⟨rfl, rfl⟩⟩

theorem signed_of_isUnits {negative : Bool} {units : ℕ} (hsign : negative = true → units = 0) :
    signed negative units = units := by
  cases negative with
  | false => rfl
  | true => simp [signed, hsign rfl]

theorem IsUnits.toRat_eq {value : Decimal} {place : ℤ} {units : ℕ}
    (hunits : IsUnits value place units) : value.toRat = units * 10 ^ place := by
  obtain ⟨negative, exponent, rfl, hsign, hplace⟩ := hunits
  rw [toRat, signed_of_isUnits hsign]
  cases hplace with
  | inl heq => rw [heq, Int.cast_natCast]
  | inr hzero => simp [hzero.1]

theorem IsUnits.toRat_nonneg {value : Decimal} {place : ℤ} {units : ℕ}
    (hunits : IsUnits value place units) : 0 ≤ value.toRat := by
  rw [hunits.toRat_eq]
  exact mul_nonneg (Nat.cast_nonneg units) (zpow_nonneg (by norm_num) place)

theorem IsUnits.toRat_le_iff {value other : Decimal} {place : ℤ} {units more : ℕ}
    (hunits : IsUnits value place units) (hmore : IsUnits other place more) :
    value.toRat ≤ other.toRat ↔ units ≤ more := by
  have hplace : (0 : ℚ) < 10 ^ place := zpow_pos (by norm_num) place
  rw [hunits.toRat_eq, hmore.toRat_eq, mul_le_mul_iff_left₀ hplace, Nat.cast_le]

theorem IsUnits.is_finite {value : Decimal} {place : ℤ} {units : ℕ}
    (hunits : IsUnits value place units) : value.is_finite = true := by
  obtain ⟨negative, exponent, rfl, -, -⟩ := hunits
  rfl

theorem fix_of_lt {negative : Bool} {coefficient : ℕ} {exponent : ℤ}
    (hlt : coefficient < 10 ^ prec) :
    fix negative coefficient exponent = finite negative coefficient exponent := if_pos hlt

theorem rescale_self (coefficient : ℕ) (exponent : ℤ) :
    rescale coefficient exponent exponent = coefficient := by
  simp [rescale]

theorem rescale_zero (exponent target : ℤ) : rescale 0 exponent target = 0 := by
  have hzero : Text.roundHalfEven 0 = 0 := by decide +kernel
  simp [rescale, hzero]

-- At the lower of two places that zero may leave, nothing is lost.
theorem rescale_low {place exponent other : ℤ} {units : ℕ} (hplace : place ≤ 0)
    (hfirst : exponent = place ∨ units = 0 ∧ exponent = 0)
    (hother : other = place ∨ other = 0) : rescale units exponent (min exponent other) = units := by
  cases hfirst with
  | inl heq =>
    have hlow : min exponent other = exponent := by
      apply min_eq_left
      omega
    rw [hlow, rescale_self]
  | inr hzero =>
    rw [hzero.1]
    exact rescale_zero _ _

theorem quantize_isUnits {negative : Bool} {coefficient : ℕ} {exponent place : ℤ} {value : Decimal}
    (hsign : negative = true → coefficient = 0)
    (hquantize : quantize negative coefficient exponent place = some value) :
    ∃ units < 10 ^ prec, IsUnits value place units := by
  simp only [quantize] at hquantize
  split at hquantize
  · rename_i hlt
    obtain rfl := Option.some.inj hquantize
    refine ⟨_, hlt, negative, place, rfl, ?_, Or.inl rfl⟩
    intro hnegative
    rw [hsign hnegative, rescale_zero]
  · cases hquantize

theorem low_place {place exponent other : ℤ} {units more : ℕ} (hplace : place ≤ 0)
    (hfirst : exponent = place ∨ units = 0 ∧ exponent = 0)
    (hsecond : other = place ∨ more = 0 ∧ other = 0) :
    min exponent other = place ∨ (units = 0 ∧ more = 0) ∧ min exponent other = 0 := by
  omega

theorem IsUnits.add {first second : Decimal} {place : ℤ} {units more : ℕ} (hplace : place ≤ 0)
    (hfirst : IsUnits first place units) (hsecond : IsUnits second place more)
    (hlt : units + more < 10 ^ prec) : IsUnits (first.add second) place (units + more) := by
  obtain ⟨negative, exponent, rfl, hsign, hexponent⟩ := hfirst
  obtain ⟨other, standing, rfl, hother, hstanding⟩ := hsecond
  have hrescale := rescale_low hplace hexponent (hstanding.imp_right And.right)
  have hrescaled := rescale_low hplace hstanding (hexponent.imp_right And.right)
  rw [min_comm] at hrescaled
  have htotal : (units : ℤ) + more = ((units + more : ℕ) : ℤ) := by push_cast; rfl
  simp only [Decimal.add, hrescale, hrescaled, signed_of_isUnits hsign, signed_of_isUnits hother,
    htotal, Int.natAbs_natCast, fix_of_lt hlt]
  refine ⟨_, _, rfl, ?_, ?_⟩
  · intro hminus
    split at hminus
    · omega
    · have := of_decide_eq_true hminus
      omega
  · have := low_place hplace hexponent hstanding
    omega

theorem IsUnits.sub {first second : Decimal} {place : ℤ} {units less : ℕ} (hplace : place ≤ 0)
    (hfirst : IsUnits first place units) (hsecond : IsUnits second place less) (hle : less ≤ units)
    (hlt : units < 10 ^ prec) : IsUnits (first.sub second) place (units - less) := by
  obtain ⟨negative, exponent, rfl, hsign, hexponent⟩ := hfirst
  obtain ⟨other, standing, rfl, hother, hstanding⟩ := hsecond
  have hrescale := rescale_low hplace hexponent (hstanding.imp_right And.right)
  have hrescaled := rescale_low hplace hstanding (hexponent.imp_right And.right)
  rw [min_comm] at hrescaled
  have hsigned : signed (!other) less = -(less : ℤ) := by
    cases other with
    | false => rfl
    | true => simp [signed, hother rfl]
  have htotal : (units : ℤ) + -(less : ℤ) = ((units - less : ℕ) : ℤ) := by omega
  have hless : units - less < 10 ^ prec := by omega
  simp only [Decimal.sub, neg, Decimal.add, hrescale, hrescaled, signed_of_isUnits hsign, hsigned,
    htotal, Int.natAbs_natCast, fix_of_lt hless]
  refine ⟨_, _, rfl, ?_, ?_⟩
  · intro hminus
    split at hminus
    · omega
    · have := of_decide_eq_true hminus
      omega
  · have := low_place hplace hexponent hstanding
    omega

end Decimal

end KnowledgeCompiler.Lib

namespace KnowledgeCompiler.Lib.Decimal

-- The results of operations of the default context, by the numbers they stand for.

def Emax : ℤ := 999999

def Etiny : ℤ := -1000026

-- The place of the last digit that is kept.
def place (value : ℚ) : ℤ := max (Int.log 10 |value| - 27) Etiny

def rounded (value : ℚ) : ℚ := Text.roundHalfEven (value / 10 ^ place value) * 10 ^ place value

-- A result that is too large raises.
def fixed (value : ℚ) : Option ℚ :=
  if Emax < Int.log 10 |rounded value| then none else some (rounded value)

-- A finite number as it is written.
structure Numeral where
  negative : Bool
  coefficient : ℕ
  exponent : ℤ
deriving DecidableEq

-- `coefficient / 10 ^ count`, half to even.
def leading (coefficient count : ℕ) : ℕ :=
  let head := coefficient / 10 ^ count
  let tail := coefficient % 10 ^ count
  if 2 * tail < 10 ^ count then head
  else if 10 ^ count < 2 * tail then head + 1
  else if head % 2 = 0 then head else head + 1

theorem roundHalfEven_div (coefficient count : ℕ) :
    Text.roundHalfEven ((coefficient : ℚ) / 10 ^ count) = leading coefficient count := by
  have hpower : (0 : ℚ) < 10 ^ count := by positivity
  have hsplit : (coefficient : ℚ) =
      10 ^ count * (coefficient / 10 ^ count : ℕ) + (coefficient % 10 ^ count : ℕ) := by
    exact_mod_cast (Nat.div_add_mod coefficient (10 ^ count)).symm
  have hfloor : ((coefficient : ℚ) / 10 ^ count).floor = (coefficient / 10 ^ count : ℕ) := by
    have hcast : ((10 ^ count : ℕ) : ℚ) = 10 ^ count := by push_cast; rfl
    rw [← hcast]
    exact Rat.floor_natCast_div_natCast coefficient (10 ^ count)
  have hexcess : (coefficient : ℚ) / 10 ^ count - ((coefficient / 10 ^ count : ℕ) : ℤ) =
      (coefficient % 10 ^ count : ℕ) / 10 ^ count := by
    rw [Int.cast_natCast, div_sub' hpower.ne', div_left_inj' hpower.ne']
    linarith
  have hless : ((coefficient % 10 ^ count : ℕ) : ℚ) / 10 ^ count < 1 / 2 ↔
      2 * (coefficient % 10 ^ count) < 10 ^ count := by
    rw [div_lt_div_iff₀ hpower two_pos, one_mul, mul_comm]
    exact_mod_cast Iff.rfl
  have hmore : 1 / 2 < ((coefficient % 10 ^ count : ℕ) : ℚ) / 10 ^ count ↔
      10 ^ count < 2 * (coefficient % 10 ^ count) := by
    rw [div_lt_div_iff₀ two_pos hpower, one_mul, mul_comm]
    exact_mod_cast Iff.rfl
  have heven : ((coefficient / 10 ^ count : ℕ) : ℤ) % 2 = 0 ↔ coefficient / 10 ^ count % 2 = 0 := by
    omega
  rw [Text.roundHalfEven, hfloor]
  simp only [hexcess, hless, hmore, heven, leading]
  split_ifs <;> push_cast <;> rfl

theorem leading_mul_iff (coefficient count : ℕ) :
    leading coefficient count * 10 ^ count = coefficient ↔ coefficient % 10 ^ count = 0 := by
  have hsplit := Nat.div_add_mod' coefficient (10 ^ count)
  have htail := Nat.mod_lt coefficient (show 0 < 10 ^ count by positivity)
  have hnext := Nat.succ_mul (coefficient / 10 ^ count) (10 ^ count)
  rw [Nat.succ_eq_add_one] at hnext
  dsimp only [leading]
  split_ifs <;> omega

theorem leading_zero (count : ℕ) : leading 0 count = 0 := by simp [leading]

namespace Numeral

def toRat (numeral : Numeral) : ℚ :=
  signed numeral.negative numeral.coefficient * 10 ^ numeral.exponent

def neg (numeral : Numeral) : Numeral := { numeral with negative := !numeral.negative }

-- The point moved by some places.
def shift (numeral : Numeral) (places : ℤ) : Numeral :=
  { numeral with exponent := numeral.exponent + places }

-- How many digits come behind the first 28, or behind the last place of the context.
def surplus (numeral : Numeral) : ℕ :=
  max (Nat.log 10 numeral.coefficient - 27) (Etiny - numeral.exponent).toNat

def cut (numeral : Numeral) : Numeral :=
  ⟨numeral.negative, leading numeral.coefficient numeral.surplus, numeral.exponent + numeral.surplus⟩

-- The first digit is at a place of the context.
def Bounded (numeral : Numeral) : Prop :=
  numeral.coefficient = 0 ∨ Nat.log 10 numeral.coefficient + numeral.exponent ≤ Emax

instance (numeral : Numeral) : Decidable numeral.Bounded := inferInstanceAs (Decidable (_ ∨ _))

-- The digits that are kept of a number.
def kept (numeral : Numeral) : Option Numeral :=
  if numeral.cut.Bounded then some numeral.cut else none

-- Nothing is lost: all digits behind the first 28 are zeros.
def Short (numeral : Numeral) : Prop :=
  numeral.coefficient % 10 ^ numeral.surplus = 0 ∧ numeral.Bounded

theorem toRat_neg (numeral : Numeral) : numeral.neg.toRat = -numeral.toRat := by
  obtain ⟨negative, coefficient, exponent⟩ := numeral
  cases negative <;> simp [toRat, neg, signed]

theorem toRat_shift (numeral : Numeral) (places : ℤ) :
    (numeral.shift places).toRat = numeral.toRat * 10 ^ places := by
  rw [toRat, toRat, shift, zpow_add₀ (by norm_num), mul_assoc]

theorem abs_toRat (numeral : Numeral) :
    |numeral.toRat| = numeral.coefficient * 10 ^ numeral.exponent := by
  have hpower : (0 : ℚ) < 10 ^ numeral.exponent := zpow_pos (by norm_num) _
  rw [toRat, abs_mul, abs_of_pos hpower, signed]
  split <;> simp

theorem log_toRat {numeral : Numeral} (hne : numeral.coefficient ≠ 0) :
    Int.log 10 |numeral.toRat| = Nat.log 10 numeral.coefficient + numeral.exponent := by
  have hten : (10 : ℚ) ≠ 0 := by norm_num
  have hpower : (0 : ℚ) < 10 ^ numeral.exponent := zpow_pos (by norm_num) _
  have hpos : 0 < |numeral.toRat| := by
    rw [abs_toRat]
    exact mul_pos (Nat.cast_pos.mpr (Nat.pos_of_ne_zero hne)) hpower
  have hlow : ((10 ^ Nat.log 10 numeral.coefficient : ℕ) : ℚ) ≤ numeral.coefficient :=
    Nat.cast_le.mpr (Nat.pow_log_le_self 10 hne)
  have hhigh : (numeral.coefficient : ℚ) < (10 ^ (Nat.log 10 numeral.coefficient + 1) : ℕ) :=
    Nat.cast_lt.mpr (Nat.lt_pow_succ_log_self (by norm_num) _)
  push_cast at hlow hhigh
  apply le_antisymm
  · refine Int.lt_add_one_iff.mp ((Int.lt_zpow_iff_log_lt (by norm_num) hpos).mp ?_)
    rw [abs_toRat, add_right_comm, Nat.cast_ofNat, zpow_add₀ hten]
    exact mul_lt_mul_of_pos_right (by exact_mod_cast hhigh) hpower
  · refine (Int.zpow_le_iff_le_log (by norm_num) hpos).mp ?_
    rw [abs_toRat, Nat.cast_ofNat, zpow_add₀ hten]
    exact mul_le_mul_of_nonneg_right (by exact_mod_cast hlow) hpower.le

theorem bounded_iff (numeral : Numeral) : numeral.Bounded ↔ Int.log 10 |numeral.toRat| ≤ Emax := by
  by_cases hzero : numeral.coefficient = 0
  · have hnone : |numeral.toRat| = 0 := by rw [abs_toRat, hzero, Nat.cast_zero, zero_mul]
    rw [hnone, Int.log_of_right_le_zero 10 le_rfl]
    exact iff_of_true (.inl hzero) (by decide)
  · rw [log_toRat hzero, Bounded, or_iff_right hzero]

theorem roundHalfEven_signed (negative : Bool) (coefficient count : ℕ) :
    Text.roundHalfEven ((signed negative coefficient : ℚ) / 10 ^ count) =
      signed negative (leading coefficient count) := by
  cases negative with
  | false => exact roundHalfEven_div coefficient count
  | true =>
    have hsigned : (signed true coefficient : ℚ) / 10 ^ count = -(coefficient / 10 ^ count) := by
      simp [signed, neg_div]
    rw [hsigned, Binary64.roundHalfEven_neg, roundHalfEven_div]
    rfl

theorem cut_toRat_of_surplus {numeral : Numeral} (hnone : numeral.surplus = 0) :
    numeral.cut.toRat = numeral.toRat := by
  have hsame := (leading_mul_iff numeral.coefficient 0).mpr (Nat.mod_one _)
  rw [pow_zero, mul_one] at hsame
  rw [toRat, toRat, cut, hnone, hsame, Nat.cast_zero, add_zero]

-- The place at which a number is rounded is that of the last digit kept, or behind its last one.
theorem rounded_toRat (numeral : Numeral) : rounded numeral.toRat = numeral.cut.toRat := by
  have hten : (10 : ℚ) ≠ 0 := by norm_num
  by_cases hzero : numeral.coefficient = 0
  · have hnone := abs_toRat numeral
    rw [hzero, Nat.cast_zero, zero_mul, abs_eq_zero] at hnone
    have hround := Binary64.roundHalfEven_intCast 0
    rw [Int.cast_zero] at hround
    rw [rounded, hnone, zero_div, hround, toRat, cut, hzero, leading_zero]
    simp [signed]
  have hplace : place numeral.toRat =
      max (Nat.log 10 numeral.coefficient + numeral.exponent - 27) Etiny := by
    rw [place, log_toRat hzero]
  by_cases hnone : numeral.surplus = 0
  · rw [cut_toRat_of_surplus hnone]
    have hwhole : numeral.toRat / 10 ^ place numeral.toRat =
        (signed numeral.negative numeral.coefficient *
          10 ^ (numeral.exponent - place numeral.toRat).toNat : ℤ) := by
      have hle : place numeral.toRat ≤ numeral.exponent := by
        unfold surplus at hnone
        omega
      rw [div_eq_iff (zpow_ne_zero _ hten)]
      push_cast
      rw [← zpow_natCast, mul_assoc, ← zpow_add₀ hten, Int.toNat_of_nonneg (by omega), sub_add_cancel]
      rfl
    rw [rounded, hwhole, Binary64.roundHalfEven_intCast, ← hwhole,
      div_mul_cancel₀ _ (zpow_ne_zero _ hten)]
  · have hlast : place numeral.toRat = numeral.exponent + numeral.surplus := by
      rw [hplace]
      unfold surplus at hnone ⊢
      omega
    have hscaled : numeral.toRat / 10 ^ place numeral.toRat =
        (signed numeral.negative numeral.coefficient : ℚ) / 10 ^ numeral.surplus := by
      rw [hlast, zpow_add₀ hten, zpow_natCast, toRat, mul_comm, mul_div_mul_left _ _ (zpow_ne_zero _ hten)]
    rw [rounded, hscaled, roundHalfEven_signed, hlast]
    rfl

theorem fixed_toRat (numeral : Numeral) : fixed numeral.toRat = numeral.kept.map toRat := by
  have hbounded := numeral.cut.bounded_iff
  rw [fixed, rounded_toRat, kept]
  by_cases hsmall : numeral.cut.Bounded
  · rw [if_pos hsmall, if_neg (not_lt.mpr (hbounded.mp hsmall))]
    rfl
  · rw [if_neg hsmall, if_pos (not_le.mp (hsmall ∘ hbounded.mpr))]
    rfl

theorem cut_toRat_iff (numeral : Numeral) :
    numeral.cut.toRat = numeral.toRat ↔ numeral.coefficient % 10 ^ numeral.surplus = 0 := by
  have hpower : (10 : ℚ) ^ numeral.exponent ≠ 0 := zpow_ne_zero _ (by norm_num)
  have hsigned : (signed numeral.negative (leading numeral.coefficient numeral.surplus) : ℚ) *
      10 ^ numeral.surplus =
        signed numeral.negative (leading numeral.coefficient numeral.surplus * 10 ^ numeral.surplus) := by
    cases numeral.negative <;> simp [signed]
  rw [toRat, toRat, cut, zpow_add₀ (by norm_num), mul_comm (_ ^ _), ← mul_assoc, zpow_natCast, hsigned,
    mul_left_inj' hpower, Int.cast_inj, ← leading_mul_iff]
  cases numeral.negative <;> simp [signed] <;> norm_cast

theorem fixed_self_iff (numeral : Numeral) :
    fixed numeral.toRat = some numeral.toRat ↔ numeral.Short := by
  rw [fixed, rounded_toRat, Short, ← cut_toRat_iff, bounded_iff]
  constructor
  · intro hfixed
    split at hfixed
    · cases hfixed
    · rename_i hsmall
      have hcut := Option.some.inj hfixed
      exact ⟨hcut, hcut ▸ not_lt.mp hsmall⟩
  · rintro ⟨hcut, hsmall⟩
    rw [hcut, if_neg (not_lt.mpr hsmall)]

end Numeral

end KnowledgeCompiler.Lib.Decimal
