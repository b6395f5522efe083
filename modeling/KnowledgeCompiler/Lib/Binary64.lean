import KnowledgeCompiler.Lib.Text
import Mathlib.Data.Int.Log
import Mathlib.Tactic.Linarith

namespace KnowledgeCompiler.Lib

-- A float, a finite one by its exact value; both zeros are one.
inductive Binary64
  | finite (value : ℚ)
  | infinity (negative : Bool)
  | nan
deriving DecidableEq

namespace Binary64

-- The distance of the floats around a number.
def ulp (value : ℚ) : ℚ := 2 ^ max (Int.log 2 |value| - 52) (-1074)

def rounded (value : ℚ) : ℚ := Text.roundHalfEven (value / ulp value) * ulp value

-- The nearest float, halves to the even one, unless the number is too large for any.
def nearest? (value : ℚ) : Option ℚ :=
  if |rounded value| < 2 ^ 1024 then some (rounded value) else none

def of (value : ℚ) : Binary64 :=
  match nearest? value with
  | some found => finite found
  | none => infinity (value < 0)

-- `float(n)`, which raises where the integer is too large.
def ofNat? (n : ℕ) : Option Binary64 := (nearest? n).map finite

-- `n / d` of integers, which raises where the quotient is too large.
def quotient? (n d : ℕ) : Option Binary64 := (nearest? (n / d)).map finite

def neg : Binary64 → Binary64
  | finite value => finite (-value)
  | infinity negative => infinity (!negative)
  | nan => nan

def abs : Binary64 → Binary64
  | finite value => finite |value|
  | infinity _ => infinity false
  | nan => nan

def add : Binary64 → Binary64 → Binary64
  | finite first, finite second => of (first + second)
  | infinity negative, infinity other => if negative = other then infinity negative else nan
  | infinity negative, finite _ => infinity negative
  | finite _, infinity negative => infinity negative
  | _, _ => nan

def sub (first second : Binary64) : Binary64 := add first (neg second)

def mul : Binary64 → Binary64 → Binary64
  | finite first, finite second => of (first * second)
  | infinity negative, infinity other => infinity (negative != other)
  | infinity negative, finite value =>
      if value = 0 then nan else infinity (negative != decide (value < 0))
  | finite value, infinity negative =>
      if value = 0 then nan else infinity (negative != decide (value < 0))
  | _, _ => nan

-- `first / second`; the callers' divisors are not zero.
def div : Binary64 → Binary64 → Binary64
  | finite first, finite second => of (first / second)
  | finite _, infinity _ => finite 0
  | infinity negative, finite value => infinity (negative != decide (value < 0))
  | _, _ => nan

-- `first < second`
def lt : Binary64 → Binary64 → Bool
  | finite first, finite second => first < second
  | infinity negative, infinity other => negative && !other
  | infinity negative, finite _ => negative
  | finite _, infinity negative => !negative
  | _, _ => false

-- `first <= second`
def le (first second : Binary64) : Bool := lt first second || (first = second && first ≠ nan)

-- `max(first, second)`
protected def max (first second : Binary64) : Binary64 := if lt first second then second else first

-- `min(first, second)`
protected def min (first second : Binary64) : Binary64 := if lt second first then second else first

-- `round(value, places)`
def round (value : Binary64) (places : ℕ) : Binary64 :=
  match value with
  | finite value => of (Text.roundHalfEven (value * 10 ^ places) / 10 ^ places)
  | other => other

-- `int(value)`, which raises on what is not finite.
def toInt? : Binary64 → Option ℤ
  | finite value => some (if 0 ≤ value then value.floor else value.ceil)
  | _ => none

-- `sum(values)` keeps what each addition loses and adds it at the end.

structure Running where
  total : Binary64
  lost : Binary64

def Running.next (running : Running) (value : Binary64) : Running :=
  let total := running.total.add value
  let lost :=
    if value.abs.le running.total.abs then (running.total.sub total).add value
    else (value.sub total).add running.total
  { total, lost := running.lost.add lost }

def Running.value (running : Running) : Binary64 :=
  match running.lost with
  | finite _ => running.total.add running.lost
  | _ => running.total

def sum : List Binary64 → Binary64
  | [] => finite 0
  | first :: rest => (rest.foldl Running.next ⟨first, finite 0⟩).value

example : (of (1 / 10)).add (of (2 / 10)) ≠ of (3 / 10) := by decide +kernel

theorem roundHalfEven_error (value : ℚ) : |(Text.roundHalfEven value : ℚ) - value| ≤ 1 / 2 := by
  have hlow : (value.floor : ℚ) ≤ value := Rat.floor_le value
  have hhigh : value < value.floor + 1 := by exact_mod_cast Rat.lt_floor_add_one value
  rw [abs_le]
  unfold Text.roundHalfEven
  dsimp only
  split
  · constructor <;> linarith
  · split
    · push_cast
      constructor <;> linarith
    · split
      · constructor <;> linarith
      · push_cast
        constructor <;> linarith

theorem ulp_pos (value : ℚ) : 0 < ulp value := zpow_pos (by norm_num) _

theorem rounded_error (value : ℚ) : |rounded value - value| ≤ ulp value / 2 := by
  have hulp := ulp_pos value
  have herror := roundHalfEven_error (value / ulp value)
  have hscaled : rounded value - value =
      (Text.roundHalfEven (value / ulp value) - value / ulp value) * ulp value := by
    rw [rounded, sub_mul, div_mul_cancel₀ value hulp.ne']
  rw [hscaled, abs_mul, abs_of_pos hulp]
  calc |(Text.roundHalfEven (value / ulp value) : ℚ) - value / ulp value| * ulp value
      ≤ 1 / 2 * ulp value := mul_le_mul_of_nonneg_right herror hulp.le
    _ = ulp value / 2 := by ring

theorem ulp_le (value : ℚ) : ulp value ≤ |value| / 2 ^ 52 + 1 := by
  have htiny : (2 : ℚ) ^ (-1074 : ℤ) ≤ 1 := zpow_le_one_of_nonpos₀ (by norm_num) (by norm_num)
  have hnonneg : 0 ≤ |value| / 2 ^ 52 := by positivity
  unfold ulp
  cases max_cases (Int.log 2 |value| - 52) (-1074) with
  | inl hnormal =>
    rw [hnormal.1, zpow_sub₀ (by norm_num)]
    by_cases hzero : |value| = 0
    · rw [hzero, Int.log_zero_right]
      norm_num
    · have hpos : 0 < |value| := lt_of_le_of_ne (abs_nonneg value) (Ne.symm hzero)
      have hlog : ((2 : ℕ) : ℚ) ^ Int.log 2 |value| ≤ |value| := Int.zpow_log_le_self one_lt_two hpos
      push_cast at hlog
      have hdiv : (2 : ℚ) ^ Int.log 2 |value| / 2 ^ 52 ≤ |value| / 2 ^ 52 :=
        div_le_div_of_nonneg_right hlog (by norm_num)
      norm_cast at hdiv ⊢
      linarith
  | inr hsubnormal =>
    rw [hsubnormal.1]
    linarith

-- `rw [of]` would evaluate the power.
theorem of_small {value : ℚ} (hsmall : |rounded value| < 2 ^ 1024) :
    of value = finite (rounded value) := by
  have hnearest : nearest? value = some (rounded value) := if_pos hsmall
  delta of
  rw [hnearest]

theorem of_large {value : ℚ} (hlarge : ¬|rounded value| < 2 ^ 1024) :
    of value = infinity (value < 0) := by
  have hnearest : nearest? value = none := if_neg hlarge
  delta of
  rw [hnearest]

-- Well below the largest float, every number has a float near it.
theorem of_finite {value : ℚ} (hvalue : |value| ≤ 3 / 4 * 2 ^ 1024) :
    ∃ found, of value = finite found := by
  have herror := rounded_error value
  have hulp := ulp_le value
  have hsize : |rounded value| ≤ |value| + ulp value / 2 := by
    have htriangle := abs_add_le (rounded value - value) value
    rw [sub_add_cancel] at htriangle
    linarith
  have hlarge : (2 : ℚ) ^ 2 ≤ 2 ^ 1024 := pow_le_pow_right₀ (by norm_num) (by norm_num)
  have hlt : |rounded value| < 2 ^ 1024 := by
    generalize (2 : ℚ) ^ 1024 = largest at hvalue hlarge ⊢
    linarith
  exact ⟨rounded value, of_small hlt⟩

end Binary64

end KnowledgeCompiler.Lib

namespace KnowledgeCompiler.Lib.Binary64

-- So many digits that are read back as the number, the closest first, and where its point stands.
def digitsOf? (value : ℚ) (count : ℕ) : Option (List Char × ℤ) :=
  let point := Int.log 10 value + 1
  let unit : ℚ := 10 ^ (point - count)
  let near := Text.roundHalfEven (value / unit)
  let far := if near ≤ value / unit then near + 1 else near - 1
  ([near, far].find? fun (digits : ℤ) => nearest? (digits * unit) = some value).map fun digits =>
    let text := (toString digits.toNat).toList
    (text, point + text.length - count)

-- The fewest digits do, and seventeen always.
def shortestDigits (value : ℚ) : List Char × ℤ :=
  ((List.range 17).findSome? fun count => digitsOf? value (count + 1)).getD ([], 0)

def trimZeros (digits : List Char) : List Char := (digits.reverse.dropWhile (· = '0')).reverse

def positiveText (value : ℚ) : List Char :=
  let (found, point) := shortestDigits value
  let digits := trimZeros found
  if point ≤ -4 ∨ 16 < point then
    let fraction := if digits.length ≤ 1 then [] else '.' :: digits.drop 1
    let exponent := (point - 1).natAbs
    digits.take 1 ++ fraction ++ 'e' :: (if point - 1 < 0 then '-' else '+') ::
      ((if exponent < 10 then ['0'] else []) ++ (toString exponent).toList)
  else if point ≤ 0 then
    '0' :: '.' :: List.replicate (-point).toNat '0' ++ digits
  else
    let whole := point.toNat
    if digits.length ≤ whole then
      digits ++ List.replicate (whole - digits.length) '0' ++ ['.', '0']
    else digits.take whole ++ '.' :: digits.drop whole

-- `repr(value)`
def repr : Binary64 → List Char
  | finite value =>
      if value = 0 then "0.0".toList
      else if value < 0 then '-' :: positiveText (-value)
      else positiveText value
  | infinity negative => if negative then "-inf".toList else "inf".toList
  | nan => "nan".toList

example : (of 82.5).repr = "82.5".toList ∧ (of (10 ^ 23)).repr = "1e+23".toList ∧
    (of (2 ^ (-44 : ℤ))).repr = "5.684341886080802e-14".toList := by
  decide +kernel

end KnowledgeCompiler.Lib.Binary64
