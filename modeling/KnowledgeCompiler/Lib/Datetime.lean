import Mathlib.Algebra.Ring.Nat
import Mathlib.Data.List.TakeWhile

namespace KnowledgeCompiler.Lib

def isLeap (year : Nat) : Bool := year % 4 = 0 && (year % 100 ≠ 0 || year % 400 = 0)

def daysInMonth (year month : Nat) : Nat :=
  if month = 2 then (if isLeap year then 29 else 28)
  else if month = 4 ∨ month = 6 ∨ month = 9 ∨ month = 11 then 30
  else 31

-- `utcoffset` is in microseconds, and absent from a naive datetime.
structure Datetime where
  year : Nat
  month : Nat
  day : Nat
  hour : Nat
  minute : Nat
  second : Nat
  microsecond : Nat
  utcoffset : Option Int
  year_range : 1 ≤ year ∧ year ≤ 9999
  month_range : 1 ≤ month ∧ month ≤ 12
  day_range : 1 ≤ day ∧ day ≤ daysInMonth year month
  time_range : hour < 24 ∧ minute < 60 ∧ second < 60 ∧ microsecond < 1000000
  offset_range : ∀ offset ∈ utcoffset, offset.natAbs < 86400000000
deriving DecidableEq

namespace Datetime

def digit (n : Nat) : Char := Nat.digitChar (n % 10)

def pad2 (n : Nat) : List Char := [digit (n / 10), digit n]

def pad4 (n : Nat) : List Char := [digit (n / 1000), digit (n / 100), digit (n / 10), digit n]

def pad6 (n : Nat) : List Char :=
  [digit (n / 100000), digit (n / 10000), digit (n / 1000), digit (n / 100), digit (n / 10), digit n]

def formatFraction (microsecond : Nat) : List Char :=
  if microsecond = 0 then [] else '.' :: pad6 microsecond

def formatZone (micros : Nat) : List Char :=
  let minutes := micros / 60000000
  let seconds := micros / 1000000 % 60
  let fraction := micros % 1000000
  pad2 (minutes / 60) ++ ':' :: pad2 (minutes % 60) ++
    (if seconds = 0 ∧ fraction = 0 then []
      else ':' :: pad2 seconds ++ formatFraction fraction)

def formatOffset (offset : Int) : List Char :=
  (if offset < 0 then '-' else '+') :: formatZone offset.natAbs

-- `datetime.isoformat`
def isoformat (moment : Datetime) : List Char :=
  pad4 moment.year ++ '-' :: pad2 moment.month ++ '-' :: pad2 moment.day ++
    'T' :: pad2 moment.hour ++ ':' :: pad2 moment.minute ++ ':' :: pad2 moment.second ++
    formatFraction moment.microsecond ++
    (moment.utcoffset.map formatOffset).getD []

def digitValue (c : Char) : Option Nat := if c.isDigit then some (c.toNat - 48) else none

def readDigits (digits : List Char) : Option Nat :=
  digits.foldlM (fun number c => (digitValue c).map (10 * number + ·)) 0

def readAt (text : List Char) (position width : Nat) : Option Nat :=
  let digits := (text.drop position).take width
  if digits.length = width then readDigits digits else none

def daysBeforeYear (year : Nat) : Nat :=
  let before := year - 1
  before * 365 + before / 4 - before / 100 + before / 400

-- The date that lies so many days after the first of January.
def dayOfYear (year offset : Nat) : Nat × Nat × Nat :=
  let (month, left) := (List.range 12).foldl
    (fun (found : Nat × Nat) _ =>
      let length := daysInMonth year found.1
      if found.1 < 12 ∧ length ≤ found.2 then (found.1 + 1, found.2 - length) else found)
    (1, offset)
  (year, month, left + 1)

def isoweekToGregorian (year week day : Nat) : Option (Nat × Nat × Nat) :=
  let firstday := daysBeforeYear year + 1
  let longYear := firstday % 7 = 4 ∨ (firstday % 7 = 3 ∧ isLeap year)
  if ¬(1 ≤ year ∧ year ≤ 9999) ∨ ¬(0 < week ∧ (week < 53 ∨ week = 53 ∧ longYear)) ∨
      ¬(0 < day ∧ day < 8) then none
  else
    let firstweekday := (firstday + 6) % 7
    let week1monday := if 3 < firstweekday then firstday - firstweekday + 7 else firstday - firstweekday
    let ordinal := week1monday + (week - 1) * 7 + (day - 1)
    if ordinal < firstday then some (dayOfYear (year - 1) (ordinal - (daysBeforeYear (year - 1) + 1)))
    else if daysBeforeYear (year + 1) < ordinal then
      some (dayOfYear (year + 1) (ordinal - (daysBeforeYear (year + 1) + 1)))
    else some (dayOfYear year (ordinal - firstday))

-- Where the date ends: a week date and a time without a separator are told apart here.
def separatorIndex (text : List Char) : Option Nat :=
  let isDigitAt (position : Nat) : Bool := (text[position]?).any Char.isDigit
  if text.length < 7 then none
  else if text.length = 7 then some 7
  else if text[4]? = some '-' then
    if text[5]? = some 'W' then
      if text[8]? = some '-' then
        if text.length = 9 then none else if isDigitAt 10 then some 8 else some 10
      else some 8
    else some 10
  else if text[4]? = some 'W' then
    let index := 7 + ((text.drop 7).takeWhile Char.isDigit).length
    if index < 9 then some index else if index % 2 = 0 then some 7 else some 8
  else some 8

def parseIsoformatDate (text : List Char) : Option (Nat × Nat × Nat) := do
  let year ← readAt text 0 4
  let hasDash := text[4]? = some '-'
  let dash := if hasDash then 1 else 0
  let position := 4 + dash
  if text[position]? = some 'W' then
    let week ← readAt text (position + 1) 2
    if position + 3 < text.length then
      if (text[position + 3]? = some '-') ≠ hasDash then none
      else
        let day ← readAt text (position + 3 + dash) 1
        isoweekToGregorian year week day
    else isoweekToGregorian year week 1
  else
    let month ← readAt text position 2
    if (text[position + 2]? = some '-') ≠ hasDash then none
    else
      let day ← readAt text (position + 2 + dash) 2
      some (year, month, day)

def parseFraction : List Char → Option Nat
  | [] => some 0
  | mark :: digits =>
      if (mark = '.' ∨ mark = ',') ∧ digits ≠ [] ∧ digits.all Char.isDigit then
        (readDigits (digits.take 6)).map (· * 10 ^ (6 - digits.length))
      else none

-- `HH[:?MM[:?SS[{.,}fff[fff]]]]`
def parseHhMmSsFf (text : List Char) : Option (Nat × Nat × Nat × Nat) := do
  let hour ← readAt text 0 2
  let rest := text.drop 2
  if rest = [] then some (hour, 0, 0, 0)
  else
    let colon := rest.head? = some ':'
    let rest := if colon then rest.drop 1 else rest
    let minute ← readAt rest 0 2
    let rest := rest.drop 2
    if rest = [] then some (hour, minute, 0, 0)
    else if colon ∧ rest.head? ≠ some ':' then none
    else
      let rest := if colon then rest.drop 1 else rest
      let second ← readAt rest 0 2
      let microsecond ← parseFraction (rest.drop 2)
      some (hour, minute, second, microsecond)

def offsetMicros (fields : Nat × Nat × Nat × Nat) : Nat :=
  ((fields.1 * 60 + fields.2.1) * 60 + fields.2.2.1) * 1000000 + fields.2.2.2

def parseIsoformatTime (text : List Char) : Option ((Nat × Nat × Nat × Nat) × Option Int) :=
  if text.length < 2 then none
  else
    match ['-', '+', 'Z'].find? (· ∈ text) with
    | none => (parseHhMmSsFf text).map (·, none)
    | some mark => do
        let time ← parseHhMmSsFf (text.takeWhile (· ≠ mark))
        let zone := (text.dropWhile (· ≠ mark)).drop 1
        if mark = 'Z' ∧ zone = [] then some (time, some 0)
        else if zone.length = 0 ∨ zone.length = 1 ∨ zone.length = 3 then none
        else
          let fields ← parseHhMmSsFf zone
          some (time, some (if mark = '-' then -(offsetMicros fields : Int) else offsetMicros fields))

-- The constructor's own checks.
def make (date : Nat × Nat × Nat) (time : Nat × Nat × Nat × Nat) (utcoffset : Option Int) :
    Option Datetime :=
  let (year, month, day) := date
  let (hour, minute, second, microsecond) := time
  if h : (1 ≤ year ∧ year ≤ 9999) ∧ (1 ≤ month ∧ month ≤ 12) ∧
      (1 ≤ day ∧ day ≤ daysInMonth year month) ∧
      (hour < 24 ∧ minute < 60 ∧ second < 60 ∧ microsecond < 1000000) ∧
      ∀ offset ∈ utcoffset, offset.natAbs < 86400000000 then
    some
      { year, month, day, hour, minute, second, microsecond, utcoffset
        year_range := h.1
        month_range := h.2.1
        day_range := h.2.2.1
        time_range := h.2.2.2.1
        offset_range := h.2.2.2.2 }
  else none

-- `datetime.fromisoformat`
def fromisoformat (text : List Char) : Option Datetime := do
  let index ← separatorIndex text
  let date ← parseIsoformatDate (text.take index)
  let time := text.drop (index + 1)
  if time = [] then make date (0, 0, 0, 0) none
  else
    let (fields, utcoffset) ← parseIsoformatTime time
    make date fields utcoffset

theorem digitValue_digit (n : Nat) : digitValue (digit n) = some (n % 10) := by
  have h : ∀ d < 10, digitValue (Nat.digitChar d) = some d := by decide
  exact h (n % 10) (Nat.mod_lt n (by decide))

theorem isDigit_digit (n : Nat) : (digit n).isDigit = true := by
  have h : ∀ d < 10, (Nat.digitChar d).isDigit = true := by decide
  exact h (n % 10) (Nat.mod_lt n (by decide))

theorem readDigits_pad2 {n : Nat} (hn : n < 100) : readDigits (pad2 n) = some n := by
  simp only [readDigits, pad2, List.foldlM_cons, List.foldlM_nil, digitValue_digit, Option.map_some,
    Option.bind_eq_bind, Option.bind_some, Option.pure_def, Option.some.injEq]
  omega

theorem readDigits_pad4 {n : Nat} (hn : n < 10000) : readDigits (pad4 n) = some n := by
  simp only [readDigits, pad4, List.foldlM_cons, List.foldlM_nil, digitValue_digit, Option.map_some,
    Option.bind_eq_bind, Option.bind_some, Option.pure_def, Option.some.injEq]
  omega

theorem readDigits_pad6 {n : Nat} (hn : n < 1000000) : readDigits (pad6 n) = some n := by
  simp only [readDigits, pad6, List.foldlM_cons, List.foldlM_nil, digitValue_digit, Option.map_some,
    Option.bind_eq_bind, Option.bind_some, Option.pure_def, Option.some.injEq]
  omega

theorem readAt_pad2 {n : Nat} (hn : n < 100) (before rest : List Char) :
    readAt (before ++ (pad2 n ++ rest)) before.length 2 = some n := by
  have hread := readDigits_pad2 hn
  simpa [readAt, pad2] using hread

theorem parseFraction_formatFraction {microsecond : Nat} (hmicro : microsecond < 1000000) :
    parseFraction (formatFraction microsecond) = some microsecond := by
  unfold formatFraction
  split
  · rename_i hzero
    rw [hzero]
    rfl
  · have hread := readDigits_pad6 hmicro
    simp only [pad6] at hread
    simp [parseFraction, pad6, isDigit_digit, hread]

-- The characters of a clock reading: none of them begins an offset.
def isClockChar (c : Char) : Bool := c.isDigit || c = ':' || c = '.'

theorem isClockChar_pad2 (n : Nat) : ∀ c ∈ pad2 n, isClockChar c = true := by
  simp [pad2, isClockChar, isDigit_digit]

theorem isClockChar_formatFraction (microsecond : Nat) :
    ∀ c ∈ formatFraction microsecond, isClockChar c = true := by
  unfold formatFraction
  split <;> simp [pad6, isClockChar, isDigit_digit]

theorem parseHhMmSsFf_full {hour minute second microsecond : Nat} (hhour : hour < 100)
    (hminute : minute < 100) (hsecond : second < 100) (hmicro : microsecond < 1000000) :
    parseHhMmSsFf (pad2 hour ++ ':' :: pad2 minute ++ ':' :: pad2 second ++
      formatFraction microsecond) = some (hour, minute, second, microsecond) := by
  have h1 := readAt_pad2 hhour [] (':' :: pad2 minute ++ ':' :: pad2 second ++ formatFraction microsecond)
  have h2 := readAt_pad2 hminute [] (':' :: pad2 second ++ formatFraction microsecond)
  have h3 := readAt_pad2 hsecond [] (formatFraction microsecond)
  simp only [List.nil_append, List.length_nil, pad2, List.cons_append] at h1 h2 h3
  simp [parseHhMmSsFf, pad2, h1, h2, h3, parseFraction_formatFraction hmicro]

theorem parseHhMmSsFf_short {hour minute : Nat} (hhour : hour < 100) (hminute : minute < 100) :
    parseHhMmSsFf (pad2 hour ++ ':' :: pad2 minute) = some (hour, minute, 0, 0) := by
  have h1 := readAt_pad2 hhour [] (':' :: pad2 minute)
  have h2 := readAt_pad2 hminute [] []
  simp only [List.nil_append, List.length_nil, pad2, List.cons_append] at h1 h2
  simp [parseHhMmSsFf, pad2, h1, h2]

theorem parseHhMmSsFf_zone {micros : Nat} (hmicros : micros < 86400000000) :
    ∃ fields, parseHhMmSsFf (formatZone micros) = some fields ∧ offsetMicros fields = micros := by
  by_cases hshort : micros / 1000000 % 60 = 0 ∧ micros % 1000000 = 0
  · refine ⟨(micros / 60000000 / 60, micros / 60000000 % 60, 0, 0), ?_, ?_⟩
    · simp only [formatZone, hshort, and_self, ite_true, List.append_nil]
      exact parseHhMmSsFf_short (by omega) (by omega)
    · simp only [offsetMicros]
      omega
  · refine ⟨(micros / 60000000 / 60, micros / 60000000 % 60, micros / 1000000 % 60,
      micros % 1000000), ?_, ?_⟩
    · simp only [formatZone, hshort, ite_false]
      have h := @parseHhMmSsFf_full (micros / 60000000 / 60) (micros / 60000000 % 60)
        (micros / 1000000 % 60) (micros % 1000000) (by omega) (by omega) (by omega) (by omega)
      simpa using h
    · simp only [offsetMicros]
      omega

theorem isClockChar_formatZone (micros : Nat) : ∀ c ∈ formatZone micros, isClockChar c = true := by
  have hcolon : isClockChar ':' = true := rfl
  simp only [formatZone, List.forall_mem_append, List.forall_mem_cons]
  refine ⟨⟨isClockChar_pad2 _, hcolon, isClockChar_pad2 _⟩, ?_⟩
  split
  · simp
  · simp only [List.cons_append, List.forall_mem_cons, List.forall_mem_append]
    exact ⟨hcolon, isClockChar_pad2 _, isClockChar_formatFraction _⟩

theorem length_formatZone (micros : Nat) : 5 ≤ (formatZone micros).length := by
  simp [formatZone, pad2]

-- A clock reading, and after it no offset or the offset's sign and digits.
theorem parseIsoformatTime_clock {clock : List Char} {fields : Nat × Nat × Nat × Nat}
    (hclock : ∀ c ∈ clock, isClockChar c = true) (hlength : 2 ≤ clock.length)
    (hparse : parseHhMmSsFf clock = some fields) (utcoffset : Option Int)
    (hoffset : ∀ offset ∈ utcoffset, offset.natAbs < 86400000000) :
    parseIsoformatTime (clock ++ (utcoffset.map formatOffset).getD []) = some (fields, utcoffset) := by
  have hplain (mark : Char) (hmark : isClockChar mark = false) : mark ∉ clock := by
    intro hm
    simp [hclock mark hm] at hmark
  have hminus := hplain '-' (by decide)
  have hplus := hplain '+' (by decide)
  have hzulu := hplain 'Z' (by decide)
  cases utcoffset with
  | none =>
      have hshort : ¬clock.length < 2 := by omega
      simp [parseIsoformatTime, hshort, hminus, hplus, hzulu, hparse]
  | some offset =>
      obtain ⟨zone, hzone, hmicros⟩ := parseHhMmSsFf_zone (hoffset offset rfl)
      obtain ⟨mark, hmark⟩ : ∃ mark, mark = if offset < 0 then '-' else '+' := ⟨_, rfl⟩
      have htext : clock ++ ((some offset).map formatOffset).getD [] =
          clock ++ mark :: formatZone offset.natAbs := by
        simp [formatOffset, hmark]
      have hnotClock : isClockChar mark = false := by
        rw [hmark]
        split <;> decide
      have hnotMark : ∀ c ∈ clock, decide (c ≠ mark) = true := by
        intro c hc
        simp only [decide_eq_true_eq]
        rintro rfl
        exact hplain c hnotClock hc
      have hfind : ['-', '+', 'Z'].find? (· ∈ clock ++ mark :: formatZone offset.natAbs) = some mark := by
        have hzone' : '-' ∉ formatZone offset.natAbs := by
          intro hm
          exact absurd (isClockChar_formatZone _ _ hm) (by decide)
        rw [hmark]
        split <;> simp [hminus, hplus, hzone']
      have htake : (clock ++ mark :: formatZone offset.natAbs).takeWhile (· ≠ mark) = clock := by
        rw [List.takeWhile_append_of_pos hnotMark]
        simp
      have hdrop : (clock ++ mark :: formatZone offset.natAbs).dropWhile (· ≠ mark) =
          mark :: formatZone offset.natAbs := by
        rw [List.dropWhile_append_of_pos hnotMark]
        simp
      have hlong := length_formatZone offset.natAbs
      have hzoneLength : ¬((formatZone offset.natAbs).length = 0 ∨
          (formatZone offset.natAbs).length = 1 ∨ (formatZone offset.natAbs).length = 3) := by omega
      have hnonempty : formatZone offset.natAbs ≠ [] := by
        intro h
        simp [h] at hlong
      have hshort : ¬(clock ++ mark :: formatZone offset.natAbs).length < 2 := by simp; omega
      have hvalue : (if mark = '-' then -(offsetMicros zone : Int) else offsetMicros zone) = offset := by
        rw [hmicros, hmark]
        split
        · rw [if_pos rfl]
          omega
        · rw [if_neg (by decide)]
          omega
      rw [htext]
      unfold parseIsoformatTime
      rw [if_neg hshort, hfind]
      simp only [htake, hdrop, hparse, List.drop_one, List.tail_cons, hnonempty, and_false, ite_false,
        hzoneLength, hzone, Option.bind_eq_bind, Option.bind_some, hvalue]

theorem digit_ne (n : Nat) {c : Char} (hc : c.isDigit = false) : digit n ≠ c := by
  rintro rfl
  simp [isDigit_digit] at hc

theorem separatorIndex_dashes (year month day : Nat) (rest : List Char) :
    separatorIndex (pad4 year ++ '-' :: pad2 month ++ '-' :: pad2 day ++ rest) = some 10 := by
  have hweek := digit_ne (month / 10) (c := 'W') (by decide)
  simp [separatorIndex, pad4, pad2, hweek]

theorem parseIsoformatDate_dashes {year month day : Nat} (hyear : year < 10000)
    (hmonth : month < 100) (hday : day < 100) :
    parseIsoformatDate (pad4 year ++ '-' :: pad2 month ++ '-' :: pad2 day) =
      some (year, month, day) := by
  have hweek := digit_ne (month / 10) (c := 'W') (by decide)
  have h1 : readAt (pad4 year ++ '-' :: pad2 month ++ '-' :: pad2 day) 0 4 = some year := by
    have h := readDigits_pad4 hyear
    simpa [readAt, pad4] using h
  have h2 := readAt_pad2 hmonth (pad4 year ++ ['-']) ('-' :: pad2 day)
  have h3 := readAt_pad2 hday (pad4 year ++ '-' :: pad2 month ++ ['-']) []
  simp only [pad4, pad2, List.cons_append, List.nil_append, List.length_cons, List.length_nil] at h1 h2 h3
  simp [parseIsoformatDate, pad4, pad2, hweek, h1, h2, h3]

theorem make_fields (moment : Datetime) :
    make (moment.year, moment.month, moment.day)
      (moment.hour, moment.minute, moment.second, moment.microsecond) moment.utcoffset =
        some moment := by
  exact dif_pos ⟨moment.year_range, moment.month_range, moment.day_range, moment.time_range,
    moment.offset_range⟩

theorem daysInMonth_le (year month : Nat) : daysInMonth year month ≤ 31 := by
  unfold daysInMonth
  split
  · split <;> omega
  · split <;> omega

theorem fromisoformat_isoformat (moment : Datetime) :
    fromisoformat (isoformat moment) = some moment := by
  have hyear := moment.year_range
  have hmonth := moment.month_range
  have hday := moment.day_range
  have hdays := daysInMonth_le moment.year moment.month
  have htime := moment.time_range
  obtain ⟨date, hdate⟩ : ∃ date, date =
      pad4 moment.year ++ '-' :: pad2 moment.month ++ '-' :: pad2 moment.day := ⟨_, rfl⟩
  obtain ⟨clock, hclock⟩ : ∃ clock, clock =
      pad2 moment.hour ++ ':' :: pad2 moment.minute ++ ':' :: pad2 moment.second ++
        formatFraction moment.microsecond := ⟨_, rfl⟩
  have hchars : ∀ c ∈ clock, isClockChar c = true := by
    have hcolon : isClockChar ':' = true := rfl
    rw [hclock]
    simp only [List.forall_mem_append, List.forall_mem_cons]
    exact ⟨⟨⟨isClockChar_pad2 _, hcolon, isClockChar_pad2 _⟩, hcolon, isClockChar_pad2 _⟩,
      isClockChar_formatFraction _⟩
  have hlength : 2 ≤ clock.length := by simp [hclock, pad2]
  have htext : isoformat moment =
      date ++ 'T' :: (clock ++ (moment.utcoffset.map formatOffset).getD []) := by
    simp [isoformat, hdate, hclock]
  have hindex : separatorIndex (isoformat moment) = some 10 := by
    rw [htext, hdate]
    exact separatorIndex_dashes _ _ _ _
  have hten : date.length = 10 := by simp [hdate, pad4, pad2]
  have htake : (isoformat moment).take 10 = date := by rw [htext, ← hten, List.take_left]
  have hdrop : (isoformat moment).drop 11 =
      clock ++ (moment.utcoffset.map formatOffset).getD [] := by
    rw [htext, show (11 : Nat) = date.length + 1 by rw [hten], List.drop_append]
    simp
  have hnonempty : clock ++ (moment.utcoffset.map formatOffset).getD [] ≠ [] := by
    intro h
    simp [List.append_eq_nil_iff.mp h] at hlength
  have hparseDate : parseIsoformatDate date = some (moment.year, moment.month, moment.day) := by
    rw [hdate]
    exact parseIsoformatDate_dashes (by omega) (by omega) (by omega)
  have hparseTime := parseIsoformatTime_clock hchars hlength
    (hclock ▸ parseHhMmSsFf_full (by omega) (by omega) (by omega) (by omega)) moment.utcoffset
    moment.offset_range
  simp only [fromisoformat, hindex, htake, hdrop, hnonempty, hparseDate, hparseTime, ite_false,
    Option.bind_eq_bind, Option.bind_some, make_fields]

-- Its characters are printable ASCII.
theorem isoformat_ascii (moment : Datetime) {c : Char} (hc : c ∈ isoformat moment) :
    0x20 ≤ c.toNat ∧ c.toNat < 0x7f := by
  have hclock {c : Char} (hc : isClockChar c = true) : 0x20 ≤ c.toNat ∧ c.toNat < 0x7f := by
    simp only [isClockChar, Bool.or_eq_true, decide_eq_true_eq] at hc
    rcases hc with (hdigit | rfl) | rfl
    · simp only [Char.isDigit, Bool.and_eq_true, decide_eq_true_eq] at hdigit
      have h1 : 48 ≤ c.toNat := hdigit.1
      have h2 : c.toNat ≤ 57 := hdigit.2
      omega
    · decide
    · decide
  have hpad2 (n : Nat) (hm : c ∈ pad2 n) := hclock (isClockChar_pad2 n c hm)
  have hfraction (n : Nat) (hm : c ∈ formatFraction n) := hclock (isClockChar_formatFraction n c hm)
  have hyear (hm : c ∈ pad4 moment.year) : 0x20 ≤ c.toNat ∧ c.toNat < 0x7f := by
    refine hclock ?_
    simp only [pad4, List.mem_cons, List.not_mem_nil, or_false] at hm
    rcases hm with rfl | rfl | rfl | rfl <;> simp [isClockChar, isDigit_digit]
  have hmark (d : Char) (hd : 0x20 ≤ d.toNat ∧ d.toNat < 0x7f) (he : c = d) :
      0x20 ≤ c.toNat ∧ c.toNat < 0x7f := he ▸ hd
  have hoffset (hm : c ∈ (moment.utcoffset.map formatOffset).getD []) :
      0x20 ≤ c.toNat ∧ c.toNat < 0x7f := by
    cases hutc : moment.utcoffset with
    | none => simp [hutc] at hm
    | some offset =>
        simp only [hutc, Option.map_some, Option.getD_some, formatOffset, List.mem_cons] at hm
        rcases hm with hsign | hzone
        · rw [hsign]
          split <;> decide
        · exact hclock (isClockChar_formatZone _ c hzone)
  simp only [isoformat, List.mem_append, List.mem_cons] at hc
  rcases hc with ((((((h | h | h) | h | h) | h | h) | h | h) | h | h) | h) | h
  · exact hyear h
  · exact hmark '-' (by decide) h
  · exact hpad2 _ h
  · exact hmark '-' (by decide) h
  · exact hpad2 _ h
  · exact hmark 'T' (by decide) h
  · exact hpad2 _ h
  · exact hmark ':' (by decide) h
  · exact hpad2 _ h
  · exact hmark ':' (by decide) h
  · exact hpad2 _ h
  · exact hfraction _ h
  · exact hoffset h

-- The moment on the line of time, in microseconds; a naive one as if it were UTC.
def instant (moment : Datetime) : Int :=
  let days := daysBeforeYear moment.year +
    ((List.range (moment.month - 1)).map (fun month => daysInMonth moment.year (month + 1))).sum +
    moment.day
  let seconds := ((days * 24 + moment.hour) * 60 + moment.minute) * 60 + moment.second
  (seconds * 1000000 + moment.microsecond : ℕ) - moment.utcoffset.getD 0

-- `first < second`
def lt? (first second : Datetime) : Except String Bool :=
  if first.utcoffset.isNone = second.utcoffset.isNone then .ok (first.instant < second.instant)
  else .error "can't compare offset-naive and offset-aware datetimes"

-- `moment.isoformat(timespec="microseconds")`
def isoformat_microseconds (moment : Datetime) : List Char :=
  pad4 moment.year ++ '-' :: pad2 moment.month ++ '-' :: pad2 moment.day ++
    'T' :: pad2 moment.hour ++ ':' :: pad2 moment.minute ++ ':' :: pad2 moment.second ++
    '.' :: pad6 moment.microsecond ++ (moment.utcoffset.map formatOffset).getD []

section Written

-- The bounds of moments that are written out.

theorem year_2024 : 1 ≤ 2024 ∧ 2024 ≤ 9999 := by decide

theorem year_2026 : 1 ≤ 2026 ∧ 2026 ≤ 9999 := by decide

theorem new_year : 1 ≤ 1 ∧ 1 ≤ daysInMonth 2026 1 := by decide

theorem month_1 : 1 ≤ 1 ∧ 1 ≤ 12 := by decide

theorem month_3 : 1 ≤ 3 ∧ 3 ≤ 12 := by decide

theorem month_4 : 1 ≤ 4 ∧ 4 ≤ 12 := by decide

theorem day_1 : 1 ≤ 1 ∧ 1 ≤ 31 := by decide

theorem midnight : 0 < 24 ∧ 0 < 60 ∧ 0 < 60 ∧ 0 < 1000000 := by decide

theorem midday : 12 < 24 ∧ 0 < 60 ∧ 0 < 60 ∧ 0 < 1000000 := by decide

theorem offset_none : ∀ offset ∈ some (0 : Int), offset.natAbs < 86400000000 := by decide

theorem offset_two_hours : ∀ offset ∈ some (7200000000 : Int), offset.natAbs < 86400000000 := by
  decide

end Written

end Datetime

end KnowledgeCompiler.Lib
