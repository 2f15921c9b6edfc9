import Aa.Library.GoText
import Mathlib.Data.Int.Order.Basic
import Mathlib.Data.List.DropRight
import Mathlib.Data.String.Basic
import Mathlib.Tactic.Common

/-!
# Instants and their UTC text

An instant is a count of nanoseconds since the start of 1970. Its UTC reading in the
proleptic Gregorian calendar determines it, and so does its text in the format
`time.RFC3339Nano` of Go: a year of at least four digits, and a fraction of a second without
trailing zeros.
-/

namespace Aa.Library.Calendar

@[ext]
structure Date where
  year : ℤ
  month : ℤ
  day : ℤ
deriving DecidableEq

/-- The years of an era of 400 years that start in March: the centuries, the leap cycles and the
years before a day of the era, each but the last one short of a full count. -/
structure EraYear where
  century : ℤ
  cycle : ℤ
  year : ℤ
  day : ℤ

/-- The year of the era that a day of it is in. -/
def eraYearOf (dayOfEra : ℤ) : EraYear :=
  let century := min (dayOfEra / 36524) 3
  let dayOfCentury := dayOfEra - century * 36524
  let cycle := dayOfCentury / 1461
  let dayOfCycle := dayOfCentury - cycle * 1461
  let year := min (dayOfCycle / 365) 3
  { century := century, cycle := cycle, year := year, day := dayOfCycle - year * 365 }

def EraYear.count (era : EraYear) : ℤ := era.century * 100 + era.cycle * 4 + era.year

/-- The month and the day, from the day of a year that starts in March. -/
def monthAndDay (dayOfYear : ℤ) : ℤ × ℤ :=
  let march := (5 * dayOfYear + 2) / 153
  (if march < 10 then march + 3 else march - 9, dayOfYear - (153 * march + 2) / 5 + 1)

/-- The date of a day, counted from the start of 1970. -/
def dateOf (days : ℤ) : Date :=
  let shifted := days + 719468
  let era := eraYearOf (shifted % 146097)
  let (month, day) := monthAndDay era.day
  let year := era.count + shifted / 146097 * 400
  { year := if month ≤ 2 then year + 1 else year, month := month, day := day }

/-- The day of a date. -/
def daysOf (date : Date) : ℤ :=
  let year := if date.month ≤ 2 then date.year - 1 else date.year
  let march := if date.month ≤ 2 then date.month + 9 else date.month - 3
  let count := year % 400
  year / 400 * 146097 + (365 * count + count / 4 - count / 100) +
    ((153 * march + 2) / 5 + date.day - 1) - 719468

theorem eraYearOf_spec {dayOfEra : ℤ} (low : 0 ≤ dayOfEra) (high : dayOfEra < 146097) :
    let era := eraYearOf dayOfEra
    (0 ≤ era.count ∧ era.count < 400) ∧ (0 ≤ era.day ∧ era.day ≤ 365) ∧
      365 * era.count + era.count / 4 - era.count / 100 + era.day = dayOfEra := by
  simp only [eraYearOf, EraYear.count]
  have inCenturies : 0 ≤ min (dayOfEra / 36524) 3 ∧ min (dayOfEra / 36524) 3 ≤ 3 ∧
      0 ≤ dayOfEra - min (dayOfEra / 36524) 3 * 36524 ∧
      dayOfEra - min (dayOfEra / 36524) 3 * 36524 ≤ 36524 := by omega
  generalize min (dayOfEra / 36524) 3 = century at *
  generalize isDay : dayOfEra - century * 36524 = dayOfCentury at *
  have inCycles : 0 ≤ dayOfCentury / 1461 ∧ dayOfCentury / 1461 ≤ 24 ∧
      0 ≤ dayOfCentury - dayOfCentury / 1461 * 1461 ∧
      dayOfCentury - dayOfCentury / 1461 * 1461 ≤ 1460 := by omega
  generalize dayOfCentury / 1461 = cycle at *
  generalize isDayOfCycle : dayOfCentury - cycle * 1461 = dayOfCycle at *
  have inYears : 0 ≤ min (dayOfCycle / 365) 3 ∧ min (dayOfCycle / 365) 3 ≤ 3 ∧
      0 ≤ dayOfCycle - min (dayOfCycle / 365) 3 * 365 ∧
      dayOfCycle - min (dayOfCycle / 365) 3 * 365 ≤ 365 := by omega
  generalize min (dayOfCycle / 365) 3 = year at *
  have quarters : (century * 100 + cycle * 4 + year) / 4 = century * 25 + cycle := by omega
  have hundreds : (century * 100 + cycle * 4 + year) / 100 = century := by omega
  rw [quarters, hundreds]
  omega

theorem monthAndDay_spec {day : ℤ} (low : 0 ≤ day) (high : day ≤ 365) :
    let found := monthAndDay day
    (1 ≤ found.1 ∧ found.1 ≤ 12) ∧ (1 ≤ found.2 ∧ found.2 ≤ 31) ∧
      (153 * (if found.1 ≤ 2 then found.1 + 9 else found.1 - 3) + 2) / 5 + found.2 - 1 = day := by
  simp only [monthAndDay]
  have march : 0 ≤ (5 * day + 2) / 153 ∧ (5 * day + 2) / 153 ≤ 11 := by omega
  split
  · rw [if_neg (by omega)]
    omega
  · rw [if_pos (by omega)]
    omega

/-- A date determines its day. -/
theorem daysOf_dateOf (days : ℤ) : daysOf (dateOf days) = days := by
  have inEra : 0 ≤ (days + 719468) % 146097 ∧ (days + 719468) % 146097 < 146097 := by omega
  rcases eraYearOf_spec inEra.1 inEra.2 with ⟨count, day, whole⟩
  rcases monthAndDay_spec day.1 day.2 with ⟨-, -, wholeYear⟩
  generalize isEra : eraYearOf ((days + 719468) % 146097) = era at *
  generalize isMonth : monthAndDay era.day = found at *
  have year : (if found.1 ≤ 2 then
      (if found.1 ≤ 2 then era.count + (days + 719468) / 146097 * 400 + 1
        else era.count + (days + 719468) / 146097 * 400) - 1
      else if found.1 ≤ 2 then era.count + (days + 719468) / 146097 * 400 + 1
        else era.count + (days + 719468) / 146097 * 400) =
      era.count + (days + 719468) / 146097 * 400 := by
    split <;> omega
  have ofEra : (era.count + (days + 719468) / 146097 * 400) % 400 = era.count := by omega
  have eras : (era.count + (days + 719468) / 146097 * 400) / 400 = (days + 719468) / 146097 := by
    omega
  simp only [daysOf, dateOf, isEra, isMonth, year, ofEra, eras]
  omega

/-! ## Readings -/

/-- What a UTC reading says besides the year. -/
@[ext]
structure Moment where
  month : ℤ
  day : ℤ
  hour : ℤ
  minute : ℤ
  second : ℤ
  nano : ℤ
deriving DecidableEq

def nanosPerDay : ℤ := 86400000000000

def yearOf (instant : ℤ) : ℤ := (dateOf (instant / nanosPerDay)).year

def momentOf (instant : ℤ) : Moment :=
  let date := dateOf (instant / nanosPerDay)
  let ofDay := instant % nanosPerDay
  let seconds := ofDay / 1000000000
  let ofHour := seconds % 3600
  { month := date.month
    day := date.day
    hour := seconds / 3600
    minute := ofHour / 60
    second := ofHour % 60
    nano := ofDay % 1000000000 }

/-- The ranges of what a reading says. -/
structure Moment.InRange (moment : Moment) : Prop where
  month : 1 ≤ moment.month ∧ moment.month ≤ 12
  day : 1 ≤ moment.day ∧ moment.day ≤ 31
  hour : 0 ≤ moment.hour ∧ moment.hour < 24
  minute : 0 ≤ moment.minute ∧ moment.minute < 60
  second : 0 ≤ moment.second ∧ moment.second < 60
  nano : 0 ≤ moment.nano ∧ moment.nano < 1000000000

theorem ofDay_bounds (instant : ℤ) :
    0 ≤ instant % nanosPerDay ∧ instant % nanosPerDay < 86400000000000 :=
  ⟨Int.emod_nonneg _ (by decide), Int.emod_lt_of_pos _ (by decide)⟩

theorem momentOf_inRange (instant : ℤ) : (momentOf instant).InRange := by
  have inEra : ∀ days : ℤ, 0 ≤ days % 146097 ∧ days % 146097 < 146097 := by omega
  rcases inEra (instant / nanosPerDay + 719468) with ⟨low, high⟩
  rcases eraYearOf_spec low high with ⟨-, day, -⟩
  rcases monthAndDay_spec day.1 day.2 with ⟨month, dayOfMonth, -⟩
  rcases ofDay_bounds instant with ⟨start, finish⟩
  refine ⟨month, dayOfMonth, ?_, ?_, ?_, ?_⟩
  all_goals
    simp only [momentOf]
    generalize instant % nanosPerDay = ofDay at start finish ⊢
    omega

/-- A reading determines its instant. -/
theorem instant_eq_of_reading {one other : ℤ} (year : yearOf one = yearOf other)
    (moment : momentOf one = momentOf other) : one = other := by
  simp only [momentOf, Moment.mk.injEq] at moment
  rcases moment with ⟨month, day, hour, minute, second, nano⟩
  have date : dateOf (one / nanosPerDay) = dateOf (other / nanosPerDay) := Date.ext year month day
  have days := congrArg daysOf date
  rw [daysOf_dateOf, daysOf_dateOf] at days
  have seconds : one % nanosPerDay / 1000000000 = other % nanosPerDay / 1000000000 := by
    generalize one % nanosPerDay / 1000000000 = first at *
    generalize other % nanosPerDay / 1000000000 = last at *
    omega
  have ofDay : one % nanosPerDay = other % nanosPerDay := by
    generalize one % nanosPerDay = first at *
    generalize other % nanosPerDay = last at *
    omega
  rw [← Int.mul_ediv_add_emod one nanosPerDay, days, ofDay, Int.mul_ediv_add_emod]

/-! ## The text of an instant -/

/-- The decimal digits of a number, padded with zeros to a width. -/
def padded (width value : ℕ) : List Char :=
  List.replicate (width - (Nat.toDigits 10 value).length) '0' ++ Nat.toDigits 10 value

theorem padded_inj {width first second : ℕ} (same : padded width first = padded width second) :
    first = second := by
  have value : ∀ number, Nat.ofDigitChars 10 (padded width number) 0 = number := by
    intro number
    simp [padded, Nat.ofDigitChars_append, Nat.ofDigitChars_replicate_zero]
  rw [← value first, same, value second]

theorem length_padded {width value : ℕ} (positive : 0 < width) (fits : value < 10 ^ width) :
    (padded width value).length = width := by
  have short := (Nat.length_toDigits_le_iff (by decide) positive).mpr fits
  simp only [padded, List.length_append, List.length_replicate]
  omega

theorem isDigit_of_mem_padded {width value : ℕ} {c : Char} (isThere : c ∈ padded width value) :
    c.isDigit := by
  rcases List.mem_append.mp isThere with isZero | isDigit
  · rw [(List.mem_replicate.mp isZero).2]
    decide
  · exact Nat.isDigit_of_mem_toDigits (by decide) (by decide) isDigit

/-- A year, in at least four digits. -/
def yearText (year : ℤ) : List Char :=
  if year < 0 then '-' :: padded 4 year.natAbs else padded 4 year.natAbs

theorem yearText_inj {first second : ℤ} (same : yearText first = yearText second) :
    first = second := by
  have notSign : ∀ (value : ℕ) (rest : List Char), padded 4 value ≠ '-' :: rest := by
    intro value rest isSign
    have isDigit := isDigit_of_mem_padded (isSign ▸ List.mem_cons_self : '-' ∈ padded 4 value)
    revert isDigit
    decide
  unfold yearText at same
  split at same <;> split at same
  · have sizes := padded_inj (List.cons.inj same).2
    omega
  · exact absurd same.symm (notSign _ _)
  · exact absurd same (notSign _ _)
  · have sizes := padded_inj same
    omega

/-- The years that take four digits. -/
theorem length_yearText {year : ℤ} (low : 0 ≤ year) (high : year ≤ 9999) :
    (yearText year).length = 4 := by
  rw [yearText, if_neg (by omega)]
  exact length_padded (by decide) (by omega)

def isZero (c : Char) : Bool := c == '0'

/-- The digits of a fraction of a second, without trailing zeros. -/
def fractionDigits (nano : ℕ) : List Char := (padded 9 nano).rdropWhile isZero

def fractionText (nano : ℕ) : List Char := if nano = 0 then [] else '.' :: fractionDigits nano

/-- The trailing zeros can be put back. -/
theorem fractionDigits_append {nano : ℕ} (fits : nano < 1000000000) :
    fractionDigits nano ++ List.replicate (9 - (fractionDigits nano).length) '0' =
      padded 9 nano := by
  have whole : fractionDigits nano ++ (padded 9 nano).rtakeWhile isZero = padded 9 nano :=
    List.rdropWhile_append_rtakeWhile
  have lengths := congrArg List.length whole
  rw [List.length_append, length_padded (by decide) fits] at lengths
  have zeros : (padded 9 nano).rtakeWhile isZero =
      List.replicate (9 - (fractionDigits nano).length) '0' := by
    refine List.eq_replicate_iff.mpr ⟨by omega, fun c isThere => ?_⟩
    simpa [isZero] using List.mem_rtakeWhile_imp isThere
  rw [← zeros]
  exact whole

theorem isDigit_of_mem_fractionDigits {nano : ℕ} {c : Char}
    (isThere : c ∈ fractionDigits nano) : c.isDigit :=
  isDigit_of_mem_padded ((List.rdropWhile_prefix _ _).subset isThere)

theorem fractionText_inj {first second : ℕ} (firstFits : first < 1000000000)
    (secondFits : second < 1000000000) (same : fractionText first = fractionText second) :
    first = second := by
  unfold fractionText at same
  split at same <;> split at same
  · omega
  · cases same
  · cases same
  · have digits : fractionDigits first = fractionDigits second := (List.cons.inj same).2
    have padded := fractionDigits_append firstFits
    rw [digits, fractionDigits_append secondFits] at padded
    exact (padded_inj padded).symm

/-- What follows the year up to the day. -/
def dateTail (moment : Moment) : List Char :=
  '-' :: padded 2 moment.month.toNat ++ '-' :: padded 2 moment.day.toNat

/-- The time of the day. -/
def clockText (moment : Moment) : List Char :=
  padded 2 moment.hour.toNat ++ ':' :: padded 2 moment.minute.toNat ++ ':' ::
    padded 2 moment.second.toNat ++ fractionText moment.nano.toNat ++ ['Z']

/-- The instant in UTC, in the format `time.RFC3339Nano`. -/
def rfc3339Nano (instant : ℤ) : String :=
  String.ofList
    (yearText (yearOf instant) ++ dateTail (momentOf instant) ++ 'T' :: clockText (momentOf instant))

theorem not_mem_clockText (moment : Moment) : 'T' ∉ clockText moment := by
  have notDigit : ¬ 'T'.isDigit := by decide
  have notPadded : ∀ value, 'T' ∉ padded 2 value :=
    fun value isThere => notDigit (isDigit_of_mem_padded isThere)
  have notFraction : 'T' ∉ fractionText moment.nano.toNat := by
    unfold fractionText
    split
    · simp
    · intro isThere
      rcases List.mem_cons.mp isThere with isPoint | isDigit
      · revert isPoint
        decide
      · exact notDigit (isDigit_of_mem_fractionDigits isDigit)
  simp [clockText, notPadded, notFraction]

theorem length_dateTail {moment : Moment} (inRange : moment.InRange) :
    (dateTail moment).length = 6 := by
  have month := inRange.month
  have day := inRange.day
  simp only [dateTail, List.length_append, List.length_cons]
  rw [length_padded (by decide) (by omega), length_padded (by decide) (by omega)]

/-- Numbers of two digits before something are determined by the text. -/
theorem padded_append_inj {one other : ℤ} {rest last : List Char} (low : 0 ≤ one)
    (high : one < 100) (otherLow : 0 ≤ other) (otherHigh : other < 100)
    (same : padded 2 one.toNat ++ rest = padded 2 other.toNat ++ last) :
    one = other ∧ rest = last := by
  have lengths : (padded 2 one.toNat).length = (padded 2 other.toNat).length := by
    rw [length_padded (by decide) (by omega), length_padded (by decide) (by omega)]
  rcases List.append_inj same lengths with ⟨digits, rests⟩
  have value := padded_inj digits
  exact ⟨by omega, rests⟩

theorem moment_inj {one other : Moment} (range : one.InRange) (otherRange : other.InRange)
    (date : dateTail one = dateTail other) (clock : clockText one = clockText other) :
    one = other := by
  rcases range with ⟨month, day, hour, minute, second, nano⟩
  rcases otherRange with ⟨month', day', hour', minute', second', nano'⟩
  simp only [dateTail, List.cons_append, List.cons.injEq, true_and] at date
  rcases padded_append_inj (by omega) (by omega) (by omega) (by omega) date with ⟨months, date⟩
  have days := padded_inj (List.cons.inj date).2
  simp only [clockText, List.append_assoc, List.cons_append] at clock
  rcases padded_append_inj (by omega) (by omega) (by omega) (by omega) clock with ⟨hours, clock⟩
  rcases padded_append_inj (by omega) (by omega) (by omega) (by omega) (List.cons.inj clock).2 with
    ⟨minutes, clock⟩
  rcases padded_append_inj (by omega) (by omega) (by omega) (by omega) (List.cons.inj clock).2 with
    ⟨seconds, clock⟩
  have nanos := fractionText_inj (by omega) (by omega) (List.append_cancel_right clock)
  ext <;> omega

/-- Two texts that end with instants are the same only if the instants differ at most in the
year, and what precedes the rest of them is the same. -/
theorem append_rfc3339Nano_inj {before after : String} {first second : ℤ} :
    before ++ rfc3339Nano first = after ++ rfc3339Nano second ↔
      before.toList ++ yearText (yearOf first) = after.toList ++ yearText (yearOf second) ∧
        momentOf first = momentOf second := by
  rw [← String.toList_inj]
  simp only [rfc3339Nano, String.toList_append, String.toList_ofList]
  constructor
  · intro same
    -- the last `T` of the texts separates the dates from the times of the day
    have mirrored := congrArg List.reverse same
    simp only [List.reverse_append, List.reverse_cons, List.append_assoc, List.cons_append,
      List.nil_append] at mirrored
    rcases Go.append_cons_inj (by simp [not_mem_clockText]) (by simp [not_mem_clockText])
      mirrored with ⟨clock, dates⟩
    have clock := List.reverse_injective clock
    have lengths : (dateTail (momentOf first)).reverse.length =
        (dateTail (momentOf second)).reverse.length := by
      rw [List.length_reverse, List.length_reverse, length_dateTail (momentOf_inRange first),
        length_dateTail (momentOf_inRange second)]
    rcases List.append_inj dates lengths with ⟨tails, starts⟩
    have moment := moment_inj (momentOf_inRange first) (momentOf_inRange second)
      (List.reverse_injective tails) clock
    refine ⟨List.reverse_injective ?_, moment⟩
    rw [List.reverse_append, List.reverse_append]
    exact starts
  · rintro ⟨starts, moment⟩
    rw [moment, ← List.append_assoc, ← List.append_assoc, ← List.append_assoc, ← List.append_assoc,
      starts]

end Aa.Library.Calendar
