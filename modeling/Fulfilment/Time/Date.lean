import Fulfilment.Text.Numeral

/-!
# Dates of the Gregorian calendar

A day is counted from 1 January 1970, and a date names it by year, month and day. The conversion
counts years from March, so that the leap day comes last: four hundred years are 146097 days,
of which the centuries, the four-year cycles and the years are split off in turn.
`dayNumber_ofDayNumber` says that no day is lost, and `valid_ofDayNumber` that its name is a date
of the calendar. Years outside 0 to 9999 are written with a sign.
-/
namespace Fulfilment

/-- A calendar date. Years before 1 are numbered 0, -1, and so on. -/
structure Date where
  year : Int
  month : Nat
  day : Nat
deriving DecidableEq, Repr

namespace Date

/-- Every fourth year is a leap year, except the centuries that 400 does not divide. -/
def isLeap (year : Int) : Bool :=
  year % 4 == 0 && (year % 100 != 0 || year % 400 == 0)

/-- The number of days of a month. -/
def daysInMonth (year : Int) (month : Nat) : Nat :=
  if month = 2 then (if isLeap year then 29 else 28)
  else if month = 4 ∨ month = 6 ∨ month = 9 ∨ month = 11 then 30
  else 31

/-- The month exists and has that day. -/
def Valid (d : Date) : Prop :=
  1 ≤ d.month ∧ d.month ≤ 12 ∧ 1 ≤ d.day ∧ d.day ≤ daysInMonth d.year d.month

instance (d : Date) : Decidable d.Valid := inferInstanceAs (Decidable (_ ∧ _ ∧ _ ∧ _))

/-- The days from 1 January 1970 to the date. -/
def dayNumber (d : Date) : Int :=
  let year := if d.month ≤ 2 then d.year - 1 else d.year
  let yearOfEra := year % 400
  let dayOfYear : Nat := (153 * ((d.month + 9) % 12) + 2) / 5 + d.day - 1
  year / 400 * 146097 + (365 * yearOfEra + yearOfEra / 4 - yearOfEra / 100 + dayOfYear) - 719468

/-- Where a day stands in its period of four hundred years from March 0. -/
structure Position where
  century : Nat
  cycle : Nat
  year : Nat
  day : Nat

/-- Splits centuries, four-year cycles and years off a day of the period. The last century, and the
last year of a cycle, hold one day more than the others. -/
def Position.ofDay (dayOfEra : Nat) : Position :=
  let century := min (dayOfEra / 36524) 3
  let dayOfCentury := dayOfEra - 36524 * century
  let cycle := dayOfCentury / 1461
  let dayOfCycle := dayOfCentury - 1461 * cycle
  let year := min (dayOfCycle / 365) 3
  ⟨century, cycle, year, dayOfCycle - 365 * year⟩

/-- The years of the period that precede the position. -/
def Position.yearOfEra (p : Position) : Nat :=
  100 * p.century + 4 * p.cycle + p.year

/-- The months from March that precede the position in its year. -/
def Position.monthFromMarch (p : Position) : Nat :=
  (5 * p.day + 2) / 153

/-- The date of a day counted from 1 January 1970. -/
def ofDayNumber (n : Int) : Date :=
  let z := n + 719468
  let p := Position.ofDay (z % 146097).toNat
  let m := p.monthFromMarch
  let month := if m < 10 then m + 3 else m - 9
  { year := z / 146097 * 400 + p.yearOfEra + (if month ≤ 2 then 1 else 0)
    month := month
    day := p.day - (153 * m + 2) / 5 + 1 }

/-- The bounds of each part of a position, and the day that they make up together. -/
theorem Position.ofDay_bounds {n : Nat} (h : n < 146097) :
    (ofDay n).century ≤ 3 ∧ (ofDay n).cycle ≤ 24 ∧ (ofDay n).year ≤ 3 ∧ (ofDay n).day ≤ 365 ∧
      n = 36524 * (ofDay n).century + 1461 * (ofDay n).cycle + 365 * (ofDay n).year +
        (ofDay n).day ∧
      ((ofDay n).day = 365 →
        (ofDay n).year = 3 ∧ ((ofDay n).cycle = 24 → (ofDay n).century = 3)) := by
  simp only [ofDay]
  omega

/-- The month and the day in it make up the day of the year. -/
theorem Position.monthFromMarch_bounds {p : Position} (h : p.day ≤ 365) :
    p.monthFromMarch ≤ 11 ∧ (153 * p.monthFromMarch + 2) / 5 ≤ p.day ∧
      p.day < (153 * (p.monthFromMarch + 1) + 2) / 5 := by
  simp only [monthFromMarch]
  omega

/-- The day number of a date whose year, counted from March, is year `y` of an era. -/
theorem dayNumber_of_parts {era : Int} {y m d : Nat} (hy : y < 400) (hm : m ≤ 11) :
    dayNumber
        ⟨era * 400 + y + (if (if m < 10 then m + 3 else m - 9) ≤ 2 then 1 else 0),
          if m < 10 then m + 3 else m - 9, d + 1⟩ =
      era * 146097 + (365 * y + y / 4 - y / 100 + ((153 * m + 2) / 5 + d : Nat)) - 719468 := by
  have h1 : (era * 400 + y) / 400 = era := by omega
  have h2 : (era * 400 + y) % 400 = y := by omega
  by_cases hlt : m < 10
  · have h3 : ¬ m + 3 ≤ 2 := by omega
    have h4 : (m + 3 + 9) % 12 = m := by omega
    simp only [dayNumber, hlt, if_true, h3, if_false, h4, Int.add_zero, h1, h2]
    omega
  · have h3 : m - 9 ≤ 2 := by omega
    have h4 : (m - 9 + 9) % 12 = m := by omega
    have h5 : era * 400 + y + 1 - 1 = era * 400 + y := by omega
    simp only [dayNumber, hlt, if_false, h3, if_true, h4, h5, h1, h2]
    omega

/-- A day is recovered from its date. -/
theorem dayNumber_ofDayNumber (n : Int) : (ofDayNumber n).dayNumber = n := by
  have hz : 0 ≤ (n + 719468) % 146097 ∧ (n + 719468) % 146097 < 146097 := by omega
  obtain ⟨h1, h2, h3, h4, h5, h6⟩ :=
    Position.ofDay_bounds (n := ((n + 719468) % 146097).toNat) (by omega)
  simp only [ofDayNumber]
  generalize Position.ofDay ((n + 719468) % 146097).toNat = p at *
  obtain ⟨hm, hd, -⟩ := Position.monthFromMarch_bounds h4
  have hy : p.yearOfEra < 400 := by simp only [Position.yearOfEra]; omega
  rw [dayNumber_of_parts hy hm]
  have h7 : p.yearOfEra / 4 = 25 * p.century + p.cycle := by simp only [Position.yearOfEra]; omega
  have h8 : p.yearOfEra / 100 = p.century := by simp only [Position.yearOfEra]; omega
  have h9 :
      (153 * p.monthFromMarch + 2) / 5 + (p.day - (153 * p.monthFromMarch + 2) / 5) = p.day := by
    omega
  rw [h9]
  have h10 : ((p.yearOfEra : Int)) / 4 = 25 * p.century + p.cycle := by omega
  have h11 : ((p.yearOfEra : Int)) / 100 = p.century := by omega
  rw [h10, h11]
  simp only [Position.yearOfEra]
  omega

/-- The last day of a year that is counted from March is a leap day. -/
theorem isLeap_of_last_day {era : Int} {p : Position} (hy : p.year = 3)
    (hb : p.century ≤ 3 ∧ p.cycle ≤ 24) (hc : p.cycle = 24 → p.century = 3) :
    isLeap (era * 400 + p.yearOfEra + 1) = true := by
  simp only [isLeap, Position.yearOfEra, Bool.and_eq_true, Bool.or_eq_true, beq_iff_eq, bne_iff_ne]
  omega

/-- The name of a day is a date of the calendar. -/
theorem valid_ofDayNumber (n : Int) : (ofDayNumber n).Valid := by
  have hz : 0 ≤ (n + 719468) % 146097 ∧ (n + 719468) % 146097 < 146097 := by omega
  obtain ⟨h1, h2, h3, h4, -, h6⟩ :=
    Position.ofDay_bounds (n := ((n + 719468) % 146097).toNat) (by omega)
  simp only [ofDayNumber]
  generalize Position.ofDay ((n + 719468) % 146097).toNat = p at *
  obtain ⟨hm, hd, hu⟩ := Position.monthFromMarch_bounds h4
  have hleap : p.day = 365 → isLeap ((n + 719468) / 146097 * 400 + p.yearOfEra + 1) = true :=
    fun h => isLeap_of_last_day (h6 h).1 ⟨h1, h2⟩ (h6 h).2
  generalize p.monthFromMarch = m at *
  have cases12 : m = 0 ∨ m = 1 ∨ m = 2 ∨ m = 3 ∨ m = 4 ∨ m = 5 ∨ m = 6 ∨ m = 7 ∨ m = 8 ∨ m = 9 ∨
      m = 10 ∨ m = 11 := by omega
  rcases cases12 with rfl | rfl | rfl | rfl | rfl | rfl | rfl | rfl | rfl | rfl | rfl | rfl <;>
    simp [daysInMonth, Valid] <;> try omega
  split <;> simp_all <;> omega

theorem ofDayNumber_inj {m n : Int} (h : ofDayNumber m = ofDayNumber n) : m = n := by
  rw [← dayNumber_ofDayNumber m, h, dayNumber_ofDayNumber]

/-- A year as written in a date: four digits, or a sign and at least four digits outside 0 to 9999.
-/
def yearText (year : Int) : List Char :=
  if 0 ≤ year ∧ year ≤ 9999 then Numeral.padded 4 year.toNat
  else
    (if year < 0 then '-' else '+') ::
      (if year.natAbs ≤ 9999 then Numeral.padded 4 year.natAbs else Nat.toDigits 10 year.natAbs)

/-- A date without separators, as in `20260307`. -/
def compactText (d : Date) : List Char :=
  yearText d.year ++ Numeral.padded 2 d.month ++ Numeral.padded 2 d.day

/-- A date with hyphens, as in `2026-03-07`. -/
def hyphenText (d : Date) : List Char :=
  yearText d.year ++ '-' :: Numeral.padded 2 d.month ++ '-' :: Numeral.padded 2 d.day

example : (Date.mk 2024 2 29).dayNumber = 19782 := by decide
example : ofDayNumber (-719529) = ⟨-1, 12, 31⟩ := by decide
example : compactText ⟨-1, 12, 31⟩ = "-00011231".toList := by decide +kernel
example : compactText ⟨255479, 11, 28⟩ = "+2554791128".toList := by decide +kernel

end Date
end Fulfilment
