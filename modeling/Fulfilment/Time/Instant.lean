import Fulfilment.Time.Date

/-!
# Instants and spans

An `Instant` is a point of universal time with nanosecond precision between the years -262143 and
262142. A minute may end with a leap second: its fraction then lies between one and two seconds
after second 59. Instants are ordered by `rank`, which determines them (`rank_inj`), so the order is
total. Adding a `Span` leaves a leap second as soon as the span carries past it. An instant beyond
the ends of the calendar is none (`add?`).
-/
namespace Fulfilment

/-- A signed length of time. -/
structure Span where
  nanos : Int
deriving DecidableEq, Repr

namespace Span

def ofSeconds (n : Int) : Span := ⟨n * 1000000000⟩

def ofMillis (n : Int) : Span := ⟨n * 1000000⟩

def ofMinutes (n : Int) : Span := ofSeconds (n * 60)

end Span

/-- A point of universal time, counted from the start of 1970. -/
structure Instant where
  seconds : Int
  nanos : Nat
  seconds_ge : -8334601228800 ≤ seconds := by decide
  seconds_le : seconds ≤ 8210266876799 := by decide
  nanos_lt : nanos < 1000000000 ∨ (nanos < 2000000000 ∧ seconds % 60 = 59) := by decide
deriving DecidableEq, Repr

namespace Instant

/-- The first second of the calendar, at the start of the year -262143. -/
def firstSecond : Int := -8334601228800

/-- The last second of the calendar, at the end of the year 262142. -/
def lastSecond : Int := 8210266876799

example : firstSecond = (Date.mk (-262143) 1 1).dayNumber * 86400 := by decide
example : lastSecond = (Date.mk 262142 12 31).dayNumber * 86400 + 86399 := by decide

/-- The instant with the given seconds and fraction, if the calendar has it. -/
def ofParts? (seconds : Int) (nanos : Nat) : Option Instant :=
  if h : -8334601228800 ≤ seconds ∧ seconds ≤ 8210266876799 ∧
      (nanos < 1000000000 ∨ (nanos < 2000000000 ∧ seconds % 60 = 59)) then
    some ⟨seconds, nanos, h.1, h.2.1, h.2.2⟩
  else none

/-- The instant of a number of seconds since the start of 1970. -/
def ofUnix? (seconds : Int) : Option Instant := ofParts? seconds 0

/-- The instant of a count of nanoseconds since the start of 1970, leap seconds apart. -/
def ofNanos? (n : Int) : Option Instant := ofParts? (n / 1000000000) (n % 1000000000).toNat

/-- The instant so many seconds after the start of 1970. The calendar has all of them. -/
def ofSecond (n : UInt32) : Instant where
  seconds := n.toNat
  nanos := 0
  seconds_ge := by omega
  seconds_le := by
    have := n.toNat_lt
    omega
  nanos_lt := .inl (by decide)

/-- The place of an instant in the order of time. -/
def rank (t : Instant) : Int := t.seconds * 2000000000 + t.nanos

/-- Instants of one rank are one instant. -/
theorem rank_inj {s t : Instant} (h : s.rank = t.rank) : s = t := by
  have hs := s.nanos_lt
  have ht := t.nanos_lt
  simp only [rank] at h
  have h1 : s.seconds = t.seconds := by omega
  have h2 : s.nanos = t.nanos := by omega
  cases s
  cases t
  simp_all

instance : LE Instant := ⟨fun s t => s.rank ≤ t.rank⟩
instance : LT Instant := ⟨fun s t => s.rank < t.rank⟩
instance (s t : Instant) : Decidable (s ≤ t) := inferInstanceAs (Decidable (s.rank ≤ t.rank))
instance (s t : Instant) : Decidable (s < t) := inferInstanceAs (Decidable (s.rank < t.rank))
instance : Ord Instant := ⟨fun s t => compare s.rank t.rank⟩

theorem le_iff {s t : Instant} : s ≤ t ↔ s.rank ≤ t.rank := Iff.rfl

theorem lt_iff {s t : Instant} : s < t ↔ s.rank < t.rank := Iff.rfl

theorem compare_eq (s t : Instant) : compare s t = compare s.rank t.rank := rfl

instance : Std.TransOrd Instant :=
  inferInstanceAs (Std.TransCmp (compareOn rank))

instance : Std.LawfulEqOrd Instant where
  eq_of_compare h := rank_inj (Std.LawfulEqOrd.eq_of_compare (compare_eq _ _ ▸ h))

/--
The instant a span later, if the calendar has it.

Inside a leap second a span of less than a second that does not carry past its end moves the
fraction alone. Any other span leaves it: forwards from the end of second 59, backwards from the
start of the next minute.
-/
def add? (t : Instant) (d : Span) : Option Instant :=
  let whole := d.nanos.tdiv 1000000000
  let moved := (t.nanos : Int) + d.nanos.tmod 1000000000
  if 1000000000 ≤ t.nanos then
    if whole = 0 ∧ moved < 2000000000 then ofParts? t.seconds moved.toNat
    else
      let start := if whole < 0 then t.seconds + 1 else t.seconds
      ofNanos? (start * 1000000000 + (t.nanos - 1000000000 : Nat) + d.nanos)
  else ofNanos? (t.seconds * 1000000000 + t.nanos + d.nanos)

/-- The day of an instant, counted from 1 January 1970. -/
def day (t : Instant) : Int := t.seconds / 86400

/-- The date of an instant in universal time. -/
def date (t : Instant) : Date := Date.ofDayNumber t.day

/-- The seconds since the start of the day. -/
def secondOfDay (t : Instant) : Nat := (t.seconds % 86400).toNat

/-- A day has 86400 seconds. -/
theorem secondOfDay_lt (t : Instant) : t.secondOfDay < 86400 := by
  simp only [secondOfDay]
  omega

/-- Two instants have the same date exactly if they lie on the same day. -/
theorem date_eq_iff {s t : Instant} : s.date = t.date ↔ s.day = t.day :=
  ⟨Date.ofDayNumber_inj, fun h => by rw [date, h, date]⟩

end Instant
end Fulfilment
