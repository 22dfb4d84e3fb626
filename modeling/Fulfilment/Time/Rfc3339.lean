import Fulfilment.Time.Instant
import Fulfilment.Text.Blank

/-!
# Instants as text

Instants are written as in RFC 3339, in universal time, with a fraction of 0, 3, 6 or 9 digits: the
fewest that are exact. The offset is written `Z`, or `+00:00` inside sentences. A leap second is
written as second 60.

The reader accepts more: a sign before the year, a date and a time that a blank separates, blanks
between the parts, a missing colon in the offset, and `UTC` for the offset. Fraction digits beyond
the ninth are dropped. Seconds and an offset are required.
-/
namespace Fulfilment
namespace Instant

/-! ## Writing -/

/-- A fraction of a second in the fewest groups of three digits that are exact. -/
def fractionText (nanos : Nat) : List Char :=
  if nanos = 0 then []
  else if nanos % 1000000 = 0 then '.' :: Numeral.padded 3 (nanos / 1000000)
  else if nanos % 1000 = 0 then '.' :: Numeral.padded 6 (nanos / 1000)
  else '.' :: Numeral.padded 9 nanos

/-- The second to write: a fraction of a second or more belongs to the leap second. -/
def writtenSecond (t : Instant) : Nat :=
  t.secondOfDay % 60 + t.nanos / 1000000000

def localText (t : Instant) : List Char :=
  t.date.hyphenText ++ 'T' :: Numeral.padded 2 (t.secondOfDay / 3600) ++
    ':' :: Numeral.padded 2 (t.secondOfDay / 60 % 60) ++
    ':' :: Numeral.padded 2 t.writtenSecond ++ fractionText (t.nanos % 1000000000)

def toText (t : Instant) : String := String.ofList (t.localText ++ ['Z'])

/-- The instant with the offset in digits. -/
def toOffsetText (t : Instant) : String := String.ofList (t.localText ++ "+00:00".toList)

/-! ## Reading -/

def readChar (c : Char) : List Char → Option (List Char)
  | d :: cs => if c = d then some cs else none
  | [] => none

/-- Reads the longest run of at most `most` digits, which must not be empty. -/
def readNumber (most : Nat) (cs : List Char) : Option (Nat × List Char) :=
  let digits := (cs.take most).takeWhile Char.isDigit
  (Numeral.decimal? digits).map fun n => (n, cs.drop digits.length)

/-- Reads a number of at most `most` digits after blanks. -/
def readField (most : Nat) (cs : List Char) : Option (Nat × List Char) :=
  readNumber most (Text.trimLeft cs)

/-- Reads a number of at most two digits after a separator, with blanks around it. -/
def readNext (separator : Char) (cs : List Char) : Option (Nat × List Char) := do
  readField 2 (← readChar separator (Text.trimLeft cs))

/-- Reads a year: at most four digits, or any number of them after a sign. -/
def readYear (cs : List Char) : Option (Int × List Char) :=
  match Text.trimLeft cs with
  | '-' :: rest => (readNumber rest.length rest).map fun (n, r) => (-(n : Int), r)
  | '+' :: rest => (readNumber rest.length rest).map fun (n, r) => ((n : Int), r)
  | rest => (readNumber 4 rest).map fun (n, r) => ((n : Int), r)

def readDate (cs : List Char) : Option (Date × List Char) := do
  let (year, cs) ← readYear cs
  let (month, cs) ← readNext '-' cs
  let (day, cs) ← readNext '-' cs
  return (⟨year, month, day⟩, cs)

/-- The nanoseconds that a run of fraction digits stands for; digits beyond the ninth are dropped.
-/
def fractionValue (digits : List Char) : Option Nat :=
  Numeral.decimal? ((digits ++ List.replicate 9 '0').take 9)

/-- Reads a fraction after a point, if there is one. -/
def readFraction : List Char → Option (Nat × List Char)
  | '.' :: cs =>
    let digits := cs.takeWhile Char.isDigit
    if digits.isEmpty then none
    else (fractionValue digits).map fun n => (n, cs.drop digits.length)
  | cs => some (0, cs)

/-- A time of day. Second 60 is the leap second. -/
structure TimeOfDay where
  hour : Nat
  minute : Nat
  second : Nat
  nanos : Nat

def readTime (cs : List Char) : Option (TimeOfDay × List Char) := do
  let (hour, cs) ← readField 2 cs
  let (minute, cs) ← readNext ':' cs
  let (second, cs) ← readNext ':' cs
  let (nanos, cs) ← readFraction cs
  return (⟨hour, minute, second, nanos⟩, cs)

/-- Reads the two digits of an hour or a minute. -/
def readPair : List Char → Option (Nat × List Char)
  | a :: b :: cs => if a.isDigit ∧ b.isDigit then (Numeral.decimal? [a, b]).map (·, cs) else none
  | _ => none

/-- Reads hours and minutes of an offset, with any colons and blanks between them, in seconds. -/
def readOffsetDigits (cs : List Char) : Option (Nat × List Char) := do
  let (hours, cs) ← readPair cs
  let (minutes, cs) ← readPair (cs.dropWhile fun c => c == ':' || Text.isBlank c)
  if minutes < 60 then return (hours * 3600 + minutes * 60, cs) else none

/-- Reads the offset from universal time in seconds. The sign may be a hyphen or a minus sign. -/
def readOffset (cs : List Char) : Option (Int × List Char) :=
  match Text.trimLeft cs with
  | 'Z' :: rest | 'z' :: rest => some (0, rest)
  | '+' :: rest => (readOffsetDigits rest).map fun (n, r) => ((n : Int), r)
  | '-' :: rest | '\u2212' :: rest => (readOffsetDigits rest).map fun (n, r) => (-(n : Int), r)
  | a :: b :: c :: rest =>
    if a.toUpper = 'U' ∧ b.toUpper = 'T' ∧ c.toUpper = 'C' then some (0, rest) else none
  | _ => none

/-- The instant of a date and time at an offset, if the calendar has it. -/
def ofLocal? (d : Date) (time : TimeOfDay) (offset : Int) : Option Instant :=
  if -262143 ≤ d.year ∧ d.year ≤ 262142 ∧ d.Valid ∧ time.hour < 24 ∧ time.minute < 60 ∧
      time.second ≤ 60 ∧ -86400 < offset ∧ offset < 86400 then
    ofParts?
      (d.dayNumber * 86400 +
        (time.hour * 3600 + time.minute * 60 + min time.second 59 : Nat) - offset)
      (time.nanos + if time.second = 60 then 1000000000 else 0)
  else none

/-- Reads an instant and nothing else but blanks around it. -/
def ofText? (s : String) : Option Instant := do
  let (date, cs) ← readDate s.toList
  let cs ← match cs with
    | 'T' :: cs | 't' :: cs | ' ' :: cs => some cs
    | _ => none
  let (time, cs) ← readTime cs
  let (offset, cs) ← readOffset cs
  if Text.trimLeft cs = [] then ofLocal? date time offset else none

/-! ## Laws of the parts -/

@[simp] theorem readChar_cons (c : Char) (cs : List Char) : readChar c (c :: cs) = some cs := by
  simp [readChar]

end Instant
end Fulfilment
