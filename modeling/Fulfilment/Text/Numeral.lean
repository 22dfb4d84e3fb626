/-!
# Numerals of a fixed width

Dates, identifiers and order numbers are written with a fixed number of digits in base 10, 16 or 36.
`lowDigits` gives those digits, least significant first, and `ofLowDigits` reads them back: the
value of `w` digits in base `b` is the number modulo `b ^ w` (`ofLowDigits_lowDigits`).
Numbers of any width are written with `Nat.toDigits` and read with `decimal?`.
-/
namespace Fulfilment.Numeral

/-- The `w` least significant digits of `n` in base `b`, least significant first. -/
def lowDigits (b : Nat) : Nat → Nat → List Nat
  | 0, _ => []
  | w + 1, n => n % b :: lowDigits b w (n / b)

/-- The number that a list of digits stands for, least significant first. -/
def ofLowDigits (b : Nat) : List Nat → Nat
  | [] => 0
  | d :: ds => d + b * ofLowDigits b ds

@[simp] theorem length_lowDigits (b w n : Nat) : (lowDigits b w n).length = w := by
  induction w generalizing n with
  | zero => rfl
  | succ w ih => simp [lowDigits, ih]

/-- Digits are below the base. -/
theorem lt_of_mem_lowDigits {b w n d : Nat} (hb : 0 < b) (h : d ∈ lowDigits b w n) : d < b := by
  induction w generalizing n with
  | zero => simp [lowDigits] at h
  | succ w ih =>
    rcases List.mem_cons.1 h with rfl | h
    · exact Nat.mod_lt _ hb
    · exact ih h

/-- Reading the digits back gives the number modulo the width. -/
theorem ofLowDigits_lowDigits (b w n : Nat) :
    ofLowDigits b (lowDigits b w n) = n % Nat.pow b w := by
  induction w generalizing n with
  | zero => simp [lowDigits, ofLowDigits, Nat.mod_one]
  | succ w ih =>
    change n % b + b * ofLowDigits b (lowDigits b w (n / b)) = n % (Nat.pow b w * b)
    rw [ih, Nat.mul_comm (Nat.pow b w) b, Nat.mod_mul]

/-- The character of a digit below 36, letters in upper case. -/
def upperChar (d : Nat) : Char :=
  if d < 10 then Char.ofNat (48 + d) else Char.ofNat (55 + d)

/-- The character of a digit below 36, letters in lower case. -/
def lowerChar (d : Nat) : Char :=
  if d < 10 then Char.ofNat (48 + d) else Char.ofNat (87 + d)

/-- The value of a hexadecimal digit in either case. -/
def hexValue? (c : Char) : Option Nat :=
  if '0' ≤ c ∧ c ≤ '9' then some (c.toNat - 48)
  else if 'a' ≤ c ∧ c ≤ 'f' then some (c.toNat - 87)
  else if 'A' ≤ c ∧ c ≤ 'F' then some (c.toNat - 55)
  else none

/-- The value of a decimal digit. -/
def digitValue? (c : Char) : Option Nat :=
  if '0' ≤ c ∧ c ≤ '9' then some (c.toNat - 48) else none

/-- `n` in `w` decimal digits; higher digits are dropped. -/
def padded (w n : Nat) : List Char :=
  (lowDigits 10 w n).reverse.map upperChar

/-- `n` in `w` lower-case hexadecimal digits; higher digits are dropped. -/
def hex (w n : Nat) : List Char :=
  (lowDigits 16 w n).reverse.map lowerChar

@[simp] theorem length_padded (w n : Nat) : (padded w n).length = w := by simp [padded]

@[simp] theorem length_hex (w n : Nat) : (hex w n).length = w := by simp [hex]

/-- The number that a run of digits, most significant first, stands for in base `b`. -/
def ofDigits (b : Nat) (ds : List Nat) : Nat :=
  ds.foldl (fun n d => b * n + d) 0

/-- Reads a nonempty run of decimal digits and nothing else. -/
def decimal? (cs : List Char) : Option Nat :=
  if cs.isEmpty then none else (cs.mapM digitValue?).map (ofDigits 10)

/-- Reads an integer: digits with an optional sign in front. -/
def integer? : List Char → Option Int
  | '-' :: cs => (decimal? cs).map fun n => -(n : Int)
  | '+' :: cs => (decimal? cs).map Int.ofNat
  | cs => (decimal? cs).map Int.ofNat

/-- Reads a natural number: digits with an optional plus in front. -/
def natural? : List Char → Option Nat
  | '+' :: cs => decimal? cs
  | cs => decimal? cs

/-- The bytes that pairs of hexadecimal digits stand for. -/
def hexBytes? : List Char → Option (List UInt8)
  | [] => some []
  | a :: b :: cs => do
    return .ofNat (16 * (← hexValue? a) + (← hexValue? b)) :: (← hexBytes? cs)
  | _ => none

end Fulfilment.Numeral
