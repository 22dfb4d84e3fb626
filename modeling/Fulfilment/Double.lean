/-!
# Double precision

Whether a decimal number stays finite when it is taken into double precision in two steps: its
leading digits, as many as fit a 64-bit word, and the power of ten that they are scaled by are each
rounded to double precision, and so is their product. Close to the limit this differs from rounding
the number itself.
-/
namespace Fulfilment.Double

/-- The distance between neighbouring values of double precision around a natural number: a
significand has 53 bits. -/
def unit (n : Nat) : Nat := 1 <<< (n.log2 - 52)

theorem unit_pos (n : Nat) : 0 < unit n := by
  rw [unit, Nat.shiftLeft_eq, Nat.one_mul]
  exact Nat.two_pow_pos _

/-- A natural number rounded to double precision; a half goes to the even neighbour. -/
def round (n : Nat) : Nat :=
  let q := n / unit n
  let r := n % unit n
  if unit n < 2 * r ∨ (unit n = 2 * r ∧ q % 2 = 1) then (q + 1) * unit n else q * unit n

/-- Rounding moves a number by at most half a unit. -/
theorem round_near (n : Nat) : 2 * round n ≤ 2 * n + unit n ∧ 2 * n ≤ 2 * round n + unit n := by
  have parts : n / unit n * unit n + n % unit n = n := Nat.div_add_mod' n (unit n)
  have below : n % unit n < unit n := Nat.mod_lt _ (unit_pos n)
  have next : (n / unit n + 1) * unit n = n / unit n * unit n + unit n := Nat.succ_mul _ _
  simp only [round]
  split <;> omega

theorem round_eq_self {n : Nat} (h : n < 1 <<< 53) : round n = n := by
  have log : n.log2 ≤ 52 := by
    rcases Nat.eq_zero_or_pos n with rfl | pos
    · decide
    · exact Nat.le_of_lt_succ ((Nat.log2_lt (Nat.ne_of_gt pos)).2 h)
  have one : unit n = 1 := by simp [unit, Nat.sub_eq_zero_of_le log]
  simp [round, one, Nat.mod_one]

/-- The least number that rounds to infinity. -/
def limit : Nat := 1 <<< 1024 - 1 <<< 970

/-- The leading digits of a number, as many as fit a 64-bit word, and the count of the others. -/
def leading (n : Nat) : Nat × Nat :=
  if n < 1 <<< 64 then (n, 0) else ((leading (n / 10)).1, (leading (n / 10)).2 + 1)

theorem leading_lt (n : Nat) : (leading n).1 < 1 <<< 64 := by
  fun_induction leading n with
  | case1 n h => exact h
  | case2 n h ih => exact ih

/-- The leading digits are what is left of the number without the others. -/
theorem leading_eq (n : Nat) : (leading n).1 = n / Nat.pow 10 (leading n).2 := by
  fun_induction leading n with
  | case1 n h => simp
  | case2 n h ih => rw [ih, Nat.div_div_eq_div_mul, Nat.mul_comm 10, Nat.pow]; rfl

/-- A decimal of the given digits and power of ten stays finite. Scaling down always does. -/
def isFinite (digits : Nat) (exponent : Int) : Bool :=
  let (word, dropped) := leading digits
  let power := exponent + dropped
  if word = 0 ∨ power ≤ 0 then true
  else power ≤ 308 && round word * round (Nat.pow 10 power.toNat) < limit

example : isFinite 17976931348623157 292 = true := by decide +kernel
example : isFinite 17976931348623158 292 = false := by decide +kernel
example : isFinite 179769313486231583 291 = true := by decide +kernel

end Fulfilment.Double
