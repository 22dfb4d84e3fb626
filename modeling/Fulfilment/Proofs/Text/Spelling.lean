import Fulfilment.Proofs.Text.Numeral
import Mathlib.Algebra.Group.Nat.Defs

/-!
# How numbers are spelled

A number is spelled in a number of places (`Spells`): with zeros in front if it needs fewer, and
without them if it needs more. Both ways of writing decimal numbers do that. Digits of a fixed width
spell as much of a number as fits, so they tell two numbers apart exactly if these differ modulo the
width (`lowDigits_eq_iff`). Readers ask for less: any zeros may stand in front, and of integers a
sign (`integer?_eq_some_iff`).
-/
namespace Fulfilment
namespace Numeral

/-! ## Digits of a fixed width -/

/-- A digit of a fixed width is the number's digit at that place. -/
theorem getElem?_lowDigits {b w n i : Nat} (h : i < w) :
    (lowDigits b w n)[i]? = some (n / b ^ i % b) := by
  induction w generalizing n i with
  | zero => omega
  | succ w ih =>
    cases i with
    | zero => simp [lowDigits]
    | succ i =>
      rw [lowDigits, List.getElem?_cons_succ, ih (Nat.lt_of_succ_lt_succ h), Nat.div_div_eq_div_mul,
        Nat.pow_succ']

/-- Numbers have the same digits of a fixed width exactly if they are equal modulo the width. -/
theorem lowDigits_eq_iff {b w m n : Nat} :
    lowDigits b w m = lowDigits b w n ↔ m % b ^ w = n % b ^ w := by
  constructor
  · intro h
    have hread := congrArg (ofLowDigits b) h
    rw [ofLowDigits_lowDigits, ofLowDigits_lowDigits] at hread
    exact hread
  · intro h
    induction w generalizing m n with
    | zero => rfl
    | succ w ih =>
      have hdvd : b ∣ b ^ (w + 1) := ⟨b ^ w, Nat.pow_succ'⟩
      have hlast : m % b = n % b := by
        rw [← Nat.mod_mod_of_dvd m hdvd, h, Nat.mod_mod_of_dvd n hdvd]
      rw [Nat.pow_succ', Nat.mod_mul, Nat.mod_mul, hlast, Nat.add_left_cancel_iff] at h
      rw [lowDigits, lowDigits, hlast]
      rcases Nat.eq_zero_or_pos b with rfl | hb
      · simp
      · rw [ih (Nat.eq_of_mul_eq_mul_left hb h)]

/-- The digits of base 36. -/
def alphabet : List Char := "0123456789ABCDEFGHIJKLMNOPQRSTUVWXYZ".toList

theorem getElem?_alphabet : ∀ d < 36, alphabet[d]? = some (upperChar d) := by decide +kernel

theorem idxOf_upperChar : ∀ d < 36, alphabet.idxOf (upperChar d) = d := by decide +kernel

/-! ## Decimal numbers -/

/-- The digits spell the number in `w` places, or in as many as it needs if these are more. -/
structure Spells (w n : Nat) (ds : List Char) : Prop where
  digits : ∀ d ∈ ds, d.isDigit = true
  value : decimal? ds = some n
  places : w ≤ ds.length
  shortest : w < ds.length → ds.head? ≠ some '0'

theorem spells_padded {w n : Nat} (hw : w ≠ 0) (h : n < 10 ^ w) : Spells w n (padded w n) where
  digits _ := isDigit_of_mem_padded
  value := decimal?_padded_of_lt hw h
  places := by simp
  shortest := by simp

/-- A number that is not below a power of the base has more digits than the power's exponent. -/
theorem lt_length_toDigits {w n : Nat} (h : 10 ^ w ≤ n) : w < (Nat.toDigits 10 n).length := by
  induction w generalizing n with
  | zero => exact List.length_pos_iff.2 Nat.toDigits_ne_nil
  | succ w ih =>
    rw [Nat.pow_succ] at h
    have hpos : 0 < 10 ^ w := Nat.pow_pos (by decide)
    have hfront := ih (n := n / 10) (by omega)
    rw [Nat.toDigits_eq_if (by decide), if_neg (by omega), List.length_append]
    exact Nat.succ_lt_succ hfront

/-- A number that does not fit the width is spelled in more places. -/
theorem spells_toDigits {w n : Nat} (h : 10 ^ w ≤ n) : Spells w n (Nat.toDigits 10 n) where
  digits _ := isDigit_of_mem_toDigits
  value := decimal?_toDigits n
  places := Nat.le_of_lt (lt_length_toDigits h)
  shortest _ hzero := by
    have hpos : 0 < 10 ^ w := Nat.pow_pos (by decide)
    rw [eq_zero_of_head?_toDigits hzero] at h
    omega

/-! ## Numbers with zeros and signs in front -/

/-- The digits spell the number, with any zeros in front. -/
structure SpellsNumber (n : Nat) (ds : List Char) : Prop where
  ne_nil : ds ≠ []
  digits : ∀ d ∈ ds, d.isDigit = true
  value : Nat.ofDigitChars 10 ds 0 = n

/-- The characters spell the integer: its digits with any zeros in front, and its sign, which may be
left out or a plus if the integer is not negative. A zero has either sign. -/
def SpellsInteger (i : Int) (cs : List Char) : Prop :=
  ∃ (n : Nat) (ds : List Char), SpellsNumber n ds ∧
    (i = n ∧ (cs = ds ∨ cs = '+' :: ds) ∨ i = -n ∧ cs = '-' :: ds)

/-- A number is read exactly from what spells it. -/
theorem decimal?_eq_some_iff {n : Nat} {cs : List Char} :
    decimal? cs = some n ↔ SpellsNumber n cs := by
  constructor
  · intro h
    have hne : cs ≠ [] := by
      rintro rfl
      simp [decimal?] at h
    have hdigits : ∀ c ∈ cs, c.isDigit = true := by
      rw [decimal?, if_neg (by simpa using hne)] at h
      obtain ⟨ds, hds, -⟩ := Option.map_eq_some_iff.1 h
      exact isDigit_of_mapM hds
    rw [decimal?_of_isDigit hne hdigits] at h
    exact ⟨hne, hdigits, Option.some.inj h⟩
  · rintro ⟨hne, hdigits, rfl⟩
    exact decimal?_of_isDigit hne hdigits

/-- An integer is read exactly from what spells it. -/
theorem integer?_eq_some_iff {i : Int} {cs : List Char} :
    integer? cs = some i ↔ SpellsInteger i cs := by
  simp only [SpellsInteger, ← decimal?_eq_some_iff]
  constructor
  · intro h
    rw [integer?.eq_def] at h
    split at h
    · next ds =>
      obtain ⟨_, hread, rfl⟩ := Option.map_eq_some_iff.1 h
      obtain ⟨n, hn, hcast⟩ := Option.bind_eq_some_iff.1 hread
      obtain rfl := Option.some.inj hcast
      exact ⟨n, ds, hn, .inr ⟨rfl, rfl⟩⟩
    · next ds =>
      obtain ⟨n, hn, rfl⟩ := Option.map_eq_some_iff.1 h
      exact ⟨n, ds, hn, .inl ⟨rfl, .inr rfl⟩⟩
    · obtain ⟨n, hn, rfl⟩ := Option.map_eq_some_iff.1 h
      exact ⟨n, cs, hn, .inl ⟨rfl, .inl rfl⟩⟩
  · rintro ⟨n, ds, hn, ⟨rfl, rfl | rfl⟩ | ⟨rfl, rfl⟩⟩
    · have hdigits := (decimal?_eq_some_iff.1 hn).digits
      rw [integer?.eq_def]
      -- digits have no sign in front, so the last of the three readings is theirs
      split
      · exact absurd (hdigits _ List.mem_cons_self) (by decide)
      · exact absurd (hdigits _ List.mem_cons_self) (by decide)
      · rw [hn, Option.map_some, Int.ofNat_eq_natCast]
    · rw [integer?, hn, Option.map_some, Int.ofNat_eq_natCast]
    · rw [integer?, hn]
      rfl

theorem spellsNumber_toDigits (n : Nat) : SpellsNumber n (Nat.toDigits 10 n) where
  ne_nil := Nat.toDigits_ne_nil
  digits _ := isDigit_of_mem_toDigits
  value := Nat.ofDigitChars_ten_toDigits

theorem spellsInteger_toString (i : Int) : SpellsInteger i (toString i).toList := by
  cases i with
  | ofNat n => exact ⟨n, _, spellsNumber_toDigits n, .inl ⟨rfl, .inl String.toList_ofList⟩⟩
  | negSucc n =>
    refine ⟨n + 1, _, spellsNumber_toDigits (n + 1), .inr ⟨rfl, ?_⟩⟩
    show ("-" ++ (n + 1).repr).toList = _
    simp [Nat.repr_eq_ofList_toDigits]

theorem SpellsInteger.mem {i : Int} {cs : List Char} (h : SpellsInteger i cs) {c : Char}
    (hc : c ∈ cs) : c.isDigit = true ∨ c = '+' ∨ c = '-' := by
  obtain ⟨n, ds, hds, ⟨-, rfl | rfl⟩ | ⟨-, rfl⟩⟩ := h
  · exact .inl (hds.digits c hc)
  · exact (List.mem_cons.1 hc).elim (fun h => .inr (.inl h)) fun h => .inl (hds.digits c h)
  · exact (List.mem_cons.1 hc).elim (fun h => .inr (.inr h)) fun h => .inl (hds.digits c h)

end Numeral
end Fulfilment
