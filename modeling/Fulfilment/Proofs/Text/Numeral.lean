import Fulfilment.Text.Numeral

/-!
# Reading numerals back

What is written in digits is read back as the number: of a fixed width modulo that width
(`decimal?_padded`, `mapM_hexValue?_hex`), of any width exactly (`decimal?_toDigits`). The readers
take the digits one by one, so all of this rests on what single characters stand for.
-/
namespace Fulfilment

/-- What is read of each member of a list is read of all of them in turn. -/
theorem mapM_eq_some_map {α β : Type} {f : α → β} {g : α → Option β} {xs : List α}
    (h : ∀ x ∈ xs, g x = some (f x)) : xs.mapM g = some (xs.map f) := by
  induction xs with
  | nil => rfl
  | cons x xs ih =>
    rw [List.mapM_cons, h x (List.mem_cons_self ..),
      ih fun y hy => h y (List.mem_cons_of_mem _ hy)]
    rfl

namespace Numeral

/-! ## Single digits -/

theorem digitValue?_upperChar : ∀ d < 10, digitValue? (upperChar d) = some d := by decide

theorem isDigit_upperChar : ∀ d < 10, (upperChar d).isDigit = true := by decide

theorem hexValue?_lowerChar : ∀ d < 16, hexValue? (lowerChar d) = some d := by decide

theorem digitValue?_of_isDigit {c : Char} (h : c.isDigit = true) :
    digitValue? c = some (c.toNat - 48) := by
  simp only [Char.isDigit, Bool.and_eq_true, decide_eq_true_eq] at h
  rw [digitValue?, if_pos]
  exact h

theorem isDigit_of_digitValue? {c : Char} {d : Nat} (h : digitValue? c = some d) :
    c.isDigit = true := by
  rw [digitValue?] at h
  split at h
  · next hc =>
    simp only [Char.isDigit, Bool.and_eq_true, decide_eq_true_eq]
    exact hc
  · cases h

/-! ## Runs of digits -/

/-- Digits stand for the same number from either end. -/
theorem ofDigits_reverse (b : Nat) (ds : List Nat) :
    ofDigits b ds.reverse = ofLowDigits b ds := by
  rw [ofDigits, List.foldl_reverse]
  induction ds with
  | nil => rfl
  | cons d ds ih => rw [List.foldr_cons, ih, ofLowDigits, Nat.add_comm]

/-- A run of digits is read as the number that it spells. -/
theorem decimal?_of_isDigit {cs : List Char} (hne : cs ≠ []) (h : ∀ c ∈ cs, c.isDigit = true) :
    decimal? cs = some (Nat.ofDigitChars 10 cs 0) := by
  have hread : cs.mapM digitValue? = some (cs.map fun c => c.toNat - 48) :=
    mapM_eq_some_map fun c hc => digitValue?_of_isDigit (h c hc)
  rw [decimal?, if_neg (by simpa using hne), hread, Option.map_some, ofDigits, List.foldl_map]
  rfl

theorem isDigit_of_mapM {cs : List Char} {ds : List Nat} (h : cs.mapM digitValue? = some ds) :
    ∀ c ∈ cs, c.isDigit = true := by
  induction cs generalizing ds with
  | nil => simp
  | cons c cs ih =>
    rw [List.mapM_cons] at h
    obtain ⟨d, hd, hrest⟩ := Option.bind_eq_some_iff.1 h
    obtain ⟨ds, hds, -⟩ := Option.bind_eq_some_iff.1 hrest
    exact List.forall_mem_cons.2 ⟨isDigit_of_digitValue? hd, ih hds⟩

theorem isDigit_of_mem_toDigits {n : Nat} {c : Char} (h : c ∈ Nat.toDigits 10 n) :
    c.isDigit = true :=
  Nat.isDigit_of_mem_toDigits (by decide) (by decide) h

@[simp] theorem decimal?_toDigits (n : Nat) : decimal? (Nat.toDigits 10 n) = some n := by
  rw [decimal?_of_isDigit Nat.toDigits_ne_nil fun _ => isDigit_of_mem_toDigits,
    Nat.ofDigitChars_ten_toDigits]

/-- Only zero starts with a zero. -/
theorem eq_zero_of_head?_toDigits {n : Nat} (h : (Nat.toDigits 10 n).head? = some '0') :
    n = 0 := by
  induction n using Nat.strongRecOn with
  | ind n ih =>
    rw [Nat.toDigits_eq_if (by decide)] at h
    split at h
    · simpa using h
    · have hfront : (Nat.toDigits 10 (n / 10)).head? = some '0' := by
        obtain ⟨d, ds, hds⟩ := List.exists_cons_of_ne_nil (Nat.toDigits_ne_nil (n := n / 10))
        rw [hds] at h ⊢
        exact h
      have := ih (n / 10) (by omega) hfront
      omega

theorem padded_ne_nil {w : Nat} (hw : w ≠ 0) (n : Nat) : padded w n ≠ [] := by
  rw [← List.length_pos_iff, length_padded]
  exact Nat.pos_of_ne_zero hw

theorem isDigit_of_mem_padded {w n : Nat} {c : Char} (h : c ∈ padded w n) : c.isDigit = true := by
  obtain ⟨d, hd, rfl⟩ := List.mem_map.1 h
  exact isDigit_upperChar d (lt_of_mem_lowDigits (by decide) (List.mem_reverse.1 hd))

/-- Of a number of a fixed width the digits that fit are read back. -/
theorem decimal?_padded {w : Nat} (hw : w ≠ 0) (n : Nat) :
    decimal? (padded w n) = some (n % Nat.pow 10 w) := by
  have hne := padded_ne_nil hw n
  have hread : (padded w n).mapM digitValue? = some (lowDigits 10 w n).reverse := by
    rw [padded, List.mapM_map, mapM_eq_some_map (f := id), List.map_id]
    intro d hd
    exact digitValue?_upperChar d (lt_of_mem_lowDigits (by decide) (List.mem_reverse.1 hd))
  rw [decimal?, if_neg (by simpa using hne), hread, Option.map_some, ofDigits_reverse,
    ofLowDigits_lowDigits]

theorem decimal?_padded_of_lt {w n : Nat} (hw : w ≠ 0) (h : n < Nat.pow 10 w) :
    decimal? (padded w n) = some n := by
  rw [decimal?_padded hw, Nat.mod_eq_of_lt h]

theorem mapM_hexValue?_hex (w n : Nat) :
    (hex w n).mapM hexValue? = some (lowDigits 16 w n).reverse := by
  rw [hex, List.mapM_map, mapM_eq_some_map (f := id), List.map_id]
  intro d hd
  exact hexValue?_lowerChar d (lt_of_mem_lowDigits (by decide) (List.mem_reverse.1 hd))

end Numeral
end Fulfilment
