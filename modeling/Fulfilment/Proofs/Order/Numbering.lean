import Fulfilment.Order.Number
import Fulfilment.Proofs.Text.Spelling
import Fulfilment.Proofs.Time.Rfc3339

/-!
# What an order number tells

An order number tells the day and six digits of the random number, and nothing else. Its parts are
written one after the other without marks between them, and the year has no fixed width. The parts
after the year have one, so a number comes apart from its end: first the suffix, then the day and
the month, and what is left is the year, which is read back with its sign.
-/
namespace Fulfilment

open Numeral

/-! ## Dates without separators -/

namespace Date

/-- A year as it stands in a date: in four places if it lies between 0 and 9999, and otherwise with
its sign and in four places at least. -/
def SpellsYear (year : Int) (cs : List Char) : Prop :=
  if 0 ≤ year ∧ year ≤ 9999 then Spells 4 year.natAbs cs
  else ∃ ds, cs = (if year < 0 then '-' else '+') :: ds ∧ Spells 4 year.natAbs ds

/-- Year, month and day of the date, one after the other. -/
def SpellsCompact (d : Date) (cs : List Char) : Prop :=
  ∃ year month day, cs = year ++ month ++ day ∧ SpellsYear d.year year ∧ Spells 2 d.month month ∧
    Spells 2 d.day day

theorem spellsYear_yearText (year : Int) : SpellsYear year (yearText year) := by
  have hdigits : Spells 4 year.natAbs
      (if year.natAbs ≤ 9999 then padded 4 year.natAbs else Nat.toDigits 10 year.natAbs) := by
    split
    · exact spells_padded (by decide) (by omega)
    · exact spells_toDigits (by omega)
  unfold SpellsYear yearText
  split
  · next hyear =>
    rw [if_pos (by omega)] at hdigits
    have hnat : year.toNat = year.natAbs := by omega
    rwa [hnat]
  · exact ⟨_, rfl, hdigits⟩

/-- A date of the calendar is spelled part by part. -/
theorem spellsCompact_compactText {d : Date} (h : d.Valid) : d.SpellsCompact d.compactText := by
  obtain ⟨-, hmonth, -, hday⟩ := h
  have hdays := daysInMonth_le d.year d.month
  exact ⟨_, _, _, rfl, spellsYear_yearText d.year, spells_padded (by decide) (by omega),
    spells_padded (by decide) (by omega)⟩

theorem yearText_inj {y z : Int} (h : yearText y = yearText z) : y = z := by
  have hread := Instant.readYear_yearText y []
  rw [h, Instant.readYear_yearText z []] at hread
  cases hread
  rfl

theorem padded_two_inj {m n : Nat} (hm : m < 100) (hn : n < 100) (h : padded 2 m = padded 2 n) :
    m = n := by
  have hread : decimal? (padded 2 m) = some m := decimal?_padded_of_lt (by decide) hm
  rw [h, decimal?_padded_of_lt (by decide) hn] at hread
  exact (Option.some.inj hread).symm

/-- Different dates are written differently, although nothing separates their parts. -/
theorem compactText_inj {d e : Date} (hd : d.Valid) (he : e.Valid)
    (h : d.compactText = e.compactText) : d = e := by
  obtain ⟨-, hdm, -, hdd⟩ := hd
  obtain ⟨-, hem, -, hed⟩ := he
  have hdmax := daysInMonth_le d.year d.month
  have hemax := daysInMonth_le e.year e.month
  obtain ⟨hfront, hday⟩ := List.append_inj' h (by simp)
  obtain ⟨hyear, hmonth⟩ := List.append_inj' hfront (by simp)
  have hyear := yearText_inj hyear
  have hmonth := padded_two_inj (by omega) (by omega) hmonth
  have hday := padded_two_inj (by omega) (by omega) hday
  cases d
  cases e
  simp_all

end Date

namespace OrderNumber

/-! ## Suffixes -/

@[simp] theorem length_suffix (n : Nat) : (suffix n).length = 6 := by simp [suffix]

/-- A character of a suffix is the digit of the random number at its place, in base 36. -/
theorem getElem?_suffix (n : Nat) {i : Nat} (h : i < 6) :
    (suffix n)[i]? = alphabet[n / 36 ^ i % 36]? := by
  rw [suffix, List.getElem?_map, getElem?_lowDigits h, Option.map_some,
    getElem?_alphabet _ (Nat.mod_lt _ (by decide))]

theorem mem_alphabet_of_mem_suffix {n : Nat} {c : Char} (h : c ∈ suffix n) : c ∈ alphabet := by
  obtain ⟨d, hd, rfl⟩ := List.mem_map.1 h
  exact List.mem_of_getElem? (getElem?_alphabet d (lt_of_mem_lowDigits (by decide) hd))

/-- The places of a suffix's characters in the alphabet are the digits of the random number. -/
theorem map_idxOf_suffix (n : Nat) : (suffix n).map alphabet.idxOf = lowDigits 36 6 n := by
  rw [suffix, List.map_map, List.map_congr_left (g := id), List.map_id]
  exact fun d hd => idxOf_upperChar d (lt_of_mem_lowDigits (by decide) hd)

/-- Suffixes are the same exactly if six digits are. -/
theorem suffix_eq_iff {m n : Nat} : suffix m = suffix n ↔ m % 36 ^ 6 = n % 36 ^ 6 := by
  rw [← lowDigits_eq_iff]
  refine ⟨fun h => ?_, fun h => by rw [suffix, h, suffix]⟩
  rw [← map_idxOf_suffix m, h, map_idxOf_suffix]

/-! ## Numbers -/

theorem toList_draw (now : Instant) (entropy : Nat) :
    (draw now entropy).text.toList =
      "ORD-".toList ++ now.date.compactText ++ '-' :: suffix entropy := String.toList_ofList

/-- Numbers are the same exactly if the dates and the suffixes are. -/
theorem draw_eq_iff {s t : Instant} {m n : Nat} :
    draw s m = draw t n ↔ s.date = t.date ∧ suffix m = suffix n := by
  constructor
  · intro h
    have htext : (draw s m).text.toList = (draw t n).text.toList := by rw [h]
    rw [toList_draw, toList_draw] at htext
    obtain ⟨hfront, hback⟩ := List.append_inj' htext (by simp)
    have hdate := List.append_cancel_left hfront
    exact ⟨Date.compactText_inj (Date.valid_ofDayNumber _) (Date.valid_ofDayNumber _) hdate,
      List.tail_eq_of_cons_eq hback⟩
  · rintro ⟨hdate, hsuffix⟩
    have htext : (draw s m).text.toList = (draw t n).text.toList := by
      rw [toList_draw, toList_draw, hdate, hsuffix]
    exact congrArg OrderNumber.mk (String.toList_inj.1 htext)

/--
**An order number tells the day and six digits of the random number.**

It is `ORD-`, the date in universal time with a year of four digits, which is longer and has a sign
outside 0 to 9999, a hyphen, and six digits of base 36, which are the last ones of the random
number, the lowest first. Two numbers are the same exactly if they were drawn on one day and with
random numbers that are equal modulo the sixth power of 36. Random numbers may have any size, so
those of 128 bits are among them.
-/
theorem numbers_tell_day_and_digits :
    (∀ (now : Instant) (entropy : Nat), ∃ day digits,
      (draw now entropy).text.toList = "ORD-".toList ++ day ++ '-' :: digits ∧
      now.date.Valid ∧ now.date.dayNumber = now.seconds / 86400 ∧ now.date.SpellsCompact day ∧
      digits.length = 6 ∧ (∀ c ∈ digits, c ∈ alphabet) ∧
      ∀ i < 6, digits[i]? = alphabet[entropy / 36 ^ i % 36]?) ∧
    ∀ (s t : Instant) (m n : Nat),
      draw s m = draw t n ↔ s.date = t.date ∧ m % 36 ^ 6 = n % 36 ^ 6 := by
  constructor
  · intro now entropy
    have hvalid : now.date.Valid := Date.valid_ofDayNumber _
    exact ⟨now.date.compactText, suffix entropy, toList_draw now entropy, hvalid,
      Date.dayNumber_ofDayNumber _, Date.spellsCompact_compactText hvalid, length_suffix entropy,
      fun _ => mem_alphabet_of_mem_suffix, fun _ => getElem?_suffix entropy⟩
  · intro s t m n
    rw [draw_eq_iff, suffix_eq_iff]

example : (draw (.ofSecond 0) (35 + 36 * 10)).text = "ORD-19700101-ZA0000" := by decide +kernel

end OrderNumber
end Fulfilment
