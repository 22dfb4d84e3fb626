import Fulfilment.Proofs.Text.Numeral
import Fulfilment.Time.Rfc3339

/-!
# Reading instants back

Every instant of the calendar is read back from its text (`ofText?_toText`): with a signed year,
with any fraction, and inside a leap second. A part is read back from what it is written as,
whatever follows it, as long as that does not go on with a digit where the number of digits is open
(`readNumber_append`). Of letters, instants are written with `T` and `Z` alone (`Stamps`).
-/
namespace Fulfilment

open Numeral Text

/-! ## Years of the calendar -/

namespace Date

variable {d : Date}

theorem daysInMonth_le (year : Int) (month : Nat) : daysInMonth year month ≤ 31 := by
  unfold daysInMonth
  split <;> split <;> decide

/-- Where a day lies in its year, which is counted from March. -/
theorem dayOfYear_bounds (hvalid : d.Valid) :
    (d.month ≤ 2 → 306 ≤ (153 * ((d.month + 9) % 12) + 2) / 5 + d.day - 1) ∧
      (153 * ((d.month + 9) % 12) + 2) / 5 + d.day - 1 ≤ 367 ∧
      (2 < d.month → (153 * ((d.month + 9) % 12) + 2) / 5 + d.day - 1 ≤ 305) := by
  obtain ⟨hm, hm', hd, hd'⟩ := hvalid
  have hdays := daysInMonth_le d.year d.month
  omega

/-- A date whose day lies between the first and the last day of the calendar lies in its years. -/
theorem year_bounds (hvalid : d.Valid) (hfirst : -96465292 ≤ d.dayNumber)
    (hlast : d.dayNumber ≤ 95026236) : -262143 ≤ d.year ∧ d.year ≤ 262142 := by
  obtain ⟨hlow, hhigh, hspring⟩ := dayOfYear_bounds hvalid
  simp only [dayNumber] at hfirst hlast
  generalize (153 * ((d.month + 9) % 12) + 2) / 5 + d.day - 1 = day at *
  -- The years next to the ends are split off: the days of all others are far away.
  have hbefore : d.year = -262144 ∨ d.year < -262144 ∨ -262143 ≤ d.year := by omega
  have hafter : d.year = 262143 ∨ 262143 < d.year ∨ d.year ≤ 262142 := by omega
  by_cases hmonth : d.month ≤ 2
  · simp only [if_pos hmonth] at hfirst hlast
    omega
  · simp only [if_neg hmonth] at hfirst hlast
    omega

end Date

/-! ## Digits in front of other text -/

theorem Text.trimLeft_append {ds cs : List Char} (hne : ds ≠ []) (h : ∀ c ∈ ds, c.isDigit = true) :
    trimLeft (ds ++ cs) = ds ++ cs := by
  cases ds with
  | nil => exact absurd rfl hne
  | cons d ds => exact trimLeft_eq_self_of_head (isBlank_of_isDigit (h d (List.mem_cons_self ..)))

namespace Instant

/-- The text does not go on with a digit. -/
def EndsDigits (cs : List Char) : Prop := ∀ c ∈ cs.head?, c.isDigit = false

theorem endsDigits_cons {c : Char} (h : c.isDigit = false) (cs : List Char) :
    EndsDigits (c :: cs) := by
  rintro d ⟨⟩
  exact h

/-- A run of digits ends where the text goes on with something else. -/
theorem takeWhile_append {ds cs : List Char} (h : ∀ c ∈ ds, c.isDigit = true)
    (hcs : EndsDigits cs) : (ds ++ cs).takeWhile Char.isDigit = ds := by
  rw [List.takeWhile_append_of_pos h]
  cases cs with
  | nil => exact List.append_nil ds
  | cons c cs => rw [List.takeWhile_cons_of_neg (by simp [hcs c rfl]), List.append_nil]

/-- A run of digits is read, if it is as long as it may be or the text goes on with something else.
-/
theorem readNumber_append {most n : Nat} {ds cs : List Char} (h : ∀ c ∈ ds, c.isDigit = true)
    (hn : decimal? ds = some n) (hlength : ds.length ≤ most)
    (hends : ds.length = most ∨ EndsDigits cs) : readNumber most (ds ++ cs) = some (n, cs) := by
  have hdigits : ((ds ++ cs).take most).takeWhile Char.isDigit = ds := by
    rcases hends with rfl | hcs
    · rw [List.take_left]
      have hall : (ds ++ []).takeWhile Char.isDigit = ds := takeWhile_append h nofun
      rwa [List.append_nil] at hall
    · rw [List.take_append, List.take_of_length_le hlength]
      refine takeWhile_append h ?_
      intro c hc
      cases hrest : most - ds.length with
      | zero =>
        rw [hrest] at hc
        cases hc
      | succ k =>
        rw [hrest] at hc
        cases cs with
        | nil => cases hc
        | cons d cs => exact hcs c hc
  simp only [readNumber, hdigits, hn, Option.map_some, List.drop_left]

/-! ## Numbers of two digits -/

variable {n : Nat} {cs : List Char}

theorem readField_padded (hn : n < 100) (cs : List Char) :
    readField 2 (padded 2 n ++ cs) = some (n, cs) := by
  have hread : decimal? (padded 2 n) = some n := decimal?_padded_of_lt (by decide) hn
  rw [readField, trimLeft_append (padded_ne_nil (by decide) n) fun _ => isDigit_of_mem_padded]
  exact readNumber_append (fun _ => isDigit_of_mem_padded) hread (by simp) (.inl (by simp))

theorem readNext_padded {c : Char} (hc : isBlank c = false) (hn : n < 100) (cs : List Char) :
    readNext c (c :: (padded 2 n ++ cs)) = some (n, cs) := by
  rw [readNext, trimLeft_eq_self_of_head hc, readChar_cons]
  exact readField_padded hn cs

/-! ## Dates -/

theorem digits_of_year (k : Nat) :
    (∀ c ∈ if k ≤ 9999 then padded 4 k else Nat.toDigits 10 k, c.isDigit = true) ∧
      decimal? (if k ≤ 9999 then padded 4 k else Nat.toDigits 10 k) = some k := by
  split
  · next hk => exact ⟨fun _ => isDigit_of_mem_padded,
      decimal?_padded_of_lt (by decide) (Nat.lt_succ_of_le hk)⟩
  · exact ⟨fun _ => isDigit_of_mem_toDigits, decimal?_toDigits k⟩

/-- A year is read back before a hyphen. -/
theorem readYear_yearText (year : Int) (cs : List Char) :
    readYear (Date.yearText year ++ '-' :: cs) = some (year, '-' :: cs) := by
  have hends : EndsDigits ('-' :: cs) := endsDigits_cons (by decide) cs
  obtain ⟨hdigits, hread⟩ := digits_of_year year.natAbs
  rw [Date.yearText]
  split
  · next hyear =>
    have hfour : year.toNat = year.natAbs := by omega
    rw [if_pos (by omega)] at hdigits hread
    rw [hfour, readYear, trimLeft_append (padded_ne_nil (by decide) _) hdigits]
    obtain ⟨d, ds, hds⟩ := List.exists_cons_of_length_pos (l := padded 4 year.natAbs) (by simp)
    have hd := hdigits d (hds ▸ List.mem_cons_self ..)
    have hnumber : readNumber 4 (padded 4 year.natAbs ++ '-' :: cs) =
        some (year.natAbs, '-' :: cs) :=
      readNumber_append hdigits hread (by simp) (.inr hends)
    rw [hds, List.cons_append] at hnumber ⊢
    split
    · next heq =>
      cases heq
      cases hd
    · next heq =>
      cases heq
      cases hd
    · simp only [hnumber, Option.map_some, Int.natAbs_of_nonneg hyear.1]
  · generalize (if year.natAbs ≤ 9999 then padded 4 year.natAbs
      else Nat.toDigits 10 year.natAbs) = ds at *
    have hnumber : readNumber (ds ++ '-' :: cs).length (ds ++ '-' :: cs) =
        some (year.natAbs, '-' :: cs) :=
      readNumber_append hdigits hread (by simp) (.inr hends)
    split
    · next hneg =>
      rw [List.cons_append, readYear, trimLeft_eq_self_of_head (by decide)]
      simp only [hnumber, Option.map_some, Int.ofNat_natAbs_of_nonpos (Int.le_of_lt hneg),
        Int.neg_neg]
    · next hpos =>
      rw [List.cons_append, readYear, trimLeft_eq_self_of_head (by decide)]
      simp only [hnumber, Option.map_some, Int.natAbs_of_nonneg (Int.not_lt.1 hpos)]

/-- A date is read back before other text that is no digit. -/
theorem readDate_hyphenText {d : Date} (hd : d.Valid) (cs : List Char) :
    readDate (d.hyphenText ++ cs) = some (d, cs) := by
  obtain ⟨-, hm, -, hday⟩ := hd
  have hdays := Date.daysInMonth_le d.year d.month
  have hmonth := readNext_padded (c := '-') (by decide) (n := d.month) (by omega)
  have hday := readNext_padded (c := '-') (by decide) (n := d.day) (by omega)
  simp only [readDate, Date.hyphenText, List.append_assoc, List.cons_append, readYear_yearText,
    hmonth, hday, Option.bind_eq_bind, Option.bind_some]
  rfl

/-! ## Times -/

/-- Digits of a fraction are read as nanoseconds. -/
theorem fractionValue_padded {w n : Nat} (hw : w ≠ 0) (hw' : w ≤ 9) (hn : n < Nat.pow 10 w) :
    fractionValue (padded w n) = some (Nat.pow 10 (9 - w) * n) := by
  have hdigits : ∀ c ∈ padded w n ++ List.replicate (9 - w) '0', c.isDigit = true := by
    intro c hc
    rcases List.mem_append.1 hc with hc | hc
    · exact isDigit_of_mem_padded hc
    · rw [List.eq_of_mem_replicate hc]
      rfl
  have hvalue := decimal?_padded_of_lt hw hn
  have hne := padded_ne_nil hw n
  rw [decimal?_of_isDigit hne fun _ => isDigit_of_mem_padded, Option.some.injEq] at hvalue
  have htake : (padded w n ++ List.replicate 9 '0').take 9 =
      padded w n ++ List.replicate (9 - w) '0' := by
    rw [List.take_append, List.take_of_length_le (by simpa using hw'), length_padded,
      List.take_replicate, Nat.min_eq_left (by omega)]
  rw [fractionValue, htake, decimal?_of_isDigit (by simp [hne]) hdigits, Nat.ofDigitChars_append,
    hvalue, Nat.ofDigitChars_replicate_zero]
  rfl

/-- A fraction is read back before the offset. -/
theorem readFraction_fractionText {n : Nat} (hn : n < 1000000000) (cs : List Char) :
    readFraction (fractionText n ++ 'Z' :: cs) = some (n, 'Z' :: cs) := by
  have hgroups : ∀ {w m : Nat}, w ≠ 0 → w ≤ 9 → m < Nat.pow 10 w → Nat.pow 10 (9 - w) * m = n →
      readFraction ('.' :: padded w m ++ 'Z' :: cs) = some (n, 'Z' :: cs) := by
    intro w m hw hw' hm hvalue
    have hne := padded_ne_nil hw m
    have hdigits : (padded w m ++ 'Z' :: cs).takeWhile Char.isDigit = padded w m :=
      takeWhile_append (fun _ => isDigit_of_mem_padded) (endsDigits_cons (by decide) cs)
    rw [List.cons_append, readFraction]
    simp only [hdigits]
    rw [if_neg (by simpa using hne), fractionValue_padded hw hw' hm, Option.map_some, hvalue,
      List.drop_left]
  rw [fractionText]
  split
  · next hzero =>
    rw [hzero]
    rfl
  · split
    · refine hgroups (w := 3) (by decide) (by decide) (by simp; omega) ?_
      change 1000000 * (n / 1000000) = n
      omega
    · split
      · refine hgroups (w := 6) (by decide) (by decide) (by simp; omega) ?_
        change 1000 * (n / 1000) = n
        omega
      · exact hgroups (w := 9) (by decide) (by decide) hn (Nat.one_mul n)

/-- The time of day of an instant, as it is written. -/
def timeOfDay (t : Instant) : TimeOfDay :=
  ⟨t.secondOfDay / 3600, t.secondOfDay / 60 % 60, t.writtenSecond, t.nanos % 1000000000⟩

/-- Only a leap second is written as second 60. -/
theorem writtenSecond_cases (t : Instant) :
    (t.nanos < 1000000000 ∧ t.writtenSecond = t.secondOfDay % 60) ∨
      (1000000000 ≤ t.nanos ∧ t.secondOfDay % 60 = 59 ∧ t.writtenSecond = 60) := by
  have hnanos := t.nanos_lt
  simp only [writtenSecond, secondOfDay]
  omega

/-- A time of day is read back before the offset. -/
theorem readTime_localText (t : Instant) (cs : List Char) :
    readTime (padded 2 (t.secondOfDay / 3600) ++ ':' :: (padded 2 (t.secondOfDay / 60 % 60) ++
      ':' :: (padded 2 t.writtenSecond ++ (fractionText (t.nanos % 1000000000) ++ 'Z' :: cs)))) =
      some (t.timeOfDay, 'Z' :: cs) := by
  have hday := t.secondOfDay_lt
  have hsecond : t.writtenSecond < 100 := by
    rcases t.writtenSecond_cases with ⟨-, h⟩ | ⟨-, -, h⟩ <;> omega
  simp only [readTime, readField_padded (n := t.secondOfDay / 3600) (by omega),
    readNext_padded (c := ':') (by decide) (n := t.secondOfDay / 60 % 60) (by omega),
    readNext_padded (c := ':') (by decide) hsecond,
    readFraction_fractionText (n := t.nanos % 1000000000) (by omega), Option.bind_eq_bind,
    Option.bind_some]
  rfl

/-! ## Instants -/

theorem ofParts?_self (t : Instant) : ofParts? t.seconds t.nanos = some t :=
  dif_pos ⟨t.seconds_ge, t.seconds_le, t.nanos_lt⟩

/-- An instant is the one at its date and time. -/
theorem ofLocal?_date (t : Instant) : ofLocal? t.date t.timeOfDay 0 = some t := by
  have hge := t.seconds_ge
  have hle := t.seconds_le
  have hday := t.secondOfDay_lt
  have hwritten := t.writtenSecond_cases
  have hnanos := t.nanos_lt
  have hnumber : t.date.dayNumber = t.day := Date.dayNumber_ofDayNumber t.day
  have hvalid : t.date.Valid := Date.valid_ofDayNumber t.day
  obtain ⟨hfirst, hlast⟩ := Date.year_bounds hvalid
    (by rw [hnumber, day]; omega) (by rw [hnumber, day]; omega)
  have hbounds : t.timeOfDay.hour < 24 ∧ t.timeOfDay.minute < 60 ∧ t.timeOfDay.second ≤ 60 := by
    simp only [timeOfDay]
    omega
  have hseconds : t.date.dayNumber * 86400 + (t.timeOfDay.hour * 3600 +
      t.timeOfDay.minute * 60 + min t.timeOfDay.second 59 : Nat) - 0 = t.seconds := by
    have hsplit : t.day * 86400 + t.secondOfDay = t.seconds := by
      simp only [day, secondOfDay]
      omega
    rw [hnumber, ← hsplit]
    simp only [timeOfDay]
    omega
  have hfraction : t.timeOfDay.nanos + (if t.timeOfDay.second = 60 then 1000000000 else 0) =
      t.nanos := by
    have hsecond : t.timeOfDay.second = t.writtenSecond := rfl
    have hrest : t.timeOfDay.nanos = t.nanos % 1000000000 := rfl
    by_cases hleap : t.timeOfDay.second = 60
    · rw [if_pos hleap]
      omega
    · rw [if_neg hleap]
      omega
  rw [ofLocal?, if_pos ⟨hfirst, hlast, hvalid, hbounds.1, hbounds.2.1, hbounds.2.2,
    by decide, by decide⟩, hseconds, hfraction]
  exact t.ofParts?_self

@[simp] theorem ofText?_toText (t : Instant) : ofText? t.toText = some t := by
  have hvalid : t.date.Valid := Date.valid_ofDayNumber t.day
  have hoffset : readOffset ['Z'] = some (0, []) := rfl
  have hnothing : trimLeft [] = [] := rfl
  simp only [ofText?, toText, localText, String.toList_ofList, List.append_assoc,
    List.cons_append, readDate_hyphenText hvalid, readTime_localText, hoffset,
    Option.bind_eq_bind, Option.bind_some, hnothing, if_true]
  exact t.ofLocal?_date

/-! ## Characters -/

/-- The character is one that instants are written with. -/
def Stamps (c : Char) : Prop := c.isDigit = true ∨ c ∈ "-+T:.Z".toList

theorem stamps_of_mem_padded {w n : Nat} {c : Char} (h : c ∈ padded w n) : Stamps c :=
  .inl (isDigit_of_mem_padded h)

theorem stamps_yearText (year : Int) : ∀ c ∈ Date.yearText year, Stamps c := by
  have hdigits := (digits_of_year year.natAbs).1
  unfold Date.yearText
  split
  · exact fun c => stamps_of_mem_padded
  · rw [List.forall_mem_cons]
    constructor
    · right
      split <;> decide
    · exact fun c hc => .inl (hdigits c hc)

theorem stamps_fractionText (nanos : Nat) : ∀ c ∈ fractionText nanos, Stamps c := by
  have hpoint : Stamps '.' := .inr (by decide)
  unfold fractionText
  split
  · exact nofun
  · split
    · exact List.forall_mem_cons.2 ⟨hpoint, fun c => stamps_of_mem_padded⟩
    · split <;> exact List.forall_mem_cons.2 ⟨hpoint, fun c => stamps_of_mem_padded⟩

/-- A date and a time are numbers with marks between them. -/
theorem stamps_localText (t : Instant) : ∀ c ∈ t.localText, Stamps c := by
  have hnumber : ∀ w n, ∀ c ∈ padded w n, Stamps c := fun w n c => stamps_of_mem_padded
  have hhyphen : Stamps '-' := .inr (by decide)
  have hcolon : Stamps ':' := .inr (by decide)
  have ht : Stamps 'T' := .inr (by decide)
  simp only [localText, Date.hyphenText, List.forall_mem_append, List.forall_mem_cons, hhyphen,
    hcolon, ht, true_and, and_assoc]
  exact ⟨stamps_yearText _, hnumber 2 _, hnumber 2 _, hnumber 2 _, hnumber 2 _, hnumber 2 _,
    stamps_fractionText _⟩

/-- So is an instant with its offset. -/
theorem stamps_toOffsetText (t : Instant) : ∀ c ∈ t.toOffsetText.toList, Stamps c := by
  have hoffset : ∀ c ∈ "+00:00".toList, Stamps c := by
    intro c hc
    have hcases : c = '+' ∨ c = '0' ∨ c = ':' ∨ c = '0' := by simpa using hc
    rcases hcases with rfl | rfl | rfl | rfl
    · exact .inr (by decide)
    · exact .inl rfl
    · exact .inr (by decide)
    · exact .inl rfl
  rw [toOffsetText, String.toList_ofList, List.forall_mem_append]
  exact ⟨stamps_localText t, hoffset⟩

end Instant
end Fulfilment
