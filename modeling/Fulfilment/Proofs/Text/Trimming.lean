import Fulfilment.Text.Blank
import Mathlib.Data.List.DropRight

/-!
# What trimming finds

Trimming takes blanks off both ends and stops at the first character that is none. So it finds a
text that has no blanks at its ends, whatever blanks stand around it, and it finds nothing else
(`trimChars_eq_iff`).
-/
namespace Fulfilment.Text

variable {cs inner outer : List Char}

/-- The text has no blank at either end. -/
structure IsTrimmed (cs : List Char) : Prop where
  front : ∀ c, cs.head? = some c → isBlank c = false
  back : ∀ c, cs.getLast? = some c → isBlank c = false

/-- The outer text is the inner one with blanks around it, or without. -/
def Padded (inner outer : List Char) : Prop :=
  ∃ before after, outer = before ++ inner ++ after ∧ (∀ c ∈ before, isBlank c = true) ∧
    ∀ c ∈ after, isBlank c = true

theorem isTrimmed_of_forall (h : ∀ c ∈ cs, isBlank c = false) : IsTrimmed cs where
  front c hc := h c (List.mem_of_head? hc)
  back c hc := h c (List.mem_of_getLast? hc)

/-- What an outer text has beyond the inner one is blank. -/
theorem Padded.mem_iff (h : Padded inner outer) {c : Char} (hc : isBlank c = false) :
    c ∈ outer ↔ c ∈ inner := by
  obtain ⟨before, after, rfl, hbefore, hafter⟩ := h
  have hfront : c ∉ before := fun hmem => by simp [hbefore c hmem] at hc
  have hback : c ∉ after := fun hmem => by simp [hafter c hmem] at hc
  simp [hfront, hback]

theorem isBlank_of_head?_trimLeft {c : Char} (h : (trimLeft cs).head? = some c) :
    isBlank c = false := by
  have hhead := List.head?_dropWhile_not isBlank cs
  rw [trimLeft] at h
  rwa [h] at hhead

/-- What is left after trimming has no blank at either end. -/
theorem isTrimmed_trimChars (cs : List Char) : IsTrimmed (trimChars cs) where
  front c hc := by
    obtain ⟨rest, hrest⟩ := List.rdropWhile_prefix isBlank (trimLeft cs)
    have hfront : trimChars cs ++ rest = trimLeft cs := hrest
    have hhead : (trimLeft cs).head? = some c := by
      rw [← hfront, List.head?_append, hc, Option.some_or]
    exact isBlank_of_head?_trimLeft hhead
  back c hc := by
    rw [trimChars, List.getLast?_reverse] at hc
    exact isBlank_of_head?_trimLeft hc

/-- What trimming takes away is blank. -/
theorem padded_trimChars (cs : List Char) : Padded (trimChars cs) cs := by
  refine ⟨cs.takeWhile isBlank, (trimLeft cs).rtakeWhile isBlank, ?_,
    fun c hc => List.mem_takeWhile_imp hc, fun c hc => List.mem_rtakeWhile_imp hc⟩
  calc cs = cs.takeWhile isBlank ++ trimLeft cs := List.takeWhile_append_dropWhile.symm
    _ = cs.takeWhile isBlank ++ (trimChars cs ++ (trimLeft cs).rtakeWhile isBlank) :=
        congrArg _ (List.rdropWhile_append_rtakeWhile).symm
    _ = _ := (List.append_assoc ..).symm

theorem trimLeft_eq_self (h : ∀ c, cs.head? = some c → isBlank c = false) : trimLeft cs = cs := by
  cases cs with
  | nil => rfl
  | cons c cs => exact trimLeft_eq_self_of_head (h c rfl)

theorem trimLeft_append_of_forall {before : List Char} (h : ∀ c ∈ before, isBlank c = true) :
    trimLeft (before ++ cs) = trimLeft cs :=
  List.dropWhile_append_of_pos h

/-- A trimmed text is found between blanks. -/
theorem IsTrimmed.trimChars_eq (h : IsTrimmed inner) (hpad : Padded inner outer) :
    trimChars outer = inner := by
  obtain ⟨before, after, rfl, hbefore, hafter⟩ := hpad
  rw [trimChars, List.append_assoc, trimLeft_append_of_forall hbefore]
  cases inner with
  | nil =>
    have hnothing : trimLeft after = [] := List.dropWhile_eq_nil_iff.2 hafter
    rw [List.nil_append, hnothing]
    rfl
  | cons c cs =>
    have hback : trimLeft (c :: cs).reverse = (c :: cs).reverse :=
      trimLeft_eq_self fun d hd => h.back d (by rwa [List.head?_reverse] at hd)
    rw [List.cons_append, trimLeft_eq_self_of_head (h.front c rfl), ← List.cons_append,
      List.reverse_append, trimLeft_append_of_forall (by simpa using hafter), hback,
      List.reverse_reverse]

/-- Trimming finds what stands between blanks and has none at its ends. -/
theorem trimChars_eq_iff : trimChars outer = inner ↔ IsTrimmed inner ∧ Padded inner outer := by
  constructor
  · rintro rfl
    exact ⟨isTrimmed_trimChars outer, padded_trimChars outer⟩
  · rintro ⟨htrimmed, hpad⟩
    exact htrimmed.trimChars_eq hpad

theorem isTrimmed_iff : IsTrimmed cs ↔ trimChars cs = cs := by
  rw [trimChars_eq_iff, and_iff_left]
  exact ⟨[], [], by simp⟩

end Fulfilment.Text
