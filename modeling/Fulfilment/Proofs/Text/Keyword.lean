import Fulfilment.Text.Blank
import Fulfilment.Text.Keyword
import Mathlib.Data.List.Infix

/-!
# Words in composed texts

A word has no blanks. So it is found in a text that is put together around a blank exactly if it is
found in one of the parts (`Text.mentions_append_blank`), and trimming a text hides none of its
words (`Text.mentions_trim`). Lower-casing turns no other character into a blank.
-/
namespace Fulfilment

/-! ## Runs of characters -/

section Runs

variable {α : Type} {word cs : List α} {c : α}

/-- A run goes past a member that it does not have. -/
theorem infix_cons_of_notMem (hne : word ≠ []) (hc : c ∉ word) :
    word <:+: c :: cs ↔ word <:+: cs := by
  rw [List.infix_cons_iff, or_iff_right]
  intro hprefix
  cases word with
  | nil => exact hne rfl
  | cons d ds =>
    obtain ⟨rfl, -⟩ := List.cons_prefix_cons.1 hprefix
    exact hc List.mem_cons_self

/-- A run goes past whatever passes, if none of its own members does. -/
theorem infix_dropWhile {p : α → Bool} (hne : word ≠ []) (h : ∀ c ∈ word, p c = false) :
    word <:+: cs.dropWhile p ↔ word <:+: cs := by
  induction cs with
  | nil => rfl
  | cons c cs ih =>
    by_cases hp : p c = true
    · have hc : c ∉ word := fun hmem => by simp [h c hmem] at hp
      rw [List.dropWhile_cons_of_pos hp, ih, infix_cons_of_notMem hne hc]
    · rw [List.dropWhile_cons_of_neg hp]

/-- A run stands on one side of a member that it does not have. -/
theorem infix_append_cons_of_notMem {ds : List α} (hne : word ≠ []) (hc : c ∉ word) :
    word <:+: cs ++ c :: ds ↔ word <:+: cs ∨ word <:+: ds := by
  rw [List.infix_append_iff, infix_cons_of_notMem hne hc, ← or_assoc, or_iff_left_of_imp]
  rintro ⟨front, back, rfl, hfront, hback⟩
  cases back with
  | nil => exact .inl (by simpa using hfront.isInfix)
  | cons d back =>
    obtain ⟨rfl, -⟩ := List.cons_prefix_cons.1 hback
    simp at hc

end Runs

namespace Text

/-! ## Words -/

/-- The text is not empty and has no blanks. -/
structure IsWord (word : String) : Prop where
  ne_nil : word.toList ≠ []
  unbroken : ∀ c ∈ word.toList, isBlank c = false

instance (word : String) : Decidable (IsWord word) :=
  decidable_of_iff (word.toList ≠ [] ∧ word.toList.any isBlank = false)
    ⟨fun h => ⟨h.1, by simpa using h.2⟩, fun h => ⟨h.1, by simpa using h.2⟩⟩

theorem isBlank_of_letter {c : Char} (hlow : 65 ≤ c.toNat) (hhigh : c.toNat ≤ 122) :
    isBlank c = false := by
  simp [isBlank]
  omega

theorem isBlank_fold (c : Char) : isBlank (fold c) = isBlank c := by
  unfold fold lowerAscii
  split
  · next hc =>
    subst hc
    decide
  · split
    · next hc =>
      have hlow : 65 ≤ c.toNat := hc.1
      have hhigh : c.toNat ≤ 90 := hc.2
      have hlower : (Char.ofNat (c.toNat + 32)).toNat = c.toNat + 32 := by
        rw [Char.ofNat, dif_pos (.inl (by omega))]
        rfl
      rw [isBlank_of_letter hlow (by omega), isBlank_of_letter (by omega) (by omega)]
    · rfl

theorem fold_of_isDigit {c : Char} (h : c.isDigit = true) : fold c = c := by
  simp only [Char.isDigit, Bool.and_eq_true, decide_eq_true_eq] at h
  have hhigh : c.toNat ≤ 57 := h.2
  have hcapital : ¬ ('A' ≤ c ∧ c ≤ 'Z') := by
    intro hc
    have hlow : 65 ≤ c.toNat := hc.1
    omega
  have hkelvin : c ≠ '\u212A' := by
    rintro rfl
    revert hhigh
    decide
  rw [fold, if_neg hkelvin, lowerAscii, if_neg hcapital]

variable {word : String}

/-- A word of a text that is put together around a blank is a word of one of its parts. -/
theorem mentions_append_blank (h : IsWord word) (a b : String) :
    mentions (a ++ " " ++ b) word = (mentions a word || mentions b word) := by
  have hblank : fold ' ' ∉ word.toList := fun hmem => by
    have := h.unbroken _ hmem
    revert this
    decide
  rw [Bool.eq_iff_iff, Bool.or_eq_true, mentions_iff, mentions_iff, mentions_iff]
  simpa using infix_append_cons_of_notMem h.ne_nil hblank

theorem mentions_trim (h : IsWord word) (text : String) :
    mentions (trim text) word = mentions text word := by
  have left : ∀ {w cs : List Char}, w ≠ [] → (∀ c ∈ w, isBlank c = false) →
      (w <:+: (trimLeft cs).map fold ↔ w <:+: cs.map fold) := by
    intro w cs hne hw
    have hfold : isBlank ∘ fold = isBlank := funext isBlank_fold
    have hmap := List.dropWhile_map (f := fold) (p := isBlank) (l := cs)
    rw [hfold] at hmap
    rw [trimLeft, ← hmap, infix_dropWhile hne hw]
  rw [Bool.eq_iff_iff, mentions_iff, mentions_iff, trim, String.toList_ofList, trimChars,
    List.map_reverse, ← List.reverse_infix, List.reverse_reverse,
    left (by simpa using h.ne_nil) (by simpa using h.unbroken), List.map_reverse,
    List.reverse_infix, left h.ne_nil h.unbroken]

/-- A text without one of the characters of a word does not have the word. -/
theorem mentions_of_notMem {text : String} {c : Char} (hc : c ∈ word.toList)
    (h : c ∉ text.toList.map fold) : mentions text word = false := by
  rw [Bool.eq_false_iff]
  exact fun hmentions => h ((mentions_iff.1 hmentions).subset hc)

end Text
end Fulfilment
