import Fulfilment.Proofs.Text.Numeral
import Fulfilment.Uuid

/-!
# Reading identifiers back

An identifier is written in one of the four forms that the reader takes, in groups with hyphens.
Its first character is a digit, so it is not in braces, and a hyphen stands where the `urn` form
has a colon. What is left is to take the hyphens out and to read 32 digits
(`unhyphenate?_hyphenate`).
-/
namespace Fulfilment
namespace Uuid

open Numeral

theorem unhyphenate?_hyphenate {ns : List Nat} {cs : List Char}
    (h : ns.foldr (· + ·) 0 ≤ cs.length) : unhyphenate? ns (hyphenate ns cs) = some cs := by
  induction ns generalizing cs with
  | nil => rfl
  | cons n ns ih =>
    rw [List.foldr_cons] at h
    have hlength : (cs.take n).length = n := by rw [List.length_take]; omega
    have hrest : ns.foldr (· + ·) 0 ≤ (cs.drop n).length := by rw [List.length_drop]; omega
    simp only [hyphenate, unhyphenate?, List.drop_left' hlength, List.take_left' hlength]
    rw [ih hrest, Option.map_some, List.take_append_drop]

/-- Each group but the last adds a hyphen. -/
theorem length_hyphenate {ns : List Nat} {cs : List Char} (h : ns.foldr (· + ·) 0 ≤ cs.length) :
    (hyphenate ns cs).length = cs.length + ns.length := by
  induction ns generalizing cs with
  | nil => rfl
  | cons n ns ih =>
    rw [List.foldr_cons] at h
    have hrest : ns.foldr (· + ·) 0 ≤ (cs.drop n).length := by rw [List.length_drop]; omega
    rw [hyphenate, List.length_append, List.length_take, List.length_cons, ih hrest,
      List.length_drop, List.length_cons]
    omega

/-- The digits of an identifier are enough for its groups. -/
theorem foldr_groups_le (u : Uuid) : groups.foldr (· + ·) 0 ≤ (hex 32 u.value).length := by
  rw [length_hex]
  decide

theorem ofHex?_hex (u : Uuid) : ofHex? (hex 32 u.value) = some u := by
  have hlow : u.value % Nat.pow 16 32 = u.value := Nat.mod_eq_of_lt u.value_lt
  rw [ofHex?, if_pos (length_hex 32 u.value), mapM_hexValue?_hex, Option.map_some,
    ofDigits_reverse, ofLowDigits_lowDigits, hlow]
  exact congrArg some (value_inj (Nat.mod_eq_of_lt u.value_lt))

theorem ofGroups?_chars (u : Uuid) : ofGroups? u.chars = some u := by
  rw [ofGroups?, chars, unhyphenate?_hyphenate u.foldr_groups_le]
  exact ofHex?_hex u

/-- An identifier starts with a digit, and its ninth character is a hyphen. -/
theorem exists_chars (u : Uuid) :
    ∃ c cs, u.chars = c :: cs ∧ c ≠ '\x7b' ∧ cs[7]? = some '-' := by
  obtain ⟨c, cs, hcs⟩ := List.exists_cons_of_length_pos (l := hex 32 u.value) (by simp)
  have hc : c ≠ '\x7b' := by
    have hmem : c ∈ hex 32 u.value := hcs ▸ List.mem_cons_self ..
    obtain ⟨d, hd, rfl⟩ := List.mem_map.1 hmem
    have hlt := lt_of_mem_lowDigits (by decide) (List.mem_reverse.1 hd)
    exact (by decide : ∀ d < 16, lowerChar d ≠ '\x7b') d hlt
  have hlength : (cs.take 7).length = 7 := by
    have := length_hex 32 u.value
    rw [hcs, List.length_cons] at this
    rw [List.length_take]
    omega
  refine ⟨c, cs.take 7 ++ '-' :: hyphenate [4, 4, 4] (cs.drop 7), ?_, hc, ?_⟩
  · rw [chars, hcs]
    rfl
  · rw [List.getElem?_append_right (by omega), hlength]
    rfl

@[simp] theorem ofText?_toText (u : Uuid) : ofText? u.toText = some u := by
  obtain ⟨c, cs, hchars, hbrace, hhyphen⟩ := u.exists_chars
  have hurn : (u.chars.take 9).map Char.toLower ≠ "urn:uuid:".toList := by
    intro heq
    have hninth := congrArg (fun cs : List Char => cs[8]?) heq
    simp [hchars, hhyphen] at hninth
  have hlength : u.chars.length = 36 := by
    rw [chars, length_hyphenate u.foldr_groups_le, length_hex]
    rfl
  simp only [ofText?, toText, String.toList_ofList]
  split
  · next heq =>
    rw [hchars] at heq
    exact absurd (List.cons.inj heq).1 hbrace
  · rw [if_neg hurn, if_neg (by rw [hlength]; decide), ofGroups?_chars]

end Uuid
end Fulfilment
