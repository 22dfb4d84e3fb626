/-!
# Words in any case

Two comparisons that ignore case: of names over the ASCII letters alone (`sameName`), and of
keywords inside free text under Unicode lower-casing (`mentions`).
-/
namespace Fulfilment.Text

/-- The lower-case letter of an ASCII capital, any other character unchanged. -/
def lowerAscii (c : Char) : Char :=
  if 'A' ≤ c ∧ c ≤ 'Z' then Char.ofNat (c.toNat + 32) else c

/-- The same name up to the case of ASCII letters. -/
def sameName (a b : String) : Bool :=
  a.toList.map lowerAscii == b.toList.map lowerAscii

/--
The lower-case form of a character as far as a search for ASCII letters can tell.

Besides the ASCII capitals only the Kelvin sign has an ASCII letter as its lower case. A dotted
capital I becomes `i` followed by a combining dot, and every other character becomes characters
outside ASCII, so leaving them alone changes no search for a word in which no `i` comes last.
-/
def fold (c : Char) : Char :=
  if c = '\u212A' then 'k' else lowerAscii c

/-- The characters of `word` stand next to each other somewhere in the text. -/
def containsRun (word : List Char) : List Char → Bool
  | [] => word.isEmpty
  | c :: cs => word.isPrefixOf (c :: cs) || containsRun word cs

/-- A run of characters is found exactly where it is an infix. -/
theorem containsRun_iff {word cs : List Char} : containsRun word cs = true ↔ word <:+: cs := by
  induction cs with
  | nil => simp [containsRun]
  | cons c cs ih => simp [containsRun, ih, List.infix_cons_iff]

/-- The text contains the word, which is given in lower-case ASCII letters, in any case. -/
def mentions (text word : String) : Bool :=
  containsRun word.toList (text.toList.map fold)

/-- A word is mentioned exactly if the folded text has its characters in a row. -/
theorem mentions_iff {text word : String} :
    mentions text word = true ↔ word.toList <:+: text.toList.map fold :=
  containsRun_iff

theorem mentions_append_left {a word : String} (b : String) (h : mentions a word = true) :
    mentions (a ++ b) word = true := by
  rw [mentions_iff] at h ⊢
  rw [String.toList_append, List.map_append]
  exact h.trans (List.infix_append' [] _ _)

example : mentions "STOC\u212A" "stock" = true := by decide +kernel
example : mentions "T\u0130MEOUT" "timeout" = false := by decide +kernel

end Fulfilment.Text
