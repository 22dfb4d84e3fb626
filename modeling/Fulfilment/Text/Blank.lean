/-!
# Blank characters

The characters with the Unicode property `White_Space`, and text without them at its ends.
-/
namespace Fulfilment.Text

/-- A character with the Unicode property `White_Space`. -/
def isBlank (c : Char) : Bool :=
  let n := c.toNat
  (9 ≤ n && n ≤ 13) || n == 0x20 || n == 0x85 || n == 0xA0 || n == 0x1680 ||
    (0x2000 ≤ n && n ≤ 0x200A) || n == 0x2028 || n == 0x2029 || n == 0x202F || n == 0x205F ||
    n == 0x3000

/-- The characters that follow leading blanks. -/
def trimLeft (cs : List Char) : List Char :=
  cs.dropWhile isBlank

/-- The characters between leading and trailing blanks. -/
def trimChars (cs : List Char) : List Char :=
  (trimLeft (trimLeft cs).reverse).reverse

/-- The text between leading and trailing blanks. -/
def trim (s : String) : String :=
  String.ofList (trimChars s.toList)

theorem isBlank_of_isDigit {c : Char} (h : c.isDigit = true) : isBlank c = false := by
  simp only [Char.isDigit, Bool.and_eq_true, decide_eq_true_eq] at h
  have hlow : 48 ≤ c.toNat := h.1
  have hhigh : c.toNat ≤ 57 := h.2
  simp [isBlank]
  omega

/-- Text that does not start with a blank stays as it is. -/
theorem trimLeft_eq_self_of_head {c : Char} {cs : List Char} (h : isBlank c = false) :
    trimLeft (c :: cs) = c :: cs := by
  simp [trimLeft, h]

example : trim "\u3000 found it cheaper\u0085" = "found it cheaper" := by decide +kernel
example : trim "\u200bx" = "\u200bx" := by decide +kernel

end Fulfilment.Text
