import Fulfilment.Json.Value
import Fulfilment.Text.Numeral

/-!
# Writing JSON

Documents are written without blanks. In strings the quote, the backslash and the control
characters are escaped, those with a short escape by it and the others by four hexadecimal digits;
every other character stands for itself.
-/
namespace Fulfilment
namespace Json

/-- A character inside a string. -/
def escape (c : Char) : List Char :=
  if c = '"' then ['\\', '"']
  else if c = '\\' then ['\\', '\\']
  else if c = '\n' then ['\\', 'n']
  else if c = '\r' then ['\\', 'r']
  else if c = '\t' then ['\\', 't']
  else if c = '\x08' then ['\\', 'b']
  else if c = '\x0c' then ['\\', 'f']
  else if c.toNat < 32 then '\\' :: 'u' :: Numeral.hex 4 c.toNat
  else [c]

/-- A string between quotes. One that is not text is written as a lone surrogate. -/
def renderString : Option String → List Char
  | some s => '"' :: s.toList.flatMap escape ++ ['"']
  | none => "\"\\ud800\"".toList

def renderInt (i : Int) : List Char :=
  if i < 0 then '-' :: Nat.toDigits 10 i.natAbs else Nat.toDigits 10 i.natAbs

/-- A number as a document writes it. -/
def renderNumber : Number → List Char
  | .integer i => renderInt i
  | .decimal negative digits exponent =>
    (if negative then ['-'] else []) ++ Nat.toDigits 10 digits ++ 'e' :: renderInt exponent

mutual

/-- The characters of a document. -/
def render : Json → List Char
  | .null => "null".toList
  | .bool true => "true".toList
  | .bool false => "false".toList
  | .number n => renderNumber n
  | .string s => renderString s
  | .array [] => "[]".toList
  | .array (e :: es) => '[' :: render e ++ renderElements es
  | .object [] => ['\x7b', '\x7d']
  | .object ((k, v) :: ms) => '\x7b' :: renderString k ++ ':' :: render v ++ renderMembers ms

/-- The elements after the first, and the closing bracket. -/
def renderElements : List Json → List Char
  | [] => [']']
  | e :: es => ',' :: render e ++ renderElements es

/-- The members after the first, and the closing brace. -/
def renderMembers : List (Option String × Json) → List Char
  | [] => ['\x7d']
  | (k, v) :: ms => ',' :: renderString k ++ ':' :: render v ++ renderMembers ms

end

def toText (j : Json) : String := String.ofList (render j)

end Json
end Fulfilment
