import Fulfilment.Json.Value
import Fulfilment.Text.Numeral

/-!
# Reading JSON

The reader takes exactly the documents of the JSON grammar, with blanks (space, tab, line feed,
carriage return) around each part and nothing else after the value. It reads glyphs: the characters
of a text, where `none` stands for a byte that is not part of any character.
-/
namespace Fulfilment
namespace Json

/-- A character, or a byte that belongs to none. -/
abbrev Glyph := Option Char

/-- What follows leading blanks. -/
def skipBlanks : List Glyph → List Glyph
  | some ' ' :: gs | some '\t' :: gs | some '\n' :: gs | some '\r' :: gs => skipBlanks gs
  | gs => gs

/-! ## Strings -/

/-- What a string is written with: a character, a code unit escaped in hexadecimal digits, or a
byte that belongs to no character. -/
inductive Piece where
  | char (c : Char)
  | unit (n : Nat)
  | stray

/-- The character of a short escape. -/
def shortEscape? : Char → Option Char
  | '"' => some '"'
  | '\\' => some '\\'
  | '/' => some '/'
  | 'b' => some '\x08'
  | 'f' => some '\x0c'
  | 'n' => some '\n'
  | 'r' => some '\r'
  | 't' => some '\t'
  | _ => none

/-- The code unit of four hexadecimal digits. -/
def unit? (a b c d : Glyph) : Option Nat := do
  let ds ← [← a, ← b, ← c, ← d].mapM Numeral.hexValue?
  return Numeral.ofDigits 16 ds

/-- Reads the pieces of a string up to the closing quote. Control characters must be escaped. -/
def readPieces : List Glyph → Option (List Piece × List Glyph)
  | [] => none
  | some '"' :: gs => some ([], gs)
  | some '\\' :: some 'u' :: a :: b :: c :: d :: gs => do
    let n ← unit? a b c d
    let (ps, rest) ← readPieces gs
    return (.unit n :: ps, rest)
  | some '\\' :: some e :: gs => do
    let c ← shortEscape? e
    let (ps, rest) ← readPieces gs
    return (.char c :: ps, rest)
  | some c :: gs =>
    if c = '\\' ∨ c.toNat < 32 then none
    else do
      let (ps, rest) ← readPieces gs
      return (.char c :: ps, rest)
  | none :: gs => do
    let (ps, rest) ← readPieces gs
    return (.stray :: ps, rest)

/-- The unit starts a pair that spells one character. -/
def isHighSurrogate (n : Nat) : Bool := 0xD800 ≤ n && n < 0xDC00

/-- The unit ends a pair that spells one character. -/
def isLowSurrogate (n : Nat) : Bool := 0xDC00 ≤ n && n < 0xE000

/-- The characters that pieces spell. A high surrogate must come right before a low one, and a low
one right after a high one. -/
def spell : List Piece → Option (List Char)
  | [] => some []
  | .char c :: ps => (spell ps).map (c :: ·)
  | .stray :: _ => none
  | .unit n :: .unit m :: ps =>
    if isHighSurrogate n then
      if isLowSurrogate m then
        (spell ps).map (Char.ofNat (0x10000 + (n - 0xD800) * 0x400 + (m - 0xDC00)) :: ·)
      else none
    else if isLowSurrogate n then none
    else (spell (.unit m :: ps)).map (Char.ofNat n :: ·)
  | .unit n :: ps =>
    if isHighSurrogate n || isLowSurrogate n then none
    else (spell ps).map (Char.ofNat n :: ·)

/-- Reads a string after its opening quote. -/
def readString (gs : List Glyph) : Option (Option String × List Glyph) :=
  (readPieces gs).map fun (ps, rest) => ((spell ps).map String.ofList, rest)

/-! ## Numbers -/

/-- Reads the longest run of digits, which may be empty. -/
def readDigits : List Glyph → List Char × List Glyph
  | some c :: gs =>
    if c.isDigit then
      let (ds, rest) := readDigits gs
      (c :: ds, rest)
    else ([], some c :: gs)
  | gs => ([], gs)

/-- Reads a nonempty run of digits. -/
def readSomeDigits (gs : List Glyph) : Option (List Char × List Glyph) :=
  let (ds, rest) := readDigits gs
  if ds.isEmpty then none else some (ds, rest)

/-- Reads the digits before the point; a zero comes alone. -/
def readWhole (gs : List Glyph) : Option (List Char × List Glyph) := do
  let (ds, rest) ← readSomeDigits gs
  if ds.head? = some '0' ∧ ds.length ≠ 1 then none else return (ds, rest)

/-- Reads a point and the digits after it, if there is one. -/
def readPoint : List Glyph → Option (Option (List Char) × List Glyph)
  | some '.' :: gs => (readSomeDigits gs).map fun (ds, rest) => (some ds, rest)
  | gs => some (none, gs)

/-- Reads an exponent, if there is one. -/
def readExponent : List Glyph → Option (Option Int × List Glyph)
  | some 'e' :: gs | some 'E' :: gs =>
    match gs with
    | some '-' :: gs => (readSomeDigits gs).map fun (ds, rest) => (some (-(value ds : Int)), rest)
    | some '+' :: gs => (readSomeDigits gs).map fun (ds, rest) => (some (value ds : Int), rest)
    | gs => (readSomeDigits gs).map fun (ds, rest) => (some (value ds : Int), rest)
  | gs => some (none, gs)
where
  value (ds : List Char) : Nat := (Numeral.decimal? ds).getD 0

/-- The number of a sign, the digits before and after the point, and an exponent. -/
def makeNumber (negative : Bool) (whole : List Char) (point : Option (List Char))
    (exponent : Option Int) : Number :=
  let n := (Numeral.decimal? (whole ++ point.getD [])).getD 0
  match point, exponent with
  | none, none =>
    if negative then (if n = 0 then .decimal true 0 0 else .integer (-n)) else .integer n
  | _, _ => .decimal negative n (exponent.getD 0 - (point.getD []).length)

/-- Reads a number after its sign. -/
def readUnsigned (negative : Bool) (gs : List Glyph) : Option (Json × List Glyph) := do
  let (whole, gs) ← readWhole gs
  let (point, gs) ← readPoint gs
  let (exponent, gs) ← readExponent gs
  return (.number (makeNumber negative whole point exponent), gs)

/-! ## Documents -/

/-- Reads the given characters. -/
def readWord : List Char → List Glyph → Option (List Glyph)
  | [], gs => some gs
  | c :: cs, some d :: gs => if c = d then readWord cs gs else none
  | _, _ => none

mutual

/-- Reads a document, in which fewer parts than `fuel` lie inside each other. -/
def readValue : Nat → List Glyph → Option (Json × List Glyph)
  | 0, _ => none
  | fuel + 1, gs =>
    match skipBlanks gs with
    | some 'n' :: gs => (readWord "ull".toList gs).map (.null, ·)
    | some 't' :: gs => (readWord "rue".toList gs).map (.bool true, ·)
    | some 'f' :: gs => (readWord "alse".toList gs).map (.bool false, ·)
    | some '"' :: gs => (readString gs).map fun (s, rest) => (.string s, rest)
    | some '-' :: gs => readUnsigned true gs
    | some '[' :: gs =>
      match skipBlanks gs with
      | some ']' :: gs => some (.array [], gs)
      | gs => (readElements fuel gs).map fun (es, rest) => (.array es, rest)
    | some '\x7b' :: gs =>
      match skipBlanks gs with
      | some '\x7d' :: gs => some (.object [], gs)
      | gs => (readMembers fuel gs).map fun (ms, rest) => (.object ms, rest)
    | gs => readUnsigned false gs

/-- Reads elements up to the closing bracket, at least one. -/
def readElements : Nat → List Glyph → Option (List Json × List Glyph)
  | 0, _ => none
  | fuel + 1, gs => do
    let (e, gs) ← readValue fuel gs
    match skipBlanks gs with
    | some ',' :: gs => (readElements fuel gs).map fun (es, rest) => (e :: es, rest)
    | some ']' :: gs => some ([e], gs)
    | _ => none

/-- Reads members up to the closing brace, at least one. -/
def readMembers : Nat → List Glyph → Option (List (Option String × Json) × List Glyph)
  | 0, _ => none
  | fuel + 1, gs =>
    match skipBlanks gs with
    | some '"' :: gs => do
      let (k, gs) ← readString gs
      let gs ← readWord [':'] (skipBlanks gs)
      let (v, gs) ← readValue fuel gs
      match skipBlanks gs with
      | some ',' :: gs => (readMembers fuel gs).map fun (ms, rest) => ((k, v) :: ms, rest)
      | some '\x7d' :: gs => some ([(k, v)], gs)
      | _ => none
    | _ => none

end

/-- Reads one document and nothing else. Each step takes a glyph, so the length bounds the steps. -/
def ofGlyphs? (gs : List Glyph) : Option Json :=
  match readValue (gs.length + 1) gs with
  | some (j, rest) => if (skipBlanks rest).isEmpty then some j else none
  | none => none

/-- Reads one document from a text. -/
def ofText? (s : String) : Option Json := ofGlyphs? (s.toList.map some)

/-- The glyphs of bytes from position `i`, of which at most `fuel` are read. -/
def glyphsFrom (bytes : ByteArray) : Nat → Nat → List Glyph
  | 0, _ => []
  | fuel + 1, i =>
    if i < bytes.size then
      match bytes.utf8DecodeChar? i with
      | some c => some c :: glyphsFrom bytes fuel (i + c.utf8Size)
      | none => none :: glyphsFrom bytes fuel (i + 1)
    else []

/-- Reads one document from bytes in UTF-8. -/
def ofBytes? (bytes : ByteArray) : Option Json :=
  match String.fromUTF8? bytes with
  | some s => ofText? s
  | none => ofGlyphs? (glyphsFrom bytes bytes.size 0)

end Json
end Fulfilment
