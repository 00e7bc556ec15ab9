import Script.Json
import Script.Text.Hexadecimal

/-!
# Reading JSON

The grammar of JSON, without any extension. Blanks may stand around every value, bracket, comma and
colon; nothing but blanks may follow the value.

A text is read in two steps. `readPieces` reads characters and escapes up to the closing quote, and
`joinPieces` puts the two halves of surrogate pairs together.
-/

namespace Script.Json

open Number (Decimal)

/-- Characters that separate and mean nothing. -/
def isBlank (c : Char) : Bool := c = ' ' || c = '\n' || c = '\t' || c = '\r'

/-- The text after the blanks at its start. -/
def skipBlanks (cs : List Char) : List Char := cs.dropWhile isBlank

/-! ## Texts -/

/-- A character of a text, or a unit of sixteen bits written in hexadecimal digits. -/
inductive Piece where
  /-- A character. -/
  | char (c : Char)
  /-- A unit of sixteen bits. -/
  | unit (n : Nat)
deriving DecidableEq

/-- The character that a backslash and another character stand for. -/
def unescape? (c : Char) : Option Char :=
  if c = '"' ∨ c = '\\' ∨ c = '/' then some c
  else if c = 'b' then some '\x08'
  else if c = 'f' then some '\x0c'
  else if c = 'n' then some '\n'
  else if c = 'r' then some '\r'
  else if c = 't' then some '\t'
  else none

/-- Read a text up to its closing quote. The pieces so far are `before`, last one first. Control
characters do not stand in a text. -/
def readPieces (before : List Piece) : List Char → Option (List Piece × List Char)
  | [] => none
  | '"' :: cs => some (before.reverse, cs)
  | '\\' :: 'u' :: a :: b :: c :: d :: cs =>
    match Text.hexNumber? [a, b, c, d] with
    | some n => readPieces (.unit n :: before) cs
    | none => none
  | '\\' :: c :: cs =>
    match unescape? c with
    | some e => readPieces (.char e :: before) cs
    | none => none
  | c :: cs => if c.toNat < 32 ∨ c = '\\' then none else readPieces (.char c :: before) cs

/-- Whether a unit is the first half of a surrogate pair. -/
def isHighHalf (n : Nat) : Bool := 0xD800 ≤ n && n < 0xDC00

/-- Whether a unit is the second half of a surrogate pair. -/
def isLowHalf (n : Nat) : Bool := 0xDC00 ≤ n && n < 0xE000

/-- The characters that pieces make up, unless a half of a surrogate pair stands alone. The
characters so far are `before`, last one first. -/
def joinPieces (before : List Char) : List Piece → Option (List Char)
  | [] => some before.reverse
  | .char c :: pieces => joinPieces (c :: before) pieces
  | .unit high :: .unit low :: pieces =>
    if isHighHalf high then
      if isLowHalf low then
        joinPieces (Char.ofNat (0x10000 + 0x400 * (high - 0xD800) + (low - 0xDC00))
          :: before) pieces
      else none
    else if isLowHalf high then none
    else joinPieces (Char.ofNat high :: before) (.unit low :: pieces)
  | .unit n :: pieces =>
    if isHighHalf n || isLowHalf n then none else joinPieces (Char.ofNat n :: before) pieces

/-- Read a text after its opening quote. -/
def readText (cs : List Char) : Option (Option String × List Char) :=
  (readPieces [] cs).map fun (pieces, rest) => ((joinPieces [] pieces).map String.ofList, rest)

/-! ## Numerals -/

/-- Read digits, at least one. -/
def readDigits (cs : List Char) : Option (List Char × List Char) :=
  match cs.takeWhile Char.isDigit with
  | [] => none
  | ds => some (ds, cs.dropWhile Char.isDigit)

/-- Read the digits before the point, which start with a zero only if they are nothing else. -/
def readWhole (cs : List Char) : Option (List Char × List Char) :=
  match readDigits cs with
  | some ('0' :: _ :: _, _) => none
  | found => found

/-- Read a point and the digits after it, if there is a point. -/
def readFraction : List Char → Option (List Char × List Char)
  | '.' :: cs => readDigits cs
  | cs => some ([], cs)

/-- Read an optional sign and the digits of an exponent. -/
def readSigned : List Char → Option (Int × List Char)
  | '-' :: cs => (readDigits cs).map fun (ds, rest) => (-(Decimal.ofDigits ds : Int), rest)
  | '+' :: cs => (readDigits cs).map fun (ds, rest) => ((Decimal.ofDigits ds : Int), rest)
  | cs => (readDigits cs).map fun (ds, rest) => ((Decimal.ofDigits ds : Int), rest)

/-- Read an exponent, if there is one. -/
def readExponent : List Char → Option (Option Int × List Char)
  | 'e' :: cs => (readSigned cs).map fun (e, rest) => (some e, rest)
  | 'E' :: cs => (readSigned cs).map fun (e, rest) => (some e, rest)
  | cs => some (none, cs)

/-- Read a numeral after its sign. -/
def readUnsigned (negative : Bool) (cs : List Char) : Option (Numeral × List Char) := do
  let (whole, cs) ← readWhole cs
  let (fraction, cs) ← readFraction cs
  let (exponent, cs) ← readExponent cs
  return (⟨negative, whole, fraction, exponent⟩, cs)

/-- Read a numeral. -/
def readNumeral : List Char → Option (Numeral × List Char)
  | '-' :: cs => readUnsigned true cs
  | cs => readUnsigned false cs

/-! ## Values -/

mutual

/-- Read a value that starts with the first character. -/
def readValue : Nat → List Char → Option (Json × List Char)
  | 0, _ => none
  | fuel + 1, cs =>
    match cs with
    | 'n' :: 'u' :: 'l' :: 'l' :: rest => some (.null, rest)
    | 't' :: 'r' :: 'u' :: 'e' :: rest => some (.bool true, rest)
    | 'f' :: 'a' :: 'l' :: 's' :: 'e' :: rest => some (.bool false, rest)
    | '"' :: rest =>
      match readText rest with
      | some (value, rest) => some (.text value, rest)
      | none => none
    | '[' :: rest =>
      match skipBlanks rest with
      | ']' :: rest => some (.array [], rest)
      | rest => readItems fuel [] rest
    | '\x7b' :: rest =>
      match skipBlanks rest with
      | '\x7d' :: rest => some (.object [], rest)
      | rest => readMembers fuel [] rest
    | cs =>
      match readNumeral cs with
      | some (n, rest) => some (.number n, rest)
      | none => none

/-- Read the items of an array, of which there is at least one more. The items so far are `before`,
last one first. -/
def readItems : Nat → List Json → List Char → Option (Json × List Char)
  | 0, _, _ => none
  | fuel + 1, before, cs =>
    match readValue fuel cs with
    | none => none
    | some (item, rest) =>
      match skipBlanks rest with
      | ',' :: rest => readItems fuel (item :: before) (skipBlanks rest)
      | ']' :: rest => some (.array (item :: before).reverse, rest)
      | _ => none

/-- Read the members of an object, of which there is at least one more. The members so far are
`before`, last one first. -/
def readMembers : Nat → List (Option String × Json) → List Char → Option (Json × List Char)
  | 0, _, _ => none
  | fuel + 1, before, cs =>
    match cs with
    | '"' :: rest =>
      match readText rest with
      | none => none
      | some (name, rest) =>
        match skipBlanks rest with
        | ':' :: rest =>
          match readValue fuel (skipBlanks rest) with
          | none => none
          | some (value, rest) =>
            match skipBlanks rest with
            | ',' :: rest => readMembers fuel ((name, value) :: before) (skipBlanks rest)
            | '\x7d' :: rest => some (.object ((name, value) :: before).reverse, rest)
            | _ => none
        | _ => none
    | _ => none

end

/-- The value that a text is. Every second step at least takes a character, so the fuel is
enough. -/
def read? (s : String) : Option Json :=
  let cs := s.toList
  match readValue (2 * cs.length + 2) (skipBlanks cs) with
  | some (j, rest) => if skipBlanks rest = [] then some j else none
  | none => none

end Script.Json
