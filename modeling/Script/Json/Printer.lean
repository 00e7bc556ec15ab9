import Script.Json

/-!
# Writing JSON

A value can be written without any blanks, or with one item or member to a line. Both are the same
writing in a different `Layout`.

Everything is written in front of what follows it, which keeps the writing linear in the length of
the text: `x.writeOnto rest` is the text of `x` and then `rest`.
-/

namespace Script.Json

/-- Where blanks stand in a written value. -/
structure Layout where
  /-- What stands before an item, a member or a closing bracket that is the given number of levels
  deep. -/
  lineBreak : Nat → List Char
  /-- What stands between a name and its value. -/
  colon : List Char

/-- No blanks at all. -/
def Layout.compact : Layout := ⟨fun _ => [], [':']⟩

/-- Lines indented by two blanks for every level. -/
def Layout.indented : Layout := ⟨fun level => '\n' :: List.replicate (2 * level) ' ', [':', ' ']⟩

/-- A numeral. -/
def Numeral.write (n : Numeral) : List Char :=
  (if n.negative then ['-'] else []) ++ n.whole
    ++ (if n.fraction = [] then [] else '.' :: n.fraction)
    ++ match n.exponent with
      | none => []
      | some e => 'e' :: (if e < 0 then '-' else '+') :: Number.Decimal.digits e.natAbs

/-- The digit of a number below sixteen. -/
def hexDigit (n : Nat) : Char := Nat.digitChar n

/-- How a character is written in a text: as it is, unless it is a quote, a backslash or a control
character. -/
def escape (c : Char) : List Char :=
  if c = '"' then ['\\', '"']
  else if c = '\\' then ['\\', '\\']
  else if c = '\n' then ['\\', 'n']
  else if c = '\r' then ['\\', 'r']
  else if c = '\t' then ['\\', 't']
  else if c = '\x08' then ['\\', 'b']
  else if c = '\x0c' then ['\\', 'f']
  else if c.toNat < 32 then ['\\', 'u', '0', '0', hexDigit (c.toNat / 16), hexDigit (c.toNat % 16)]
  else [c]

/-- The characters of a text and its closing quote. -/
def writeChars (rest : List Char) : List Char → List Char
  | [] => '"' :: rest
  | c :: cs => escape c ++ writeChars rest cs

/-- A text in quotes. -/
def writeText (s : String) (rest : List Char) : List Char := '"' :: writeChars rest s.toList

mutual

/-- A value that is `level` levels deep, and the rest. A text that does not denote one is written as
an empty text. -/
def writeOnto (layout : Layout) (level : Nat) (rest : List Char) : Json → List Char
  | .null => 'n' :: 'u' :: 'l' :: 'l' :: rest
  | .bool true => 't' :: 'r' :: 'u' :: 'e' :: rest
  | .bool false => 'f' :: 'a' :: 'l' :: 's' :: 'e' :: rest
  | .number n => n.write ++ rest
  | .text s => writeText (s.getD "") rest
  | .array [] => '[' :: ']' :: rest
  | .array (item :: items) =>
    '[' :: (layout.lineBreak (level + 1)
      ++ writeOnto layout (level + 1)
        (writeItems layout (level + 1) (layout.lineBreak level ++ ']' :: rest) items) item)
  | .object [] => '\x7b' :: '\x7d' :: rest
  | .object ((name, value) :: members) =>
    '\x7b' :: (layout.lineBreak (level + 1)
      ++ writeText (name.getD "") (layout.colon
        ++ writeOnto layout (level + 1)
          (writeMembers layout (level + 1) (layout.lineBreak level ++ '\x7d' :: rest) members)
            value))

/-- The items after the first one, and the rest. -/
def writeItems (layout : Layout) (level : Nat) (rest : List Char) : List Json → List Char
  | [] => rest
  | item :: items =>
    ',' :: (layout.lineBreak level
      ++ writeOnto layout level (writeItems layout level rest items) item)

/-- The members after the first one, and the rest. -/
def writeMembers (layout : Layout) (level : Nat) (rest : List Char) :
    List (Option String × Json) → List Char
  | [] => rest
  | (name, value) :: members =>
    ',' :: (layout.lineBreak level
      ++ writeText (name.getD "") (layout.colon
        ++ writeOnto layout level (writeMembers layout level rest members) value))

end

/-- The text of a value. -/
def write (layout : Layout) (j : Json) : String := String.ofList (writeOnto layout 0 [] j)

end Script.Json
