/-!
# Hexadecimal digits

The value of one digit and of several, in lower or upper case.
-/

namespace Script.Text

/-- The value of a hexadecimal digit. -/
def hexValue? (c : Char) : Option Nat :=
  if c.isDigit then some (c.toNat - '0'.toNat)
  else if 'a' ≤ c ∧ c ≤ 'f' then some (c.toNat - 'a'.toNat + 10)
  else if 'A' ≤ c ∧ c ≤ 'F' then some (c.toNat - 'A'.toNat + 10)
  else none

/-- The value of hexadecimal digits read onto what came before them. -/
def hexNumberFrom? (sofar : Nat) : List Char → Option Nat
  | [] => some sofar
  | c :: cs =>
    match hexValue? c with
    | some d => hexNumberFrom? (16 * sofar + d) cs
    | none => none

/-- The value of hexadecimal digits. -/
def hexNumber? (cs : List Char) : Option Nat := hexNumberFrom? 0 cs

end Script.Text
