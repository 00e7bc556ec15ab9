import Script.Number.Decimal

/-!
# JSON

The values of JSON, as far as storing programs needs them: members of objects keep their order, and
numerals keep their digits, so that how a number is rounded is decided only where a number is
wanted.

* `Json.Numeral` is a numeral; `Numeral.ofFloat?` chooses the one that is written for a number, and
  `Numeral.toFloat?` and `Numeral.toNat?` are the numbers it can be read as.
* A text that is well-formed JSON need not denote any text of characters: an escape may name one
  half of a surrogate pair without the other. Such a text is `none`, and is accepted only where
  nobody looks at it.
-/

namespace Script

open Number (Decimal Magnitude)

namespace Json

/-- A numeral of JSON. -/
structure Numeral where
  /-- Whether it starts with a minus. -/
  negative : Bool
  /-- The digits before the point. -/
  whole : List Char
  /-- The digits after the point; a numeral without a point has none. -/
  fraction : List Char
  /-- The number after the exponent mark, if there is one. -/
  exponent : Option Int
deriving DecidableEq, Repr

namespace Numeral

/-- The numeral of a count. -/
def ofNat (n : Nat) : Numeral := ⟨false, Decimal.digits n, [], none⟩

/-- A decimal in positional digits, with at least one digit on either side of the point. -/
def positional (negative : Bool) (d : Decimal) : Numeral :=
  let ds := Decimal.digits d.significand
  if 0 ≤ d.exponent then ⟨negative, ds ++ List.replicate d.exponent.toNat '0', ['0'], none⟩
  else
    let places := (-d.exponent).toNat
    if places < ds.length then
      ⟨negative, ds.take (ds.length - places), ds.drop (ds.length - places), none⟩
    else ⟨negative, ['0'], List.replicate (places - ds.length) '0' ++ ds, none⟩

/-- A decimal as its first digit, the others after a point, and an exponent. -/
def scientific (negative : Bool) (d : Decimal) : Numeral :=
  let ds := Decimal.digits d.significand
  ⟨negative, ds.take 1, ds.drop 1, some ((ds.length : Int) - 1 + d.exponent)⟩

/-- A decimal, in positional digits if its first digit stands for at least `10 ^ (-5)` and less than
`10 ^ 16`. -/
def ofDecimal (negative : Bool) (d : Decimal) : Numeral :=
  let lead := (Decimal.digitCount d.significand : Int) - 1 + d.exponent
  if -5 ≤ lead ∧ lead ≤ 15 then positional negative d else scientific negative d

/-- The numeral that is written for a number: the fewest digits that are nearest to it. There is
none for NaN and the infinities. -/
def ofFloat? (x : Float) : Option Numeral :=
  if x.isNaN then none
  else
    (Magnitude.ofFloat? x).map fun m =>
      if m.mantissa = 0 then ⟨Number.isNegative x, ['0'], ['0'], none⟩
      else ofDecimal (Number.isNegative x) (Decimal.shortest .even (m.toFloat false) m)

/-- The digits of a numeral read from the left onto what came before them, as long as they fit in 64
bits, and the digits left over. -/
def takeDigits (sofar : Nat) : List Char → Nat × List Char
  | [] => (sofar, [])
  | c :: cs =>
    let next := 10 * sofar + (c.toNat - '0'.toNat)
    if next < Nat.pow 2 64 then takeDigits next cs else (sofar, c :: cs)

/-- A power of ten that is a number. -/
def powerOfTen (n : Nat) : Float := Float.ofScientific 1 false n

/-- Move the decimal point of a number. There is no result beyond the largest number. -/
def shiftPoint (x : Float) (places : Int) : Option Float :=
  if 0 ≤ places then
    if x == 0.0 then some x
    else if places ≤ 308 then
      let y := x * powerOfTen places.toNat
      if y.isInf then none else some y
    else none
  else if -308 ≤ places then some (x / powerOfTen (-places).toNat)
  else if x == 0.0 then some x
  else shiftPoint (x / powerOfTen 308) (places + 308)
termination_by places.natAbs
decreasing_by omega

/-- The number that a numeral is read as: as many digits as fit in 64 bits, scaled by one power of
ten. Digits of the whole part that do not fit count as zeros, digits of the fraction as absent. -/
def toFloat? (n : Numeral) : Option Float :=
  let (high, wholeLeft) := takeDigits 0 n.whole
  let (all, fractionLeft) := takeDigits high n.fraction
  let places : Int :=
    wholeLeft.length - (n.fraction.length - fractionLeft.length) + n.exponent.getD 0
  (shiftPoint (Float.ofNat all) places).map fun x => if n.negative then -x else x

/-- The count that a numeral is read as: it has neither sign nor point nor exponent, and fits in 64
bits. -/
def toNat? (n : Numeral) : Option Nat :=
  if n.negative ∨ n.fraction ≠ [] ∨ n.exponent.isSome then none
  else
    let value := Decimal.ofDigits n.whole
    if value < Nat.pow 2 64 then some value else none

end Numeral

end Json

/-- A value of JSON. -/
inductive Json where
  /-- The literal `null`. -/
  | null
  /-- A truth value. -/
  | bool (value : Bool)
  /-- A number. -/
  | number (numeral : Json.Numeral)
  /-- A text, unless its escapes do not make up characters. -/
  | text (value : Option String)
  /-- An array. -/
  | array (items : List Json)
  /-- An object. -/
  | object (members : List (Option String × Json))

namespace Json

/-- A count. -/
def ofNat (n : Nat) : Json := .number (.ofNat n)

/-- A text. -/
def ofString (s : String) : Json := .text (some s)

/-- An object with the given members. -/
def record (members : List (String × Json)) : Json :=
  .object (members.map fun (name, value) => (some name, value))

mutual

/-- How deep a value is nested. -/
def height : Json → Nat
  | .null | .bool _ | .number _ | .text _ => 1
  | .array items => heightOfItems items + 1
  | .object members => heightOfMembers members + 1

/-- The greatest height among items. -/
def heightOfItems : List Json → Nat
  | [] => 0
  | item :: items => max item.height (heightOfItems items)

/-- The greatest height among members. -/
def heightOfMembers : List (Option String × Json) → Nat
  | [] => 0
  | (_, value) :: members => max value.height (heightOfMembers members)

end

end Json

end Script
