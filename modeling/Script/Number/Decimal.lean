import Script.Number.Magnitude

/-!
# Decimals

A `Decimal` is a whole number of units of a power of ten: what a numeral says before it is rounded
to a number, and what is chosen to be written for a number.

* `Decimal.toFloat` is the number nearest to a decimal.
* `Decimal.shortest` is the decimal with the fewest digits that reads back as a given number; of two
  such decimals of the same length it is the nearer one, and a `Tie` says what happens half way.
* `Decimal.plain` writes a decimal without an exponent.

The selection tries one digit, then two, and so on. On each grid only the two neighbours of the
value can read back, since the decimals that read back as one number form an interval around it.
-/

namespace Script.Number

/-- The value `significand * 10 ^ exponent`. -/
structure Decimal where
  /-- The whole factor. -/
  significand : Nat
  /-- The power of ten it is scaled by. -/
  exponent : Int
deriving DecidableEq, Repr

/-- Which neighbour is taken when a value lies half way between two decimals. -/
inductive Tie where
  /-- The larger one. -/
  | up
  /-- The one whose last digit is even. -/
  | even
deriving DecidableEq, Repr

namespace Decimal

/-- The digits of a whole number, most significant first; zero has one digit. -/
def digits (n : Nat) : List Char := Nat.toDigits 10 n

/-- Number of digits of a whole number. -/
def digitCount (n : Nat) : Nat := (digits n).length

/-- The whole number that a list of decimal digits denotes. -/
def ofDigits (cs : List Char) : Nat :=
  cs.foldl (fun n c => 10 * n + (c.toNat - '0'.toNat)) 0

/-- The number nearest to a decimal, the even one of two. A value of at least `10 ^ 309` is beyond
the largest number and one below `10 ^ (-330)` is less than half of the smallest, so neither needs
its power of ten. -/
def toFloat (d : Decimal) : Float :=
  let top := (digitCount d.significand : Int) + d.exponent
  if d.significand = 0 then 0.0
  else if 310 ≤ top then infinity
  else if top ≤ -330 then 0.0
  else if 0 ≤ d.exponent then Float.ofScientific d.significand false d.exponent.toNat
  else Float.ofScientific d.significand true (-d.exponent).toNat

/-- Exponent of the leading decimal digit of a positive magnitude. -/
def leadingExponent (m : Magnitude) : Int :=
  if m.denominator ≤ m.numerator then (digitCount (m.numerator / m.denominator) : Int) - 1
  else -(digitCount (m.denominator / m.numerator) : Int)

/-- The two neighbours of a magnitude on the grid of multiples of `10 ^ exponent`, nearer one
first. -/
def neighbours (tie : Tie) (m : Magnitude) (exponent : Int) : List Decimal :=
  let num := m.numerator * Nat.pow 10 (-exponent).toNat
  let den := m.denominator * Nat.pow 10 exponent.toNat
  let below := num / den
  let twice := 2 * (num % den)
  let upperFirst :=
    if twice = den then
      match tie with
      | .up => true
      | .even => below % 2 == 1
    else decide (den < twice)
  if upperFirst then [⟨below + 1, exponent⟩, ⟨below, exponent⟩]
  else [⟨below, exponent⟩, ⟨below + 1, exponent⟩]

/-- Whether a decimal reads back as the number `x`. -/
def readsBackAs (x : Float) (d : Decimal) : Bool :=
  d.toFloat.toBits == x.toBits

/-- All digits of a magnitude; half a unit is five tenths of one, so every power of two has finitely
many. -/
def exact (m : Magnitude) : Decimal :=
  if 0 ≤ m.exponent then ⟨m.numerator, 0⟩
  else ⟨m.mantissa * Nat.pow 5 (-m.exponent).toNat, m.exponent⟩

/-- Remove up to `fuel` trailing zeros. -/
def trimZeros : Nat → Decimal → Decimal
  | 0, d => d
  | fuel + 1, d =>
    if d.significand % 10 = 0 then trimZeros fuel ⟨d.significand / 10, d.exponent + 1⟩ else d

/-- The decimal with the fewest digits that reads back as the positive finite number `x` of
magnitude `m`. Seventeen digits are enough for every number. -/
def shortest (tie : Tie) (x : Float) (m : Magnitude) : Decimal :=
  let lead := leadingExponent m
  let found := (List.range 17).findSome? fun (n : Nat) =>
    (neighbours tie m (lead - n)).find? (readsBackAs x)
  match found with
  | some d => trimZeros (digitCount d.significand) d
  | none => exact m

/-- A decimal in positional digits, with as many zeros as it takes. -/
def plain (d : Decimal) : List Char :=
  let ds := digits d.significand
  if 0 ≤ d.exponent then ds ++ List.replicate d.exponent.toNat '0'
  else
    let places := (-d.exponent).toNat
    if places < ds.length then
      ds.take (ds.length - places) ++ '.' :: ds.drop (ds.length - places)
    else '0' :: '.' :: List.replicate (places - ds.length) '0' ++ ds

end Decimal

end Script.Number
