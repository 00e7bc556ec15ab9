/-!
# Exact magnitudes of numbers

A finite number of the language is a sign and a whole multiple of a power of two. `Magnitude` is
that second part, so that rounding up, taking remainders and choosing decimal digits can be done in
exact integer arithmetic.

* `Magnitude.ofFloat?` reads the magnitude off the bit pattern; it is absent for infinities and NaN.
* `Magnitude.toFloat` is the way back.
* `remainder` is the exact remainder of a division that is rounded toward zero.
-/

namespace Script.Number

/-- The absolute value `mantissa * 2 ^ exponent`. -/
structure Magnitude where
  /-- The whole factor. -/
  mantissa : Nat
  /-- The power of two it is scaled by. -/
  exponent : Int
deriving DecidableEq, Repr

/-- Positive infinity. -/
def infinity : Float := 1.0 / 0.0

/-- The number that is not a number. -/
def nan : Float := 0.0 / 0.0

/-- Whether the sign bit is set; this tells `-0` from `0`. -/
def isNegative (x : Float) : Bool :=
  decide (Nat.pow 2 63 ≤ x.toBits.toNat)

namespace Magnitude

/-- The magnitude of a finite number. The 52 low bits hold the fraction, the 11 above them the
exponent; exponent 0 marks a fraction without the leading one, exponent 2047 no finite number. -/
def ofFloat? (x : Float) : Option Magnitude :=
  let bits := x.toBits.toNat
  let field : Nat := bits / Nat.pow 2 52 % 2048
  let fraction : Nat := bits % Nat.pow 2 52
  if field = 2047 then none
  else if field = 0 then some ⟨fraction, -1074⟩
  else some ⟨Nat.pow 2 52 + fraction, (field : Int) - 1075⟩

/-- Number of binary digits; zero has none. -/
def bitCount (n : Nat) : Nat :=
  if n = 0 then 0 else n.log2 + 1

/-- The number with the given sign and magnitude, for a magnitude of at most 53 significant bits in
the range of finite numbers. The mantissa is shifted up until it fills 53 bits or the exponent
reaches its least value. -/
def toFloat (negative : Bool) (m : Magnitude) : Float :=
  let shift := min (53 - bitCount m.mantissa) (m.exponent + 1074).toNat
  let mantissa := m.mantissa * Nat.pow 2 shift
  let bits :=
    if mantissa < Nat.pow 2 52 then mantissa
    else (m.exponent - shift + 1075).toNat * Nat.pow 2 52 + (mantissa - Nat.pow 2 52)
  Float.ofBits (UInt64.ofNat (if negative then bits + Nat.pow 2 63 else bits))

/-- The numerator of the magnitude as a fraction of whole numbers. -/
def numerator (m : Magnitude) : Nat := m.mantissa * Nat.pow 2 m.exponent.toNat

/-- The denominator of the magnitude as a fraction of whole numbers. -/
def denominator (m : Magnitude) : Nat := Nat.pow 2 (-m.exponent).toNat

/-- The magnitude rounded down to a whole number. -/
def floor (m : Magnitude) : Nat := m.numerator / m.denominator

/-- The magnitude rounded up to a whole number. -/
def ceil (m : Magnitude) : Nat := (m.numerator + m.denominator - 1) / m.denominator

/-- Whether the magnitude is a whole number. -/
def isWhole (m : Magnitude) : Bool := m.numerator % m.denominator == 0

theorem denominator_pos (m : Magnitude) : 0 < m.denominator :=
  Nat.pow_pos (by decide)

end Magnitude

/-- The exact remainder of `x / y` with the quotient rounded toward zero. It has the sign of `x`, is
`x` itself for infinite `y`, and is no number when `x` is infinite or `y` is zero. -/
def remainder (x y : Float) : Float :=
  if x.isNaN || y.isNaN then nan
  else
    match Magnitude.ofFloat? x, Magnitude.ofFloat? y with
    | none, _ => nan
    | some _, none => x
    | some a, some b =>
      if b.mantissa = 0 then nan
      else
        let low := min a.exponent b.exponent
        let dividend := a.mantissa * Nat.pow 2 (a.exponent - low).toNat
        let divisor := b.mantissa * Nat.pow 2 (b.exponent - low).toNat
        Magnitude.toFloat (isNegative x) ⟨dividend % divisor, low⟩

end Script.Number
