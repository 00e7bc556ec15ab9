import Script.Number.Decimal

/-!
# Numbers as text

How scripts see numbers written, and which texts they can turn into numbers.

* `text` writes a number in positional digits, the fewest that read back, and never with an
  exponent.
* `ofParts` is the number that digits before and after a decimal point denote.
* `read?` accepts what a script may convert: a sign, then digits with an optional point and
  exponent, or one of the names of the infinities and of NaN in any mixture of cases.
-/

namespace Script.Number

/-- A number as scripts show it: `12`, `0.5`, `-0`, `inf`, `-inf`, `NaN`. NaN has no sign. -/
def text (x : Float) : String :=
  if x.isNaN then "NaN"
  else
    let sign := if isNegative x then "-" else ""
    match Magnitude.ofFloat? x with
    | none => sign ++ "inf"
    | some m =>
      if m.mantissa = 0 then sign ++ "0"
      else sign ++ String.ofList (Decimal.shortest .up (m.toFloat false) m).plain

/-- The number written with these digits before and after the decimal point. -/
def ofParts (whole fraction : List Char) : Float :=
  Decimal.toFloat ⟨Decimal.ofDigits (whole ++ fraction), -(fraction.length : Int)⟩

/-- An optional sign and the text after it; the flag is set for a minus. -/
def splitSign : List Char → Bool × List Char
  | '-' :: cs => (true, cs)
  | '+' :: cs => (false, cs)
  | cs => (false, cs)

/-- The exponent part of a numeral: nothing, or a mark followed by an optional sign and at least one
digit. -/
def readExponent? : List Char → Option Int
  | [] => some 0
  | c :: cs =>
    if c = 'e' ∨ c = 'E' then
      let (negative, ds) := splitSign cs
      if ds ≠ [] ∧ ds.all Char.isDigit then
        some (if negative then -(Decimal.ofDigits ds : Int) else (Decimal.ofDigits ds : Int))
      else none
    else none

/-- A numeral without a sign: digits, an optional point with more digits, an optional exponent. At
least one digit stands before or after the point. -/
def readNumeral? (cs : List Char) : Option Float :=
  let whole := cs.takeWhile Char.isDigit
  let afterWhole := cs.dropWhile Char.isDigit
  let (fraction, rest) :=
    match afterWhole with
    | '.' :: ds => (ds.takeWhile Char.isDigit, ds.dropWhile Char.isDigit)
    | ds => ([], ds)
  if whole = [] ∧ fraction = [] then none
  else
    (readExponent? rest).map fun exponent =>
      Decimal.toFloat ⟨Decimal.ofDigits (whole ++ fraction), exponent - fraction.length⟩

/-- The number that a text denotes, if it denotes one. No blanks are allowed. -/
def read? (s : String) : Option Float :=
  let (negative, cs) := splitSign s.toList
  let lower := String.ofList (cs.map Char.toLower)
  let size? :=
    if lower = "inf" ∨ lower = "infinity" then some infinity
    else if lower = "nan" then some nan
    else readNumeral? cs
  size?.map fun x => if negative then -x else x

end Script.Number
