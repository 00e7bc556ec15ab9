import Script.Text.CaseTables

/-!
# Upper and lower case

Full case mappings: a letter may be mapped to several characters. The one letter whose lower case
depends on where it stands is the Greek capital sigma, which has a form of its own at the end of a
word.
-/

namespace Script.Text

/-- The characters that one character is mapped to: an expansion, a shift, or itself. -/
def mapCase (expansions : List (Nat × List Nat)) (shifts : List CaseShift) (c : Char) : List Char :=
  match expansions.find? fun (n, _) => n == c.toNat with
  | some (_, codes) => codes.map Char.ofNat
  | none =>
    match shifts.findSome? fun run => run.apply? c.toNat with
    | some n => [Char.ofNat n]
    | none => [c]

/-- The upper case of a text. -/
def upper (cs : List Char) : List Char :=
  cs.flatMap (mapCase upperExpansions upperShifts)

/-- Whether the first character that is not ignorable has a case. -/
def meetsCased (cs : List Char) : Bool :=
  match cs.dropWhile fun c => inRanges ignorableRanges c.toNat with
  | [] => false
  | c :: _ => inRanges casedRanges c.toNat

/-- The lower case of a text whose part before, last character first, is `before`. A capital sigma
ends a word when a letter stands before it and none after it. -/
def lowerFrom (before : List Char) (done : List Char) : List Char → List Char
  | [] => done.reverse
  | c :: cs =>
    let image :=
      if c = 'Σ' then [if meetsCased before && !meetsCased cs then 'ς' else 'σ']
      else mapCase lowerExpansions lowerShifts c
    lowerFrom (c :: before) (image.reverse ++ done) cs

/-- The lower case of a text. -/
def lower (cs : List Char) : List Char := lowerFrom [] [] cs

end Script.Text
