import Script.Fault

/-!
# Operations on values

Arithmetic, comparison and element access. Each operation either gives a value or says what is wrong
with its operands; where a fault could be blamed on either operand, the left one decides.

Texts take part in three operations: `+` joins them with each other and with numbers, `*` repeats
them, and an index picks one of their characters.
-/

namespace Script.Value

/-- The longest text, in bytes, that repetition may produce. -/
def maxTextBytes : Nat := Nat.pow 2 28

/-- The fault of an arithmetic operation whose left operand is `v`. -/
def unsupported (v : Value) (op : BinaryOp) : Fault :=
  match v with
  | .number _ | .text _ => .expectedNumber
  | .list _ => .invalidOperation op .list
  | .null => .invalidOperation op .null
  | .function .. | .builtin _ => .invalidOperation op .function

/-- The sum of numbers; texts and lists are joined. -/
def add : Value → Value → Except Fault Value
  | .number x, .number y => .ok (.number (x + y))
  | .number x, .text t => .ok (.text (Number.text x ++ t))
  | .text s, .text t => .ok (.text (s ++ t))
  | .text s, .number y => .ok (.text (s ++ Number.text y))
  | .list xs, .list ys => .ok (.list (xs ++ ys))
  | .list _, _ => .error .onlyLists
  | v, _ => .error (v.unsupported .add)

/-- An operation on two numbers that texts refuse by name. -/
def arithmetic (op : BinaryOp) (f : Float → Float → Except Fault Float) :
    Value → Value → Except Fault Value
  | .number x, .number y => (f x y).map .number
  | .text _, _ => .error (.invalidOperation op .text)
  | v, _ => .error (v.unsupported op)

/-- The difference of numbers. -/
def sub : Value → Value → Except Fault Value :=
  arithmetic .sub fun x y => .ok (x - y)

/-- The quotient of numbers. -/
def div : Value → Value → Except Fault Value :=
  arithmetic .div fun x y => if y == 0.0 then .error .divisionByZero else .ok (x / y)

/-- The remainder of a division that is rounded toward zero. -/
def rem : Value → Value → Except Fault Value :=
  arithmetic .mod fun x y => if y == 0.0 then .error .divisionByZero else .ok (Number.remainder x y)

/-- A number raised to the power of another. -/
def pow : Value → Value → Except Fault Value :=
  arithmetic .pow fun x y => .ok (Float.pow x y)

/-- How often a text is repeated for the number `x`: not at all for NaN and for numbers that are not
positive, else as often as `x` says when rounded up. What does not fit in a word becomes the largest
word. -/
def repeatCount (x : Float) : UInt64 :=
  if x.isNaN || x ≤ 0.0 then 0
  else
    match Number.Magnitude.ofFloat? x with
    | some m => UInt64.ofNatClamp m.ceil
    | none => UInt64.ofNatClamp UInt64.size

/-- The product of two words, if it fits in a word. -/
def wordProduct? (a b : UInt64) : Option UInt64 :=
  if a.toNat * b.toNat < UInt64.size then some (a * b) else none

/-- A text written `n` times in a row. -/
def repeated (s : String) (n : Nat) : String :=
  if n = 0 then ""
  else
    let half := repeated s (n / 2)
    if n % 2 = 0 then half ++ half else half ++ half ++ s
termination_by n

/-- A text repeated as often as a number says, unless the result would be too long. -/
def repeatText (s : String) (x : Float) : Except Fault Value :=
  let count := repeatCount x
  if s.isEmpty || count == 0 then .ok (.text "")
  else
    match wordProduct? (UInt64.ofNatClamp s.utf8ByteSize) count with
    | some bytes =>
      if bytes.toNat ≤ maxTextBytes then .ok (.text (repeated s count.toNat))
      else .error (.textTooLong maxTextBytes)
    | none => .error (.textTooLong maxTextBytes)

/-- The product of numbers; a text and a number, in either order, repeat the text. -/
def mul : Value → Value → Except Fault Value
  | .number x, .number y => .ok (.number (x * y))
  | .text s, .number y => repeatText s y
  | .number x, .text t => repeatText t x
  | v, _ => .error (v.unsupported .mul)

/-- The order of two numbers; NaN is in no order with anything. -/
def compareNumbers (x y : Float) : Option Ordering :=
  if x < y then some .lt
  else if x == y then some .eq
  else if y < x then some .gt
  else none

/-- The order of two texts, by their code points. -/
def compareTexts (s t : String) : Ordering :=
  if s < t then .lt else if s = t then .eq else .gt

/-- The order of two numbers or of two texts. -/
def order : Value → Value → Except Fault (Option Ordering)
  | .number x, .number y => .ok (compareNumbers x y)
  | .text s, .text t => .ok (some (compareTexts s t))
  | .list _, _ => .error (.unordered .lists)
  | .null, _ => .error (.unordered .nulls)
  | .function .., _ | .builtin _, _ => .error (.unordered .functions)
  | _, _ => .error (.unordered .mixed)

/-- Whether two values are in an order that `accept` accepts. -/
def compare (accept : Ordering → Bool) (v w : Value) : Except Fault Bool :=
  (order v w).map fun o => o.any accept

/-- Whether `v` comes after `w`. -/
def gt : Value → Value → Except Fault Bool := compare Ordering.isGT

/-- Whether `v` does not come before `w`. -/
def ge : Value → Value → Except Fault Bool := compare Ordering.isGE

/-- Whether `v` comes before `w`. -/
def lt : Value → Value → Except Fault Bool := compare Ordering.isLT

/-- Whether `v` does not come after `w`. -/
def le : Value → Value → Except Fault Bool := compare Ordering.isLE

/-- The right operand if both count as true, else zero. -/
def and (v w : Value) : Value :=
  if v.isTruthy && w.isTruthy then w else .number 0.0

/-- The first operand that counts as true, else zero. -/
def or (v w : Value) : Value :=
  if v.isTruthy then v else if w.isTruthy then w else .number 0.0

/-- One if the value counts as false, else zero. -/
def not (v : Value) : Value := ofBool (!v.isTruthy)

/-- The value of an operator between two operands. -/
def binary : BinaryOp → Value → Value → Except Fault Value
  | .add => add
  | .sub => sub
  | .mul => mul
  | .div => div
  | .mod => rem
  | .pow => pow
  | .eq => fun v w => .ok (ofBool (v.equals w))
  | .ne => fun v w => .ok (ofBool (!v.equals w))
  | .lt => fun v w => (lt v w).map ofBool
  | .gt => fun v w => (gt v w).map ofBool
  | .le => fun v w => (le v w).map ofBool
  | .ge => fun v w => (ge v w).map ofBool
  | .and => fun v w => .ok (v.and w)
  | .or => fun v w => .ok (v.or w)

/-- The value of an operator before its operand. Negation is multiplication by minus one. -/
def unary : UnaryOp → Value → Except Fault Value
  | .neg => fun v => mul v (.number (-1.0))
  | .plus => .ok
  | .not => fun v => .ok v.not

/-- The number of elements of a list, or of characters of a text. -/
def length? : Value → Option Nat
  | .list items => some items.length
  | .text s => some s.length
  | _ => none

/-- The whole number that an index denotes in a list or text of the given length. -/
def position (index : Float) (length : Nat) : Except Fault Nat :=
  match Number.Magnitude.ofFloat? index with
  | none => .error (.fractionalIndex index)
  | some m =>
    if !m.isWhole then .error (.fractionalIndex index)
    else if index < 0.0 || decide (length ≤ m.floor) then .error (.indexOutOfRange index length)
    else .ok m.floor

/-- The element of a list, or the character of a text, at a position counted from zero. -/
def index (target place : Value) : Except Fault Value :=
  match target.length? with
  | none => .error (.notIndexable target.type)
  | some length =>
    match place with
    | .number x => do
      let i ← position x length
      match target with
      | .list items => .ok (items.getD i .null)
      | .text s => .ok ((s.toList[i]?).elim .null fun c => .text (String.singleton c))
      | _ => .ok .null
    | _ => .error .expectedNumber

end Script.Value
