import Script.Machine
import Script.Text.LetterCase
import Script.Text.WhiteSpace
import Script.Value.Operations

/-!
# Built-in functions

What each built-in function does with its arguments. Most of them only compute a value (`compute`);
three use the console; `map` and `reduce` call a function for every item of a list, all in one scope
below the caller's.

Arguments are checked from left to right, their number first.
-/

namespace Script.Builtin

/-! ## Arguments -/

/-- The text that an argument is. -/
def wantText (b : Builtin) : Value → Except Fault String
  | .text s => .ok s
  | v => .error (.wrongArgument b .text v.type)

/-- The list that an argument is. -/
def wantList (b : Builtin) : Value → Except Fault (List Value)
  | .list items => .ok items
  | v => .error (.wrongArgument b .list v.type)

/-- Check that an argument can be called. -/
def wantFunction (b : Builtin) (v : Value) : Except Fault Unit :=
  if v.isCallable then .ok () else .error (.wrongArgument b .function v.type)

/-- The fault of a call with the wrong number of arguments. -/
def arityFault (b : Builtin) (expected : Nat) (args : List Value) : Fault :=
  .arity b.name expected args.length

/-- The one argument of a function. -/
def one (b : Builtin) : List Value → Except Fault Value
  | [v] => .ok v
  | args => .error (b.arityFault 1 args)

/-- The one argument, which has to be a list that is not empty. -/
def oneNonEmpty (b : Builtin) (args : List Value) : Except Fault (List Value) := do
  let items ← wantList b (← one b args)
  if items.isEmpty then .error (.emptyList b) else .ok items

/-- A list and the arguments after it, of which there has to be at least one. -/
def listAndRest (b : Builtin) : List Value → Except Fault (List Value × List Value)
  | first :: next :: rest => do return (← wantList b first, next :: rest)
  | args => .error (.tooFewArguments b args.length)

/-- A function from text to text. -/
def mapText (b : Builtin) (f : List Char → List Char) (args : List Value) : Except Fault Value := do
  let s ← wantText b (← one b args)
  return .text (String.ofList (f s.toList))

/-! ## Functions that only compute -/

/-- A number rounded toward zero and brought into the range of 32-bit codes. -/
def exitCode (x : Float) : Int :=
  if x.isNaN then 0
  else
    match Number.Magnitude.ofFloat? x with
    | none => if Number.isNegative x then -Nat.pow 2 31 else Nat.pow 2 31 - 1
    | some m =>
      if Number.isNegative x then max (-Nat.pow 2 31) (-(m.floor : Int))
      else min (Nat.pow 2 31 - 1) (m.floor : Int)

/-- The code that the arguments of `exit` ask for. -/
def exitArgument : List Value → Int
  | .number x :: _ => exitCode x
  | _ => 0

/-- The length of a list or of a text. -/
def lengthOf (v : Value) : Except Fault Value :=
  match v.length? with
  | some n => .ok (.number (Float.ofNat n))
  | none => .error (.noLength v.type)

/-- The number that a number or a text denotes. -/
def toNumber : Value → Except Fault Value
  | .number x => .ok (.number x)
  | .text s =>
    match Number.read? s with
    | some x => .ok (.number x)
    | none => .error (.notNumeral s)
  | v => .error (.notConvertible v.type)

/-- A text with every occurrence of another one replaced. Occurrences of the empty text are left
alone. -/
def replaceAll : List Value → Except Fault Value
  | [v, old, new] => do
    let s ← wantText .replace v
    let old ← wantText .replace old
    let new ← wantText .replace new
    if old.isEmpty then return .text s else return .text (s.replace old new)
  | args => .error (Builtin.replace.arityFault 3 args)

/-- The functions whose result depends on nothing but their arguments. Those that do more than that
have no value here. -/
def compute? (b : Builtin) (args : List Value) : Option (Except Fault Value) :=
  match b with
  | .len => some (one b args >>= lengthOf)
  | .append => some ((listAndRest b args).map fun (items, rest) => .list (items ++ rest))
  | .prepend => some ((listAndRest b args).map fun (items, rest) => .list (rest ++ items))
  | .pop => some ((oneNonEmpty b args).map fun items => .list items.dropLast)
  | .shift => some ((oneNonEmpty b args).map fun items => .list items.tail)
  | .str => some ((one b args).map fun v => .text v.display)
  | .num => some (one b args >>= toNumber)
  | .trim => some (mapText b Text.trim args)
  | .upper => some (mapText b Text.upper args)
  | .lower => some (mapText b Text.lower args)
  | .replace => some (replaceAll args)
  | .exit => some (.error (.exit (exitArgument args)))
  | .print | .println | .scan | .map | .reduce => none

/-! ## Functions that use the console -/

/-- Whether a value is a text. -/
def isText : Value → Bool
  | .text _ => true
  | _ => false

/-- What `print` writes after the value `before`: a space stands between two values neither of which
is a text. -/
def printAfter (before : Value) : List Value → String
  | [] => ""
  | v :: vs =>
    (if isText before || isText v then "" else " ") ++ v.display ++ printAfter v vs

/-- What `print` writes. -/
def printText : List Value → String
  | [] => ""
  | v :: vs => v.display ++ printAfter v vs

/-- What `println` writes. -/
def printLine (args : List Value) : String :=
  String.intercalate " " (args.map Value.display) ++ "\n"

/-- The prompt that the arguments of `scan` ask for. -/
def scanPrompt : List Value → Except Fault String
  | [] => .ok "> "
  | [v] => wantText .scan v
  | args => .error (Builtin.scan.arityFault 1 args)

/-- Show a prompt and read a line. -/
def scanLine (args : List Value) : Call Value := do
  let prompt ← Call.ofExcept (scanPrompt args)
  Call.write prompt
  return .text (← Call.readLine)

/-! ## Functions that call functions -/

section

variable (call : Value → List Value → ScopeId → Call Value)

/-- Call `f` on every item. The results so far are `results`, last one first. -/
def mapFrom (f : Value) (scope : ScopeId) (results : List Value) : List Value → Call Value
  | [] => return .list results.reverse
  | item :: items => do
    let result ← call f [item] scope
    mapFrom f scope (result :: results) items

/-- Call `f` on what was accumulated and every item in turn. -/
def reduceFrom (f : Value) (scope : ScopeId) (accumulated : Value) : List Value → Call Value
  | [] => return accumulated
  | item :: items => do
    let next ← call f [accumulated, item] scope
    reduceFrom f scope next items

/-- The list of the results of a function on the items of a list. -/
def mapCall (args : List Value) (caller : ScopeId) : Call Value :=
  match args with
  | [list, f] => do
    let items ← Call.ofExcept (wantList .map list)
    Call.ofExcept (wantFunction .map f)
    Call.inChild caller .empty fun scope => mapFrom call f scope [] items
  | _ => Call.raise (Builtin.map.arityFault 2 args)

/-- The value accumulated by a function over the items of a list. -/
def reduceCall (args : List Value) (caller : ScopeId) : Call Value :=
  match args with
  | [list, f, initial] => do
    let items ← Call.ofExcept (wantList .reduce list)
    Call.ofExcept (wantFunction .reduce f)
    Call.inChild caller .empty fun scope => reduceFrom call f scope initial items
  | _ => Call.raise (Builtin.reduce.arityFault 3 args)

/-- Call a built-in function. -/
def run (b : Builtin) (args : List Value) (caller : ScopeId) : Call Value :=
  match b with
  | .print => do
    Call.write (printText args)
    return .null
  | .println => do
    Call.write (printLine args)
    return .null
  | .scan => scanLine args
  | .map => mapCall call args caller
  | .reduce => reduceCall call args caller
  | b => Call.ofExcept ((b.compute? args).getD (.ok .null))

end

end Script.Builtin
