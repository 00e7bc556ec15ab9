import Script.SyntaxError
import Script.Value

/-!
# Failures of a run

A run that fails ends with one `RuntimeError`: the `Fault` that caused it and, once it has left a
node of the tree, the span of the innermost such node. Together with the errors in the form of a
source these are the `ScriptError`s that running a source can end with.

`Fault.kind` sorts the faults into the classes that are told apart outside, and `Fault.message` is
their wording.
-/

namespace Script

/-- Why the console refused to work. -/
inductive ConsoleFault where
  /-- The output has reached its limit. -/
  | full
  /-- The input has ended. -/
  | ended
  /-- A line of input is no text. -/
  | notText
deriving DecidableEq, Repr

/-- The wording of a console fault. -/
def ConsoleFault.message : ConsoleFault → String
  | .full => "console full"
  | .ended => "end of input"
  | .notText => "stream did not contain valid UTF-8"

/-- The words that leave a loop or a function. -/
inductive Jump where
  | break | continue | return
deriving DecidableEq, Repr

/-- The spelling of a jump. -/
def Jump.display : Jump → String
  | .break => "break"
  | .continue => "continue"
  | .return => "return"

/-- What has to be around a jump. -/
def Jump.context : Jump → String
  | .return => "a function"
  | _ => "a loop"

/-- The kinds of operands that arithmetic refuses by name. -/
inductive Operand where
  | text | list | null | function
deriving DecidableEq, Repr

/-- An operand in a message. -/
def Operand.display : Operand → String
  | .text => "string"
  | .list => "list"
  | .null => "null value"
  | .function => "function"

/-- The kinds of pairs that have no order. -/
inductive Unordered where
  | lists | nulls | functions | mixed
deriving DecidableEq, Repr

/-- What is refused when two values have no order. -/
def Unordered.display : Unordered → String
  | .lists => "lists"
  | .nulls => "null values"
  | .functions => "functions"
  | .mixed => "values of different types"

/-- What a built-in function wants of an argument. -/
inductive Wanted where
  | text | list | function
deriving DecidableEq, Repr

/-- A wanted argument in a message. -/
def Wanted.display : Wanted → String
  | .text => "string"
  | .list => "list"
  | .function => "function"

/-- What can go wrong while a program runs. -/
inductive Fault where
  /-- Something that is no number where only a number will do. -/
  | expectedNumber
  /-- Arithmetic on an operand that has none. -/
  | invalidOperation (op : BinaryOp) (operand : Operand)
  /-- Something other than a list added to a list. -/
  | onlyLists
  /-- A comparison of values that have no order. -/
  | unordered (what : Unordered)
  /-- An element of something that has none. -/
  | notIndexable (type : ValueType)
  /-- A position that is no whole number. -/
  | fractionalIndex (index : Float)
  /-- A loop that would not move. -/
  | zeroStep
  /-- An argument of the wrong type. -/
  | wrongArgument (function : Builtin) (wanted : Wanted) (got : ValueType)
  /-- The length of something that has none. -/
  | noLength (type : ValueType)
  /-- A text that denotes no number. -/
  | notNumeral (text : String)
  /-- A value that is never converted to a number. -/
  | notConvertible (type : ValueType)
  /-- A division, or the remainder of one, by zero. -/
  | divisionByZero
  /-- The use of a variable that is not bound. -/
  | undefinedVariable (name : String)
  /-- A call with the wrong number of arguments. -/
  | arity (function : String) (expected got : Nat)
  /-- A call with fewer than two arguments. -/
  | tooFewArguments (function : Builtin) (got : Nat)
  /-- A position outside of a list or a text. -/
  | indexOutOfRange (index : Float) (length : Nat)
  /-- An element of an empty list. -/
  | emptyList (function : Builtin)
  /-- A call of something that is no function. -/
  | notCallable (type : ValueType)
  /-- More calls inside each other than allowed. -/
  | callDepth (limit : Nat)
  /-- A jump with nothing around it to leave. -/
  | misplaced (jump : Jump)
  /-- A failure of the console. -/
  | console (fault : ConsoleFault)
  /-- A text longer than allowed. -/
  | textTooLong (limit : Nat)
  /-- The script asked to end with this code. -/
  | exit (code : Int)

/-- The classes of faults. -/
inductive FaultKind where
  | typeError | divisionByZero | undefinedVariable | arityMismatch | indexOutOfBounds | notCallable
  | stackOverflow | invalidControlFlow | ioError | tooLarge | exit (code : Int)
deriving DecidableEq, Repr

namespace Fault

/-- The class a fault belongs to. -/
def kind : Fault → FaultKind
  | .expectedNumber | .invalidOperation .. | .onlyLists | .unordered _ | .notIndexable _
  | .fractionalIndex _ | .zeroStep | .wrongArgument .. | .noLength _ | .notNumeral _
  | .notConvertible _ => .typeError
  | .divisionByZero => .divisionByZero
  | .undefinedVariable _ => .undefinedVariable
  | .arity .. | .tooFewArguments .. => .arityMismatch
  | .indexOutOfRange .. | .emptyList _ => .indexOutOfBounds
  | .notCallable _ => .notCallable
  | .callDepth _ => .stackOverflow
  | .misplaced _ => .invalidControlFlow
  | .console _ => .ioError
  | .textTooLong _ => .tooLarge
  | .exit code => .exit code

/-- The message shown for a fault. -/
def message : Fault → String
  | .expectedNumber => "Expected a number"
  | .invalidOperation op operand =>
    "Invalid '" ++ op.display ++ "' operation on a " ++ operand.display
  | .onlyLists => "Only lists can be concatenated with a list"
  | .unordered what => "Can't compare " ++ what.display
  | .notIndexable type => "Can't index a " ++ type.name ++ " value"
  | .fractionalIndex index => "Index must be a whole number, got " ++ Number.text index
  | .zeroStep => "Step of a for loop can't be zero"
  | .wrongArgument function wanted got =>
    function.name ++ "() expects a " ++ wanted.display ++ ", got a " ++ got.name
  | .noLength type => "len() only works for strings or lists, got a " ++ type.name
  | .notNumeral text => "Can't convert \"" ++ text ++ "\" into a number"
  | .notConvertible type => "num() only converts strings, got a " ++ type.name
  | .divisionByZero => "Can't divide by zero"
  | .undefinedVariable name => "Undefined variable '" ++ name ++ "'"
  | .arity function expected got =>
    "Expected " ++ toString expected ++ " argument(s) for " ++ function ++ ", got " ++ toString got
  | .tooFewArguments function got =>
    "Expected at least 2 arguments for " ++ function.name ++ ", got " ++ toString got
  | .indexOutOfRange index length =>
    "Index out of range (" ++ Number.text index ++ ") with length of " ++ toString length
  | .emptyList function => function.name ++ "() on an empty list"
  | .notCallable type => "Can't call a " ++ type.name ++ " value"
  | .callDepth limit => "Maximum call depth exceeded (" ++ toString limit ++ ")"
  | .misplaced jump => "'" ++ jump.display ++ "' outside of " ++ jump.context
  | .console fault => "IO error: " ++ fault.message
  | .textTooLong limit =>
    "String would exceed the maximum length (" ++ toString limit ++ " bytes)"
  | .exit code => "exit(" ++ toString code ++ ")"

end Fault

/-- A fault and, once known, the span of the node to blame. -/
structure RuntimeError where
  /-- What went wrong. -/
  fault : Fault
  /-- The innermost node that was being evaluated. -/
  span : Option Span

namespace RuntimeError

/-- Blame a node, unless one nearer to the fault is blamed already. -/
def blame (e : RuntimeError) (span : Span) : RuntimeError :=
  match e.span with
  | some _ => e
  | none => { e with span := some span }

/-- The message shown for the error. -/
def message (e : RuntimeError) : String := e.fault.message

/-- The error in one line. -/
def display (e : RuntimeError) : String :=
  match e.span with
  | some span => "Runtime error at " ++ span.display ++ ": " ++ e.message
  | none => "Runtime error: " ++ e.message

end RuntimeError

/-- Why a source did not come to a value. -/
inductive ScriptError where
  /-- It is no program. -/
  | refused (error : SyntaxError)
  /-- Its run failed. -/
  | failed (error : RuntimeError)

namespace ScriptError

/-- The heading an error is reported under. -/
def title : ScriptError → String
  | .refused e => e.title
  | .failed _ => "Runtime Error"

/-- The message shown for an error. -/
def message : ScriptError → String
  | .refused e => e.message
  | .failed e => e.message

/-- The stretch of source to blame. -/
def span : ScriptError → Option Span
  | .refused e => some e.span
  | .failed e => e.span

/-- An error in one line. -/
def display : ScriptError → String
  | .refused e => e.display
  | .failed e => e.display

/-- The code a script asked to end with, if that is what ended it. -/
def exitCode? : ScriptError → Option Int
  | .failed ⟨.exit code, _⟩ => some code
  | _ => none

end ScriptError

end Script
