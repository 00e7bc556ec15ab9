import Script.Number.Text
import Script.Tree

/-!
# Values

What an expression is worth: a number, a text, a list, nothing, a function of the script or one of
the built-in functions. There is no type of truth values; `Value.isTruthy` says what counts as true.

A function remembers the `Site` of the literal it was made from: which tree, and which node of that
tree. Two functions are the same exactly when their sites are, however often the literal was
evaluated and however alike two literals look.
-/

namespace Script

/-- The place of a node: the tree it belongs to and the way down to it from the root. -/
structure Site where
  /-- Which of the trees loaded so far. -/
  unit : Nat
  /-- The positions among its siblings of the node itself, of its parent, and so on up to the
  root. -/
  path : List Nat
deriving DecidableEq, Repr

/-- The root of a tree. -/
def Site.root (unit : Nat) : Site := ⟨unit, []⟩

/-- The place of the child at the given position. -/
def Site.child (site : Site) (position : Nat) : Site := ⟨site.unit, position :: site.path⟩

/-- The built-in functions. -/
inductive Builtin where
  | print | println | scan | len | append | prepend | pop | shift | str | num
  | trim | upper | lower | replace | map | reduce | exit
deriving DecidableEq, Repr

namespace Builtin

/-- All built-in functions, in the order in which they are bound. -/
def all : List Builtin :=
  [.print, .println, .scan, .len, .append, .prepend, .pop, .shift, .str, .num,
    .trim, .upper, .lower, .replace, .map, .reduce, .exit]

/-- The name a built-in function is bound to at the start. -/
def name : Builtin → String
  | .print => "print"
  | .println => "println"
  | .scan => "scan"
  | .len => "len"
  | .append => "append"
  | .prepend => "prepend"
  | .pop => "pop"
  | .shift => "shift"
  | .str => "str"
  | .num => "num"
  | .trim => "trim"
  | .upper => "upper"
  | .lower => "lower"
  | .replace => "replace"
  | .map => "map"
  | .reduce => "reduce"
  | .exit => "exit"

/-- The parameters shown for a built-in function; dots mark any number of arguments. -/
def params : Builtin → List String
  | .print | .println => ["...values"]
  | .scan => ["prompt"]
  | .len | .str | .num => ["value"]
  | .append | .prepend => ["list", "...el"]
  | .pop | .shift => ["list"]
  | .trim | .upper | .lower => ["str"]
  | .replace => ["str", "old", "new"]
  | .map => ["list", "fun"]
  | .reduce => ["list", "fun", "initial"]
  | .exit => ["code"]

/-- The built-in function of that name. -/
def ofName? (name : String) : Option Builtin := all.find? fun b => b.name == name

end Builtin

/-- What an expression can be worth. -/
inductive Value where
  | number (value : Float)
  | text (value : String)
  | list (items : List Value)
  | null
  /-- A function made from the literal at `site`. -/
  | function (site : Site) (definition : Definition)
  | builtin (function : Builtin)

instance : Inhabited Value := ⟨.null⟩

/-- The types of values, as messages name them. -/
inductive ValueType where
  | number | text | list | null | function | builtin
deriving DecidableEq, Repr

/-- The name of a type in messages. -/
def ValueType.name : ValueType → String
  | .number => "number"
  | .text => "string"
  | .list => "list"
  | .null => "null"
  | .function => "function"
  | .builtin => "builtin function"

namespace Value

/-- The type of a value. -/
def type : Value → ValueType
  | .number _ => .number
  | .text _ => .text
  | .list _ => .list
  | .null => .null
  | .function .. => .function
  | .builtin _ => .builtin

/-- One for true and zero for false. -/
def ofBool (b : Bool) : Value := .number (if b then 1.0 else 0.0)

/-- Zero, the empty text and null count as false, everything else as true. -/
def isTruthy : Value → Bool
  | .number x => x != 0.0
  | .text s => !s.isEmpty
  | .null => false
  | .list _ | .function .. | .builtin _ => true

/-- Whether a value can be called. -/
def isCallable : Value → Bool
  | .function .. | .builtin _ => true
  | _ => false

/-- A function with its parameters. -/
def signature (name : String) (params : List String) : String :=
  name ++ "(" ++ String.intercalate ", " params ++ ")"

/-- A value as it is printed. Texts stand without quotes, also inside lists. -/
def display : Value → String
  | .number x => Number.text x
  | .text s => s
  | .list items => "[" ++ String.intercalate ", " (items.map fun item => item.display) ++ "]"
  | .null => "(null)"
  | .function _ definition => signature definition.displayName definition.params
  | .builtin b => "builtin:" ++ signature b.name b.params

mutual

/-- Whether two values are the same: numbers by value, texts and lists by content, functions by the
literal they were made from. -/
def equals : Value → Value → Bool
  | .number x, .number y => x == y
  | .text s, .text t => s == t
  | .list xs, .list ys => allEqual xs ys
  | .null, .null => true
  | .function site _, .function site' _ => site == site'
  | .builtin b, .builtin b' => b == b'
  | _, _ => false

/-- Whether two lists have the same items. -/
def allEqual : List Value → List Value → Bool
  | [], [] => true
  | x :: xs, y :: ys => equals x y && allEqual xs ys
  | _, _ => false

end

end Value

end Script
