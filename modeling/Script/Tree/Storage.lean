import Script.Json
import Script.Tree

/-!
# Trees as JSON

Trees are stored as JSON values. A node is an object with the members `node` and `span`. A form that
is nothing but its kind is the name of the kind; every other form is an object whose only member has
that name. What is left out in the source is `null`.

Reading is more tolerant than writing. Members stand in any order, members that mean nothing are
skipped, and a member that may be `null` may also be missing; an array may stand for an object if it
holds all members in their order; the kinds that are written as a name may also be objects whose
only member is `null`. A number beyond the range of numbers is refused.

`Node.toJson` and `Node.ofJson?` are the two directions.
-/

namespace Script

/-! ## Writing -/

namespace BinaryOp

/-- The stored name of an operator. -/
def storedName : BinaryOp → String
  | .add => "Add"
  | .sub => "Sub"
  | .mul => "Mul"
  | .div => "Div"
  | .mod => "Mod"
  | .pow => "Pow"
  | .eq => "Eq"
  | .ne => "Ne"
  | .lt => "Lt"
  | .gt => "Gt"
  | .le => "Le"
  | .ge => "Ge"
  | .and => "And"
  | .or => "Or"

/-- All operators with two operands. -/
def all : List BinaryOp :=
  [.add, .sub, .mul, .div, .mod, .pow, .eq, .ne, .lt, .gt, .le, .ge, .and, .or]

/-- The operator of a stored name. -/
def ofStoredName? (name : String) : Option BinaryOp := all.find? fun op => op.storedName = name

@[simp]
theorem ofStoredName?_storedName (op : BinaryOp) : ofStoredName? op.storedName = some op := by
  cases op <;> decide

end BinaryOp

namespace UnaryOp

/-- The stored name of an operator. -/
def storedName : UnaryOp → String
  | .neg => "Neg"
  | .plus => "Plus"
  | .not => "Not"

/-- All operators with one operand. -/
def all : List UnaryOp := [.neg, .plus, .not]

/-- The operator of a stored name. -/
def ofStoredName? (name : String) : Option UnaryOp := all.find? fun op => op.storedName = name

@[simp]
theorem ofStoredName?_storedName (op : UnaryOp) : ofStoredName? op.storedName = some op := by
  cases op <;> decide

end UnaryOp

/-- A stored position. -/
def Position.toJson (p : Position) : Json :=
  .record [("index", .ofNat p.index), ("line", .ofNat p.line), ("column", .ofNat p.column)]

/-- A stored span. -/
def Span.toJson (s : Span) : Json :=
  .record [("start", s.start.toJson), ("end", s.stop.toJson)]

/-- A stored number; the infinities have no numeral. -/
def numberToJson (x : Float) : Json :=
  match Json.Numeral.ofFloat? x with
  | some n => .number n
  | none => .null

/-- A stored text that may be absent. -/
def nameToJson : Option String → Json
  | some name => .ofString name
  | none => .null

/-- A form that has a content. -/
def taggedJson (kind : String) (content : Json) : Json := .record [(kind, content)]

mutual

/-- A stored node. -/
def Node.toJson : Node → Json
  | ⟨form, span⟩ => .record [("node", form.toJson), ("span", span.toJson)]

/-- A stored form. -/
def Form.toJson : Form → Json
  | .number x => taggedJson "Number" (numberToJson x)
  | .text s => taggedJson "Str" (.ofString s)
  | .null => .ofString "Null"
  | .list items => taggedJson "List" (.array (nodesToJson items))
  | .var name => taggedJson "Var" (.ofString name)
  | .assign name value =>
    taggedJson "Assign" (.record [("name", .ofString name), ("value", value.toJson)])
  | .binary left op right =>
    taggedJson "Binary" (.record
      [("left", left.toJson), ("op", .ofString op.storedName), ("right", right.toJson)])
  | .unary op operand =>
    taggedJson "Unary" (.record [("op", .ofString op.storedName), ("expr", operand.toJson)])
  | .ternary cond yes no =>
    taggedJson "Ternary" (.record
      [("cond", cond.toJson), ("then_branch", yes.toJson), ("else_branch", no.toJson)])
  | .index target place =>
    taggedJson "Index" (.record [("target", target.toJson), ("index", place.toJson)])
  | .ifElse arms otherwise =>
    taggedJson "If" (.record
      [("cases", .array (armsToJson arms)), ("else_branch", optionToJson otherwise)])
  | .whileLoop cond body =>
    taggedJson "While" (.record [("cond", cond.toJson), ("body", body.toJson)])
  | .forLoop name first last step body =>
    taggedJson "For" (.record
      [("var", .ofString name), ("from", first.toJson), ("to", last.toJson),
        ("by", optionToJson step), ("body", body.toJson)])
  | .function definition => taggedJson "Fn" definition.toJson
  | .call callee args =>
    taggedJson "Call" (.record [("callee", callee.toJson), ("args", .array (nodesToJson args))])
  | .returning value => taggedJson "Return" (optionToJson value)
  | .breaking => .ofString "Break"
  | .continuing => .ofString "Continue"
  | .block statements => taggedJson "Block" (.array (nodesToJson statements))

/-- Stored nodes. -/
def nodesToJson : List Node → List Json
  | [] => []
  | node :: nodes => node.toJson :: nodesToJson nodes

/-- A stored node that may be absent. -/
def optionToJson : Option Node → Json
  | some node => node.toJson
  | none => .null

/-- Stored arms. -/
def armsToJson : List Arm → List Json
  | [] => []
  | ⟨cond, body⟩ :: arms =>
    .record [("cond", cond.toJson), ("body", body.toJson)] :: armsToJson arms

/-- A stored definition. -/
def Definition.toJson : Definition → Json
  | ⟨name, params, body, isExpression⟩ =>
    .record
      [("name", nameToJson name), ("params", .array (params.map .ofString)), ("body", body.toJson),
        ("expr_body", .bool isExpression)]

end

/-! ## Reading -/

namespace Json

/-- The value of the only member with a name; `some none` if there is no such member, `none` if
there are several. -/
def member? (members : List (Option String × Json)) (name : String) : Option (Option Json) :=
  match members.filter fun member => member.1 = some name with
  | [] => some none
  | [(_, value)] => some (some value)
  | _ => none

/-- The values of the members with the given names, of an object or of an array that stands for one.
Members that are missing have no value; every name has to be a text. -/
def fields? (names : List String) : Json → Option (List (Option Json))
  | .object members =>
    if members.all fun member => member.1.isSome then names.mapM (member? members) else none
  | .array items => if items.length = names.length then some (items.map some) else none
  | _ => none

/-- The kind and the content of a stored form. -/
def tagged? : Json → Option (String × Option Json)
  | .text (some kind) => some (kind, none)
  | .object [(some kind, content)] => some (kind, some content)
  | _ => none

/-- The kind of a stored form that is nothing but its kind. -/
def kind? (j : Json) : Option String :=
  match tagged? j with
  | some (kind, none) => some kind
  | some (kind, some .null) => some kind
  | _ => none

/-- A stored text. -/
def toString? : Json → Option String
  | .text s => s
  | _ => none

/-- A stored count. -/
def toNat? : Json → Option Nat
  | .number n => n.toNat?
  | _ => none

/-- A stored number. -/
def toFloat? : Json → Option Float
  | .number n => n.toFloat?
  | _ => none

/-- A stored truth value. -/
def toBool? : Json → Option Bool
  | .bool b => some b
  | _ => none

/-- The items of an array. -/
def toItems? : Json → Option (List Json)
  | .array items => some items
  | _ => none

/-- What may be `null`, or missing altogether. -/
def optional {α : Type} (f : Json → Option α) : Option Json → Option (Option α)
  | none | some .null => some none
  | some j => (f j).map some

end Json

/-- The position that is stored. -/
def Position.ofJson? (j : Json) : Option Position := do
  match ← j.fields? ["index", "line", "column"] with
  | [some index, some line, some column] =>
    return ⟨← index.toNat?, ← line.toNat?, ← column.toNat?⟩
  | _ => none

/-- The span that is stored. -/
def Span.ofJson? (j : Json) : Option Span := do
  match ← j.fields? ["start", "end"] with
  | [some start, some stop] => return ⟨← Position.ofJson? start, ← Position.ofJson? stop⟩
  | _ => none

section

variable (node : Json → Option Node)

/-- The arm that is stored, given how to read nodes. -/
def armOfJson? (j : Json) : Option Arm := do
  match ← j.fields? ["cond", "body"] with
  | [some cond, some body] => return ⟨← node cond, ← node body⟩
  | _ => none

/-- The definition that is stored, given how to read nodes. -/
def definitionOfJson? (j : Json) : Option Definition := do
  match ← j.fields? ["name", "params", "body", "expr_body"] with
  | [name, some params, some body, some isExpression] =>
    return ⟨← Json.optional Json.toString? name, ← (← params.toItems?).mapM Json.toString?,
      ← node body, ← isExpression.toBool?⟩
  | _ => none

/-- The form of a kind with a content, given how to read nodes. -/
def formOfContent? (kind : String) (content : Json) : Option Form := do
  match kind with
  | "Number" => return .number (← content.toFloat?)
  | "Str" => return .text (← content.toString?)
  | "List" => return .list (← (← content.toItems?).mapM node)
  | "Var" => return .var (← content.toString?)
  | "Assign" =>
    match ← content.fields? ["name", "value"] with
    | [some name, some value] => return .assign (← name.toString?) (← node value)
    | _ => none
  | "Binary" =>
    match ← content.fields? ["left", "op", "right"] with
    | [some left, some op, some right] =>
      return .binary (← node left) (← BinaryOp.ofStoredName? (← op.kind?)) (← node right)
    | _ => none
  | "Unary" =>
    match ← content.fields? ["op", "expr"] with
    | [some op, some operand] =>
      return .unary (← UnaryOp.ofStoredName? (← op.kind?)) (← node operand)
    | _ => none
  | "Ternary" =>
    match ← content.fields? ["cond", "then_branch", "else_branch"] with
    | [some cond, some yes, some no] => return .ternary (← node cond) (← node yes) (← node no)
    | _ => none
  | "Index" =>
    match ← content.fields? ["target", "index"] with
    | [some target, some place] => return .index (← node target) (← node place)
    | _ => none
  | "If" =>
    match ← content.fields? ["cases", "else_branch"] with
    | [some arms, otherwise] =>
      return .ifElse (← (← arms.toItems?).mapM (armOfJson? node)) (← Json.optional node otherwise)
    | _ => none
  | "While" =>
    match ← content.fields? ["cond", "body"] with
    | [some cond, some body] => return .whileLoop (← node cond) (← node body)
    | _ => none
  | "For" =>
    match ← content.fields? ["var", "from", "to", "by", "body"] with
    | [some name, some first, some last, step, some body] =>
      return .forLoop (← name.toString?) (← node first) (← node last) (← Json.optional node step)
        (← node body)
    | _ => none
  | "Fn" => return .function (← definitionOfJson? node content)
  | "Call" =>
    match ← content.fields? ["callee", "args"] with
    | [some callee, some args] => return .call (← node callee) (← (← args.toItems?).mapM node)
    | _ => none
  | "Return" => return .returning (← Json.optional node (some content))
  | "Block" => return .block (← (← content.toItems?).mapM node)
  | _ => none

/-- The form that is stored, given how to read nodes. -/
def formOfJson? (j : Json) : Option Form :=
  match j.kind? with
  | some "Null" => some .null
  | some "Break" => some .breaking
  | some "Continue" => some .continuing
  | _ =>
    match j.tagged? with
    | some (kind, some content) => formOfContent? node kind content
    | _ => none

end

/-- The node that is stored in a value of at most the given height. -/
def nodeOfJson? : Nat → Json → Option Node
  | 0, _ => none
  | height + 1, j => do
    match ← j.fields? ["node", "span"] with
    | [some form, some span] =>
      return ⟨← formOfJson? (nodeOfJson? height) form, ← Span.ofJson? span⟩
    | _ => none

/-- The node that is stored. -/
def Node.ofJson? (j : Json) : Option Node := nodeOfJson? j.height j

end Script
