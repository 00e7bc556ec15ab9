import Script.Number.Text
import Script.Position

/-!
# Syntax trees

A program is a tree of nodes. Statements are expressions too: every node has a value, and the nodes
that leave a loop or a function interrupt the evaluation around them instead.

A `Node` is a `Form` and the span it was read from. `Form.children` lists the nodes directly below a
form in the order of the source, and `Form.label` says everything else about it; `Node.outline`
lists a whole tree that way.
-/

namespace Script

/-- Operators with two operands. -/
inductive BinaryOp where
  | add | sub | mul | div | mod | pow
  | eq | ne | lt | gt | le | ge
  | and | or
deriving DecidableEq, Repr

/-- The spelling of an operator with two operands. -/
def BinaryOp.display : BinaryOp → String
  | .add => "+"
  | .sub => "-"
  | .mul => "*"
  | .div => "/"
  | .mod => "%"
  | .pow => "^"
  | .eq => "=="
  | .ne => "!="
  | .lt => "<"
  | .gt => ">"
  | .le => "<="
  | .ge => ">="
  | .and => "and"
  | .or => "or"

/-- Operators with one operand. -/
inductive UnaryOp where
  | neg | plus | not
deriving DecidableEq, Repr

/-- The spelling of an operator with one operand. -/
def UnaryOp.display : UnaryOp → String
  | .neg => "-"
  | .plus => "+"
  | .not => "not"

mutual

/-- A piece of a program and the stretch of source it was read from. -/
structure Node where
  /-- What the piece is. -/
  form : Form
  /-- Where it stands. -/
  span : Span

/-- The kinds of nodes. -/
inductive Form where
  /-- A numeral. -/
  | number (value : Float)
  /-- A text literal. -/
  | text (value : String)
  /-- The literal `null`. -/
  | null
  /-- A list of items in brackets. -/
  | list (items : List Node)
  /-- The use of a variable. -/
  | var (name : String)
  /-- `set name = value`. -/
  | assign (name : String) (value : Node)
  /-- An operator between two operands. -/
  | binary (left : Node) (op : BinaryOp) (right : Node)
  /-- An operator before its operand. -/
  | unary (op : UnaryOp) (operand : Node)
  /-- `cond ? yes : no`. -/
  | ternary (cond yes no : Node)
  /-- `target[place]`. -/
  | index (target place : Node)
  /-- A chain of `if` and `elif` arms with an optional `else`. -/
  | ifElse (arms : List Arm) (otherwise : Option Node)
  /-- `while cond { body }`. -/
  | whileLoop (cond body : Node)
  /-- `for name = first : last by step { body }`. -/
  | forLoop (name : String) (first last : Node) (step : Option Node) (body : Node)
  /-- A function literal. -/
  | function (definition : Definition)
  /-- A call. -/
  | call (callee : Node) (args : List Node)
  /-- `return`, with an optional value. -/
  | returning (value : Option Node)
  /-- `break`. -/
  | breaking
  /-- `continue`. -/
  | continuing
  /-- A sequence of statements, worth the value of the last one. -/
  | block (statements : List Node)

/-- One `if` or `elif` arm. -/
structure Arm where
  /-- The condition. -/
  cond : Node
  /-- What runs when it holds. -/
  body : Node

/-- What a function literal says. -/
structure Definition where
  /-- The name, unless the function is anonymous. -/
  name : Option String
  /-- The parameters in order. -/
  params : List String
  /-- What a call evaluates. -/
  body : Node
  /-- Whether a call is worth the value of its body. A body in braces is worth nothing unless it
  returns. -/
  isExpression : Bool

end

instance : Inhabited Node := ⟨⟨.null, default⟩⟩

/-- The name shown for a function. -/
def Definition.displayName (d : Definition) : String := d.name.getD "anonymous"

namespace Form

/-- The nodes directly below a form, in the order in which they stand in the source. -/
def children : Form → List Node
  | .number _ | .text _ | .null | .var _ | .breaking | .continuing => []
  | .list items => items
  | .assign _ value => [value]
  | .binary left _ right => [left, right]
  | .unary _ operand => [operand]
  | .ternary cond yes no => [cond, yes, no]
  | .index target place => [target, place]
  | .ifElse arms otherwise => arms.flatMap (fun arm => [arm.cond, arm.body]) ++ otherwise.toList
  | .whileLoop cond body => [cond, body]
  | .forLoop _ first last step body => [first, last] ++ step.toList ++ [body]
  | .function definition => [definition.body]
  | .call callee args => callee :: args
  | .returning value => value.toList
  | .block statements => statements

/-- Everything about a form but its children. -/
def label : Form → String
  | .number x => "Number " ++ Number.text x
  | .text s => "Str " ++ s
  | .null => "Null"
  | .list items => "List " ++ toString items.length
  | .var name => "Var " ++ name
  | .assign name _ => "Assign " ++ name
  | .binary _ op _ => "Binary " ++ op.display
  | .unary op _ => "Unary " ++ op.display
  | .ternary .. => "Ternary"
  | .index .. => "Index"
  | .ifElse arms otherwise =>
    "If " ++ toString arms.length ++ (if otherwise.isSome then " else" else " -")
  | .whileLoop .. => "While"
  | .forLoop name _ _ step _ => "For " ++ name ++ (if step.isSome then " by" else " -")
  | .function d =>
    "Fn " ++ d.displayName ++ "(" ++ String.intercalate "," d.params ++ ")"
      ++ (if d.isExpression then " expr" else " block")
  | .call _ args => "Call " ++ toString args.length
  | .returning value => if value.isSome then "Return 1" else "Return 0"
  | .breaking => "Break"
  | .continuing => "Continue"
  | .block statements => "Block " ++ toString statements.length

theorem sizeOf_lt_of_mem_children {form : Form} {node : Node} (h : node ∈ form.children) :
    sizeOf node < sizeOf form := by
  cases form with
  | number | text | null | var | breaking | continuing => simp [children] at h
  | list items =>
    have hlt : sizeOf node < sizeOf items := List.sizeOf_lt_of_mem h
    simp only [list.sizeOf_spec]
    omega
  | block statements =>
    have hlt : sizeOf node < sizeOf statements := List.sizeOf_lt_of_mem h
    simp only [block.sizeOf_spec]
    omega
  | assign | unary =>
    simp only [children, List.mem_cons, List.not_mem_nil, or_false] at h
    subst h
    simp +arith
  | binary | index | whileLoop =>
    simp only [children, List.mem_cons, List.not_mem_nil, or_false] at h
    rcases h with rfl | rfl <;> simp +arith
  | ternary =>
    simp only [children, List.mem_cons, List.not_mem_nil, or_false] at h
    rcases h with rfl | rfl | rfl <;> simp +arith
  | function definition =>
    obtain ⟨_, _, body, _⟩ := definition
    have hb : node = body := by simpa [children] using h
    simp only [hb, function.sizeOf_spec, Definition.mk.sizeOf_spec]
    omega
  | ifElse arms otherwise =>
    simp only [children, List.mem_append, List.mem_flatMap, List.mem_cons,
      List.not_mem_nil, or_false, Option.mem_toList] at h
    simp only [ifElse.sizeOf_spec]
    rcases h with ⟨⟨cond, body⟩, harm, h⟩ | rfl
    · have hlt := List.sizeOf_lt_of_mem harm
      simp only [Arm.mk.sizeOf_spec] at hlt
      rcases h with rfl | rfl <;> omega
    · simp only [Option.some.sizeOf_spec]
      omega
  | forLoop name first last step body =>
    simp only [children, List.mem_append, List.mem_cons, List.not_mem_nil, or_false,
      Option.mem_toList] at h
    rcases h with ((rfl | rfl) | rfl) | rfl <;> simp +arith
  | call callee args =>
    simp only [children, List.mem_cons] at h
    simp only [call.sizeOf_spec]
    rcases h with rfl | h
    · omega
    · have hlt := List.sizeOf_lt_of_mem h
      omega
  | returning value =>
    simp only [children, Option.mem_toList] at h
    subst h
    simp +arith

end Form

namespace Node

/-- The nodes directly below a node. -/
def children (node : Node) : List Node := node.form.children

theorem sizeOf_lt_of_mem_children {node child : Node} (h : child ∈ node.children) :
    sizeOf child < sizeOf node := by
  obtain ⟨form, span⟩ := node
  have hlt : sizeOf child < sizeOf form := Form.sizeOf_lt_of_mem_children h
  simp only [Node.mk.sizeOf_spec]
  omega

/-- One line of an outline: how deep the node lies, what it is and which span it covers. -/
def outlineLine (depth : Nat) (node : Node) : String :=
  let place (p : Position) := toString p.index ++ ":" ++ toString p.line ++ ":" ++ toString p.column
  toString depth ++ " " ++ node.form.label ++ " @" ++ place node.span.start ++ "-"
    ++ place node.span.stop

/-- The outline of a tree whose root lies at `depth`, with the lines `rest` after it. -/
def outlineOnto (node : Node) (depth : Nat) (rest : List String) : List String :=
  outlineLine depth node ::
    node.children.attach.foldr (fun ⟨child, _⟩ lines => child.outlineOnto (depth + 1) lines) rest
termination_by sizeOf node
decreasing_by
  exact sizeOf_lt_of_mem_children ‹_›

/-- The nodes of a tree, one line each, a node before its children. -/
def outline (node : Node) : List String := node.outlineOnto 0 []

end Node

end Script
