import Script.Token
import Script.Tree

/-!
# Writing trees as tokens

A tree is written down by the grammar, with parentheses around every operand that binds more loosely
than its position allows and, beyond those, as many more pairs around every expression as one likes:
`extra` says how many, for the way down to each node.

From loosest to tightest an expression is

* an assignment, a ternary or a function whose body is an expression,
* a chain of `and` and `or`,
* a negation,
* a chain of comparisons,
* a sum,
* a product,
* something with a sign,
* a power,
* a call or an element access,
* or an atom.

All chains group to the left and powers to the right. Not every tree can be written so that it is
read back: `isSource` says which ones have the form of a source.
-/

namespace Script

/-- How tightly an expression binds, loosest first. -/
inductive Level where
  | expression | connective | negation | comparison | additive | multiplicative | sign | power
  | suffix | atom
deriving DecidableEq, Repr

/-- The place of a level in the order. -/
def Level.rank : Level → Nat
  | .expression => 0
  | .connective => 1
  | .negation => 2
  | .comparison => 3
  | .additive => 4
  | .multiplicative => 5
  | .sign => 6
  | .power => 7
  | .suffix => 8
  | .atom => 9

namespace BinaryOp

/-- How tightly an operator binds. -/
def level : BinaryOp → Level
  | .and | .or => .connective
  | .eq | .ne | .lt | .gt | .le | .ge => .comparison
  | .add | .sub => .additive
  | .mul | .div | .mod => .multiplicative
  | .pow => .power

/-- The loosest level of a left operand without parentheses. All but powers group to the left. -/
def leftLevel (op : BinaryOp) : Level :=
  match op.level with
  | .power => .suffix
  | level => level

/-- The loosest level of a right operand without parentheses. -/
def rightLevel (op : BinaryOp) : Level :=
  match op.level with
  | .connective => .negation
  | .comparison => .additive
  | .additive => .multiplicative
  | _ => .sign

/-- The token of an operator with two operands. -/
def token : BinaryOp → Token
  | .add => .operator .plus
  | .sub => .operator .minus
  | .mul => .operator .star
  | .div => .operator .slash
  | .mod => .operator .percent
  | .pow => .operator .caret
  | .eq => .operator .equal
  | .ne => .operator .notEqual
  | .lt => .operator .less
  | .gt => .operator .greater
  | .le => .operator .lessEqual
  | .ge => .operator .greaterEqual
  | .and => .keyword .and
  | .or => .keyword .or

end BinaryOp

namespace UnaryOp

/-- How tightly an operator binds, and the loosest level of its operand without parentheses. -/
def level : UnaryOp → Level
  | .not => .negation
  | .neg | .plus => .sign

/-- The token of an operator with one operand. -/
def token : UnaryOp → Token
  | .neg => .operator .minus
  | .plus => .operator .plus
  | .not => .keyword .not

end UnaryOp

namespace Form

/-- How tightly the outermost part of a form binds. -/
def level : Form → Level
  | .assign .. | .ternary .. => .expression
  | .function definition => if definition.isExpression then .expression else .atom
  | .binary _ op _ => op.level
  | .unary op _ => op.level
  | .index .. | .call .. => .suffix
  | _ => .atom

/-- Whether a form leaves a loop or a function. -/
def isJump : Form → Bool
  | .returning _ | .breaking | .continuing => true
  | _ => false

/-- Whether a form is an expression. -/
def isExpression : Form → Bool
  | .returning _ | .breaking | .continuing | .block _ => false
  | _ => true

/-- How many pairs of parentheses stand around a form: `extra` ones and the one that its position
may ask for. -/
def parens (extra : Nat) (position : Level) (form : Form) : Nat :=
  if form.isExpression then extra + (if form.level.rank < position.rank then 1 else 0) else 0

end Form

/-- Tokens in so many pairs of parentheses. -/
def parenthesized : Nat → List Token → List Token
  | 0, tokens => tokens
  | k + 1, tokens => .operator .openParen :: (parenthesized k tokens ++ [.operator .closeParen])

/-- Names between commas. -/
def printNames : List String → List Token
  | [] => []
  | [name] => [.identifier name]
  | name :: names => .identifier name :: .operator .comma :: printNames names

section

variable (extra : List Nat → Nat)

mutual

/-- A node as tokens, in a position that allows for expressions of at least the given level. The way
down to the node is `path`, its own position among its siblings first. -/
def printAt (position : Level) (path : List Nat) : Node → List Token
  | ⟨form, _⟩ => parenthesized (form.parens (extra path) position) (printForm path form)

/-- A form as tokens, without parentheses around it. -/
def printForm (path : List Nat) : Form → List Token
  | .number x => [.number x]
  | .text s => [.text s]
  | .null => [.keyword .null]
  | .list items => .operator .openBracket :: (printItems path 0 items ++ [.operator .closeBracket])
  | .var name => [.identifier name]
  | .assign name value =>
    .keyword .set :: .identifier name :: .operator .assign :: printAt .expression (0 :: path) value
  | .binary left op right =>
    printAt op.leftLevel (0 :: path) left ++ op.token :: printAt op.rightLevel (1 :: path) right
  | .unary op operand => op.token :: printAt op.level (0 :: path) operand
  | .ternary cond yes no =>
    printAt .connective (0 :: path) cond ++ .operator .question ::
      (printAt .expression (1 :: path) yes ++ .operator .colon ::
        printAt .expression (2 :: path) no)
  | .index target place =>
    printAt .suffix (0 :: path) target ++ .operator .openBracket ::
      (printAt .expression (1 :: path) place ++ [.operator .closeBracket])
  | .ifElse arms otherwise =>
    printArms .if path 0 arms ++ printMarked .else ((2 * arms.length) :: path) otherwise
  | .whileLoop cond body =>
    .keyword .while :: (printAt .expression (0 :: path) cond
      ++ printAt .expression (1 :: path) body)
  | .forLoop name first last step body =>
    .keyword .for :: .identifier name :: .operator .assign ::
      (printAt .expression (0 :: path) first ++ .operator .colon ::
        (printAt .expression (1 :: path) last ++ (printMarked .by (2 :: path) step ++
          printAt .expression ((if step.isSome then 3 else 2) :: path) body)))
  | .function definition => printDefinition path definition
  | .call callee args =>
    printAt .suffix (0 :: path) callee ++ .operator .openParen ::
      (printItems path 1 args ++ [.operator .closeParen])
  | .returning none => [.keyword .return]
  | .returning (some value) => .keyword .return :: printAt .expression (0 :: path) value
  | .breaking => [.keyword .break]
  | .continuing => [.keyword .continue]
  | .block statements =>
    .operator .openBrace :: (printStatements path 0 statements ++ [.operator .closeBrace])

/-- A function literal as tokens. -/
def printDefinition (path : List Nat) : Definition → List Token
  | ⟨name, params, body, isExpression⟩ =>
    .keyword .fun :: ((name.map Token.identifier).toList ++ .operator .openParen ::
      (printNames params ++ .operator .closeParen ::
        ((if isExpression then [.operator .assign] else [])
          ++ printAt .expression (0 :: path) body)))

/-- Items between commas, the first of them at `position` among its siblings. -/
def printItems (path : List Nat) (position : Nat) : List Node → List Token
  | [] => []
  | item :: items =>
    printAt .expression (position :: path) item ++
      (if items.isEmpty then [] else .operator .comma :: printItems path (position + 1) items)

/-- Arms, the first of them behind `word` and the others behind `elif`. -/
def printArms (word : Keyword) (path : List Nat) (position : Nat) : List Arm → List Token
  | [] => []
  | ⟨cond, body⟩ :: arms =>
    .keyword word :: (printAt .expression (position :: path) cond ++
      (printAt .expression ((position + 1) :: path) body
        ++ printArms .elif path (position + 2) arms))

/-- A part that stands behind a word of its own, if it is there. -/
def printMarked (word : Keyword) (path : List Nat) : Option Node → List Token
  | none => []
  | some node => .keyword word :: printAt .expression path node

/-- Statements one after the other, the first of them at `position` among its siblings. -/
def printStatements (path : List Nat) (position : Nat) : List Node → List Token
  | [] => []
  | node :: nodes =>
    printAt .expression (position :: path) node ++ printStatements path (position + 1) nodes

end

/-- A program as tokens: its statements without braces. -/
def Node.print (tree : Node) : List Token :=
  match tree.form with
  | .block statements => printStatements extra [] 0 statements
  | _ => []

end

/-! ## The form of a source -/

/-- Whether a token could go on with the expression before it instead of starting the next one. -/
def Token.goesOn : Token → Bool
  | .operator op =>
    match op with
    | .openParen | .openBracket | .plus | .minus => true
    | _ => false
  | _ => false

/-- Whether a statement, written as `tokens`, may follow another one. What follows an expression
must not go on with it, and what follows a `return` without a value must not be taken for one. -/
def separated (before after : Form) (tokens : List Token) : Bool :=
  match before with
  | .returning none => after.isJump
  | .breaking | .continuing => true
  | _ => !tokens.head?.any Token.goesOn

/-- The roles that a node can have in a source. -/
inductive Role where
  | expression | statement | block
deriving DecidableEq, Repr

section

variable (extra : List Nat → Nat)

mutual

/-- Whether a node has the form of a source in the given role. -/
def isSourceNode (role : Role) (path : List Nat) : Node → Bool
  | ⟨form, _⟩ => isSourceForm role path form

/-- Whether a form has the form of a source in the given role. Blocks are the bodies of arms, loops
and functions in braces, jumps are statements of a block, and everything else is an expression. -/
def isSourceForm (role : Role) (path : List Nat) : Form → Bool
  | .number _ | .text _ | .null | .var _ => role != .block
  | .list items => role != .block && isSourceItems path 0 items
  | .assign _ value => role != .block && isSourceNode .expression (0 :: path) value
  | .binary left _ right =>
    role != .block && isSourceNode .expression (0 :: path) left &&
      isSourceNode .expression (1 :: path) right
  | .unary _ operand => role != .block && isSourceNode .expression (0 :: path) operand
  | .ternary cond yes no =>
    role != .block && isSourceNode .expression (0 :: path) cond &&
      isSourceNode .expression (1 :: path) yes && isSourceNode .expression (2 :: path) no
  | .index target place =>
    role != .block && isSourceNode .expression (0 :: path) target &&
      isSourceNode .expression (1 :: path) place
  | .ifElse arms otherwise =>
    role != .block && !arms.isEmpty && isSourceArms path 0 arms &&
      isSourceOption .block ((2 * arms.length) :: path) otherwise
  | .whileLoop cond body =>
    role != .block && isSourceNode .expression (0 :: path) cond && isSourceNode .block
      (1 :: path) body
  | .forLoop _ first last step body =>
    role != .block && isSourceNode .expression (0 :: path) first &&
      isSourceNode .expression (1 :: path) last && isSourceOption .expression (2 :: path) step &&
      isSourceNode .block ((if step.isSome then 3 else 2) :: path) body
  | .function definition => role != .block && isSourceDefinition path definition
  | .call callee args =>
    role != .block && isSourceNode .expression (0 :: path) callee && isSourceItems path 1 args
  | .returning value => role == .statement && isSourceOption .expression (0 :: path) value
  | .breaking | .continuing => role == .statement
  | .block statements => role == .block && isSourceStatements path 0 statements

/-- Whether a function literal has the form of a source: its body is an expression if it says so,
and else a block. -/
def isSourceDefinition (path : List Nat) : Definition → Bool
  | ⟨_, _, body, isExpression⟩ =>
    isSourceNode (if isExpression then .expression else .block) (0 :: path) body

/-- Whether items have the form of a source. -/
def isSourceItems (path : List Nat) (position : Nat) : List Node → Bool
  | [] => true
  | item :: items =>
    isSourceNode .expression (position :: path) item && isSourceItems path (position + 1) items

/-- Whether arms have the form of a source. -/
def isSourceArms (path : List Nat) (position : Nat) : List Arm → Bool
  | [] => true
  | ⟨cond, body⟩ :: arms =>
    isSourceNode .expression (position :: path) cond &&
      isSourceNode .block ((position + 1) :: path) body && isSourceArms path (position + 2) arms

/-- Whether a part that may be missing has the form of a source. -/
def isSourceOption (role : Role) (path : List Nat) : Option Node → Bool
  | none => true
  | some node => isSourceNode role path node

/-- Whether statements have the form of a source. -/
def isSourceStatements (path : List Nat) (position : Nat) : List Node → Bool
  | [] => true
  | node :: nodes =>
    isSourceNode .statement (position :: path) node &&
      (nodes.head?.all fun next =>
        separated node.form next.form (printAt extra .expression ((position + 1) :: path) next)) &&
      isSourceStatements path (position + 1) nodes

end

/-- Whether a tree has the form of a source, its root being the block of all statements. -/
def Node.isSource (tree : Node) : Bool := isSourceNode extra .block [] tree

end

end Script
