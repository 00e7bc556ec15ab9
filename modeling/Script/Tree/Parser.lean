import Script.FreshStack
import Script.Token.Lexer
import Script.Tree

/-!
# Reading trees

`parse` reads the lexemes of a source as a program, or blames one of them.

From loosest to tightest the levels of the grammar are: `set`, the ternary and `and`/`or`; `not` and
comparisons; `+ -`; `* / %`; the signs; `^`; calls and indexing; and the atoms. Every level with an
operator between operands is a `chain`, a left fold over the operands.

The rules are written for every `Cursor`, which says all that a rule can do with the lexemes: to
look at the next one, to move past it, to fail, and to go back. `Parser` is the cursor that programs
are read with.

## Trailing statements

Nothing separates statements, so one token of look-ahead does not tell whether a sequence goes on.
Only its first statement is mandatory. A later one that fails is given up: the cursor goes back to
its start and the sequence ends there. If the sequence cannot end there, the failure that was given
up is the one to report, provided that it got past the statement's first token. The value after
`return` is optional in the same way.

## Recursion

A rule of the grammar that comes round to itself does so through one of the `Goal`s, and only after
it consumed a token. So the parser of inputs of at most `n + 1` tokens, `parseGoal (n + 1)`, needs
no more than the parser of inputs of at most `n` tokens, and on an empty input every goal fails.
-/

namespace Script

universe u

/-- The failure of a trailing statement that was given up. -/
structure Abandoned where
  /-- Why the statement failed. -/
  error : SyntaxError
  /-- Whether it failed after its first token. -/
  progressed : Bool

/-- A cursor over the lexemes of a source: all that the rules of the grammar can do with them. -/
class Cursor (m : Type → Type u) where
  /-- The next lexeme, or nothing at the end of the input. -/
  peek : m (Option Lexeme)
  /-- Move past the next lexeme. -/
  advance : m Unit
  /-- Fail. -/
  throw {α : Type} (error : SyntaxError) : m α
  /-- The result of a rule and the span of the lexeme that it moved past last. If it moved past
  none, that is the one before, at `start`. -/
  trailing {α : Type} (start : Span) (rule : m α) : m (α × Span)
  /-- The last trailing statement that was given up, which is forgotten then. -/
  takeAbandoned : m (Option Abandoned)
  /-- The result of a rule if it succeeds. If it fails, the cursor goes back to where the rule
  started, and `note` says what is kept of the failure, and of what was kept before it. -/
  recover {α : Type} (rule : m α) (note : Abandoned → Option Abandoned → Option Abandoned) :
    m (Option α)

/-- What a parser looks at and leaves behind. -/
structure ParseState where
  /-- The lexemes not consumed yet, the end of the input left out. -/
  ahead : List Lexeme
  /-- The last trailing statement that was given up, if its failure may still have to be
  reported. -/
  abandoned : Option Abandoned

/-- A reader of some part of a program. It leaves its state behind also when it fails. -/
abbrev Parser : Type → Type := EStateM SyntaxError ParseState

/-- The lexemes between two positions of the cursor, from what was ahead of it then and is now. -/
def passedLexemes (before after : List Lexeme) : List Lexeme :=
  before.take (before.length - after.length)

/-- A parser has its cursor at the first of the lexemes ahead. -/
instance : Cursor Parser where
  peek s := .ok s.ahead.head? s
  advance s := .ok () { s with ahead := s.ahead.tail }
  throw error s := .error error s
  trailing start rule s :=
    match rule s with
    | .ok a s' =>
      .ok (a, ((passedLexemes s.ahead s'.ahead).getLast?.map Lexeme.span).getD start) s'
    | .error error s' => .error error s'
  takeAbandoned s := .ok s.abandoned { s with abandoned := none }
  recover rule note s :=
    match rule s with
    | .ok a s' => .ok (some a) s'
    | .error error s' =>
      .ok none ⟨s.ahead, note ⟨error, decide (s'.ahead.length < s.ahead.length)⟩ s'.abandoned⟩

/-- The rules of the grammar through which it comes round to itself. -/
inductive Goal where
  | expression
  | comparison
  | factor
  | block
deriving DecidableEq, Repr

/-- What is wrong where a goal finds no token at all. -/
def Goal.faultAtEnd : Goal → SyntaxFault
  | .block => .expected [.operator .openBrace]
  | _ => .unexpected

namespace Parser

export Cursor (peek advance throw trailing takeAbandoned recover)

variable {m : Type → Type u} [Monad m] [Cursor m]

/-! ## The cursor -/

/-- Move past the next lexeme if its token is selected. -/
def accept {α : Type} (select : Token → Option α) : m (Option (α × Span)) := do
  match ← peek with
  | none => return none
  | some lexeme =>
    match select lexeme.token with
    | none => return none
    | some a =>
      advance
      return some (a, lexeme.span)

/-- Move past one particular operator, if it is next. -/
def acceptOperator (op : Operator) : m (Option Span) := do
  let found ← accept fun
    | .operator o => if o = op then some () else none
    | _ => none
  return found.map Prod.snd

/-- Move past one particular reserved word, if it is next. -/
def acceptKeyword (word : Keyword) : m (Option Span) := do
  let found ← accept fun
    | .keyword k => if k = word then some () else none
    | _ => none
  return found.map Prod.snd

/-- Move past a name, if one is next. -/
def acceptIdentifier : m (Option String) := do
  let found ← accept fun
    | .identifier name => some name
    | _ => none
  return found.map Prod.fst

/-- What stands behind one particular reserved word, if that is next. -/
def optionally {α : Type} (word : Keyword) (rule : m α) : m (Option α) := do
  match ← acceptKeyword word with
  | some _ => return some (← rule)
  | none => return none

section

variable (stop : Span)

/-- The span of the next lexeme, `stop` being that of the end of the input. -/
def spanOf (ahead : List Lexeme) : Span :=
  match ahead with
  | [] => stop
  | lexeme :: _ => lexeme.span

/-- Blame the next lexeme. -/
def fail {α : Type} (fault : SyntaxFault) : m α := do
  let next ← peek
  throw ⟨fault, spanOf stop next.toList⟩

/-- Move past one particular operator, or say what was expected. -/
def expectOperator (op : Operator) (items : List Expectation) : m Span := do
  match ← acceptOperator op with
  | some span => return span
  | none => fail stop (.expected items)

/-- Move past one particular operator, which is all that was expected. -/
def require (op : Operator) : m Span := expectOperator stop op [.operator op]

/-- Move past a name, or say what was expected. -/
def expectIdentifier (items : List Expectation) : m String := do
  match ← acceptIdentifier with
  | some name => return name
  | none => fail stop (.expected items)

end

/-! ## Operators between operands -/

/-- Operators that join conditions. -/
def connective? : Token → Option BinaryOp
  | .keyword .and => some .and
  | .keyword .or => some .or
  | _ => none

/-- Operators that compare. -/
def comparison? : Token → Option BinaryOp
  | .operator .equal => some .eq
  | .operator .notEqual => some .ne
  | .operator .greater => some .gt
  | .operator .greaterEqual => some .ge
  | .operator .less => some .lt
  | .operator .lessEqual => some .le
  | _ => none

/-- Operators that add. -/
def additive? : Token → Option BinaryOp
  | .operator .plus => some .add
  | .operator .minus => some .sub
  | _ => none

/-- Operators that multiply. -/
def multiplicative? : Token → Option BinaryOp
  | .operator .star => some .mul
  | .operator .slash => some .div
  | .operator .percent => some .mod
  | _ => none

/-- The operator that raises to a power. -/
def exponential? : Token → Option BinaryOp
  | .operator .caret => some .pow
  | _ => none

/-- The signs. -/
def sign? : Token → Option UnaryOp
  | .operator .plus => some .plus
  | .operator .minus => some .neg
  | _ => none

/-- Go on with operators and operands after `left`, at most `n` times. -/
def chainFrom (operand : m Node) (select : Token → Option BinaryOp) : Nat → Node → m Node
  | 0, left => pure left
  | n + 1, left => do
    match ← accept select with
    | none => return left
    | some (op, _) =>
      let right ← operand
      chainFrom operand select n ⟨.binary left op right, left.span.merge right.span⟩

section

/-! ## The grammar

The parameters of the rules are the span of the end of the input, a bound on the number of tokens
ahead, and the way round to the goals. -/

variable (stop : Span) (bound : Nat) (self : Goal → m Node)

/-- `first (op operand)*`, grouped to the left. -/
def chain (first operand : m Node) (select : Token → Option BinaryOp) : m Node := do
  let left ← first
  chainFrom operand select bound left

/-- Further items of a list up to its closing bracket, at most `n` of them, and the span of that
bracket. The items so far are `items`, last one first. -/
def itemsFrom (close : Operator) : Nat → List Node → m (List Node × Span)
  | 0, _ => fail stop .unexpected
  | n + 1, items => do
    let item ← self .expression
    match ← acceptOperator .comma with
    | some _ => itemsFrom close n (item :: items)
    | none =>
      let last ← expectOperator stop close [.operator .comma, .operator close]
      return ((item :: items).reverse, last)

/-- Items between commas and the closing bracket, whose opening one is consumed already. -/
def items (close : Operator) : m (List Node × Span) := do
  match ← acceptOperator close with
  | some last => return ([], last)
  | none => itemsFrom stop self close (bound + 1) []

/-- Further `elif` arms, at most `n` of them. The arms so far are `arms`, last one first. -/
def armsFrom : Nat → List Arm → m (List Arm)
  | 0, arms => return arms.reverse
  | n + 1, arms => do
    match ← acceptKeyword .elif with
    | none => return arms.reverse
    | some _ =>
      let cond ← self .expression
      let body ← self .block
      armsFrom n (⟨cond, body⟩ :: arms)

/-- The arms of an `if` chain, from behind the word `if`. -/
def ifForm : m Form := do
  let cond ← self .expression
  let body ← self .block
  let arms ← armsFrom self bound [⟨cond, body⟩]
  let otherwise ← optionally .else (self .block)
  return .ifElse arms otherwise

/-- An `if` chain, from behind the word `if` at `start`. It ends with the brace of its last
block. -/
def ifElse (start : Span) : m Node := do
  let (form, last) ← trailing start (ifForm bound self)
  return ⟨form, start.merge last⟩

/-- A `while` loop, from behind the word `while` at `start`. -/
def whileLoop (start : Span) : m Node := do
  let cond ← self .expression
  let body ← self .block
  return ⟨.whileLoop cond body, start.merge body.span⟩

/-- A `for` loop, from behind the word `for` at `start`. -/
def forLoop (start : Span) : m Node := do
  let name ← expectIdentifier stop [.identifier]
  let _ ← require stop .assign
  let first ← self .expression
  let _ ← require stop .colon
  let last ← self .expression
  let step ← optionally .by (self .expression)
  let body ← self .block
  return ⟨.forLoop name first last step body, start.merge body.span⟩

/-- Further parameters, at most `n` of them. The names so far are `names`, last one first. -/
def paramsFrom : Nat → List String → m (List String)
  | 0, names => return names.reverse
  | n + 1, names => do
    match ← acceptOperator .comma with
    | none => return names.reverse
    | some _ =>
      let name ← expectIdentifier stop [.identifier]
      paramsFrom n (name :: names)

/-- Parameters and their closing parenthesis, whose opening one is consumed already. -/
def params : m (List String) := do
  match ← acceptOperator .closeParen with
  | some _ => return []
  | none =>
    let first ← expectIdentifier stop [.identifier, .operator .closeParen]
    let names ← paramsFrom stop bound [first]
    let _ ← expectOperator stop .closeParen [.operator .comma, .operator .closeParen]
    return names

/-- A function literal, from behind the word `fun` at `start`. -/
def function (start : Span) : m Node := do
  let name ← acceptIdentifier
  let _ ← expectOperator stop .openParen
    (if name.isSome then [.operator .openParen] else [.identifier, .operator .openParen])
  let names ← params stop bound
  match ← acceptOperator .assign with
  | some _ =>
    let body ← self .expression
    return ⟨.function ⟨name, names, body, true⟩, start.merge body.span⟩
  | none =>
    match ← peek with
    | some ⟨.operator .openBrace, _⟩ =>
      let body ← self .block
      return ⟨.function ⟨name, names, body, false⟩, start.merge body.span⟩
    | _ => fail stop (.expected [.operator .openBrace, .operator .assign])

/-- Literals, names, bracketed expressions, and the forms that start with a word of their own. -/
def atom : m Node := do
  match ← peek with
  | some ⟨.number x, span⟩ =>
    advance
    return ⟨.number x, span⟩
  | some ⟨.text s, span⟩ =>
    advance
    return ⟨.text s, span⟩
  | some ⟨.identifier name, span⟩ =>
    advance
    return ⟨.var name, span⟩
  | some ⟨.keyword .null, span⟩ =>
    advance
    return ⟨.null, span⟩
  | some ⟨.operator .openParen, span⟩ =>
    advance
    let inner ← self .expression
    let close ← require stop .closeParen
    return ⟨inner.form, span.merge close⟩
  | some ⟨.operator .openBracket, span⟩ =>
    advance
    let (elements, close) ← items stop bound self .closeBracket
    return ⟨.list elements, span.merge close⟩
  | some ⟨.keyword .if, span⟩ =>
    advance
    ifElse bound self span
  | some ⟨.keyword .while, span⟩ =>
    advance
    whileLoop self span
  | some ⟨.keyword .for, span⟩ =>
    advance
    forLoop stop self span
  | some ⟨.keyword .fun, span⟩ =>
    advance
    function stop bound self span
  | _ => fail stop .unexpected

/-- Calls and index accesses after `callee`, at most `n` of them. -/
def suffixesFrom : Nat → Node → m Node
  | 0, callee => return callee
  | n + 1, callee => do
    match ← acceptOperator .openParen with
    | some _ =>
      let (args, close) ← items stop bound self .closeParen
      suffixesFrom n ⟨.call callee args, callee.span.merge close⟩
    | none =>
      match ← acceptOperator .openBracket with
      | some _ =>
        let place ← self .expression
        let close ← require stop .closeBracket
        suffixesFrom n ⟨.index callee place, callee.span.merge close⟩
      | none => return callee

/-- An atom with any number of calls and index accesses. -/
def call : m Node := do
  let callee ← atom stop bound self
  suffixesFrom stop bound self bound callee

/-- A power. The exponent is a factor, which reaches down to a power again, so that powers group to
the right. -/
def power : m Node :=
  chain bound (call stop bound self) (self .factor) exponential?

/-- A power with any number of signs. -/
def factor : m Node := do
  match ← accept sign? with
  | some (op, start) =>
    let operand ← self .factor
    return ⟨.unary op operand, start.merge operand.span⟩
  | none => power stop bound self

/-- A product. -/
def term : m Node :=
  chain bound (factor stop bound self) (factor stop bound self) multiplicative?

/-- A sum. -/
def arithmetic : m Node :=
  chain bound (term stop bound self) (term stop bound self) additive?

/-- A comparison, or the negation of one. -/
def comparison : m Node := do
  match ← acceptKeyword .not with
  | some start =>
    let operand ← self .comparison
    return ⟨.unary .not operand, start.merge operand.span⟩
  | none => chain bound (arithmetic stop bound self) (arithmetic stop bound self) comparison?

/-- An assignment, a ternary, or a chain of conditions. -/
def expression : m Node := do
  match ← acceptKeyword .set with
  | some start =>
    let name ← expectIdentifier stop [.identifier]
    let _ ← require stop .assign
    let value ← self .expression
    return ⟨.assign name value, start.merge value.span⟩
  | none =>
    let cond ← chain bound (comparison stop bound self) (comparison stop bound self) connective?
    match ← acceptOperator .question with
    | none => return cond
    | some _ =>
      let yes ← self .expression
      let _ ← require stop .colon
      let no ← self .expression
      return ⟨.ternary cond yes no, cond.span.merge no.span⟩

/-! ## Statements -/

/-- The result of a rule if it succeeds; if it fails, the cursor stays where it was. -/
def attempt {α : Type} (rule : m α) : m (Option α) := recover rule fun _ kept => kept

/-- The same, except that the failure may still have to be reported. -/
def giveUp {α : Type} (rule : m α) : m (Option α) := recover rule fun failure _ => some failure

/-- One statement: a jump or an expression. -/
def statement : m Node := do
  match ← acceptKeyword .return with
  | some start =>
    let value ← attempt (expression stop bound self)
    return ⟨.returning value, (value.map fun v => start.merge v.span).getD start⟩
  | none =>
    match ← acceptKeyword .continue with
    | some span => return ⟨.continuing, span⟩
    | none =>
      match ← acceptKeyword .break with
      | some span => return ⟨.breaking, span⟩
      | none => expression stop bound self

/-- Whether a sequence of statements has reached its terminator or the end of the input. -/
def atSequenceEnd (terminator : Option Operator) (ahead : List Lexeme) : Bool :=
  match ahead with
  | [] => true
  | ⟨.operator op, _⟩ :: _ => terminator == some op
  | _ => false

/-- Further statements, at most `n` of them. The statements so far are `before`, last one first. One
that fails is given up, and the sequence ends before it. -/
def statementsFrom (terminator : Option Operator) : Nat → List Node → m (List Node)
  | 0, before => return before.reverse
  | n + 1, before => do
    let next ← peek
    if atSequenceEnd terminator next.toList then return before.reverse
    else
      match ← giveUp (statement stop bound self) with
      | some node => statementsFrom terminator n (node :: before)
      | none => return before.reverse

/-- A sequence of statements. Only the first one has to be there, and that only if the sequence does
not end at once. -/
def statements (terminator : Option Operator) : m (List Node) := do
  let next ← peek
  if atSequenceEnd terminator next.toList then return []
  else
    let node ← statement stop bound self
    statementsFrom stop bound self terminator bound [node]

/-- Blame a sequence that stopped before its terminator: on the statement given up there if it got
past its first token, and else on the next lexeme. -/
def leftover {α : Type} (fault : SyntaxFault) : m α := do
  match ← takeAbandoned with
  | some ⟨error, true⟩ => throw error
  | _ => fail stop fault

/-- Statements in braces. -/
def block : m Node := do
  let opening ← require stop .openBrace
  let _ ← takeAbandoned
  let body ← statements stop bound self (some .closeBrace)
  match ← acceptOperator .closeBrace with
  | some closing => return ⟨.block body, opening.merge closing⟩
  | none => leftover stop (.expected [.operator .closeBrace])

/-- The rule for a goal. -/
def goal : Goal → m Node
  | .expression => expression stop bound self
  | .comparison => comparison stop bound self
  | .factor => factor stop bound self
  | .block => block stop bound self

/-- The span of a program: from its first statement to its last, or `start` if it has none. -/
def programSpan (start : Span) (body : List Node) : Span :=
  match body.head?, body.getLast? with
  | some first, some last => first.span.merge last.span
  | _, _ => start

/-- All of the input as a sequence of statements. -/
def program : m Node := do
  let start ← peek
  let body ← statements stop bound self none
  match ← peek with
  | none => return ⟨.block body, programSpan (spanOf stop start.toList) body⟩
  | some _ => leftover stop .unexpected

end

end Parser

/-- The parser of a goal for inputs of at most the given number of tokens. -/
def parseGoal (stop : Span) : Nat → Goal → Parser Node
  | 0, goal => Parser.fail stop goal.faultAtEnd
  | n + 1, goal => fun s =>
    deeply 400 n fun _ => Parser.goal stop (n + 1) (parseGoal stop n) goal s

/-- The span of the end of the input: that of the first end marker, or else the point after the last
lexeme. -/
def endSpan (lexemes : List Lexeme) : Span :=
  match lexemes.find? fun l => l.token.isEof with
  | some marker => marker.span
  | none => Span.empty ((lexemes.getLast?.map fun l => l.span.stop).getD .start)

/-- The program that lexemes spell. Those after the first end marker do not count. -/
def parse (lexemes : List Lexeme) : Except SyntaxError Node :=
  let ahead := lexemes.takeWhile fun l => !l.token.isEof
  let stop := endSpan lexemes
  let bound := ahead.length
  match Parser.program stop bound (parseGoal stop bound) ⟨ahead, none⟩ with
  | .ok node _ => .ok node
  | .error error _ => .error error

/-- The program that a source spells. -/
def parseSource (source : String) : Except SyntaxError Node := do
  parse (← tokenize source)

end Script
