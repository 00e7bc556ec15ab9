import Script.FreshStack
import Script.Machine.Builtins

/-!
# Evaluation

The value of a node in a scope, and the result of a call.

Scoping is dynamic: the body of a function runs in a scope below that of its caller, so a free name
in it means whatever it means where the function is called. The right operand of an operator is
evaluated before the left one; everything else goes from left to right.

## Shape of the definitions

`evalNode` and `callValue` say what one node and one call do, in terms of how the nodes below and
the calls made are evaluated. `eval` and `call` tie the knot with an amount of fuel that bounds how
deep they are inside each other and how often a loop goes round. An amount that is enough once is
enough for the same result ever after.
-/

namespace Script

section

variable (settings : Settings) (fuel : Nat)
variable (eval : Node → Site → ScopeId → Eval Value)
variable (call : Value → List Value → ScopeId → Call Value)

/-- Call a function made by a script. -/
def callFunction (site : Site) (definition : Definition) (args : List Value) (caller : ScopeId) :
    Call Value := fun m =>
  if args.length ≠ definition.params.length then
    Call.raise (.arity definition.displayName definition.params.length args.length) m
  else if settings.maxCallDepth ≤ m.depth then
    Call.raise (.callDepth settings.maxCallDepth) m
  else
    Call.inChild caller (.ofPairs definition.params args)
      (fun scope =>
        Call.deeper
          (Call.ofBody definition.isExpression (eval definition.body (site.child 0) scope)))
      m

/-- Call a value. -/
def callValue (callee : Value) (args : List Value) (caller : ScopeId) : Call Value :=
  match callee with
  | .function site definition => callFunction settings eval site definition args caller
  | .builtin b => b.run call args caller
  | v => Call.raise (.notCallable v.type)

/-- Evaluate nodes in order. The values so far are `values`, last one first; the first of the nodes
stands at `position` among its siblings. -/
def evalEach (site : Site) (scope : ScopeId) (values : List Value) (position : Nat) :
    List Node → Eval (List Value)
  | [] => return values.reverse
  | node :: nodes => do
    let value ← eval node (site.child position) scope
    evalEach site scope (value :: values) (position + 1) nodes

/-- Evaluate nodes in order for the value of the last one, or `last` if there are none. -/
def evalSequence (site : Site) (scope : ScopeId) (last : Value) (position : Nat) :
    List Node → Eval Value
  | [] => return last
  | node :: nodes => do
    let value ← eval node (site.child position) scope
    evalSequence site scope value (position + 1) nodes

/-- Evaluate the first arm whose condition holds, or else the last branch. -/
def evalArms (site : Site) (scope : ScopeId) (otherwise : Option Node) (position : Nat) :
    List Arm → Eval Value
  | [] =>
    match otherwise with
    | some body => eval body (site.child position) scope
    | none => return .null
  | arm :: arms => do
    let cond ← eval arm.cond (site.child position) scope
    if cond.isTruthy then eval arm.body (site.child (position + 1)) scope
    else evalArms site scope otherwise (position + 2) arms

/-- Evaluate a node that has to be a number. -/
def evalNumber (node : Node) (site : Site) (scope : ScopeId) : Eval Float := do
  match ← eval node site scope with
  | .number x => return x
  | _ => Eval.raise .expectedNumber node.span

/-- Go round a loop as long as its condition holds, at most `n` times. -/
def whileFrom (cond body : Eval Value) : Nat → Eval Value
  | 0 => throw (.failing .exhausted)
  | n + 1 => do
    let value ← cond
    if value.isTruthy then
      if ← Eval.iteration body then whileFrom cond body n else return .null
    else return .null

/-- Whether a counter has not passed the end of its range yet. -/
def inRange (counter last step : Float) : Bool :=
  (step > 0.0 && counter ≤ last) || (step < 0.0 && counter ≥ last)

/-- Go round a counting loop, at most `n` times. The counter is kept apart from the variable, so the
body cannot change it. -/
def forFrom (scope : ScopeId) (name : String) (last step : Float) (body : Eval Value) :
    Nat → Float → Eval Value
  | 0, _ => throw (.failing .exhausted)
  | n + 1, counter => do
    if inRange counter last step then
      Eval.modifyScopes fun scopes => scopes.define scope name (.number counter)
      if ← Eval.iteration body then forFrom scope name last step body n (counter + step)
      else return .null
    else return .null

/-- Evaluate one node. -/
def evalNode (node : Node) (site : Site) (scope : ScopeId) : Eval Value :=
  match node.form with
  | .number x => return .number x
  | .text s => return .text s
  | .null => return .null
  | .list items => return .list (← evalEach eval site scope [] 0 items)
  | .var name => do
    match ← Eval.lookup scope name with
    | some value => return value
    | none =>
      if settings.strictVariables then Eval.raise (.undefinedVariable name) node.span
      else return .null
  | .assign name valueNode => do
    let value ← eval valueNode (site.child 0) scope
    Eval.modifyScopes fun scopes => scopes.define scope name value
    return value
  | .binary left op right => do
    let rightValue ← eval right (site.child 1) scope
    let leftValue ← eval left (site.child 0) scope
    Eval.ofExcept (Value.binary op leftValue rightValue) node.span
  | .unary op operand => do
    let value ← eval operand (site.child 0) scope
    Eval.ofExcept (Value.unary op value) node.span
  | .ternary cond yes no => do
    let value ← eval cond (site.child 0) scope
    if value.isTruthy then eval yes (site.child 1) scope else eval no (site.child 2) scope
  | .index target place => do
    let targetValue ← eval target (site.child 0) scope
    let placeValue ← eval place (site.child 1) scope
    Eval.ofExcept (Value.index targetValue placeValue) node.span
  | .ifElse arms otherwise => evalArms eval site scope otherwise 0 arms
  | .whileLoop cond body =>
    whileFrom (eval cond (site.child 0) scope) (eval body (site.child 1) scope) fuel
  | .forLoop name first last step body => do
    let firstValue ← evalNumber eval first (site.child 0) scope
    let lastValue ← evalNumber eval last (site.child 1) scope
    let stepValue ←
      match step with
      | some step => evalNumber eval step (site.child 2) scope
      | none => pure 1.0
    if stepValue == 0.0 then Eval.raise .zeroStep node.span
    else
      let bodySite := site.child (if step.isSome then 3 else 2)
      Eval.finallyScopes
        (forFrom scope name lastValue stepValue (eval body bodySite scope) fuel firstValue)
        fun scopes => scopes.remove scope name
  | .function definition => do
    let value := Value.function site definition
    match definition.name with
    | some name => Eval.modifyScopes fun scopes => scopes.define scope name value
    | none => pure ()
    return value
  | .call callee args => do
    let calleeValue ← eval callee (site.child 0) scope
    let argValues ← evalEach eval site scope [] 1 args
    Eval.ofCall (call calleeValue argValues scope) node.span
  | .returning value => do
    let result ←
      match value with
      | some value => eval value (site.child 0) scope
      | none => pure .null
    throw (.returning result)
  | .breaking => throw (.breaking node.span)
  | .continuing => throw (.continuing node.span)
  | .block statements => evalSequence eval site scope .null 0 statements

end

mutual

/-- The evaluation of a node in a scope with an amount of fuel. -/
def eval (settings : Settings) : Nat → Node → Site → ScopeId → Eval Value
  | 0, _, _, _ => throw (.failing .exhausted)
  | fuel + 1, node, site, scope => fun m =>
    deeply 400 fuel fun _ =>
      evalNode settings fuel (eval settings fuel) (call settings fuel) node site scope m

/-- A call with an amount of fuel. -/
def call (settings : Settings) : Nat → Value → List Value → ScopeId → Call Value
  | 0, _, _, _ => throw .exhausted
  | fuel + 1, callee, args, scope => fun m =>
    deeply 400 fuel fun _ =>
      callValue settings (eval settings fuel) (call settings fuel) callee args scope m

end

@[simp]
theorem eval_zero (settings : Settings) (node : Node) (site : Site) (scope : ScopeId)
    (m : Machine) :
    eval settings 0 node site scope m = .error (.failing .exhausted) m := by
  simp only [eval]
  rfl

@[simp]
theorem call_zero (settings : Settings) (callee : Value) (args : List Value) (scope : ScopeId)
    (m : Machine) : call settings 0 callee args scope m = .error .exhausted m := by
  simp only [call]
  rfl

theorem eval_succ (settings : Settings) (fuel : Nat) :
    eval settings (fuel + 1)
      = evalNode settings fuel (eval settings fuel) (call settings fuel) := by
  funext node site scope m
  simp only [eval, deeply_eq]

theorem call_succ (settings : Settings) (fuel : Nat) :
    call settings (fuel + 1) = callValue settings (eval settings fuel) (call settings fuel) := by
  funext callee args scope m
  simp only [call, deeply_eq]

end Script
