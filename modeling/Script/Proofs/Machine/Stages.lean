import Script.Proofs.Machine.Frame

/-!
# Stages of a run

A run evaluates nodes and calls values, each from the machine that what came before has left behind.
These are its stages. `Inside` says which stages a stage comes to: for each rule of the evaluator,
what is evaluated or called next once the parts before it have come to their values. `Raises` says
when a stage comes to an error of its own: a value operation or a built-in function refuses its
arguments, a check of the number of arguments or of the depth of calls fails, a bound is no number,
a variable is not bound, a jump leaves the body of a function, or the console does not work.

Neither of them says what becomes of an error. That it leaves every stage around it is
`Fails.of_inside`, with what the constructs on its way do when they are left: a call blames its
node, a counting loop unbinds its variable, and the scope of a function goes (`Surrounding`).
-/

namespace Script

/-! ## What is left on the way out -/

/-- A construct that an error leaves, as far as it does anything then. -/
inductive Surrounding where
  /-- The node of a call. -/
  | call (span : Span)
  /-- A counting loop with its variable. -/
  | loop (scope : ScopeId) (name : String)
  /-- A function whose variables have a scope of this number. -/
  | function (scope : ScopeId)
  /-- A built-in function that calls its argument, in a scope of this number. -/
  | items (scope : ScopeId)

namespace Surrounding

/-- Leave a construct. -/
def leave : Surrounding → Machine → Machine
  | .call _, m => m
  | .loop scope name, m => { m with scopes := m.scopes.remove scope name }
  | .function scope, m => { m with scopes := m.scopes.keep scope, depth := m.depth - 1 }
  | .items scope, m => { m with scopes := m.scopes.keep scope }

/-- The span that is blamed for an error that nothing is blamed for yet. -/
def blamed? : Surrounding → Option Span
  | .call span => some span
  | _ => none

/-- The failure that comes out of a construct. -/
def pass (surrounding : Surrounding) (f : Failure) : Failure :=
  match surrounding.blamed? with
  | some span => f.blame span
  | none => f

/-- Leave constructs, the innermost first. -/
def leaveAll (surroundings : List Surrounding) (m : Machine) : Machine :=
  surroundings.foldl (fun m surrounding => surrounding.leave m) m

/-- The failure that comes out of constructs, the innermost first. -/
def passAll (surroundings : List Surrounding) (f : Failure) : Failure :=
  surroundings.foldl (fun f surrounding => surrounding.pass f) f

/-- Surroundings are left from the inside out. -/
theorem leaveAll_append (inner outer : List Surrounding) (m : Machine) :
    leaveAll (inner ++ outer) m = leaveAll outer (leaveAll inner m) :=
  List.foldl_append

/-- A failure passes surroundings from the inside out. -/
theorem passAll_append (inner outer : List Surrounding) (f : Failure) :
    passAll (inner ++ outer) f = passAll outer (passAll inner f) :=
  List.foldl_append

/-- Nothing is blamed for running out of fuel. -/
theorem passAll_exhausted (surroundings : List Surrounding) :
    passAll surroundings .exhausted = .exhausted := by
  induction surroundings with
  | nil => rfl
  | cons surrounding surroundings ih => cases surrounding <;> exact ih

end Surrounding

/-! ## Stages -/

/-- A node to be evaluated or a value to be called, and the machine at that moment. -/
inductive Stage where
  | node (fuel : Nat) (node : Node) (site : Site) (scope : ScopeId) (m : Machine)
  | call (fuel : Nat) (callee : Value) (args : List Value) (scope : ScopeId) (m : Machine)

/-- A stage ends with a failure and leaves a machine behind. -/
def Fails (settings : Settings) : Stage → Failure → Machine → Prop
  | .node fuel node site scope m, f, m' =>
    eval settings fuel node site scope m = .error (.failing f) m'
  | .call fuel callee args scope m, f, m' => call settings fuel callee args scope m = .error f m'

section

variable (settings : Settings) (k : Nat) (site : Site) (scope : ScopeId)

/-- The conditions of these arms were evaluated in order and do not hold. The first of them stands
at `position`. -/
inductive Refused : Nat → List Arm → Machine → Machine → Prop
  | nil (position : Nat) (m : Machine) : Refused position [] m m
  | cons {position : Nat} {arm : Arm} {arms : List Arm} {v : Value} {m m₁ m₂ : Machine}
      (hcond : eval settings k arm.cond (site.child position) scope m = .ok v m₁)
      (hfalse : v.isTruthy = false) (h : Refused (position + 2) arms m₁ m₂) :
    Refused position (arm :: arms) m m₂

/-- A loop went round this often. -/
inductive WhileRounds (cond body : Eval Value) : Nat → Machine → Machine → Prop
  | zero (m : Machine) : WhileRounds cond body 0 m m
  | succ {n : Nat} {v : Value} {m m₁ m₂ m₃ : Machine} (hcond : cond m = .ok v m₁)
      (htrue : v.isTruthy)
      (hbody : Eval.iteration body m₁ = .ok true m₂) (h : WhileRounds cond body n m₂ m₃) :
    WhileRounds cond body (n + 1) m m₃

/-- The machine at the start of a round of a counting loop. -/
def Machine.counting (m : Machine) (scope : ScopeId) (name : String) (counter : Float) : Machine :=
  { m with scopes := m.scopes.define scope name (.number counter) }

/-- A counting loop went round this often, and came from one counter to another. -/
inductive ForRounds (name : String) (last step : Float) (body : Eval Value) :
    Nat → Float → Machine → Float → Machine → Prop
  | zero (counter : Float) (m : Machine) : ForRounds name last step body 0 counter m counter m
  | succ {n : Nat} {counter counter' : Float} {m m₁ m₂ : Machine} (hin : inRange counter last step)
      (hbody : Eval.iteration body (m.counting scope name counter) = .ok true m₁)
      (h : ForRounds name last step body n (counter + step) m₁ counter' m₂) :
    ForRounds name last step body (n + 1) counter m counter' m₂

/-- The step of a counting loop, which is one if none is given. -/
def evalStep : Option Node → Eval Float
  | some step => evalNumber (eval settings k) step (site.child 2) scope
  | none => pure 1.0

/-- The three bounds of a counting loop were evaluated to these numbers. -/
structure Bounds (first last : Node) (step : Option Node) (x y z : Float) (m m₁ m₂ m₃ : Machine) :
    Prop where
  first : evalNumber (eval settings k) first (site.child 0) scope m = .ok x m₁
  last : evalNumber (eval settings k) last (site.child 1) scope m₁ = .ok y m₂
  step : evalStep settings k site scope step m₂ = .ok z m₃

end

/-- A stage comes to another one. Between them an error leaves the constructs in the list. -/
inductive Inside (settings : Settings) : Stage → List Surrounding → Stage → Prop
  | item {k site scope span m m₁ items before item after values}
      (hitems : items = before ++ item :: after)
      (hbefore : evalEach (eval settings k) site scope [] 0 before m = .ok values m₁) :
    Inside settings (.node (k + 1) ⟨.list items, span⟩ site scope m) []
      (.node k item (site.child before.length) scope m₁)
  | assigned {k site scope span m name value} :
    Inside settings (.node (k + 1) ⟨.assign name value, span⟩ site scope m) []
      (.node k value (site.child 0) scope m)
  | right {k site scope span m left op right} :
    Inside settings (.node (k + 1) ⟨.binary left op right, span⟩ site scope m) []
      (.node k right (site.child 1) scope m)
  | left {k site scope span m m₁ left op right v}
      (hright : eval settings k right (site.child 1) scope m = .ok v m₁) :
    Inside settings (.node (k + 1) ⟨.binary left op right, span⟩ site scope m) []
      (.node k left (site.child 0) scope m₁)
  | operand {k site scope span m op operand} :
    Inside settings (.node (k + 1) ⟨.unary op operand, span⟩ site scope m) []
      (.node k operand (site.child 0) scope m)
  | cond {k site scope span m cond yes no} :
    Inside settings (.node (k + 1) ⟨.ternary cond yes no, span⟩ site scope m) []
      (.node k cond (site.child 0) scope m)
  | yes {k site scope span m m₁ cond yes no v}
      (hcond : eval settings k cond (site.child 0) scope m = .ok v m₁) (htrue : v.isTruthy) :
    Inside settings (.node (k + 1) ⟨.ternary cond yes no, span⟩ site scope m) []
      (.node k yes (site.child 1) scope m₁)
  | no {k site scope span m m₁ cond yes no v}
      (hcond : eval settings k cond (site.child 0) scope m = .ok v m₁)
      (hfalse : v.isTruthy = false) :
    Inside settings (.node (k + 1) ⟨.ternary cond yes no, span⟩ site scope m) []
      (.node k no (site.child 2) scope m₁)
  | target {k site scope span m target place} :
    Inside settings (.node (k + 1) ⟨.index target place, span⟩ site scope m) []
      (.node k target (site.child 0) scope m)
  | place {k site scope span m m₁ target place v}
      (htarget : eval settings k target (site.child 0) scope m = .ok v m₁) :
    Inside settings (.node (k + 1) ⟨.index target place, span⟩ site scope m) []
      (.node k place (site.child 1) scope m₁)
  | armCond {k site scope span m m₁ arms otherwise before arm after}
      (harms : arms = before ++ arm :: after)
      (hbefore : Refused settings k site scope 0 before m m₁) :
    Inside settings (.node (k + 1) ⟨.ifElse arms otherwise, span⟩ site scope m) []
      (.node k arm.cond (site.child (2 * before.length)) scope m₁)
  | armBody {k site scope span m m₁ m₂ arms otherwise before arm after v}
      (harms : arms = before ++ arm :: after)
      (hbefore : Refused settings k site scope 0 before m m₁)
      (hcond : eval settings k arm.cond (site.child (2 * before.length)) scope m₁ = .ok v m₂)
      (htrue : v.isTruthy) :
    Inside settings (.node (k + 1) ⟨.ifElse arms otherwise, span⟩ site scope m) []
      (.node k arm.body (site.child (2 * before.length + 1)) scope m₂)
  | otherwise {k site scope span m m₁ arms body}
      (harms : Refused settings k site scope 0 arms m m₁) :
    Inside settings (.node (k + 1) ⟨.ifElse arms (some body), span⟩ site scope m) []
      (.node k body (site.child (2 * arms.length)) scope m₁)
  | whileCond {k site scope span m m₁ cond body n} (hn : n < k)
      (hrounds : WhileRounds (eval settings k cond (site.child 0) scope)
        (eval settings k body (site.child 1) scope) n m m₁) :
    Inside settings (.node (k + 1) ⟨.whileLoop cond body, span⟩ site scope m) []
      (.node k cond (site.child 0) scope m₁)
  | whileBody {k site scope span m m₁ m₂ cond body n v} (hn : n < k)
      (hrounds : WhileRounds (eval settings k cond (site.child 0) scope)
        (eval settings k body (site.child 1) scope) n m m₁)
      (hcond : eval settings k cond (site.child 0) scope m₁ = .ok v m₂) (htrue : v.isTruthy) :
    Inside settings (.node (k + 1) ⟨.whileLoop cond body, span⟩ site scope m) []
      (.node k body (site.child 1) scope m₂)
  | first {k site scope span m name first last step body} :
    Inside settings (.node (k + 1) ⟨.forLoop name first last step body, span⟩ site scope m) []
      (.node k first (site.child 0) scope m)
  | last {k site scope span m m₁ name first last step body x}
      (hfirst : evalNumber (eval settings k) first (site.child 0) scope m = .ok x m₁) :
    Inside settings (.node (k + 1) ⟨.forLoop name first last step body, span⟩ site scope m) []
      (.node k last (site.child 1) scope m₁)
  | step {k site scope span m m₁ m₂ name first last step body x y}
      (hfirst : evalNumber (eval settings k) first (site.child 0) scope m = .ok x m₁)
      (hlast : evalNumber (eval settings k) last (site.child 1) scope m₁ = .ok y m₂) :
    Inside settings (.node (k + 1) ⟨.forLoop name first last (some step) body, span⟩ site scope m)
      [] (.node k step (site.child 2) scope m₂)
  | forBody {k site scope span m m₁ m₂ m₃ m₄ name first last step body x y z n counter}
      (hbounds : Bounds settings k site scope first last step x y z m m₁ m₂ m₃)
      (hz : (z == 0.0) = false) (hn : n < k)
      (hrounds : ForRounds scope name y z
        (eval settings k body (site.child (if step.isSome then 3 else 2)) scope) n x m₃ counter m₄)
      (hin : inRange counter y z) :
    Inside settings (.node (k + 1) ⟨.forLoop name first last step body, span⟩ site scope m)
      [.loop scope name]
      (.node k body (site.child (if step.isSome then 3 else 2)) scope
        (m₄.counting scope name counter))
  | callee {k site scope span m callee args} :
    Inside settings (.node (k + 1) ⟨.call callee args, span⟩ site scope m) []
      (.node k callee (site.child 0) scope m)
  | argument {k site scope span m m₁ m₂ callee args before arg after v values}
      (hcallee : eval settings k callee (site.child 0) scope m = .ok v m₁)
      (hargs : args = before ++ arg :: after)
      (hbefore : evalEach (eval settings k) site scope [] 1 before m₁ = .ok values m₂) :
    Inside settings (.node (k + 1) ⟨.call callee args, span⟩ site scope m) []
      (.node k arg (site.child (1 + before.length)) scope m₂)
  | calls {k site scope span m m₁ m₂ callee args v values}
      (hcallee : eval settings k callee (site.child 0) scope m = .ok v m₁)
      (hargs : evalEach (eval settings k) site scope [] 1 args m₁ = .ok values m₂) :
    Inside settings (.node (k + 1) ⟨.call callee args, span⟩ site scope m) [.call span]
      (.call k v values scope m₂)
  | returned {k site scope span m value} :
    Inside settings (.node (k + 1) ⟨.returning (some value), span⟩ site scope m) []
      (.node k value (site.child 0) scope m)
  | statement {k site scope span m m₁ statements before statement after v}
      (hstatements : statements = before ++ statement :: after)
      (hbefore : evalSequence (eval settings k) site scope .null 0 before m = .ok v m₁) :
    Inside settings (.node (k + 1) ⟨.block statements, span⟩ site scope m) []
      (.node k statement (site.child before.length) scope m₁)
  | body {k site definition args scope m} (hargs : args.length = definition.params.length)
      (hdepth : m.depth < settings.maxCallDepth) :
    Inside settings (.call (k + 1) (.function site definition) args scope m)
      [.function m.scopes.size]
      (.node k definition.body (site.child 0) m.scopes.size
        { m with
          scopes := m.scopes.child scope (.ofPairs definition.params args)
          depth := m.depth + 1 })
  | mapped {k scope m m₁ items f before item after v} (hf : f.isCallable)
      (hitems : items = before ++ item :: after)
      (hbefore : Builtin.mapFrom (call settings k) f m.scopes.size [] before
        { m with scopes := m.scopes.child scope .empty } = .ok v m₁) :
    Inside settings (.call (k + 1) (.builtin .map) [.list items, f] scope m) [.items m.scopes.size]
      (.call k f [item] m.scopes.size m₁)
  | reduced {k scope m m₁ items f initial before item after v} (hf : f.isCallable)
      (hitems : items = before ++ item :: after)
      (hbefore : Builtin.reduceFrom (call settings k) f m.scopes.size initial before
        { m with scopes := m.scopes.child scope .empty } = .ok v m₁) :
    Inside settings (.call (k + 1) (.builtin .reduce) [.list items, f, initial] scope m)
      [.items m.scopes.size] (.call k f [v, item] m.scopes.size m₁)

/-! ## Errors of a stage's own -/

/-- How many arguments the built-in functions take that call one of them. -/
def Builtin.callbackArity? : Builtin → Option Nat
  | .map => some 2
  | .reduce => some 3
  | _ => none

/-- A built-in function refuses to work, and leaves a machine behind. -/
inductive Builtin.Refuses (m : Machine) : Builtin → List Value → Fault → Machine → Prop
  /-- Its arguments are not such as it computes with, or it is there to end the run. -/
  | computes {b args fault} (h : Builtin.compute? b args = some (.error fault)) :
    Builtin.Refuses m b args fault m
  | prints {args fault} (h : m.console.write (Builtin.printText args) = .error fault) :
    Builtin.Refuses m .print args (.console fault) m
  | printsLine {args fault} (h : m.console.write (Builtin.printLine args) = .error fault) :
    Builtin.Refuses m .println args (.console fault) m
  | prompt {args fault} (h : Builtin.scanPrompt args = .error fault) :
    Builtin.Refuses m .scan args fault m
  | prompts {args prompt fault} (hprompt : Builtin.scanPrompt args = .ok prompt)
      (h : m.console.write prompt = .error fault) :
    Builtin.Refuses m .scan args (.console fault) m
  | reads {args prompt console console' fault} (hprompt : Builtin.scanPrompt args = .ok prompt)
      (hwrite : m.console.write prompt = .ok console)
      (h : console.readLine = (.error fault, console')) :
    Builtin.Refuses m .scan args (.console fault) { m with console := console' }
  | arity {b args n} (hb : Builtin.callbackArity? b = some n) (h : args.length ≠ n) :
    Builtin.Refuses m b args (b.arityFault n args) m
  | list {b args n v fault} (hb : Builtin.callbackArity? b = some n) (hn : args.length = n)
      (hv : args[0]? = some v) (h : Builtin.wantList b v = .error fault) :
    Builtin.Refuses m b args fault m
  | function {b args n v items f fault} (hb : Builtin.callbackArity? b = some n)
      (hn : args.length = n)
      (hv : args[0]? = some v) (hlist : Builtin.wantList b v = .ok items) (hf : args[1]? = some f)
      (h : Builtin.wantFunction b f = .error fault) :
    Builtin.Refuses m b args fault m

/-- A stage comes to an error that it raises itself, and leaves a machine behind. -/
inductive Raises (settings : Settings) : Stage → RuntimeError → Machine → Prop
  | undefined {k site scope span m name} (hstrict : settings.strictVariables)
      (h : m.scopes.get? scope name = none) :
    Raises settings (.node (k + 1) ⟨.var name, span⟩ site scope m)
      ⟨.undefinedVariable name, some span⟩ m
  | binary {k site scope span m m₁ m₂ left op right v w fault}
      (hright : eval settings k right (site.child 1) scope m = .ok w m₁)
      (hleft : eval settings k left (site.child 0) scope m₁ = .ok v m₂)
      (h : Value.binary op v w = .error fault) :
    Raises settings (.node (k + 1) ⟨.binary left op right, span⟩ site scope m) ⟨fault, some span⟩ m₂
  | unary {k site scope span m m₁ op operand v fault}
      (hoperand : eval settings k operand (site.child 0) scope m = .ok v m₁)
      (h : Value.unary op v = .error fault) :
    Raises settings (.node (k + 1) ⟨.unary op operand, span⟩ site scope m) ⟨fault, some span⟩ m₁
  | index {k site scope span m m₁ m₂ target place v w fault}
      (htarget : eval settings k target (site.child 0) scope m = .ok v m₁)
      (hplace : eval settings k place (site.child 1) scope m₁ = .ok w m₂)
      (h : Value.index v w = .error fault) :
    Raises settings (.node (k + 1) ⟨.index target place, span⟩ site scope m) ⟨fault, some span⟩ m₂
  | first {k site scope span m m₁ name first last step body v}
      (hfirst : eval settings k first (site.child 0) scope m = .ok v m₁) (h : ∀ x, v ≠ .number x) :
    Raises settings (.node (k + 1) ⟨.forLoop name first last step body, span⟩ site scope m)
      ⟨.expectedNumber, some first.span⟩ m₁
  | last {k site scope span m m₁ m₂ name first last step body x v}
      (hfirst : evalNumber (eval settings k) first (site.child 0) scope m = .ok x m₁)
      (hlast : eval settings k last (site.child 1) scope m₁ = .ok v m₂) (h : ∀ x, v ≠ .number x) :
    Raises settings (.node (k + 1) ⟨.forLoop name first last step body, span⟩ site scope m)
      ⟨.expectedNumber, some last.span⟩ m₂
  | step {k site scope span m m₁ m₂ m₃ name first last step body x y v}
      (hfirst : evalNumber (eval settings k) first (site.child 0) scope m = .ok x m₁)
      (hlast : evalNumber (eval settings k) last (site.child 1) scope m₁ = .ok y m₂)
      (hstep : eval settings k step (site.child 2) scope m₂ = .ok v m₃) (h : ∀ x, v ≠ .number x) :
    Raises settings (.node (k + 1) ⟨.forLoop name first last (some step) body, span⟩ site scope m)
      ⟨.expectedNumber, some step.span⟩ m₃
  | zeroStep {k site scope span m m₁ m₂ m₃ name first last step body x y z}
      (hbounds : Bounds settings k site scope first last step x y z m m₁ m₂ m₃) (h : z == 0.0) :
    Raises settings (.node (k + 1) ⟨.forLoop name first last step body, span⟩ site scope m)
      ⟨.zeroStep, some span⟩ m₃
  | notCallable {k callee args scope m} (h : callee.isCallable = false) :
    Raises settings (.call (k + 1) callee args scope m) ⟨.notCallable callee.type, none⟩ m
  | arity {k site definition args scope m} (h : args.length ≠ definition.params.length) :
    Raises settings (.call (k + 1) (.function site definition) args scope m)
      ⟨.arity definition.displayName definition.params.length args.length, none⟩ m
  | depth {k site definition args scope m} (hargs : args.length = definition.params.length)
      (h : settings.maxCallDepth ≤ m.depth) :
    Raises settings (.call (k + 1) (.function site definition) args scope m)
      ⟨.callDepth settings.maxCallDepth, none⟩ m
  /-- A jump leaves the body of a function, other than by `return`. -/
  | jump {k site definition args scope m m₁ jump span interrupt}
      (hargs : args.length = definition.params.length) (hdepth : m.depth < settings.maxCallDepth)
      (hjump : (jump = .break ∧ interrupt = .breaking span) ∨
        (jump = .continue ∧ interrupt = .continuing span))
      (h : eval settings k definition.body (site.child 0) m.scopes.size
        { m with
          scopes := m.scopes.child scope (.ofPairs definition.params args)
          depth := m.depth + 1 } = .error interrupt m₁) :
    Raises settings (.call (k + 1) (.function site definition) args scope m)
      ⟨.misplaced jump, some span⟩ ((Surrounding.function m.scopes.size).leave m₁)
  | builtin {k b args scope m m₁ fault} (h : Builtin.Refuses m b args fault m₁) :
    Raises settings (.call (k + 1) (.builtin b) args scope m) ⟨fault, none⟩ m₁

/-! ## Computations in sequence -/

section

variable {ε α β : Type} {x : EStateM ε Machine α} {f : α → EStateM ε Machine β} {m m₁ : Machine}

/-- After a first part that comes to a value, the second goes on with it. -/
theorem run_bind_of_ok {a : α} (h : x m = .ok a m₁) : (x >>= f) m = f a m₁ := by
  show EStateM.bind x f m = f a m₁
  rw [EStateM.bind, h]

/-- A first part that fails is all there is. -/
theorem run_bind_of_error {e : ε} (h : x m = .error e m₁) : (x >>= f) m = .error e m₁ := by
  show EStateM.bind x f m = .error e m₁
  rw [EStateM.bind, h]

/-- A sequence fails with its first part, or with its second when the first has come to a result. -/
theorem run_bind_eq_error {e : ε} (h : (x >>= f) m = .error e m₁) :
    x m = .error e m₁ ∨ ∃ a m₂, x m = .ok a m₂ ∧ f a m₂ = .error e m₁ := by
  cases hx : x m with
  | ok a m₂ =>
    rw [run_bind_of_ok hx] at h
    exact .inr ⟨a, m₂, rfl, h⟩
  | error e' m' =>
    rw [run_bind_of_error hx] at h
    cases h
    exact .inl rfl

/-- A sequence comes to a result if both of its parts do. -/
theorem run_bind_eq_ok {b : β} (h : (x >>= f) m = .ok b m₁) :
    ∃ a m₂, x m = .ok a m₂ ∧ f a m₂ = .ok b m₁ := by
  cases hx : x m with
  | ok a m₂ =>
    rw [run_bind_of_ok hx] at h
    exact ⟨a, m₂, rfl, h⟩
  | error e' m' =>
    rw [run_bind_of_error hx] at h
    cases h

end

/-- A failure is none of the jumps that end a round. -/
theorem iteration_of_failing {body : Eval Value} {f : Failure} {m m₁ : Machine}
    (h : body m = .error (.failing f) m₁) : Eval.iteration body m = .error (.failing f) m₁ := by
  rw [Eval.iteration, h]

/-! ## Several calls in order -/

/-- A computation takes the items of a list one after the other: it does a `step` with each of them,
and goes on from the `next` state. -/
structure Folds {ε α β γ σ : Type} (loop : σ → List α → EStateM ε Machine β)
    (step : σ → α → EStateM ε Machine γ) (next : σ → γ → σ) (result : σ → β) : Prop where
  nil : ∀ s, loop s [] = pure (result s)
  cons : ∀ s x xs, loop s (x :: xs) = step s x >>= fun r => loop (next s r) xs

namespace Folds

variable {ε α β γ σ : Type} {loop : σ → List α → EStateM ε Machine β}
variable {step : σ → α → EStateM ε Machine γ} {next : σ → γ → σ} {result : σ → β}
variable {m m₁ m₂ : Machine} {e : ε}

/-- If a loop comes to a result with the items before, and fails with the next one in every state
that this can be, then it fails. -/
theorem of_error (h : Folds loop step next result) {before after : List α} {x : α} {s : σ} {b : β}
    (hbefore : loop s before m = .ok b m₁)
    (hx : ∀ s', result s' = b → step s' x m₁ = .error e m₂) :
    loop s (before ++ x :: after) m = .error e m₂ := by
  induction before generalizing s m with
  | nil =>
    rw [h.nil] at hbefore
    cases hbefore
    rw [List.nil_append, h.cons, run_bind_of_error (hx s rfl)]
  | cons y ys ih =>
    rw [h.cons] at hbefore
    obtain ⟨r, m', hy, hys⟩ := run_bind_eq_ok hbefore
    rw [List.cons_append, h.cons, run_bind_of_ok hy]
    exact ih hys

/-- A loop that fails has come to a result with the items before the one that it fails with. -/
theorem exists_of_error (h : Folds loop step next result) {xs : List α} {s : σ}
    (herror : loop s xs m = .error e m₂) :
    ∃ before x after s' m₁, xs = before ++ x :: after ∧ loop s before m = .ok (result s') m₁ ∧
      step s' x m₁ = .error e m₂ := by
  induction xs generalizing s m with
  | nil =>
    rw [h.nil] at herror
    cases herror
  | cons y ys ih =>
    rw [h.cons] at herror
    rcases run_bind_eq_error herror with hy | ⟨r, m', hy, hys⟩
    · refine ⟨[], y, ys, s, m, rfl, ?_, hy⟩
      rw [h.nil]
      rfl
    · obtain ⟨before, x, after, s', m₁, rfl, hbefore, hx⟩ := ih hys
      refine ⟨y :: before, x, after, s', m₁, rfl, ?_, hx⟩
      rw [h.cons, run_bind_of_ok hy, hbefore]

end Folds

section

variable (call : Value → List Value → ScopeId → Call Value) (scope : ScopeId) (f : Value)

/-- `map` calls back for one item after the other and collects the results. -/
theorem folds_mapFrom :
    Folds (Builtin.mapFrom call f scope) (fun _ item => call f [item] scope) (fun s v => v :: s)
      fun s => .list s.reverse :=
  ⟨fun _ => rfl, fun _ _ _ => rfl⟩

/-- `reduce` calls back for one item after the other with the result so far. -/
theorem folds_reduceFrom :
    Folds (Builtin.reduceFrom call f scope) (fun s item => call f [s, item] scope) (fun _ v => v)
      fun s => s :=
  ⟨fun _ => rfl, fun _ _ _ => rfl⟩

end

section

variable {settings : Settings} {site : Site} {scope : ScopeId} {m m₁ : Machine}

/-- A call of a function whose arguments and depth are in order is left by an interrupt of its
body. -/
theorem callFunction_of_error {eval : Node → Site → ScopeId → Eval Value} {definition : Definition}
    {args : List Value} (hargs : args.length = definition.params.length)
    (hdepth : m.depth < settings.maxCallDepth) {i : Interrupt}
    (h : eval definition.body (site.child 0) m.scopes.size
      { m with
        scopes := m.scopes.child scope (.ofPairs definition.params args)
        depth := m.depth + 1 } = .error i m₁)
    (hi : ∀ v, i ≠ .returning v) :
    callFunction settings eval site definition args scope m
      = .error i.uncaught ((Surrounding.function m.scopes.size).leave m₁) := by
  rw [callFunction, if_neg (not_not_intro hargs), if_neg (Nat.not_le_of_lt hdepth), Call.inChild]
  simp only [Call.deeper, Call.ofBody, h]
  cases i with
  | returning v => exact absurd rfl (hi v)
  | breaking | continuing | failing => rfl

/-- A list and a function are what `map` wants. -/
theorem mapCall_of_isCallable {call : Value → List Value → ScopeId → Call Value} {fn : Value}
    (hfn : fn.isCallable) (items : List Value) (caller : ScopeId) :
    Builtin.mapCall call [.list items, fn] caller
      = Call.inChild caller .empty fun scope => Builtin.mapFrom call fn scope [] items := by
  simp only [Builtin.mapCall, Builtin.wantList, Builtin.wantFunction, hfn, if_true]
  rfl

/-- `reduce` with a function makes its calls in a scope of its own. -/
theorem reduceCall_of_isCallable {call : Value → List Value → ScopeId → Call Value} {fn : Value}
    (hfn : fn.isCallable) (items : List Value) (initial : Value) (caller : ScopeId) :
    Builtin.reduceCall call [.list items, fn, initial] caller
      = Call.inChild caller .empty fun scope => Builtin.reduceFrom call fn scope initial items := by
  simp only [Builtin.reduceCall, Builtin.wantList, Builtin.wantFunction, hfn, if_true]
  rfl

end

end Script
