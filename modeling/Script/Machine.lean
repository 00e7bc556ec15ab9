import Script.Console
import Script.Scope
import Script.Settings

/-!
# The machine

The state a running script changes, and the ways in which a computation on it can end early.

A computation either gives a result or is cut short, and in both cases leaves a `Machine` behind.
What cuts an evaluation short is an `Interrupt`: a jump on its way to the loop or function it
leaves, or a `Failure`, which nothing catches. A call stops every jump, so it can only fail.

Evaluations are given an amount of fuel, so that each of them is a total function. Running out of it
is a failure of its own kind that no script can observe.
-/

namespace Script

/-- The state of a running script. -/
structure Machine where
  /-- The variables. -/
  scopes : ScopeTree
  /-- How many calls of script functions are going on. -/
  depth : Nat
  /-- Where the script writes and reads. -/
  console : Console

/-- Why a computation failed. -/
inductive Failure where
  /-- Something went wrong. -/
  | error (error : RuntimeError)
  /-- The fuel ran out. -/
  | exhausted

/-- Blame a node for a failure, unless one nearer to the fault is blamed already. -/
def Failure.blame (f : Failure) (span : Span) : Failure :=
  match f with
  | .error e => .error (e.blame span)
  | .exhausted => .exhausted

/-- What cuts an evaluation short. -/
inductive Interrupt where
  /-- `return`, on its way to the call it leaves. -/
  | returning (value : Value)
  /-- `break`, on its way to the loop it leaves. -/
  | breaking (span : Span)
  /-- `continue`, on its way to the loop it goes on with. -/
  | continuing (span : Span)
  /-- A failure. -/
  | failing (failure : Failure)

/-- What an interrupt amounts to when nothing is left to catch it. -/
def Interrupt.uncaught : Interrupt → Failure
  | .returning _ => .error ⟨.misplaced .return, none⟩
  | .breaking span => .error ⟨.misplaced .break, some span⟩
  | .continuing span => .error ⟨.misplaced .continue, some span⟩
  | .failing failure => failure

/-- The evaluation of a node. -/
abbrev Eval (α : Type) : Type := EStateM Interrupt Machine α

/-- A call of a function. -/
abbrev Call (α : Type) : Type := EStateM Failure Machine α

namespace Call

/-- Fail with a fault that no node is blamed for yet. -/
def raise {α : Type} (fault : Fault) : Call α := fun m => .error (.error ⟨fault, none⟩) m

/-- A result that does not depend on the machine. -/
def ofExcept {α : Type} (result : Except Fault α) : Call α :=
  match result with
  | .ok a => pure a
  | .error fault => raise fault

/-- Write a text to the console. -/
def write (text : String) : Call Unit := fun m =>
  match m.console.write text with
  | .ok console => .ok () { m with console }
  | .error fault => .error (.error ⟨.console fault, none⟩) m

/-- Read a line from the console. -/
def readLine : Call String := fun m =>
  match m.console.readLine with
  | (.ok line, console) => .ok line { m with console }
  | (.error fault, console) => .error (.error ⟨.console fault, none⟩) { m with console }

end Call

namespace Eval

/-- Fail with a fault of the node at `span`. -/
def raise {α : Type} (fault : Fault) (span : Span) : Eval α := fun m =>
  .error (.failing (.error ⟨fault, some span⟩)) m

/-- A result that does not depend on the machine, computed for the node at `span`. -/
def ofExcept {α : Type} (result : Except Fault α) (span : Span) : Eval α :=
  match result with
  | .ok a => pure a
  | .error fault => raise fault span

/-- The result of a call made by the node at `span`. -/
def ofCall {α : Type} (c : Call α) (span : Span) : Eval α := fun m =>
  match c m with
  | .ok a m' => .ok a m'
  | .error failure m' => .error (.failing (failure.blame span)) m'

/-- Change the variables. -/
def modifyScopes (f : ScopeTree → ScopeTree) : Eval Unit := fun m =>
  .ok () { m with scopes := f m.scopes }

/-- The value of a variable. -/
def lookup (scope : ScopeId) (name : String) : Eval (Option Value) := fun m =>
  .ok (m.scopes.get? scope name) m

/-- Change the variables when a computation is over, however it ends. -/
def finallyScopes {α : Type} (x : Eval α) (f : ScopeTree → ScopeTree) : Eval α := fun m =>
  match x m with
  | .ok a m' => .ok a { m' with scopes := f m'.scopes }
  | .error i m' => .error i { m' with scopes := f m'.scopes }

/-- Run the body of a loop once. The result says whether the loop goes on. -/
def iteration (body : Eval Value) : Eval Bool := fun m =>
  match body m with
  | .ok _ m' => .ok true m'
  | .error (.continuing _) m' => .ok true m'
  | .error (.breaking _) m' => .ok false m'
  | .error i m' => .error i m'

end Eval

namespace Call

/-- Run `body` in a new scope below `parent`, which is gone when the computation is over, however it
ends. -/
def inChild {α : Type} (parent : ScopeId) (bindings : Bindings) (body : ScopeId → Call α) :
    Call α :=
  fun m =>
    let scope := m.scopes.size
    match body scope { m with scopes := m.scopes.child parent bindings } with
    | .ok a m' => .ok a { m' with scopes := m'.scopes.keep scope }
    | .error f m' => .error f { m' with scopes := m'.scopes.keep scope }

/-- Count one more call while `body` runs. -/
def deeper {α : Type} (body : Call α) : Call α := fun m =>
  match body { m with depth := m.depth + 1 } with
  | .ok a m' => .ok a { m' with depth := m'.depth - 1 }
  | .error f m' => .error f { m' with depth := m'.depth - 1 }

/-- The result of a function with the given body: what the body returns, the value of a body that is
an expression, or else nothing. Jumps out of loops do not leave the function. -/
def ofBody (isExpression : Bool) (body : Eval Value) : Call Value := fun m =>
  match body m with
  | .ok v m' => .ok (if isExpression then v else .null) m'
  | .error (.returning v) m' => .ok v m'
  | .error i m' => .error i.uncaught m'

end Call

end Script
