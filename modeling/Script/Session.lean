import Script.Machine.Eval
import Script.Tree.Parser

/-!
# Sessions

A session runs one program after another on the same machine, so that what one program defines the
next one finds.

Every tree that is run is first loaded, which gives it a number of its own. Functions are told apart
by that number and the place of their literal, so running the same `Program` twice gives the same
functions, and reading the same source twice does not.
-/

namespace Script

/-- An amount of fuel that no run uses up in a lifetime. -/
def ampleFuel : Nat := Nat.pow 2 62 - 1

/-- A tree that was given a number. -/
structure Program where
  /-- The number of the tree. -/
  unit : Nat
  /-- The tree itself. -/
  tree : Node

/-- How a run ended. -/
inductive Outcome where
  /-- With a value. -/
  | value (value : Value)
  /-- With an error. -/
  | error (error : ScriptError)
  /-- Not at all, with the fuel it was given. -/
  | exhausted

/-- A machine and what is needed to run programs on it. -/
structure Session where
  /-- The choices of the user. -/
  settings : Settings
  /-- The state that the programs so far have left behind. -/
  machine : Machine
  /-- The number of the next tree to be loaded. -/
  units : Nat

namespace Session

/-- The names that are bound before anything runs. -/
def globals : Bindings :=
  Builtin.all.foldl (fun b function => b.insert function.name (.builtin function))
    ((Bindings.empty.insert "true" (.number 1.0)).insert "false" (.number 0.0))

/-- A session in which nothing has run yet. Its trees are numbered from `units` on. -/
def new (settings : Settings) (console : Console) (units : Nat) : Session :=
  ⟨settings, ⟨.root globals, 0, console⟩, units⟩

/-- Give a tree a number. -/
def load (session : Session) (tree : Node) : Program × Session :=
  (⟨session.units, tree⟩, { session with units := session.units + 1 })

/-- Run a program in the global scope. Counting of calls starts anew. -/
def runProgram (session : Session) (fuel : Nat) (program : Program) : Outcome × Session :=
  let start := { session.machine with depth := 0 }
  match eval session.settings fuel program.tree (.root program.unit) ScopeTree.rootId start with
  | .ok value machine => (.value value, { session with machine })
  | .error interrupt machine =>
    match interrupt.uncaught.blame program.tree.span with
    | .error e => (.error (.failed e), { session with machine })
    | .exhausted => (.exhausted, { session with machine })

/-- Read a source and run it. A source that is no program changes nothing. -/
def run (session : Session) (fuel : Nat) (source : String) : Outcome × Session :=
  match parseSource source with
  | .error e => (.error (.refused e), session)
  | .ok tree =>
    let (program, session) := session.load tree
    session.runProgram fuel program

/-- The value of a global variable. -/
def global? (session : Session) (name : String) : Option Value :=
  session.machine.scopes.get? ScopeTree.rootId name

/-- Call a value in the global scope. -/
def callValue (session : Session) (fuel : Nat) (callee : Value) (args : List Value) :
    Outcome × Session :=
  match call session.settings fuel callee args ScopeTree.rootId session.machine with
  | .ok value machine => (.value value, { session with machine })
  | .error (.error e) machine => (.error (.failed e), { session with machine })
  | .error .exhausted machine => (.exhausted, { session with machine })

/-- Whether a value is one of the built-in functions. -/
def isBuiltin : Value → Bool
  | .builtin _ => true
  | _ => false

/-- The global variables that do not hold built-in functions. -/
def userGlobals (session : Session) : Bindings :=
  ⟨(session.machine.scopes.bindings ScopeTree.rootId).entries.filter fun entry =>
    !isBuiltin entry.2⟩

/-- A variable and its value in one line. -/
def variableLine (entry : String × Value) : String :=
  entry.1 ++ " = " ++ entry.2.display ++ "\n"

/-- The listing of the global variables: one line each, in the order of the lines. -/
def listing (session : Session) : String :=
  String.join ((session.userGlobals.entries.map variableLine).mergeSort fun a b => decide (a ≤ b))

/-- What was written since the last time, and the session without it. -/
def takeOutput (session : Session) : String × Session :=
  let (text, console) := session.machine.console.take
  (text, { session with machine := { session.machine with console } })

end Session

end Script
