import Script.Proofs.Machine.Reachable

/-!
# Jumps in their places

Whether every jump has something around it to leave can be seen from a tree alone: `break` and
`continue` stand in the body of a loop of the same function, and `return` stands in a function
(`Node.wellPlaced`). Trees like that never fail for a jump out of place, however they are run.

## Shape of the proof

The evaluation of a well-placed node is only cut short by jumps that its place allows for
(`Interrupt.Placed`), and by failures of other kinds. A loop stops the jumps that its body may send,
and a call stops `return`. For calls this needs the bodies of all functions to be well-placed, so
the invariant is that every function within reach has such a body. It holds at the start of a
session, where there are only built-in functions, and each run keeps it, also one that fails.
-/

namespace Script

/-! ## Well-placed trees -/

mutual

/-- Whether all jumps in a node are well-placed, in the body of a loop or not and in a function or
not. -/
def Node.wellPlaced (inLoop inFunction : Bool) : Node → Bool
  | ⟨form, _⟩ => form.wellPlaced inLoop inFunction

/-- Whether all jumps in a form are well-placed. The condition and the bounds of a loop are not in
its body. -/
def Form.wellPlaced (inLoop inFunction : Bool) : Form → Bool
  | .number _ | .text _ | .null | .var _ => true
  | .list items => wellPlacedNodes inLoop inFunction items
  | .assign _ value => value.wellPlaced inLoop inFunction
  | .binary left _ right => left.wellPlaced inLoop inFunction && right.wellPlaced inLoop inFunction
  | .unary _ operand => operand.wellPlaced inLoop inFunction
  | .ternary cond yes no =>
    cond.wellPlaced inLoop inFunction && yes.wellPlaced inLoop inFunction &&
      no.wellPlaced inLoop inFunction
  | .index target place => target.wellPlaced inLoop inFunction && place.wellPlaced inLoop inFunction
  | .ifElse arms otherwise =>
    wellPlacedArms inLoop inFunction arms && wellPlacedOption inLoop inFunction otherwise
  | .whileLoop cond body => cond.wellPlaced inLoop inFunction && body.wellPlaced true inFunction
  | .forLoop _ first last step body =>
    first.wellPlaced inLoop inFunction && last.wellPlaced inLoop inFunction &&
      wellPlacedOption inLoop inFunction step && body.wellPlaced true inFunction
  | .function definition => definition.wellPlaced
  | .call callee args =>
    callee.wellPlaced inLoop inFunction && wellPlacedNodes inLoop inFunction args
  | .returning value => inFunction && wellPlacedOption inLoop inFunction value
  | .breaking | .continuing => inLoop
  | .block statements => wellPlacedNodes inLoop inFunction statements

/-- Whether all jumps in a function are well-placed. Loops around the function do not count. -/
def Definition.wellPlaced : Definition → Bool
  | ⟨_, _, body, _⟩ => body.wellPlaced false true

/-- Whether all jumps in nodes are well-placed. -/
def wellPlacedNodes (inLoop inFunction : Bool) : List Node → Bool
  | [] => true
  | node :: nodes => node.wellPlaced inLoop inFunction && wellPlacedNodes inLoop inFunction nodes

/-- Whether all jumps in arms are well-placed. -/
def wellPlacedArms (inLoop inFunction : Bool) : List Arm → Bool
  | [] => true
  | ⟨cond, body⟩ :: arms =>
    cond.wellPlaced inLoop inFunction && body.wellPlaced inLoop inFunction &&
      wellPlacedArms inLoop inFunction arms

/-- Whether all jumps in a node are well-placed, if there is one. -/
def wellPlacedOption (inLoop inFunction : Bool) : Option Node → Bool
  | none => true
  | some node => node.wellPlaced inLoop inFunction

end

/-- Nodes are well placed if each is. -/
theorem wellPlacedNodes_eq_all (inLoop inFunction : Bool) (nodes : List Node) :
    wellPlacedNodes inLoop inFunction nodes = nodes.all (·.wellPlaced inLoop inFunction) := by
  induction nodes with
  | nil => rfl
  | cons node nodes ih => rw [wellPlacedNodes, ih, List.all_cons]

/-- Arms are well placed if their conditions and bodies are. -/
theorem wellPlacedArms_eq_all (inLoop inFunction : Bool) (arms : List Arm) :
    wellPlacedArms inLoop inFunction arms
      = arms.all fun arm =>
          arm.cond.wellPlaced inLoop inFunction && arm.body.wellPlaced inLoop inFunction := by
  induction arms with
  | nil => rfl
  | cons arm arms ih =>
    obtain ⟨cond, body⟩ := arm
    rw [wellPlacedArms, ih, List.all_cons]

/-- An optional node is well placed if it is where there is one. -/
theorem wellPlacedOption_eq_all (inLoop inFunction : Bool) (node : Option Node) :
    wellPlacedOption inLoop inFunction node = node.toList.all (·.wellPlaced inLoop inFunction) := by
  cases node <;> simp [wellPlacedOption]

/-- What is evaluated with a well-placed form is well-placed, the body of a loop within the loop. -/
theorem Form.wellPlaced_part {inLoop inFunction : Bool} {form : Form} {position : Nat}
    {child : Node}
    (h : form.wellPlaced inLoop inFunction = true) (hget : form.parts[position]? = some child) :
    child.wellPlaced (inLoop || form.body? == some position) inFunction = true := by
  cases form with
  | function definition => cases hget
  | whileLoop cond body =>
    rw [wellPlaced, Bool.and_eq_true] at h
    rcases position with _ | _ | position <;> cases hget
    · simpa [body?] using h.1
    · simpa [body?] using h.2
  | forLoop name first last step body =>
    simp only [wellPlaced, Bool.and_eq_true] at h
    obtain ⟨⟨⟨hfirst, hlast⟩, hstep⟩, hbody⟩ := h
    cases step with
    | none =>
      rcases position with _ | _ | _ | position <;> cases hget
      · simpa [body?] using hfirst
      · simpa [body?] using hlast
      · simpa [body?] using hbody
    | some step =>
      rcases position with _ | _ | _ | _ | position <;> cases hget
      · simpa [body?] using hfirst
      · simpa [body?] using hlast
      · simpa [body?, wellPlacedOption] using hstep
      · simpa [body?] using hbody
  | number | text | null | var | breaking | continuing => cases hget
  | list | assign | binary | unary | ternary | index | ifElse | call | returning | block =>
    -- All that is below a form that is no loop stands where the form does.
    have hmem := List.mem_of_getElem? hget
    simp [parts, children, wellPlaced, wellPlacedNodes_eq_all, wellPlacedArms_eq_all,
      wellPlacedOption_eq_all] at h hmem
    simp only [body?, Option.none_beq_some, Bool.or_false]
    grind

/-- The functions whose jumps are well-placed. -/
def Placed (_ : Site) (definition : Definition) : Prop := definition.wellPlaced = true

/-- A failure of another kind than that of a jump out of place. -/
def Failure.Ordinary : Failure → Prop
  | .error e => e.fault.Ordinary
  | .exhausted => True

/-- An error is ordinary if its fault is. -/
@[simp]
theorem Failure.ordinary_error {e : RuntimeError} : (Failure.error e).Ordinary ↔ e.fault.Ordinary :=
  Iff.rfl

/-- To blame a failure on a place leaves it ordinary. -/
theorem Failure.Ordinary.blame {failure : Failure} (h : failure.Ordinary) (span : Span) :
    (failure.blame span).Ordinary := by
  cases failure with
  | exhausted => trivial
  | error e =>
    show (e.blame span).fault.Ordinary
    unfold RuntimeError.blame
    split
    · exact h
    · exact h

/-- An interrupt that a place allows for. -/
def Interrupt.Placed (inLoop inFunction : Bool) : Interrupt → Prop
  | .returning value => inFunction = true ∧ value.Admits Script.Placed
  | .breaking _ | .continuing _ => inLoop = true
  | .failing failure => failure.Ordinary

/-- A failure may come from anywhere, if it is ordinary. -/
@[simp]
theorem Interrupt.placed_failing {inLoop inFunction : Bool} {failure : Failure} :
    (Interrupt.failing failure).Placed inLoop inFunction ↔ failure.Ordinary := Iff.rfl

/-- A well-placed evaluation: while every function within reach has only well-placed jumps, so has
its result, and it is cut short only as its place allows for. -/
def EvalPlaced (inLoop inFunction : Bool) (scope : ScopeId) (x : Eval Value) : Prop :=
  Keeps (fun m => m.scopes.Admits Placed scope) (·.Admits Placed)
    (Interrupt.Placed inLoop inFunction) x

/-- A well-placed call: while every function within reach has only well-placed jumps, so has its
result, and it does not fail for a jump out of place. -/
def CallPlaced (scope : ScopeId) (x : Call Value) : Prop :=
  Keeps (fun m => m.scopes.Admits Placed scope) (·.Admits Placed) Failure.Ordinary x

section

variable {settings : Settings} {fuel : Nat} {eval : Node → Site → ScopeId → Eval Value}
variable {call : Value → List Value → ScopeId → Call Value}
variable (heval : ∀ {inLoop inFunction : Bool} {node : Node},
  node.wellPlaced inLoop inFunction = true →
  ∀ site scope, EvalPlaced inLoop inFunction scope (eval node site scope))
variable (hcall : ∀ {callee : Value} {args : List Value}, callee.Admits Placed →
  (∀ v ∈ args, v.Admits Placed) → ∀ scope, CallPlaced scope (call callee args scope))

include heval hcall in
/-- The evaluation of a well-placed node is well-placed, if that of the nodes below it and the calls
that it makes are. -/
theorem placed_evalNode {inLoop inFunction : Bool} {node : Node}
    (h : node.wellPlaced inLoop inFunction = true) (site : Site) (scope : ScopeId) :
    EvalPlaced inLoop inFunction scope (evalNode settings fuel eval call node site scope) := by
  obtain ⟨form, span⟩ := node
  change form.wellPlaced inLoop inFunction = true at h
  have hstop : MayStop Placed (Interrupt.Placed inLoop inFunction) ⟨form, span⟩ := {
    fault := fun _ hfault => hfault
    bound := fun _ _ => by simp [Fault.kind]
    returning := by
      rintro value rfl v hv
      exact ⟨(Bool.and_eq_true_iff.mp h).1, hv⟩
    breaking := by
      rintro rfl
      exact h
    continuing := by
      rintro rfl
      exact h
    exhausted := fun _ => trivial }
  refine .evalNode (fun _ _ hcallee hargs => hcall hcallee hargs scope)
    (fun _ _ _ hm hv => hm.get? hv) (fun position child hget hbody => ?_)
    (fun position child hget hbody => ?_) (fun name _ _ _ hm hv => hm.define name hv)
    (fun name _ _ hm => hm.remove name) hstop
    (fun _ hfailure => hfailure.blame span) ?_
  · have hchild := Form.wellPlaced_part h hget
    rw [beq_eq_false_iff_ne.mpr hbody, Bool.or_false] at hchild
    exact heval hchild _ scope
  · -- The body of a loop may send `break` and `continue`; the loop does not send them on.
    have hchild := Form.wellPlaced_part h hget
    rw [beq_iff_eq.mpr hbody, Bool.or_true] at hchild
    refine .iteration (heval hchild _ scope) fun i hi hbreak hcontinue => ?_
    cases i with
    | breaking span => exact absurd rfl (hbreak span)
    | continuing span => exact absurd rfl (hcontinue span)
    | returning | failing => exact hi
  · rintro definition rfl
    exact h

variable (htouches : ∀ node site scope, Touches scope node.assigned (eval node site scope))
variable (hleaves : ∀ callee args scope, LeavesScopes (call callee args scope))

include hcall hleaves in
/-- Built-in functions do not fail for a jump out of place, if the functions that they call do
not. -/
theorem placed_run (b : Builtin) {args : List Value} (hargs : ∀ v ∈ args, v.Admits Placed)
    (caller : ScopeId) : CallPlaced caller (b.run call args caller) := by
  refine .run (fun _ _ hm => hm) (fun _ hfault => hfault) ?_ ?_ b hargs
  · intro f items hf hitems
    refine .inChild_admits Bindings.admits_empty (fun scope => ?_) fun scope =>
      ⟨[], touches_mapFrom hleaves f scope [] items⟩
    refine .mapFrom (fun item hitem => hcall hf ?_ scope) (fun _ => Value.admits_list.mpr)
      (List.forall_mem_nil _)
    simpa using hitems item hitem
  · intro f initial items hf hinitial hitems
    refine .inChild_admits Bindings.admits_empty (fun scope => ?_) fun scope =>
      ⟨[], touches_reduceFrom hleaves f scope initial items⟩
    refine .reduceFrom (fun accumulated haccumulated item hitem => hcall hf ?_ scope) hinitial
    simpa using ⟨haccumulated, hitems item hitem⟩

include heval hcall htouches hleaves in
/-- A call of a function with well-placed jumps is well-placed: its body sends nothing but `return`,
and the call stops that. -/
theorem placed_callValue {callee : Value} {args : List Value} (hcallee : callee.Admits Placed)
    (hargs : ∀ v ∈ args, v.Admits Placed) (caller : ScopeId) :
    CallPlaced caller (callValue settings eval call callee args caller) := by
  cases callee with
  | function site definition =>
    obtain ⟨name, params, body, isExpression⟩ := definition
    have hbody : body.wellPlaced false true = true := hcallee
    refine .callFunction ?_ ?_ ?_
    · simp [Fault.kind]
    · simp [Fault.kind]
    refine .inChild_admits (Bindings.admits_ofPairs params hargs) (fun scope => ?_) fun scope =>
      ⟨_, touches_body (htouches body _ scope)⟩
    refine .deeper (fun _ _ hm => hm) (.ofBody (heval hbody _ scope) trivial (fun v hv => hv.2) ?_)
    intro i hi hreturn
    -- No loop around the function counts for its body, so only failures are left.
    cases i with
    | returning v => exact absurd rfl (hreturn v)
    | breaking | continuing => cases hi
    | failing failure => exact hi
  | builtin b => exact placed_run hcall hleaves b hargs caller
  | number | text | list | null =>
    exact .callRaise (by simp [Fault.kind])

end

/-- Well-placed nodes are evaluated as their places allow for, and calls of functions with
well-placed jumps fail for no jump out of place. -/
theorem placed_eval_call (settings : Settings) (fuel : Nat) :
    (∀ {inLoop inFunction : Bool} {node : Node}, node.wellPlaced inLoop inFunction = true →
      ∀ site scope, EvalPlaced inLoop inFunction scope (eval settings fuel node site scope)) ∧
    ∀ {callee : Value} {args : List Value}, callee.Admits Placed → (∀ v ∈ args, v.Admits Placed) →
      ∀ scope, CallPlaced scope (call settings fuel callee args scope) := by
  induction fuel with
  | zero =>
    constructor
    · intro inLoop inFunction node _ site scope m hm
      rw [eval_zero]
      exact ⟨hm, trivial⟩
    · intro callee args _ _ scope m hm
      rw [call_zero]
      exact ⟨hm, trivial⟩
  | succ fuel ih =>
    obtain ⟨htouches, hleaves⟩ := touches_eval_call settings fuel
    rw [eval_succ, call_succ]
    exact ⟨fun h => placed_evalNode ih.1 ih.2 h,
      fun hcallee hargs => placed_callValue ih.1 ih.2 htouches hleaves hcallee hargs⟩

/-! ## Sessions -/

namespace Session

/-- What is run in a session: a source, or a program that was given its number before. -/
inductive Input where
  | source (text : String)
  | program (loaded : Program)

/-- All jumps of the input are well-placed, if it is a program at all. -/
def Input.WellPlaced : Input → Prop
  | .source text => ∀ tree, parseSource text = .ok tree → tree.wellPlaced false false = true
  | .program loaded => loaded.tree.wellPlaced false false = true

/-- Run an input. -/
def feed (session : Session) (fuel : Nat) : Input → Outcome × Session
  | .source text => session.run fuel text
  | .program loaded => session.runProgram fuel loaded

/-- The outcomes of inputs that are run one after the other, each with an amount of fuel. -/
def outcomes (session : Session) : List (Nat × Input) → List Outcome
  | [] => []
  | (fuel, input) :: inputs =>
    (session.feed fuel input).1 :: (session.feed fuel input).2.outcomes inputs

/-- The session after inputs that are run one after the other, each with an amount of fuel. -/
def after (session : Session) : List (Nat × Input) → Session
  | [] => session
  | (fuel, input) :: inputs => (session.feed fuel input).2.after inputs

/-- All functions within reach of the programs to come have only well-placed jumps. -/
def Placed (session : Session) : Prop :=
  session.machine.scopes.Admits Script.Placed ScopeTree.rootId

/-- There are only built-in functions at the start of a session. -/
theorem admits_globals {P : Site → Definition → Prop} : globals.Admits P := by
  have hnumber : ∀ x, (Value.number x).Admits P := fun _ => trivial
  refine Bindings.Admits.foldl_insert (fun _ _ => trivial) ?_
  exact (Bindings.admits_empty.insert "true" (hnumber _)).insert "false" (hnumber _)

/-- A new session holds no function of its own making. -/
theorem admits_new {P : Site → Definition → Prop} (settings : Settings) (console : Console)
    (units : Nat) : (new settings console units).machine.scopes.Admits P ScopeTree.rootId := by
  intro id habove
  -- The root is the only scope, and has no parent.
  cases habove with
  | refl => exact admits_globals
  | step hparent => cases hparent

theorem placed_new (settings : Settings) (console : Console) (units : Nat) :
    (new settings console units).Placed := admits_new settings console units

/-- A run fails with what the evaluation of its program was cut short by. -/
theorem exists_of_runProgram_failed {session : Session} {fuel : Nat} {program : Program}
    {e : RuntimeError} (h : (session.runProgram fuel program).1 = .error (.failed e)) :
    ∃ interrupt machine,
      eval session.settings fuel program.tree (.root program.unit) ScopeTree.rootId
        { session.machine with depth := 0 } = .error interrupt machine ∧
      interrupt.uncaught.blame program.tree.span = .error e := by
  simp only [runProgram] at h
  split at h
  · cases h
  · rename_i interrupt machine hrun
    refine ⟨interrupt, machine, hrun, ?_⟩
    split at h
    · rename_i error hblame
      cases h
      exact hblame
    · cases h

/-- Nothing is left of a jump where no jump is allowed. -/
theorem ordinary_uncaught {interrupt : Interrupt} (h : interrupt.Placed false false) :
    interrupt.uncaught.Ordinary := by
  cases interrupt with
  | returning => cases h.1
  | breaking | continuing => cases h
  | failing failure => exact h

/-- A run of a well-placed program keeps the functions of the session well-placed, and does not end
for a jump out of place. -/
theorem placed_runProgram {session : Session} (h : session.Placed) (fuel : Nat) {program : Program}
    (hprogram : program.tree.wellPlaced false false = true) :
    (session.runProgram fuel program).2.Placed ∧
      ∀ e, (session.runProgram fuel program).1 = .error (.failed e) → e.fault.Ordinary := by
  have hplaced :=
    (placed_eval_call session.settings fuel).1 hprogram (.root program.unit) ScopeTree.rootId
  have hstart : ({ session.machine with depth := 0 } : Machine).scopes.Admits Script.Placed
      ScopeTree.rootId := h
  constructor
  · rw [Placed, machine_runProgram]
    exact hplaced.after hstart
  · intro e he
    obtain ⟨interrupt, machine, hrun, hblame⟩ := exists_of_runProgram_failed he
    have hordinary := (ordinary_uncaught (hplaced.of_error hstart hrun).2).blame program.tree.span
    rw [hblame] at hordinary
    exact hordinary

/-- The same for any well-placed input. -/
theorem placed_feed {session : Session} (h : session.Placed) (fuel : Nat) {input : Input}
    (hinput : input.WellPlaced) :
    (session.feed fuel input).2.Placed ∧
      ∀ e, (session.feed fuel input).1 = .error (.failed e) → e.fault.Ordinary := by
  cases input with
  | program program => exact placed_runProgram h fuel hinput
  | source text =>
    rw [feed]
    cases hparse : parseSource text with
    | error e =>
      rw [run_of_error hparse]
      refine ⟨h, fun e' he' => ?_⟩
      cases he'
    | ok tree =>
      rw [run_of_ok hparse]
      have hload : (session.load tree).2.Placed := h
      have htree : (session.load tree).1.tree.wellPlaced false false = true := hinput tree hparse
      exact placed_runProgram hload fuel htree

/-- No input of a session ends for a jump out of place, if all of them are well-placed. -/
theorem ordinary_of_mem_outcomes {session : Session} (h : session.Placed)
    {inputs : List (Nat × Input)}
    (hinputs : ∀ input ∈ inputs, input.2.WellPlaced) {e : RuntimeError}
    (he : .error (.failed e) ∈ session.outcomes inputs) : e.fault.Ordinary := by
  induction inputs generalizing session with
  | nil => cases he
  | cons input inputs ih =>
    obtain ⟨fuel, input⟩ := input
    obtain ⟨hsession, houtcome⟩ := placed_feed h fuel (hinputs (fuel, input) List.mem_cons_self)
    rw [outcomes] at he
    rcases List.mem_cons.mp he with he | he
    · exact houtcome e he.symm
    · exact ih hsession (fun input hinput => hinputs input (List.mem_cons_of_mem _ hinput)) he

end Session

/-- Well-placed control flow never goes wrong. A session that runs only well-placed programs, in any
order and whatever becomes of them, never ends one for a jump out of place. And a node that is
well-placed without a loop around it never sends `break` or `continue`, in any state in which all
functions within its reach have only well-placed jumps. -/
theorem wellPlaced_never_misplaced :
    (∀ (settings : Settings) (console : Console) (units : Nat)
      (inputs : List (Nat × Session.Input)), (∀ input ∈ inputs, input.2.WellPlaced) →
      ∀ e, .error (.failed e) ∈ (Session.new settings console units).outcomes inputs →
        e.fault.kind ≠ .invalidControlFlow) ∧
    ∀ (settings : Settings) (fuel : Nat) (inFunction : Bool) (node : Node) (site : Site)
      (scope : ScopeId) (m : Machine),
      node.wellPlaced false inFunction = true → m.scopes.Admits Placed scope →
      ∀ span m', eval settings fuel node site scope m ≠ .error (.breaking span) m' ∧
        eval settings fuel node site scope m ≠ .error (.continuing span) m' := by
  constructor
  · intro settings console units inputs hinputs e he
    exact Session.ordinary_of_mem_outcomes (Session.placed_new settings console units) hinputs he
  · intro settings fuel inFunction node site scope m hnode hm span m'
    have hplaced := (placed_eval_call settings fuel).1 hnode site scope
    constructor
    · intro hrun
      cases (hplaced.of_error hm hrun).2
    · intro hrun
      cases (hplaced.of_error hm hrun).2

/-- `fun f(x) { for i = 1 : x { if x { return i } continue } } while f { break }` is well-placed, so
that running it twice ends for no jump out of place, and neither does it send one. -/
theorem wellPlaced_never_misplaced_nested :
    let node : Form → Node := fun form => ⟨form, default⟩
    let name : String → Node := fun s => node (.var s)
    let answer := node (.block [node (.returning (some (name "i")))])
    let loop := node (.forLoop "i" (node (.number 1.0)) (name "x") none
      (node (.block [node (.ifElse [⟨name "x", answer⟩] none), node .continuing])))
    let tree := node (.block [node (.function ⟨some "f", ["x"], node (.block [loop]), false⟩),
      node (.whileLoop (name "f") (node (.block [node .breaking])))])
    let session := Session.new .default (.new [] none) 0
    (∀ e, .error (.failed e) ∈ session.outcomes
      [(20, .program ⟨0, tree⟩), (30, .program ⟨0, tree⟩)] → e.fault.kind ≠ .invalidControlFlow) ∧
    ∀ span m',
      eval .default 20 tree (.root 0) ScopeTree.rootId session.machine
        ≠ .error (.breaking span) m' ∧
      eval .default 20 tree (.root 0) ScopeTree.rootId session.machine
        ≠ .error (.continuing span) m' := by
  intro node name answer loop tree session
  have htree : tree.wellPlaced false false = true := rfl
  refine ⟨wellPlaced_never_misplaced.1 _ _ _ _ ?_, ?_⟩
  · simpa [Session.Input.WellPlaced] using htree
  · exact wellPlaced_never_misplaced.2 _ _ false _ _ _ _ htree (Session.placed_new _ _ _)

end Script
