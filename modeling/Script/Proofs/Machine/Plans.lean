import Script.Machine.Eval
import Script.Proofs.Value.Functions
import Script.Proofs.Value.Likeness

/-!
# Plans of nodes

A node decides which of the nodes below it are evaluated, and in which order, which variables are
looked up, bound and unbound, what is called, and what all this comes to. It does not decide what
becomes of the nodes below and of the calls. `Node.plan` is what it decides, and
`evalNode_eq_run` says that evaluating a node is carrying out its plan.

There are eight steps that a plan can be made of. What holds of evaluations is shown for each of the
steps, and not for each kind of node. What the kinds of nodes have to do with it is said once, by
comparing the plans of two nodes that say the same: `Plan.Related` is a relation between plans that
leaves open how their values, their nodes and what cuts them short correspond, and
`related_plan` puts the plans of two such nodes into this relation. A statement about a single node
compares its plan with itself.
-/

namespace Script

/-! ## Plans -/

/-- What a node does, step by step. Each step but the last gives something to go on with. -/
inductive Plan where
  /-- The node has come to its value. -/
  | done (value : Value)
  /-- It is cut short. -/
  | stop (interrupt : Interrupt)
  /-- A node below it, at this position among all of them, is evaluated. -/
  | part (position : Nat) (node : Node) (next : Value → Plan)
  /-- A node below it is evaluated as the body of a loop, which goes on after that or not. -/
  | round (position : Nat) (node : Node) (next : Bool → Plan)
  /-- A variable is looked up. -/
  | look (name : String) (next : Option Value → Plan)
  /-- A variable is bound. -/
  | define (name : String) (value : Value) (next : Plan)
  /-- A variable is unbound at the end of this plan, however it ends. -/
  | unbinding (name : String) (body : Plan)
  /-- The node comes to what a call comes to, and is blamed if it fails. -/
  | call (callee : Value) (args : List Value) (span : Span)

namespace Plan

/-- Carry out a plan, with what becomes of nodes and of calls. -/
def run (eval : Node → Site → ScopeId → Eval Value)
    (call : Value → List Value → ScopeId → Call Value) (site : Site) (scope : ScopeId) :
    Plan → Eval Value
  | .done value => pure value
  | .stop interrupt => throw interrupt
  | .part position node next =>
    eval node (site.child position) scope >>= fun value => (next value).run eval call site scope
  | .round position node next =>
    Eval.iteration (eval node (site.child position) scope) >>= fun goesOn =>
      (next goesOn).run eval call site scope
  | .look name next => Eval.lookup scope name >>= fun found => (next found).run eval call site scope
  | .define name value next =>
    Eval.modifyScopes (fun scopes => scopes.define scope name value) >>= fun _ =>
      next.run eval call site scope
  | .unbinding name body =>
    Eval.finallyScopes (body.run eval call site scope) fun scopes => scopes.remove scope name
  | .call callee args span => Eval.ofCall (call callee args scope) span

/-- Fail with a fault of the node at `span`. -/
def raise (fault : Fault) (span : Span) : Plan := .stop (.failing (.error ⟨fault, some span⟩))

/-- Come to what an operation gives. -/
def ofExcept (result : Except Fault Value) (span : Span) : Plan :=
  match result with
  | .error fault => raise fault span
  | .ok value => .done value

/-- Evaluate nodes in order, and go on with their values. -/
def each (next : List Value → Plan) (values : List Value) (position : Nat) : List Node → Plan
  | [] => next values.reverse
  | node :: nodes =>
    .part position node fun value => each next (value :: values) (position + 1) nodes

/-- Evaluate nodes in order for the value of the last one. -/
def sequence (last : Value) (position : Nat) : List Node → Plan
  | [] => .done last
  | node :: nodes => .part position node fun value => sequence value (position + 1) nodes

/-- Evaluate the first arm whose condition holds, or else the last branch. -/
def choose (otherwise : Option Node) (position : Nat) : List Arm → Plan
  | [] =>
    match otherwise with
    | some body => .part position body .done
    | none => .done .null
  | arm :: arms =>
    .part position arm.cond fun cond =>
      if cond.isTruthy then .part (position + 1) arm.body .done
      else choose otherwise (position + 2) arms

/-- Evaluate a node that has to be a number, and go on with the number. -/
def number (position : Nat) (node : Node) (next : Float → Plan) : Plan :=
  .part position node fun
    | .number x => next x
    | _ => raise .expectedNumber node.span

/-- Go round a loop as long as its condition holds, at most so often. -/
def whileLoop (cond body : Node) : Nat → Plan
  | 0 => .stop (.failing .exhausted)
  | n + 1 =>
    .part 0 cond fun value =>
      if value.isTruthy then
        .round 1 body fun goesOn => if goesOn then whileLoop cond body n else .done .null
      else .done .null

/-- Go round a counting loop, at most so often. -/
def forRounds (name : String) (last step : Float) (position : Nat) (body : Node) :
    Nat → Float → Plan
  | 0, _ => .stop (.failing .exhausted)
  | n + 1, counter =>
    if inRange counter last step then
      .define name (.number counter) (.round position body fun goesOn =>
        if goesOn then forRounds name last step position body n (counter + step) else .done .null)
    else .done .null

/-- A counting loop whose bounds are known. -/
def forLoop (name : String) (first last step : Float) (position : Nat) (body : Node) (span : Span)
    (fuel : Nat) : Plan :=
  if step == 0.0 then raise .zeroStep span
  else .unbinding name (forRounds name last step position body fuel first)

end Plan

/-- What a node at a place does. -/
def Node.plan (settings : Settings) (fuel : Nat) (site : Site) (node : Node) : Plan :=
  match node.form with
  | .breaking => .stop (.breaking node.span)
  | .continuing => .stop (.continuing node.span)
  | .number x => .done (.number x)
  | .text s => .done (.text s)
  | .null => .done .null
  | .var name =>
    .look name fun
      | some value => .done value
      | none =>
        if settings.strictVariables then .raise (.undefinedVariable name) node.span
        else .done .null
  | .list items => .each (fun values => .done (.list values)) [] 0 items
  | .assign name value => .part 0 value fun v => .define name v (.done v)
  | .binary left op right =>
    .part 1 right fun w => .part 0 left fun v => .ofExcept (Value.binary op v w) node.span
  | .unary op operand => .part 0 operand fun v => .ofExcept (Value.unary op v) node.span
  | .ternary cond yes no =>
    .part 0 cond fun v => if v.isTruthy then .part 1 yes .done else .part 2 no .done
  | .index target place =>
    .part 0 target fun v => .part 1 place fun w => .ofExcept (Value.index v w) node.span
  | .ifElse arms otherwise => .choose otherwise 0 arms
  | .whileLoop cond body => .whileLoop cond body fuel
  | .forLoop name first last none body =>
    .number 0 first fun x => .number 1 last fun y => .forLoop name x y 1.0 2 body node.span fuel
  | .forLoop name first last (some step) body =>
    .number 0 first fun x => .number 1 last fun y => .number 2 step fun z =>
      .forLoop name x y z 3 body node.span fuel
  | .function definition =>
    match definition.name with
    | none => .done (.function site definition)
    | some name => .define name (.function site definition) (.done (.function site definition))
  | .call callee args =>
    .part 0 callee fun v => .each (fun values => .call v values node.span) [] 1 args
  | .returning none => .stop (.returning .null)
  | .returning (some value) => .part 0 value fun v => .stop (.returning v)
  | .block statements => .sequence .null 0 statements

/-! ## Evaluation as carrying out a plan -/

namespace Plan

variable {eval : Node → Site → ScopeId → Eval Value}
variable {call : Value → List Value → ScopeId → Call Value} {site : Site} {scope : ScopeId}

/-- To give a result back is to evaluate to it. -/
theorem run_ofExcept (result : Except Fault Value) (span : Span) :
    (ofExcept result span).run eval call site scope = Eval.ofExcept result span := by
  cases result <;> rfl

/-- To come to the values of nodes one by one is to evaluate each. -/
theorem run_each (next : List Value → Plan) (values : List Value) (position : Nat)
    (nodes : List Node) :
    (each next values position nodes).run eval call site scope
      = evalEach eval site scope values position nodes >>= fun values =>
          (next values).run eval call site scope := by
  induction nodes generalizing values position with
  | nil => rfl
  | cons node nodes ih =>
    rw [each, run, evalEach, bind_assoc]
    exact bind_congr fun value => ih (value :: values) (position + 1)

/-- To carry out statements one by one is to evaluate the sequence. -/
theorem run_sequence (last : Value) (position : Nat) (nodes : List Node) :
    (sequence last position nodes).run eval call site scope
      = evalSequence eval site scope last position nodes := by
  induction nodes generalizing last position with
  | nil => rfl
  | cons node nodes ih =>
    rw [sequence, run, evalSequence]
    exact bind_congr fun value => ih value (position + 1)

/-- To come to the value of a part is to evaluate it. -/
theorem run_part_done (position : Nat) (node : Node) :
    (part position node done).run eval call site scope = eval node (site.child position) scope :=
  bind_pure _

/-- To choose among arms is to evaluate them. -/
theorem run_choose (otherwise : Option Node) (position : Nat) (arms : List Arm) :
    (choose otherwise position arms).run eval call site scope
      = evalArms eval site scope otherwise position arms := by
  induction arms generalizing position with
  | nil =>
    cases otherwise with
    | none => rfl
    | some body => exact run_part_done position body
  | cons arm arms ih =>
    rw [choose, run, evalArms]
    refine bind_congr fun cond => ?_
    split
    · exact run_part_done (position + 1) arm.body
    · exact ih (position + 2)

/-- To come to a bound is to evaluate it to a number. -/
theorem run_number (position : Nat) (node : Node) (next : Float → Plan) :
    (number position node next).run eval call site scope
      = evalNumber eval node (site.child position) scope >>= fun x =>
          (next x).run eval call site scope := by
  rw [number, run, evalNumber, bind_assoc]
  refine bind_congr fun value => ?_
  cases value <;> rfl

/-- To go round while a condition holds is to evaluate the loop. -/
theorem run_whileLoop (cond body : Node) (n : Nat) :
    (whileLoop cond body n).run eval call site scope
      = whileFrom (eval cond (site.child 0) scope) (eval body (site.child 1) scope) n := by
  induction n with
  | zero => rfl
  | succ n ih =>
    rw [whileLoop, run, whileFrom]
    refine bind_congr fun value => ?_
    split
    · refine bind_congr fun goesOn => ?_
      cases goesOn with
      | false => rfl
      | true => exact ih
    · rfl

/-- To count rounds is to evaluate them. -/
theorem run_forRounds (name : String) (last step : Float) (position : Nat) (body : Node) (n : Nat)
    (counter : Float) :
    (forRounds name last step position body n counter).run eval call site scope
      = forFrom scope name last step (eval body (site.child position) scope) n counter := by
  induction n generalizing counter with
  | zero => rfl
  | succ n ih =>
    rw [forRounds, forFrom]
    split
    · refine bind_congr fun _ => bind_congr fun goesOn => ?_
      cases goesOn with
      | false => rfl
      | true => exact ih (counter + step)
    · rfl

/-- To count from one bound to the other is to evaluate the loop, which is left without its
variable. -/
theorem run_forLoop (name : String) (first last step : Float) (position : Nat) (body : Node)
    (span : Span) (fuel : Nat) :
    (forLoop name first last step position body span fuel).run eval call site scope
      = if step == 0.0 then Eval.raise .zeroStep span
        else Eval.finallyScopes
          (forFrom scope name last step (eval body (site.child position) scope) fuel first)
          fun scopes => scopes.remove scope name := by
  rw [forLoop]
  split
  · rfl
  · rw [run, run_forRounds]

end Plan

/-- To evaluate a node is to carry out its plan. -/
theorem evalNode_eq_run (settings : Settings) (fuel : Nat)
    (eval : Node → Site → ScopeId → Eval Value)
    (call : Value → List Value → ScopeId → Call Value) (node : Node) (site : Site)
    (scope : ScopeId) :
    evalNode settings fuel eval call node site scope
      = (node.plan settings fuel site).run eval call site scope := by
  obtain ⟨form, span⟩ := node
  cases form with
  | number | text | null | breaking | continuing | assign => rfl
  | var name =>
    refine bind_congr fun found => ?_
    cases found with
    | some value => rfl
    | none =>
      simp only
      split <;> rfl
  | list items => exact (Plan.run_each (fun values => .done (.list values)) [] 0 items).symm
  | block statements => exact (Plan.run_sequence .null 0 statements).symm
  | binary left op right =>
    exact bind_congr fun w => bind_congr fun v => (Plan.run_ofExcept _ span).symm
  | unary op operand => exact bind_congr fun v => (Plan.run_ofExcept _ span).symm
  | ternary cond yes no =>
    refine bind_congr fun v => ?_
    simp only
    split
    · exact (Plan.run_part_done 1 yes).symm
    · exact (Plan.run_part_done 2 no).symm
  | index target place =>
    exact bind_congr fun v => bind_congr fun w => (Plan.run_ofExcept _ span).symm
  | ifElse arms otherwise => exact (Plan.run_choose otherwise 0 arms).symm
  | whileLoop cond body => exact (Plan.run_whileLoop cond body fuel).symm
  -- Where the step is left out, it is one, and the body is a position earlier.
  | forLoop name first last step body =>
    cases step with
    | none =>
      rw [Node.plan, Plan.run_number]
      refine bind_congr fun x => ?_
      rw [Plan.run_number]
      exact bind_congr fun y => (Plan.run_forLoop name x y 1.0 2 body span fuel).symm
    | some step =>
      rw [Node.plan, Plan.run_number]
      refine bind_congr fun x => ?_
      rw [Plan.run_number]
      refine bind_congr fun y => ?_
      rw [Plan.run_number]
      exact bind_congr fun z => (Plan.run_forLoop name x y z 3 body span fuel).symm
  | function definition =>
    obtain ⟨name, params, body, isExpression⟩ := definition
    cases name <;> rfl
  | call callee args =>
    refine bind_congr fun v => ?_
    exact (Plan.run_each (fun values => .call v values span) [] 1 args).symm
  | returning value => cases value <;> rfl

/-! ## Values that correspond -/

/-- A relation between values that no operation can tell apart. -/
structure ValueRelation where
  rel : Value → Value → Prop
  number (x : Float) : rel (.number x) (.number x)
  text (s : String) : rel (.text s) (.text s)
  null : rel .null .null
  list {items items' : List Value} : List.Forall₂ rel items items' →
    rel (.list items) (.list items')
  isTruthy_eq {v v' : Value} : rel v v' → v.isTruthy = v'.isTruthy
  number_iff {v v' : Value} : rel v v' → ∀ x, v = .number x ↔ v' = .number x
  binary (op : BinaryOp) {v v' w w' : Value} : rel v v' → rel w w' →
    Likewise rel (Value.binary op v w) (Value.binary op v' w')
  unary (op : UnaryOp) {v v' : Value} : rel v v' →
    Likewise rel (Value.unary op v) (Value.unary op v')
  index {v v' w w' : Value} : rel v v' → rel w w' →
    Likewise rel (Value.index v w) (Value.index v' w')

namespace ValueRelation

/-- Values of corresponding runs. -/
def alike (L : Likeness) : ValueRelation where
  rel := Value.Alike L
  number := .number
  text := .text
  null := .null
  list := .list
  isTruthy_eq := Value.Alike.isTruthy_eq
  number_iff h x := by cases h <;> simp
  binary op := Value.alike_binary op
  unary op := Value.alike_unary op
  index := Value.alike_index

variable {P : Site → Definition → Prop}

/-- An operation on one side is compared with itself. -/
theorem likewise_of_gives {result : Except Fault Value}
    (h : Gives (·.Admits P) Fault.OfOperation result) :
    Likewise (fun v v' => v.Admits P ∧ v = v') result result := by
  cases result with
  | ok value => exact .ok ⟨h, rfl⟩
  | error fault => exact .error fault

/-- The same values, and `P` holds of the functions in them. -/
def admits (P : Site → Definition → Prop) : ValueRelation where
  rel v v' := v.Admits P ∧ v = v'
  number _ := ⟨trivial, rfl⟩
  text _ := ⟨trivial, rfl⟩
  null := ⟨trivial, rfl⟩
  list h := by
    rw [List.forall₂_and_left, List.forall₂_eq_eq_eq] at h
    exact ⟨Value.admits_list.mpr h.1, congrArg Value.list h.2⟩
  isTruthy_eq h := congrArg Value.isTruthy h.2
  number_iff h x := by rw [h.2]
  binary op := by
    rintro v _ w _ ⟨hv, rfl⟩ ⟨hw, rfl⟩
    exact likewise_of_gives (Value.gives_binary op hv hw)
  unary op := by
    rintro v _ ⟨hv, rfl⟩
    exact likewise_of_gives (Value.gives_unary op hv)
  index := by
    rintro v _ w _ ⟨hv, rfl⟩ ⟨-, rfl⟩
    exact likewise_of_gives (Value.gives_index hv w)

end ValueRelation

/-! ## Plans that correspond -/

/-- How the plans of two nodes correspond. -/
structure PlanRelation where
  /-- Which values do. -/
  values : ValueRelation
  /-- What cuts the one short if this cuts the other one short. -/
  stops : Interrupt → Interrupt → Prop
  /-- What may cut the first one short whatever the second one does. -/
  excused : Interrupt → Prop
  /-- Which nodes are evaluated, at a position. -/
  parts : Nat → Node → Node → Prop
  /-- Which nodes are evaluated as the body of a loop, at a position. -/
  rounds : Nat → Node → Node → Prop
  /-- Which variables are looked up. -/
  reads : String → Prop
  /-- Which variables are bound. -/
  binds : String → Prop
  /-- Which variables are unbound in the end. -/
  unbinds : String → Prop
  /-- Which nodes are blamed for what calls fail with. -/
  blames : Span → Span → Prop

namespace Plan

/-- Plans with the same steps, up to what a relation leaves open. -/
inductive Related (T : PlanRelation) : Plan → Plan → Prop
  | done {v v' : Value} (h : T.values.rel v v') : Related T (.done v) (.done v')
  | stop {i i' : Interrupt} (h : T.stops i i') : Related T (.stop i) (.stop i')
  | excused {i : Interrupt} (h : T.excused i) (p : Plan) : Related T (.stop i) p
  | part {position : Nat} {node node' : Node} {next next' : Value → Plan}
      (h : T.parts position node node')
      (hnext : ∀ v v', T.values.rel v v' → Related T (next v) (next' v')) :
      Related T (.part position node next) (.part position node' next')
  | round {position : Nat} {node node' : Node} {next next' : Bool → Plan}
      (h : T.rounds position node node')
      (hnext : ∀ goesOn, Related T (next goesOn) (next' goesOn)) :
      Related T (.round position node next) (.round position node' next')
  | look {name : String} {next next' : Option Value → Plan} (h : T.reads name)
      (hsome : ∀ v v', T.values.rel v v' → Related T (next (some v)) (next' (some v')))
      (hnone : Related T (next none) (next' none)) : Related T (.look name next) (.look name next')
  | define {name : String} {v v' : Value} {next next' : Plan} (h : T.binds name)
      (hv : T.values.rel v v') (hnext : Related T next next') :
      Related T (.define name v next) (.define name v' next')
  | unbinding {name : String} {body body' : Plan} (h : T.unbinds name)
      (hbody : Related T body body') : Related T (.unbinding name body) (.unbinding name body')
  | call {callee callee' : Value} {args args' : List Value} {span span' : Span}
      (hcallee : T.values.rel callee callee') (hargs : List.Forall₂ T.values.rel args args')
      (h : T.blames span span') : Related T (.call callee args span) (.call callee' args' span')

end Plan

/-- Two nodes at their places that say the same, up to what a relation between their plans leaves
open. -/
structure PlanRelation.Corresponds (T : PlanRelation) (settings settings' : Settings)
    (site site' : Site) (node node' : Node) : Prop where
  form : ∃ nodes, node.form.Alike nodes T.reads node'.form
  part : ∀ (position : Nat) (child child' : Node), node.form.parts[position]? = some child →
    node'.form.parts[position]? = some child' → node.form.body? ≠ some position →
    T.parts position child child'
  round : ∀ (position : Nat) (child child' : Node), node.form.parts[position]? = some child →
    node'.form.parts[position]? = some child' → node.form.body? = some position →
    T.rounds position child child'
  literal : ∀ definition definition', node.form = .function definition →
    node'.form = .function definition' →
    T.values.rel (.function site definition) (.function site' definition')
  binds : ∀ name, node.form.named? = some name → T.binds name
  unbinds : ∀ name, node.form.named? = some name → node.form.body? ≠ none → T.unbinds name
  blames : T.blames node.span node'.span
  fault : ∀ fault : Fault, fault.Ordinary →
    T.stops (.failing (.error ⟨fault, some node.span⟩)) (.failing (.error ⟨fault, some node'.span⟩))
  bound : ∀ (position : Nat) (child child' : Node), node.form.parts[position]? = some child →
    node'.form.parts[position]? = some child' →
    T.stops (.failing (.error ⟨.expectedNumber, some child.span⟩))
      (.failing (.error ⟨.expectedNumber, some child'.span⟩))
  unbound : settings.strictVariables = settings'.strictVariables ∨
    settings.strictVariables = true ∧
      ∀ name, T.excused (.failing (.error ⟨.undefinedVariable name, some node.span⟩))
  exhausted : node.form.body? ≠ none → T.stops (.failing .exhausted) (.failing .exhausted)
  returning : ∀ value, node.form = .returning value → ∀ v v', T.values.rel v v' →
    T.stops (.returning v) (.returning v')
  breaking : node.form = .breaking → T.stops (.breaking node.span) (.breaking node'.span)
  continuing : node.form = .continuing → T.stops (.continuing node.span) (.continuing node'.span)

namespace Plan.Related

variable {T : PlanRelation}

/-- Plans that choose by the same condition correspond if both choices do. -/
theorem ite {p : Prop} [Decidable p] {x x' y y' : Plan} (hx : Related T x x')
    (hy : Related T y y') : Related T (if p then x else y) (if p then x' else y') := by
  split
  · exact hx
  · exact hy

/-- Operations come to corresponding values, or fail for the same reason. -/
theorem ofExcept {r r' : Except Fault Value} {span span' : Span} (h : Likewise T.values.rel r r')
    (hfault : ∀ fault, r = .error fault →
      T.stops (.failing (.error ⟨fault, some span⟩)) (.failing (.error ⟨fault, some span'⟩))) :
    Related T (.ofExcept r span) (.ofExcept r' span') := by
  cases h with
  | ok h => exact .done h
  | error fault => exact .stop (hfault fault rfl)

/-- Parts that correspond are plans that do. -/
theorem part_done {position : Nat} {node node' : Node} (h : T.parts position node node') :
    Related T (.part position node .done) (.part position node' .done) :=
  .part h fun _ _ hv => .done hv

/-- The values of nodes that correspond pairwise correspond, and so does what is done with them. -/
theorem each {next next' : List Value → Plan}
    (hnext : ∀ values values', List.Forall₂ T.values.rel values values' →
      Related T (next values) (next' values'))
    {shape : Node → Node → Prop} {nodes nodes' : List Node}
    (hshape : List.Forall₂ shape nodes nodes') {position : Nat}
    (hpart : ∀ i child child', nodes[i]? = some child → nodes'[i]? = some child' →
      T.parts (position + i) child child')
    {values values' : List Value} (hvalues : List.Forall₂ T.values.rel values values') :
    Related T (.each next values position nodes) (.each next' values' position nodes') := by
  induction hshape generalizing position values values' with
  | nil => exact hnext _ _ (List.rel_reverse hvalues)
  | cons _ _ ih =>
    refine .part (hpart 0 _ _ rfl rfl) fun v v' hv => ih (fun i child child' hi hi' => ?_)
      (.cons hv hvalues)
    rw [Nat.add_right_comm]
    exact hpart (i + 1) child child' hi hi'

/-- Sequences correspond if their statements do pairwise. -/
theorem sequence {shape : Node → Node → Prop} {nodes nodes' : List Node}
    (hshape : List.Forall₂ shape nodes nodes') {position : Nat}
    (hpart : ∀ i child child', nodes[i]? = some child → nodes'[i]? = some child' →
      T.parts (position + i) child child') {last last' : Value} (hlast : T.values.rel last last') :
    Related T (.sequence last position nodes) (.sequence last' position nodes') := by
  induction hshape generalizing position last last' with
  | nil => exact .done hlast
  | cons _ _ ih =>
    refine .part (hpart 0 _ _ rfl rfl) fun v v' hv => ih (fun i child child' hi hi' => ?_) hv
    rw [Nat.add_right_comm]
    exact hpart (i + 1) child child' hi hi'

/-- Each arm takes up two positions, one for its condition and one for its body. -/
theorem choose {shape : Node → Node → Prop} {arms arms' : List Arm}
    {otherwise otherwise' : Option Node} (hshape : List.Forall₂ (Arm.Alike shape) arms arms')
    (hotherwise : Option.Rel shape otherwise otherwise') {position : Nat}
    (hpart : ∀ i child child',
      (arms.flatMap (fun arm => [arm.cond, arm.body]) ++ otherwise.toList)[i]? = some child →
      (arms'.flatMap (fun arm => [arm.cond, arm.body]) ++ otherwise'.toList)[i]? = some child' →
      T.parts (position + i) child child') :
    Related T (.choose otherwise position arms) (.choose otherwise' position arms') := by
  induction hshape generalizing position with
  | nil =>
    cases hotherwise with
    | none => exact .done T.values.null
    | some _ => exact .part_done (hpart 0 _ _ rfl rfl)
  | cons _ _ ih =>
    refine .part (hpart 0 _ _ rfl rfl) fun v v' hv => ?_
    rw [T.values.isTruthy_eq hv]
    refine .ite (.part_done (hpart 1 _ _ rfl rfl)) (ih fun i child child' hi hi' => ?_)
    rw [Nat.add_right_comm]
    exact hpart (i + 2) child child' hi hi'

/-- Bounds correspond if their nodes do, also where they are no numbers. -/
theorem number {position : Nat} {node node' : Node} (h : T.parts position node node')
    (hstop : T.stops (.failing (.error ⟨.expectedNumber, some node.span⟩))
      (.failing (.error ⟨.expectedNumber, some node'.span⟩))) {next next' : Float → Plan}
    (hnext : ∀ x, Related T (next x) (next' x)) :
    Related T (.number position node next) (.number position node' next') := by
  refine .part h fun v v' hv => ?_
  by_cases hnumber : ∃ x, v = .number x
  · obtain ⟨x, rfl⟩ := hnumber
    rw [(T.values.number_iff hv x).mp rfl]
    exact hnext x
  · -- Neither of the two values is a number.
    have hnumber' : ∀ x, v' ≠ .number x :=
      fun x heq => hnumber ⟨x, (T.values.number_iff hv x).mpr heq⟩
    cases v with
    | number x => exact absurd ⟨x, rfl⟩ hnumber
    | _ =>
      cases v' with
      | number x => exact absurd rfl (hnumber' x)
      | _ => exact .stop hstop

/-- Loops correspond if their conditions and their bodies do, with the same fuel. -/
theorem whileLoop {cond cond' body body' : Node} (hcond : T.parts 0 cond cond')
    (hbody : T.rounds 1 body body')
    (hexhausted : T.stops (.failing .exhausted) (.failing .exhausted))
    (n : Nat) : Related T (.whileLoop cond body n) (.whileLoop cond' body' n) := by
  induction n with
  | zero => exact .stop hexhausted
  | succ n ih =>
    refine .part hcond fun v v' hv => ?_
    rw [T.values.isTruthy_eq hv]
    exact .ite (.round hbody fun goesOn => .ite ih (.done T.values.null)) (.done T.values.null)

/-- Counting loops correspond if their bodies do, with the same numbers. -/
theorem forRounds {name : String} {position : Nat} {body body' : Node} (hname : T.binds name)
    (hbody : T.rounds position body body')
    (hexhausted : T.stops (.failing .exhausted) (.failing .exhausted)) (last step : Float) (n : Nat)
    (counter : Float) :
    Related T (.forRounds name last step position body n counter)
      (.forRounds name last step position body' n counter) := by
  induction n generalizing counter with
  | zero => exact .stop hexhausted
  | succ n ih =>
    refine .ite (.define hname (T.values.number counter) ?_) (.done T.values.null)
    exact .round hbody fun goesOn => .ite (ih (counter + step)) (.done T.values.null)

end Plan.Related

variable {T : PlanRelation} {settings settings' : Settings} {site site' : Site} {node node' : Node}

/-- Nodes that correspond have plans that do. -/
theorem PlanRelation.Corresponds.related_plan
    (h : T.Corresponds settings settings' site site' node node') (fuel : Nat) :
    Plan.Related T (node.plan settings fuel site) (node'.plan settings' fuel site') := by
  obtain ⟨form, span⟩ := node
  obtain ⟨form', span'⟩ := node'
  obtain ⟨nodes, hform⟩ := h.form
  have hany : ∀ v : Value, v.Admits fun _ _ => True := Value.admits_of_forall fun _ _ => trivial
  have hnull := T.values.null
  -- What is not the body of a loop is just evaluated.
  have hpart : form.body? = none → ∀ position child child', form.parts[position]? = some child →
      form'.parts[position]? = some child' → T.parts position child child' := by
    intro hbody position child child' hchild hchild'
    refine h.part position child child' hchild hchild' ?_
    rw [show Node.form ⟨form, span⟩ = form from rfl, hbody]
    exact nofun
  cases hform with
  | number x => exact .done (T.values.number x)
  | text s => exact .done (T.values.text s)
  | null => exact .done hnull
  | list hitems =>
    refine .each (fun _ _ hvalues => .done (T.values.list hvalues)) hitems (fun i => ?_) .nil
    rw [Nat.zero_add]
    exact hpart rfl i
  | var hname =>
    refine .look hname (fun _ _ hv => .done hv) ?_
    -- Either both settings treat an unbound name alike, or only the stricter ones raise an error
    -- for it, and that is excused.
    rcases h.unbound with hsame | ⟨hstrict, hexcused⟩
    · simp only [hsame]
      exact .ite (.stop (h.fault _ (by simp [Fault.kind]))) (.done hnull)
    · simp only [hstrict, if_true]
      exact .excused (hexcused _) _
  | assign name _ =>
    exact .part (hpart rfl 0 _ _ rfl rfl) fun _ _ hv => .define (h.binds name rfl) hv (.done hv)
  -- The right operand is evaluated first, and so it is the first step of both plans.
  | binary op _ _ =>
    refine .part (hpart rfl 1 _ _ rfl rfl) fun w _ hw =>
      .part (hpart rfl 0 _ _ rfl rfl) fun v _ hv => ?_
    refine .ofExcept (T.values.binary op hv hw) fun fault hfault => h.fault fault ?_
    exact ((Value.gives_binary op (hany v) (hany w)).of_error fault hfault).ordinary
  | unary op _ =>
    refine .part (hpart rfl 0 _ _ rfl rfl) fun v _ hv => ?_
    refine .ofExcept (T.values.unary op hv) fun fault hfault => h.fault fault ?_
    exact ((Value.gives_unary op (hany v)).of_error fault hfault).ordinary
  | ternary =>
    refine .part (hpart rfl 0 _ _ rfl rfl) fun _ _ hv => ?_
    rw [T.values.isTruthy_eq hv]
    exact .ite (.part_done (hpart rfl 1 _ _ rfl rfl)) (.part_done (hpart rfl 2 _ _ rfl rfl))
  | index =>
    refine .part (hpart rfl 0 _ _ rfl rfl) fun v _ hv =>
      .part (hpart rfl 1 _ _ rfl rfl) fun w _ hw => ?_
    refine .ofExcept (T.values.index hv hw) fun fault hfault => h.fault fault ?_
    exact ((Value.gives_index (hany v) w).of_error fault hfault).ordinary
  | ifElse harms hotherwise =>
    refine .choose harms hotherwise fun i => ?_
    rw [Nat.zero_add]
    exact hpart rfl i
  | whileLoop =>
    exact .whileLoop (h.part 0 _ _ rfl rfl (by simp [Form.body?])) (h.round 1 _ _ rfl rfl rfl)
      (h.exhausted (by simp [Form.body?])) fuel
  | @forLoop name _ _ _ _ _ _ _ _ _ _ hstep _ =>
    have hexhausted := h.exhausted (by simp [Form.body?])
    have hname := h.binds name rfl
    have hunbinds := h.unbinds name rfl (by simp [Form.body?])
    have hzero := h.fault .zeroStep (by simp [Fault.kind])
    cases hstep with
    | none =>
      refine .number (h.part 0 _ _ rfl rfl (by simp [Form.body?])) (h.bound 0 _ _ rfl rfl)
        fun x => ?_
      refine .number (h.part 1 _ _ rfl rfl (by simp [Form.body?])) (h.bound 1 _ _ rfl rfl)
        fun y => ?_
      refine .ite (.stop hzero) (.unbinding hunbinds ?_)
      exact .forRounds hname (h.round 2 _ _ rfl rfl rfl) hexhausted y 1.0 fuel x
    | some =>
      refine .number (h.part 0 _ _ rfl rfl (by simp [Form.body?])) (h.bound 0 _ _ rfl rfl)
        fun x => ?_
      refine .number (h.part 1 _ _ rfl rfl (by simp [Form.body?])) (h.bound 1 _ _ rfl rfl)
        fun y => ?_
      refine .number (h.part 2 _ _ rfl rfl (by simp [Form.body?])) (h.bound 2 _ _ rfl rfl)
        fun z => ?_
      refine .ite (.stop hzero) (.unbinding hunbinds ?_)
      exact .forRounds hname (h.round 3 _ _ rfl rfl rfl) hexhausted y z fuel x
  -- A function without a name is a value only, one with a name is bound, too.
  | @function definition definition' hdefinition =>
    have hvalue := h.literal definition definition' rfl rfl
    obtain ⟨name, params, body, isExpression⟩ := definition
    obtain ⟨name', params', body', isExpression'⟩ := definition'
    obtain rfl : name = name' := hdefinition.name
    cases name with
    | none => exact .done hvalue
    | some name => exact .define (h.binds name rfl) hvalue (.done hvalue)
  | call _ hargs =>
    refine .part (hpart rfl 0 _ _ rfl rfl) fun _ _ hv => ?_
    refine .each (fun _ _ hvalues => .call hv hvalues h.blames) hargs
      (fun i child child' hi hi' => ?_) .nil
    rw [Nat.add_comm]
    exact hpart rfl (i + 1) child child' hi hi'
  | returning hvalue =>
    cases hvalue with
    | none => exact .stop (h.returning _ rfl _ _ hnull)
    | some _ =>
      exact .part (hpart rfl 0 _ _ rfl rfl) fun v v' hv => .stop (h.returning _ rfl v v' hv)
  | breaking => exact .stop (h.breaking rfl)
  | continuing => exact .stop (h.continuing rfl)
  | block hstatements =>
    refine .sequence hstatements (fun i => ?_) hnull
    rw [Nat.zero_add]
    exact hpart rfl i

/-! ## A single plan -/

/-- The steps of a single plan. The plan is compared with itself, and only its values count. -/
def PlanRelation.single (P : Site → Definition → Prop) (stop : Interrupt → Prop)
    (parts rounds : Nat → Node → Prop) (binds unbinds : String → Prop) (blames : Span → Prop) :
    PlanRelation where
  values := .admits P
  stops i _ := stop i
  excused _ := False
  parts position node _ := parts position node
  rounds position node _ := rounds position node
  reads _ := True
  binds := binds
  unbinds := unbinds
  blames span _ := blames span

/-- A node may be cut short by all that can cut it short: faults that it is blamed for, bounds of a
loop that are no numbers, the jump that it is, and the end of the fuel if it is a loop. -/
structure MayStop (P : Site → Definition → Prop) (stop : Interrupt → Prop) (node : Node) :
    Prop where
  fault : ∀ fault : Fault, fault.Ordinary → stop (.failing (.error ⟨fault, some node.span⟩))
  bound : ∀ child ∈ node.children, stop (.failing (.error ⟨.expectedNumber, some child.span⟩))
  returning : ∀ value, node.form = .returning value → ∀ v : Value, v.Admits P → stop (.returning v)
  breaking : node.form = .breaking → stop (.breaking node.span)
  continuing : node.form = .continuing → stop (.continuing node.span)
  exhausted : node.form.body? ≠ none → stop (.failing .exhausted)

namespace MayStop

variable {P : Site → Definition → Prop} {stop : Interrupt → Prop}
variable {parts rounds : Nat → Node → Prop} {binds unbinds : String → Prop} {blames : Span → Prop}

/-- Where every ending is allowed, a node may stop as it likes. -/
theorem of_forall (h : ∀ i, stop i) : MayStop P stop node :=
  ⟨fun _ _ => h _, fun _ _ => h _, fun _ _ _ _ => h _, fun _ => h _, fun _ => h _, fun _ => h _⟩

/-- The steps of the plan of a node are those that its form allows for. -/
theorem related_plan (hstop : MayStop P stop node)
    (hpart : ∀ (position : Nat) (child : Node), node.form.parts[position]? = some child →
      node.form.body? ≠ some position → parts position child)
    (hround : ∀ (position : Nat) (child : Node), node.form.parts[position]? = some child →
      node.form.body? = some position → rounds position child)
    (hbinds : ∀ name, node.form.named? = some name → binds name)
    (hunbinds : ∀ name, node.form.named? = some name → node.form.body? ≠ none → unbinds name)
    (hblames : blames node.span)
    (hliteral : ∀ definition, node.form = .function definition → P site definition) (fuel : Nat) :
    Plan.Related (.single P stop parts rounds binds unbinds blames) (node.plan settings fuel site)
      (node.plan settings fuel site) := by
  -- A node corresponds to itself, so that facts about one run are those about two runs of the same.
  have hsame : (PlanRelation.single P stop parts rounds binds unbinds blames).Corresponds settings
      settings site site node node := {
    form := ⟨_, Form.alike_of_bare rfl⟩
    part := fun position child _ hget _ => hpart position child hget
    round := fun position child _ hget _ => hround position child hget
    literal := fun definition definition' hform hform' =>
      ⟨hliteral definition hform, congrArg _ (Form.function.inj (hform.symm.trans hform'))⟩
    binds := hbinds
    unbinds := hunbinds
    blames := hblames
    fault := hstop.fault
    bound := fun position child _ hget _ =>
      hstop.bound child (Form.mem_children (List.mem_of_getElem? hget))
    unbound := .inl rfl
    exhausted := hstop.exhausted
    returning := fun value hform v _ hv => hstop.returning value hform v hv.1
    breaking := hstop.breaking
    continuing := hstop.continuing }
  exact hsame.related_plan fuel

end MayStop

/-- Only loops look at the fuel themselves. -/
theorem Node.plan_eq_of_body? (h : node.form.body? = none) (fuel : Nat) :
    node.plan settings fuel site = node.plan settings 0 site := by
  obtain ⟨form, span⟩ := node
  cases form with
  | whileLoop | forLoop => cases h
  | returning value => cases value <;> rfl
  | _ => rfl

end Script
