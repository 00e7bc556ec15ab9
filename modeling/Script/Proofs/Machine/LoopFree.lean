import Script.Proofs.Machine.ControlFlow
import Script.Proofs.Machine.Settles

/-!
# Programs without loops

A program without `while` and `for` always comes to an end, whatever limit there is for calls inside
each other, as long as the functions within its reach have no loops either: there is an amount of
fuel from which on its outcome no longer changes, and the outcome is a value or an error.

## Shape of the proof

The text of a program bounds nothing here, since the functions that it calls come from variables.
What gets smaller goes in three steps, one inside the other:

* a call of a function of the script leaves less of the limit for calls inside each other, and at
  the limit it is refused;
* `map` and `reduce` do not count as calls, but the calls that they make have fewer arguments than
  they have themselves: two instead of three, and one instead of two;
* everything else that a node is made of is below it in the tree (`Node.LoopFree` is an induction
  over that).

That the functions within reach have no loops is an invariant, and so is the number of calls going
on (`Within`).
-/

namespace Script

/-! ## Trees without loops -/

/-- Whether a form is a loop. -/
def Form.isLoop : Form → Bool
  | .whileLoop .. | .forLoop .. => true
  | _ => false

/-- Only a loop has a body to repeat. -/
theorem Form.body?_eq_none {form : Form} (h : form.isLoop = false) : form.body? = none := by
  cases form with
  | whileLoop | forLoop => cases h
  | _ => rfl

/-- Neither a node nor any node below it is a loop. -/
inductive Node.LoopFree : Node → Prop
  | intro {node : Node} (hform : node.form.isLoop = false)
      (hchildren : ∀ child ∈ node.children, child.LoopFree) : node.LoopFree

/-- A node is free of loops if it is none and its children are free of them. -/
theorem Node.loopFree_mk {form : Form} {span : Span} :
    Node.LoopFree ⟨form, span⟩ ↔ form.isLoop = false ∧ ∀ child ∈ form.children, child.LoopFree :=
  ⟨fun ⟨hform, hchildren⟩ => ⟨hform, hchildren⟩, fun h => .intro h.1 h.2⟩

/-- The functions without loops. -/
def LoopFree (_ : Site) (definition : Definition) : Prop := definition.body.LoopFree

/-! ## Evaluations that come to an end -/

/-- A failure other than that of running out of fuel. -/
def Failure.Final (failure : Failure) : Prop := failure ≠ .exhausted

/-- An interrupt other than that of running out of fuel. What it returns contains no loops. -/
def Interrupt.Final : Interrupt → Prop
  | .returning value => value.Admits LoopFree
  | .breaking _ | .continuing _ => True
  | .failing failure => failure.Final

theorem Failure.final_error (e : RuntimeError) : (Failure.error e).Final := nofun

/-- To blame a failure on a place leaves it final. -/
theorem Failure.Final.blame {failure : Failure} (h : failure.Final) (span : Span) :
    (failure.blame span).Final := by
  cases failure with
  | error e => exact Failure.final_error _
  | exhausted => exact absurd rfl h

/-- A jump that nothing catches is final. -/
theorem Interrupt.Final.uncaught {i : Interrupt} (h : i.Final) : i.uncaught.Final := by
  cases i with
  | failing failure => exact h
  | returning | breaking | continuing => exact Failure.final_error _

/-- The evaluation of a node comes to an end while a number of calls is going on. -/
def EvalSettles (settings : Settings) (depth : Nat) (node : Node) : Prop :=
  ∀ site scope, Settles (Within LoopFree scope depth) (·.Admits LoopFree) Interrupt.Final
    fun fuel => eval settings fuel node site scope

/-- A call comes to an end while a number of calls is going on. -/
def CallSettles (settings : Settings) (depth : Nat) (callee : Value) (args : List Value) : Prop :=
  ∀ scope, Settles (Within LoopFree scope depth) (·.Admits LoopFree) Failure.Final fun fuel =>
    call settings fuel callee args scope

section

variable {settings : Settings} {depth : Nat}

/-- The evaluation of a node that is no loop comes to an end, if that of the nodes below it and the
calls that it makes do. -/
theorem settles_evalNode {node : Node} (hform : node.form.isLoop = false)
    (hchildren : ∀ child ∈ node.children, child.LoopFree ∧ EvalSettles settings depth child)
    (hcall : ∀ callee args, callee.Admits LoopFree → (∀ v ∈ args, v.Admits LoopFree) →
      CallSettles settings depth callee args) (site : Site) (scope : ScopeId) :
    Settles (Within LoopFree scope depth) (·.Admits LoopFree) Interrupt.Final fun fuel =>
      evalNode settings fuel (eval settings fuel) (call settings fuel) node site scope := by
  have hbody : node.form.body? = none := Form.body?_eq_none hform
  have hstop : MayStop LoopFree Interrupt.Final node := {
    fault := fun _ _ => Failure.final_error _
    bound := fun _ _ => Failure.final_error _
    returning := fun _ _ _ hv => hv
    breaking := fun _ => trivial
    continuing := fun _ => trivial
    exhausted := fun hloop => absurd hbody hloop }
  -- The plan is the same with all amounts of fuel, and only its steps look at them.
  simp only [evalNode_eq_run, Node.plan_eq_of_body? hbody]
  refine .of_related (fun callee args hcallee hargs => hcall callee args hcallee hargs scope)
    (fun _ _ _ hm hv => hm.admits.get? hv) (hstop.related_plan ?_ ?_ ?_ ?_ ?_ ?_ 0)
  · intro position child hget _
    exact (hchildren child (Form.mem_children (List.mem_of_getElem? hget))).2 _ scope
  · intro position child _ hround
    cases hbody.symm.trans hround
  · exact fun name _ m v hm hv => ⟨hm.admits.define name hv, hm.depth_eq⟩
  · exact fun _ _ hloop => hloop hbody
  · exact fun f hf => hf.blame node.span
  · intro definition hform
    exact (hchildren definition.body (by simp [Node.children, hform, Form.children])).1

/-- A node without loops comes to an end, if the calls made at its depth do. -/
theorem evalSettles_of_loopFree
    (hcall : ∀ callee args, callee.Admits LoopFree → (∀ v ∈ args, v.Admits LoopFree) →
      CallSettles settings depth callee args) {node : Node} (h : node.LoopFree) :
    EvalSettles settings depth node := by
  induction h with
  | @intro node hform hchildren ih =>
    intro site scope
    refine .of_succ ?_
    simp only [eval_succ]
    exact settles_evalNode hform
      (fun child hchild => ⟨hchildren child hchild, ih child hchild⟩) hcall
      site scope

/-- A call of a function of the script comes to an end, if its body does with one more call going
on. At the limit it does not get that far. -/
theorem settles_callFunction {site : Site} {definition : Definition} {args : List Value}
    (hbody : depth < settings.maxCallDepth → EvalSettles settings (depth + 1) definition.body)
    (hargs : ∀ v ∈ args, v.Admits LoopFree) (caller : ScopeId) :
    Settles (Within LoopFree caller depth) (·.Admits LoopFree) Failure.Final fun fuel =>
      callFunction settings (eval settings fuel) site definition args caller := by
  intro m hm
  unfold callFunction
  -- Both refusals come at once, whatever the fuel.
  by_cases hlength : args.length ≠ definition.params.length
  · simp only [if_pos hlength]
    exact Settles.of_keeps (.callRaise (Failure.final_error _)) m hm
  simp only [if_neg hlength]
  by_cases hlimit : settings.maxCallDepth ≤ m.depth
  · simp only [if_pos hlimit]
    exact Settles.of_keeps (.callRaise (Failure.final_error _)) m hm
  simp only [if_neg hlimit]
  have hlt : depth < settings.maxCallDepth := by
    rw [← hm.depth_eq]
    exact Nat.lt_of_not_le hlimit
  refine Settles.inChild (Bindings.admits_ofPairs definition.params hargs) (fun scope => ?_)
    (fun fuel scope =>
      ⟨_, touches_body ((touches_eval_call settings fuel).1 definition.body _ scope)⟩)
    m hm
  refine .deeper (.ofBody (hbody hlt (site.child 0) scope) trivial (fun _ hv => hv) ?_)
  exact fun i hi _ => hi.uncaught

/-- A built-in function comes to an end, if the calls do that it makes with fewer arguments. -/
theorem settles_run (b : Builtin) {args : List Value}
    (hcall : ∀ callee args', args'.length < args.length → callee.Admits LoopFree →
      (∀ v ∈ args', v.Admits LoopFree) → CallSettles settings depth callee args')
    (hargs : ∀ v ∈ args, v.Admits LoopFree) (caller : ScopeId) :
    Settles (Within LoopFree caller depth) (·.Admits LoopFree) Failure.Final fun fuel =>
      b.run (call settings fuel) args caller := by
  have hfinal : ∀ fault : Fault, fault.Ordinary → (Failure.error ⟨fault, none⟩).Final :=
    fun _ _ => Failure.final_error _
  have hleaves := fun fuel => (touches_eval_call settings fuel).2
  -- `map` and `reduce` are the ones that call back.
  by_cases hmap : b = .map
  · subst hmap
    show Settles _ _ _ fun fuel => Builtin.mapCall (call settings fuel) args caller
    unfold Builtin.mapCall
    split
    · rename_i list f
      have hlist := Builtin.gives_wantList .map (hargs list List.mem_cons_self)
      refine .bind (.of_keeps (.ofGives hfinal hlist)) fun items hitems => ?_
      refine .bind (.of_keeps (.ofGives hfinal (Builtin.gives_wantFunction .map f))) fun _ _ => ?_
      refine .inChild Bindings.admits_empty (fun scope => ?_) fun fuel scope =>
        ⟨[], touches_mapFrom (hleaves fuel) f scope [] items⟩
      refine .mapFrom (fun item hitem => ?_) (fun _ => Value.admits_list.mpr)
        (List.forall_mem_nil _)
      refine hcall f [item] (by simp) (hargs f (by simp)) ?_ scope
      simpa using hitems item hitem
    · exact .of_keeps (.callRaise (Failure.final_error _))
  by_cases hreduce : b = .reduce
  · subst hreduce
    show Settles _ _ _ fun fuel => Builtin.reduceCall (call settings fuel) args caller
    unfold Builtin.reduceCall
    split
    · rename_i list f initial
      have hlist := Builtin.gives_wantList .reduce (hargs list List.mem_cons_self)
      refine .bind (.of_keeps (.ofGives hfinal hlist)) fun items hitems => ?_
      refine .bind (.of_keeps (.ofGives hfinal (Builtin.gives_wantFunction .reduce f)))
        fun _ _ => ?_
      refine .inChild Bindings.admits_empty (fun scope => ?_) fun fuel scope =>
        ⟨[], touches_reduceFrom (hleaves fuel) f scope initial items⟩
      refine .reduceFrom (fun accumulated haccumulated item hitem => ?_) (hargs initial (by simp))
      refine hcall f [accumulated, item] (by simp) (hargs f (by simp)) ?_ scope
      simpa using ⟨haccumulated, hitems item hitem⟩
    · exact .of_keeps (.callRaise (Failure.final_error _))
  -- No other built-in function makes calls, so that the fuel does not matter to it.
  have hfuel : ∀ fuel, b.run (call settings fuel) args caller
      = b.run (call settings 0) args caller := by
    intro fuel
    cases b with
    | map => exact absurd rfl hmap
    | reduce => exact absurd rfl hreduce
    | _ => rfl
  simp only [hfuel]
  refine .of_keeps (.runAlone (fun _ _ hm => ?_) hfinal hmap hreduce hargs)
  exact ⟨hm.admits, hm.depth_eq⟩

/-- Calls come to an end, if the bodies of functions do with one more call going on. -/
theorem callSettles_of_body
    (hbody : depth < settings.maxCallDepth → ∀ node : Node, node.LoopFree →
      EvalSettles settings (depth + 1) node)
    (callee : Value) (args : List Value) (hcallee : callee.Admits LoopFree)
    (hargs : ∀ v ∈ args, v.Admits LoopFree) : CallSettles settings depth callee args := by
  -- The calls that `map` and `reduce` make have fewer arguments.
  induction hlength : args.length using Nat.strongRecOn generalizing callee args with
  | ind length ih =>
    intro caller
    refine .of_succ ?_
    simp only [call_succ]
    cases callee with
    | function site definition =>
      exact settles_callFunction (fun hlt => hbody hlt definition.body hcallee) hargs caller
    | builtin b =>
      refine settles_run b (fun callee args' hlt hcallee' hargs' => ?_) hargs caller
      exact ih args'.length (hlength ▸ hlt) callee args' hcallee' hargs' rfl
    | number | text | list | null => exact .of_keeps (.callRaise (Failure.final_error _))

end

/-- Everything without loops comes to an end, by induction on how many more calls may be inside each
other. -/
theorem settles_eval_call (settings : Settings) (remaining depth : Nat)
    (h : settings.maxCallDepth ≤ depth + remaining) :
    (∀ node : Node, node.LoopFree → EvalSettles settings depth node) ∧
      ∀ callee args, callee.Admits LoopFree → (∀ v ∈ args, v.Admits LoopFree) →
        CallSettles settings depth callee args := by
  induction remaining generalizing depth with
  | zero =>
    have hcall : ∀ callee args, callee.Admits LoopFree → (∀ v ∈ args, v.Admits LoopFree) →
        CallSettles settings depth callee args := callSettles_of_body fun hlt => by omega
    exact ⟨fun node hnode => evalSettles_of_loopFree hcall hnode, hcall⟩
  | succ remaining ih =>
    have hcall : ∀ callee args, callee.Admits LoopFree → (∀ v ∈ args, v.Admits LoopFree) →
        CallSettles settings depth callee args :=
      callSettles_of_body fun _ => (ih (depth + 1) (by omega)).1
    exact ⟨fun node hnode => evalSettles_of_loopFree hcall hnode, hcall⟩

/-! ## Sessions -/

namespace Session

/-- The input has no loops, if it is a program at all. -/
def Input.LoopFree : Input → Prop
  | .source text => ∀ tree, parseSource text = .ok tree → tree.LoopFree
  | .program loaded => loaded.tree.LoopFree

/-- All functions within reach of the programs to come have no loops. -/
def LoopFree (session : Session) : Prop :=
  session.machine.scopes.Admits Script.LoopFree ScopeTree.rootId

theorem loopFree_new (settings : Settings) (console : Console) (units : Nat) :
    (new settings console units).LoopFree := admits_new settings console units

/-- With enough fuel a program without loops has an outcome, and more fuel does not change it. -/
theorem runProgram_settles {session : Session} (h : session.LoopFree) {program : Program}
    (hprogram : program.tree.LoopFree) :
    ∃ outcome after enough, outcome ≠ .exhausted ∧ after.LoopFree ∧
      ∀ fuel, enough ≤ fuel → session.runProgram fuel program = (outcome, after) := by
  let start : Machine := { session.machine with depth := 0 }
  have hsettles :=
    (settles_eval_call session.settings session.settings.maxCallDepth 0 (by omega)).1 _ hprogram
  obtain ⟨result, enough, hend, hresult⟩ :=
    hsettles (.root program.unit) ScopeTree.rootId start ⟨h, rfl⟩
  have hrun : ∀ fuel, enough ≤ fuel →
      eval session.settings fuel program.tree (.root program.unit) ScopeTree.rootId
        { session.machine with depth := 0 } = result := hresult
  cases result with
  | ok value machine =>
    refine ⟨.value value, { session with machine },
      enough, by simp, hend.1.admits, fun fuel hfuel => ?_⟩
    simp only [runProgram, hrun fuel hfuel]
  | error interrupt machine =>
    -- Fuel has not run out, and to blame the failure does not make it so.
    have hfinal := hend.2.uncaught.blame program.tree.span
    cases hblame : interrupt.uncaught.blame program.tree.span with
    | exhausted => exact absurd hblame hfinal
    | error e =>
      refine ⟨.error (.failed e), { session with machine }, enough, by simp, hend.1.admits,
        fun fuel hfuel => ?_⟩
      simp only [runProgram, hrun fuel hfuel, hblame]

/-- The same for any input without loops. -/
theorem feed_settles {session : Session} (h : session.LoopFree) {input : Input}
    (hinput : input.LoopFree) :
    ∃ outcome after enough, outcome ≠ .exhausted ∧ after.LoopFree ∧
      ∀ fuel, enough ≤ fuel → session.feed fuel input = (outcome, after) := by
  cases input with
  | program program => exact runProgram_settles h hinput
  | source text =>
    cases hparse : parseSource text with
    | error e =>
      refine ⟨.error (.refused e), session, 0, nofun, h, fun fuel _ => ?_⟩
      rw [feed, run_of_error hparse]
    | ok tree =>
      have hload : (session.load tree).2.LoopFree := h
      have htree : (session.load tree).1.tree.LoopFree := hinput tree hparse
      obtain ⟨outcome, after, enough, houtcome, hafter, hrun⟩ := runProgram_settles hload htree
      refine ⟨outcome, after, enough, houtcome, hafter, fun fuel hfuel => ?_⟩
      rw [feed, run_of_ok hparse]
      exact hrun fuel hfuel

end Session

/-- Programs without loops always come to an end. In a session without loops, such as a new one, let
any inputs without loops be run one after the other. There are an amount of fuel, an outcome for
each of the inputs, none of which is that of running out of fuel, and a session without loops, such
that whenever each input is given at least that amount these are the outcomes and that is the
session in the end. -/
theorem loopFree_comes_to_an_end :
    (∀ settings console units, (Session.new settings console units).LoopFree) ∧
    ∀ (session : Session) (inputs : List Session.Input), session.LoopFree →
      (∀ input ∈ inputs, input.LoopFree) →
      ∃ enough outcomes last, .exhausted ∉ outcomes ∧ Session.LoopFree last ∧
        ∀ runs : List (Nat × Session.Input), runs.map Prod.snd = inputs →
          (∀ run ∈ runs, enough ≤ run.1) →
          session.outcomes runs = outcomes ∧ session.after runs = last := by
  refine ⟨Session.loopFree_new, fun session inputs hsession hinputs => ?_⟩
  induction inputs generalizing session with
  | nil =>
    refine ⟨0, [], session, List.not_mem_nil, hsession, fun runs hruns _ => ?_⟩
    rw [List.map_eq_nil_iff] at hruns
    subst hruns
    exact ⟨rfl, rfl⟩
  | cons input inputs ih =>
    obtain ⟨outcome, next, enough, houtcome, hnext, hrun⟩ :=
      Session.feed_settles hsession (hinputs input List.mem_cons_self)
    obtain ⟨enough', outcomes, last, houtcomes, hlast, hruns'⟩ :=
      ih next hnext fun input hinput => hinputs input (List.mem_cons_of_mem _ hinput)
    -- outcomes, last, ?_, hlast, fun runs hruns henough => ?_⟩ :: The larger amount of the two is
    -- enough for the first input and for the others.
    refine ⟨max enough enough', outcome :: outcomes, last, ?_, hlast, fun runs hruns henough => ?_⟩
    · exact List.not_mem_cons_of_ne_of_not_mem houtcome.symm houtcomes
    obtain ⟨run, runs, rfl, rfl, hinputs'⟩ := List.map_eq_cons_iff.mp hruns
    obtain ⟨fuel, input⟩ := run
    have hfuel := henough (fuel, input) List.mem_cons_self
    have hfirst := hrun fuel (by simp only at hfuel; omega)
    have hrest := hruns' runs hinputs' fun run hrun' => by
      have hle := henough run (List.mem_cons_of_mem _ hrun')
      omega
    simp only [Session.outcomes, Session.after, hfirst, hrest, and_self]

/-- After `fun f(x) = x(x)` the program `map([f, map], f)` has `f` called with itself, so that it
calls itself until the limit is reached. It comes to an end. -/
theorem loopFree_comes_to_an_end_of_self_call :
    let node : Form → Node := fun form => ⟨form, default⟩
    let name : String → Node := fun s => node (.var s)
    let definition : Definition := ⟨some "f", ["x"], node (.call (name "x") [name "x"]), true⟩
    let define := node (.block [node (.function definition)])
    let use :=
      node (.block [node (.call (name "map") [node (.list [name "f", name "map"]), name "f"])])
    ∃ enough outcomes, Outcome.exhausted ∉ outcomes ∧ ∀ fuel, enough ≤ fuel →
      (Session.new .default (.new [] none) 0).outcomes
        [(fuel, .program ⟨0, define⟩), (fuel, .program ⟨1, use⟩)] = outcomes := by
  intro node name definition define use
  have hinputs :
      ∀ input ∈ [Session.Input.program ⟨0, define⟩, .program ⟨1, use⟩], input.LoopFree := by
    simp [Session.Input.LoopFree, define, use, definition, name, node, Node.loopFree_mk,
      Form.isLoop, Form.children]
  obtain ⟨enough, outcomes, _, houtcomes, _, hruns⟩ :=
    loopFree_comes_to_an_end.2 _ _ (loopFree_comes_to_an_end.1 .default (.new [] none) 0) hinputs
  refine ⟨enough, outcomes, houtcomes, fun fuel hfuel => ?_⟩
  exact (hruns [(fuel, .program ⟨0, define⟩), (fuel, .program ⟨1, use⟩)] rfl
    (by simpa using hfuel)).1

end Script
