import Script.Proofs.Machine.Determined
import Script.Proofs.Machine.Limits
import Script.Proofs.Machine.Origins
import Script.Proofs.Machine.Unwinding

/-!
# How deep calls are inside each other

A machine counts the calls of script functions that are going on. The count is exact. When a
computation is over there are as many as before, however it ends (`keepsDepth_eval_call`). When it
comes to a stage, there are as many more as functions lie on the way to that stage
(`ComesTo.depth_eq`), and never more than the settings allow (`ComesTo.depth_le`).

So the count tells exactly which calls are refused: those of a script function with the right number
of arguments, at a stage with as many functions around it as there may be
(`fails_stackOverflow_iff`).
-/

namespace Script

/-! ## Depth is restored -/

/-- A computation leaves as many calls behind as there were. -/
def KeepsDepth {ε α : Type} (x : EStateM ε Machine α) : Prop :=
  ∀ depth, Keeps (fun m => m.depth = depth) (fun _ => True) (fun _ => True) x

namespace KeepsDepth

variable {ε α : Type} {x : EStateM ε Machine α} {m m₁ : Machine}

theorem after (h : KeepsDepth x) (m : Machine) : (Machine.after (x m)).depth = m.depth :=
  (h m.depth).after rfl

/-- When a computation has come to a value, as many calls are going on as before. -/
theorem of_ok (h : KeepsDepth x) {a : α} (hrun : x m = .ok a m₁) : m₁.depth = m.depth :=
  ((h m.depth).of_ok rfl hrun).1

theorem iteration {body : Eval Value} (h : KeepsDepth body) : KeepsDepth (Eval.iteration body) :=
  fun depth => .iteration (h depth) fun _ _ _ _ => trivial

/-- The body of a function is left with as many calls going on. -/
theorem ofBody {body : Eval Value} (h : KeepsDepth body) (isExpression : Bool) :
    KeepsDepth (Call.ofBody isExpression body) :=
  fun depth => .ofBody (h depth) trivial (fun _ _ => trivial) fun _ _ _ => trivial

end KeepsDepth

/-- Anything may be got hold of. -/
def Origins.everything : Origins where
  nodes _ _ := True
  functions _ _ := True
  spans _ := True
  child _ _ _ := trivial
  literal _ := trivial
  body _ := trivial
  span _ := trivial

/-- Of all that is known of a computation, this is about depth. -/
theorem KeepsDepth.of_known {ε α : Type} {x : EStateM ε Machine α} {scope : ScopeId}
    {value : α → Prop}
    {stop : ε → Prop} (h : ∀ depth, Keeps (Machine.Known .everything depth scope) value stop x) :
    KeepsDepth x := by
  intro depth m hm
  have hknown : m.Known .everything depth scope :=
    ⟨fun id _ name v _ => v.admits_of_forall fun _ _ => trivial, hm⟩
  cases hrun : x m with
  | ok a m' => exact ⟨((h depth).of_ok hknown hrun).1.depth_eq, trivial⟩
  | error e m' => exact ⟨((h depth).of_error hknown hrun).1.depth_eq, trivial⟩

/-- Nodes and calls leave as many calls behind as there were, however they end. -/
theorem keepsDepth_eval_call (settings : Settings) (fuel : Nat) :
    (∀ node site scope, KeepsDepth (eval settings fuel node site scope)) ∧
    ∀ callee args scope, KeepsDepth (call settings fuel callee args scope) := by
  obtain ⟨heval, hcall⟩ := known_eval_call .everything settings fuel
  have hany : ∀ v : Value, v.Admits Origins.everything.functions :=
    fun v => v.admits_of_forall fun _ _ => trivial
  exact ⟨fun node site scope => .of_known fun depth => @heval site node trivial depth scope,
    fun callee args scope => .of_known fun depth =>
      hcall (hany callee) (fun v _ => hany v) depth scope⟩

/-! ## Depth on the way to a stage -/

/-- The machine at a stage. -/
def Stage.machine : Stage → Machine
  | .node _ _ _ _ m => m
  | .call _ _ _ _ m => m

/-- Whether a construct is a function that is being called. -/
def Surrounding.isFunction : Surrounding → Bool
  | .function _ => true
  | .call _ | .loop _ _ | .items _ => false

section

variable {settings : Settings} {k : Nat} {site : Site} {scope : ScopeId} {m m₁ : Machine}

/-- On the way to a stage that a plan meets no function is called. -/
theorem Plan.depth_of_meets {p : Plan} {surroundings : List Surrounding} {t : Stage}
    (h : p.Meets settings k site scope m (.stage surroundings t)) :
    t.machine.depth = m.depth + surroundings.countP Surrounding.isFunction := by
  have heval := (keepsDepth_eval_call settings k).1
  induction p generalizing m surroundings with
  | done value => cases h
  | stop interrupt =>
    obtain ⟨e, -, hevent⟩ := h
    cases hevent
  | part position node next ih =>
    rcases h with hevent | ⟨v, m₁, hnode, hrest⟩
    · cases hevent
      rfl
    -- The parts before the event have ended, with as many calls going on as before.
    · rw [ih v hrest, (heval node _ scope).of_ok hnode]
  | round position node next ih =>
    rcases h with hevent | ⟨goesOn, m₁, hnode, hrest⟩
    · cases hevent
      rfl
    · rw [ih goesOn hrest, (heval node _ scope).iteration.of_ok hnode]
  | look name next ih => exact ih _ h
  | define name value next ih =>
    have hdepth := ih h
    exact hdepth
  | unbinding name body ih =>
    obtain ⟨inner, hinner, hevent⟩ := h
    cases inner with
    | error => cases hevent
    | stage inside t =>
      cases hevent
      -- The loop around is no function and does not count.
      rw [ih hinner, List.countP_append]
      rfl
  | call callee args span =>
    cases h
    rfl

/-- Between two callbacks of `map` as many calls are going on as before. -/
theorem depth_of_mapFrom {f v : Value} {results items : List Value}
    (h : Builtin.mapFrom (call settings k) f scope results items m = .ok v m₁) :
    m₁.depth = m.depth :=
  KeepsDepth.of_ok
    (fun depth => .mapFrom (fun item _ => (keepsDepth_eval_call settings k).2 f [item] scope depth)
      (fun _ _ => trivial) fun _ _ => trivial) h

/-- Between two callbacks of `reduce` as many calls are going on as before. -/
theorem depth_of_reduceFrom {f accumulated v : Value} {items : List Value}
    (h : Builtin.reduceFrom (call settings k) f scope accumulated items m = .ok v m₁) :
    m₁.depth = m.depth :=
  KeepsDepth.of_ok
    (fun depth => .reduceFrom
      (fun accumulated _ item _ =>
        (keepsDepth_eval_call settings k).2 f [accumulated, item] scope depth)
      trivial) h

end

section

variable {settings : Settings} {s t : Stage} {surroundings : List Surrounding}

/-- Only a function counts. -/
theorem Inside.depth_eq (h : Inside settings s surroundings t) :
    t.machine.depth = s.machine.depth + surroundings.countP Surrounding.isFunction := by
  cases s with
  | node fuel node site scope m =>
    obtain ⟨k, rfl, hmeets⟩ := h.exists_meets
    exact Plan.depth_of_meets hmeets
  | call fuel callee args scope m =>
    cases h with
    | body => rfl
    | mapped _ _ hbefore =>
      have hdepth := depth_of_mapFrom hbefore
      exact hdepth
    | reduced _ _ hbefore =>
      have hdepth := depth_of_reduceFrom hbefore
      exact hdepth

/-- A function runs only if there is room for one more. -/
theorem Inside.depth_le (h : Inside settings s surroundings t)
    (hs : s.machine.depth ≤ settings.maxCallDepth) : t.machine.depth ≤ settings.maxCallDepth := by
  have hdepth := h.depth_eq
  cases h with
  | body _ hroom => exact hroom
  | _ => exact Nat.le_trans (Nat.le_of_eq hdepth) hs

/-- At a stage as many calls are going on as functions lie on the way to it. -/
theorem ComesTo.depth_eq (h : ComesTo settings s surroundings t) :
    t.machine.depth = s.machine.depth + surroundings.countP Surrounding.isFunction := by
  induction h with
  | here s => rfl
  | inside hinside _ ih =>
    rw [ih, hinside.depth_eq, List.countP_append]
    omega

/-- A computation that starts within the limit comes to stages within it only. -/
theorem ComesTo.depth_le (h : ComesTo settings s surroundings t)
    (hs : s.machine.depth ≤ settings.maxCallDepth) : t.machine.depth ≤ settings.maxCallDepth := by
  induction h with
  | here s => exact hs
  | inside hinside _ ih => exact ih (hinside.depth_le hs)

end

section

variable {settings : Settings} {fuel : Nat} {ev : Node → Site → ScopeId → Eval Value}
variable {cl : Value → List Value → ScopeId → Call Value}
variable (hev : ∀ node site scope (m : Machine), m.depth ≤ settings.maxCallDepth →
  ev node site scope m = eval settings fuel node site scope m)
variable (hcl : ∀ callee args scope (m : Machine), m.depth ≤ settings.maxCallDepth →
  cl callee args scope m = call settings fuel callee args scope m)

include hev hcl

/-- At the stages inside, what may happen beyond the limit does not count. -/
theorem agreesAt_of_depth_le {s t : Stage} {surroundings : List Surrounding}
    (h : Inside settings s surroundings t) (hfuel : s.fuel = fuel + 1)
    (hs : s.machine.depth ≤ settings.maxCallDepth) : AgreesAt settings ev cl t := by
  have ht : t.fuel = fuel := Nat.succ.inj (h.fuel_eq.symm.trans hfuel)
  have hdepth := h.depth_le hs
  subst ht
  cases t with
  | node _ node site scope m => exact hev node site scope m hdepth
  | call _ callee args scope m => exact hcl callee args scope m hdepth

/-- What becomes of a node does not depend on what would happen deeper than calls may go. -/
theorem evalNode_of_depth_le (node : Node) (site : Site) (scope : ScopeId) {m : Machine}
    (hm : m.depth ≤ settings.maxCallDepth) :
    evalNode settings fuel ev cl node site scope m = eval settings (fuel + 1) node site scope m :=
  evalNode_of_agreesAt fun _ _ h => agreesAt_of_depth_le hev hcl h rfl hm

/-- A call within the limit does not depend on what would happen beyond it. -/
theorem callValue_of_depth_le (callee : Value) (args : List Value) (scope : ScopeId) {m : Machine}
    (hm : m.depth ≤ settings.maxCallDepth) :
    callValue settings ev cl callee args scope m = call settings (fuel + 1) callee args scope m :=
  callValue_of_agreesAt fun _ _ h => agreesAt_of_depth_le hev hcl h rfl hm

end

/-! ## Which calls are too deep -/

/-- A script function is called, with as many arguments as it has parameters. -/
def Stage.CallsFunction : Stage → Prop
  | .call (_ + 1) (.function _ definition) args _ _ => args.length = definition.params.length
  | _ => False

section

variable {settings : Settings} {s t : Stage} {e : RuntimeError} {m m' : Machine}

/-- What a built-in function refuses has nothing to do with depth. -/
theorem Builtin.Refuses.kind_ne {b : Builtin} {args : List Value} {fault : Fault}
    (h : Builtin.Refuses m b args fault m') : fault.kind ≠ .stackOverflow := by
  have hany : ∀ v : Value, v.Admits fun _ _ => True := Value.admits_of_forall fun _ _ => trivial
  cases h with
  | computes h =>
    have hgives := Builtin.gives_compute? b fun v (_ : v ∈ args) => hany v
    rw [h] at hgives
    exact hgives.depth
  | prompt h => exact ((Builtin.gives_scanPrompt args).of_error fault h).depth
  | prints | printsLine | prompts | reads => simp [Fault.kind]
  | arity hb => cases b <;> cases hb <;> simp [Builtin.arityFault, Fault.kind]
  | @list _ _ _ v _ _ _ _ h => exact ((Builtin.gives_wantList b (hany v)).of_error fault h).depth
  | @function _ _ _ _ _ f _ _ _ _ _ _ h =>
    exact ((Builtin.gives_wantFunction b f).of_error fault h).depth

/-- A stage raises an error for its depth exactly if it calls a script function with as many calls
going on as there may be. -/
theorem raises_stackOverflow_iff :
    Raises settings t e m ∧ e.fault.kind = .stackOverflow ↔
      t.CallsFunction ∧ settings.maxCallDepth ≤ t.machine.depth ∧
        e = ⟨.callDepth settings.maxCallDepth, none⟩ ∧ m = t.machine := by
  have hany : ∀ v : Value, v.Admits fun _ _ => True := Value.admits_of_forall fun _ _ => trivial
  constructor
  · rintro ⟨hraises, hkind⟩
    cases hraises with
    | depth hargs h => exact ⟨hargs, h, rfl, rfl⟩
    | binary _ _ h =>
      exact absurd hkind ((Value.gives_binary _ (hany _) (hany _)).of_error _ h).depth
    | unary _ h => exact absurd hkind ((Value.gives_unary _ (hany _)).of_error _ h).depth
    | index _ _ h => exact absurd hkind ((Value.gives_index (hany _) _).of_error _ h).depth
    | builtin h => exact absurd hkind h.kind_ne
    | undefined | first | last | step | zeroStep | notCallable | arity | jump => cases hkind
  · rintro ⟨hcalls, hdepth, rfl, rfl⟩
    match t, hcalls with
    | .call (_ + 1) (.function _ _) _ _ _, hargs => exact ⟨.depth hargs hdepth, rfl⟩

/-- A stage fails in one way at most. -/
theorem Fails.unique {f f' : Failure} (h : Fails settings s f m) (h' : Fails settings s f' m') :
    f = f' := by
  cases s with
  | node =>
    cases h.symm.trans h'
    rfl
  | call =>
    cases h.symm.trans h'
    rfl

/-- A stage fails for its depth exactly if it comes to one that raises this error. -/
theorem fails_stackOverflow_iff :
    (∃ e m, Fails settings s (.error e) m ∧ e.fault.kind = .stackOverflow) ↔
      ∃ surroundings t, ComesTo settings s surroundings t ∧ t.CallsFunction ∧
        settings.maxCallDepth ≤ t.machine.depth := by
  constructor
  · rintro ⟨e, m, hfails, hkind⟩
    obtain ⟨surroundings, t, raised, m₁, hcomes, hraises⟩ := exists_raises_of_fails hfails
    have hleft := Fails.of_comesTo hcomes (.of_raises hraises)
    rw [passAll_error] at hleft
    cases hfails.unique hleft
    obtain ⟨hcalls, hdepth, -⟩ := raises_stackOverflow_iff.1 ⟨hraises, hkind⟩
    exact ⟨surroundings, t, hcomes, hcalls, hdepth⟩
  · rintro ⟨surroundings, t, hcomes, hcalls, hdepth⟩
    obtain ⟨hraises, hkind⟩ := raises_stackOverflow_iff.2 ⟨hcalls, hdepth, rfl, rfl⟩
    have hleft := Fails.of_comesTo hcomes (.of_raises hraises)
    rw [passAll_error] at hleft
    exact ⟨_, _, hleft, hkind⟩

/-- In terms of the functions on the way. -/
theorem fails_stackOverflow_iff_countP (hs : s.machine.depth ≤ settings.maxCallDepth) :
    (∃ e m, Fails settings s (.error e) m ∧ e.fault.kind = .stackOverflow) ↔
      ∃ surroundings t, ComesTo settings s surroundings t ∧ t.CallsFunction ∧
        s.machine.depth + surroundings.countP Surrounding.isFunction = settings.maxCallDepth := by
  rw [fails_stackOverflow_iff]
  constructor
  · rintro ⟨surroundings, t, hcomes, hcalls, hdepth⟩
    refine ⟨surroundings, t, hcomes, hcalls, ?_⟩
    rw [← hcomes.depth_eq]
    exact Nat.le_antisymm (hcomes.depth_le hs) hdepth
  · rintro ⟨surroundings, t, hcomes, hcalls, hcount⟩
    exact ⟨surroundings, t, hcomes, hcalls, Nat.le_of_eq (hcount.symm.trans hcomes.depth_eq.symm)⟩

end

/-! ## Sessions -/

namespace Session

variable {session : Session}

/-- A program leaves no call going on. -/
theorem depth_runProgram (session : Session) (fuel : Nat) (program : Program) :
    (session.runProgram fuel program).2.machine.depth = 0 := by
  rw [machine_runProgram]
  exact ((keepsDepth_eval_call session.settings fuel).1 _ _ _).after _

/-- An input leaves no call going on. -/
theorem depth_feed (h : session.machine.depth = 0) (fuel : Nat) (input : Input) :
    (session.feed fuel input).2.machine.depth = 0 := by
  cases input with
  | program program => exact depth_runProgram session fuel program
  | source text =>
    rw [feed]
    cases hparse : parseSource text with
    | error e =>
      rw [run_of_error hparse]
      exact h
    | ok tree =>
      rw [run_of_ok hparse]
      exact depth_runProgram _ fuel _

/-- However the inputs end, no call is going on after them. -/
theorem depth_after (h : session.machine.depth = 0) (inputs : List (Nat × Input)) :
    (session.after inputs).machine.depth = 0 := by
  induction inputs generalizing session with
  | nil => exact h
  | cons input inputs ih => exact ih (depth_feed h input.1 input.2)

/-- A call from outside leaves as many calls going on as before. -/
theorem depth_callValue (session : Session) (fuel : Nat) (callee : Value) (args : List Value) :
    (session.callValue fuel callee args).2.machine.depth = session.machine.depth := by
  have hdepth :=
    ((keepsDepth_eval_call session.settings fuel).2 callee args ScopeTree.rootId).after
      session.machine
  rw [callValue]
  cases hrun : call session.settings fuel callee args ScopeTree.rootId session.machine with
  | ok v machine =>
    rw [hrun] at hdepth
    exact hdepth
  | error f machine =>
    rw [hrun] at hdepth
    cases f with
    | error | exhausted => exact hdepth

/-- A run ends for the depth of a call if its evaluation does. -/
theorem ofKind_stackOverflow_iff (session : Session) (fuel : Nat) (program : Program) :
    (session.runProgram fuel program).1.OfKind .stackOverflow ↔
      ∃ e m, Fails session.settings (session.firstStage fuel program) (.error e) m ∧
        e.fault.kind = .stackOverflow := by
  constructor
  · intro h
    cases houtcome : (session.runProgram fuel program).1 with
    | value | exhausted =>
      rw [houtcome] at h
      cases h
    | error error =>
      rw [houtcome] at h
      cases error with
      | refused => cases h
      | failed e =>
        obtain ⟨interrupt, m, hrun, hblame⟩ := exists_of_runProgram_failed houtcome
        -- To blame an error on the program does not change its kind, and no jump out of place is of
        -- this one.
        have hkind : interrupt.uncaught.OfKind .stackOverflow := by
          rw [← Failure.ofKind_blame, hblame]
          exact h
        cases interrupt with
        | returning | breaking | continuing => cases hkind
        | failing failure =>
          cases failure with
          | exhausted => cases hkind
          | error raised => exact ⟨raised, m, hrun, hkind⟩
  · rintro ⟨e, m, hfails, hkind⟩
    exact ofKind_runProgram (i := .failing (.error e)) hkind hfails

end Session

/-- The count of calls is exact. However a node or a call ends, as many calls are going on as
before, and a function that is left was counted, so that nothing is taken from zero. No call is left
over in a session, whatever is run or called in it. On the way to a stage the functions are counted,
and nothing else. A computation that starts within the limit stays within it: all its stages do, and
it does not even depend on what would happen at deeper ones. And a call is refused for its depth
exactly if a script function is called with the right number of arguments while as many calls are
going on as there may be. -/
theorem call_depth_is_exact (settings : Settings) :
    (∀ fuel node site scope m,
      (Machine.after (eval settings fuel node site scope m)).depth = m.depth) ∧
    (∀ fuel callee args scope m,
      (Machine.after (call settings fuel callee args scope m)).depth = m.depth) ∧
    (∀ fuel isExpression body site scope (m : Machine),
      (Machine.after (Call.ofBody isExpression (eval settings fuel body site scope)
        { m with depth := m.depth + 1 })).depth = m.depth + 1) ∧
    (∀ console units inputs,
      ((Session.new settings console units).after inputs).machine.depth = 0) ∧
    (∀ (session : Session) fuel callee args,
      (session.callValue fuel callee args).2.machine.depth = session.machine.depth) ∧
    (∀ s surroundings t, ComesTo settings s surroundings t →
      t.machine.depth = s.machine.depth + surroundings.countP Surrounding.isFunction ∧
      (s.machine.depth ≤ settings.maxCallDepth → t.machine.depth ≤ settings.maxCallDepth)) ∧
    (∀ fuel ev cl,
      (∀ node site scope (m : Machine), m.depth ≤ settings.maxCallDepth →
        ev node site scope m = eval settings fuel node site scope m) →
      (∀ callee args scope (m : Machine), m.depth ≤ settings.maxCallDepth →
        cl callee args scope m = call settings fuel callee args scope m) →
      ∀ m : Machine, m.depth ≤ settings.maxCallDepth →
        (∀ node site scope,
          evalNode settings fuel ev cl node site scope m
            = eval settings (fuel + 1) node site scope m) ∧
        ∀ callee args scope,
          callValue settings ev cl callee args scope m
            = call settings (fuel + 1) callee args scope m) ∧
    (∀ t e m, Raises settings t e m ∧ e.fault.kind = .stackOverflow ↔
      t.CallsFunction ∧ settings.maxCallDepth ≤ t.machine.depth ∧
        e = ⟨.callDepth settings.maxCallDepth, none⟩ ∧ m = t.machine) ∧
    (∀ s : Stage, s.machine.depth ≤ settings.maxCallDepth →
      ((∃ e m, Fails settings s (.error e) m ∧ e.fault.kind = .stackOverflow) ↔
        ∃ surroundings t, ComesTo settings s surroundings t ∧ t.CallsFunction ∧
          s.machine.depth + surroundings.countP Surrounding.isFunction = settings.maxCallDepth)) ∧
    ∀ session : Session, session.settings = settings → ∀ fuel program,
      (session.runProgram fuel program).1.OfKind .stackOverflow ↔
        ∃ surroundings t, ComesTo settings (session.firstStage fuel program) surroundings t ∧
          t.CallsFunction ∧ surroundings.countP Surrounding.isFunction = settings.maxCallDepth := by
  refine ⟨fun fuel node site scope =>
    ((keepsDepth_eval_call settings fuel).1 node site scope).after,
    fun fuel callee args scope => ((keepsDepth_eval_call settings fuel).2 callee args scope).after,
    fun fuel isExpression body site scope m => ?inside,
      fun console units => Session.depth_after rfl,
    Session.depth_callValue, fun s surroundings t h => ⟨h.depth_eq, h.depth_le⟩, ?deeper,
    fun t e m => raises_stackOverflow_iff, fun s => fails_stackOverflow_iff_countP, ?runs⟩
  case inside =>
    exact (((keepsDepth_eval_call settings fuel).1 body site scope).ofBody isExpression).after _
  case deeper =>
    intro fuel ev cl hev hcl m hm
    exact ⟨fun node site scope => evalNode_of_depth_le hev hcl node site scope hm,
      fun callee args scope => callValue_of_depth_le hev hcl callee args scope hm⟩
  case runs =>
    rintro session rfl fuel program
    rw [Session.ofKind_stackOverflow_iff,
      fails_stackOverflow_iff_countP (s := session.firstStage fuel program) (Nat.zero_le _)]
    -- A run starts with no calls, so that the functions on the way are all that count.
    have hstart : (session.firstStage fuel program).machine.depth = 0 := rfl
    simp only [hstart, Nat.zero_add]

/-- With room for one call, `(fun f(x) = map([x], f))(null)` is refused: `map` calls `f` while `f`
is going on. On the way to that call lies one function, and after the run none is left. -/
theorem call_depth_is_exact_in_map :
    let node : Form → Node := fun form => ⟨form, default⟩
    let name : String → Node := fun s => node (.var s)
    let body := node (.call (name "map") [node (.list [name "x"]), name "f"])
    let tree := node (.call (node (.function ⟨some "f", ["x"], body, true⟩)) [node .null])
    let settings := { Settings.default with maxCallDepth := 1 }
    let session := Session.new settings (.new [] none) 0
    (session.runProgram 9 ⟨0, tree⟩).1.OfKind .stackOverflow ∧
    (∃ surroundings t, ComesTo settings (session.firstStage 9 ⟨0, tree⟩) surroundings t ∧
      t.CallsFunction ∧ surroundings.countP Surrounding.isFunction = 1) ∧
    (session.after [(9, .program ⟨0, tree⟩)]).machine.depth = 0 := by
  intro node name body tree settings session
  have hkind : (session.runProgram 9 ⟨0, tree⟩).1.OfKind .stackOverflow := by decide +kernel
  obtain ⟨-, -, -, hafter, -, -, -, -, -, hruns⟩ := call_depth_is_exact settings
  exact ⟨hkind, (hruns session rfl 9 ⟨0, tree⟩).1 hkind, hafter _ _ _⟩

end Script
