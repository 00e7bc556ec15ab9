import Script.Proofs.Machine.ControlFlow

/-!
# What the settings change about a run

Two of the settings matter to a run: whether the use of an unbound variable is an error, and how
many calls may be inside each other. Each of them only adds a kind of failure. A run under stricter
settings either ends in a failure of that kind, or it is the run under the more generous ones: the
same outcome, console and variables.

## Shape of the proof

`AgreesUnless bad x y` says of two computations that from every machine they end alike, unless the
first one is cut short in a way that is `bad`. Nothing between a failure and the end of a run stops
the failure or turns it into another one, so the relation goes through every step of a plan and
every call. The settings are looked at in two places only, and there `Stricter` says what is needed.
-/

namespace Script

/-! ## Failures of a kind -/

/-- A failure with a fault of the given kind. -/
def Failure.OfKind (kind : FaultKind) : Failure → Prop
  | .error e => e.fault.kind = kind
  | .exhausted => False

/-- An interrupt that is a failure with a fault of the given kind. -/
def Interrupt.OfKind (kind : FaultKind) : Interrupt → Prop
  | .failing failure => failure.OfKind kind
  | .returning _ | .breaking _ | .continuing _ => False

variable {kind : FaultKind}

/-- Blaming a node does not change what went wrong. -/
theorem Failure.ofKind_blame {failure : Failure} {span : Span} :
    (failure.blame span).OfKind kind ↔ failure.OfKind kind := by
  cases failure with
  | exhausted => rfl
  | error e =>
    show (e.blame span).fault.kind = kind ↔ e.fault.kind = kind
    unfold RuntimeError.blame
    split <;> rfl

/-- A failure is not caught. -/
theorem Interrupt.OfKind.uncaught {i : Interrupt} (h : i.OfKind kind) : i.uncaught.OfKind kind := by
  cases i with
  | failing failure => exact h
  | returning | breaking | continuing => cases h

/-! ## Agreement -/

/-- Two computations that end alike on every machine, unless the first one is cut short in a bad
way. -/
def AgreesUnless {ε α : Type} (bad : ε → Prop) (x y : EStateM ε Machine α) : Prop :=
  ∀ m, x m = y m ∨ ∃ e m', x m = .error e m' ∧ bad e

namespace AgreesUnless

section

variable {ε α β : Type} {bad : ε → Prop}

theorem refl (x : EStateM ε Machine α) : AgreesUnless bad x x := fun _ => .inl rfl

/-- Two sequences agree if their parts do. -/
theorem bind {x y : EStateM ε Machine α} {f g : α → EStateM ε Machine β} (hx : AgreesUnless bad x y)
    (hf : ∀ a, AgreesUnless bad (f a) (g a)) : AgreesUnless bad (x >>= f) (y >>= g) := by
  intro m
  show EStateM.bind x f m = EStateM.bind y g m ∨ ∃ e m', EStateM.bind x f m = .error e m' ∧ bad e
  unfold EStateM.bind
  rcases hx m with heq | ⟨e, m', herror, he⟩
  · rw [heq]
    cases y m with
    | ok a m' => exact hf a m'
    | error e m' => exact .inl rfl
  · rw [herror]
    exact .inr ⟨e, m', rfl, he⟩

end

/-! ## Calls and jumps

None of what is around a computation stops a failure. -/

section

variable {α : Type}

/-- Two calls that agree do so where they are blamed on a place. -/
theorem ofCall {c c' : Call α} (h : AgreesUnless (Failure.OfKind kind) c c') (span : Span) :
    AgreesUnless (Interrupt.OfKind kind) (Eval.ofCall c span) (Eval.ofCall c' span) := by
  intro m
  unfold Eval.ofCall
  rcases h m with heq | ⟨failure, m', herror, hfailure⟩
  · rw [heq]
    exact .inl rfl
  · rw [herror]
    exact .inr ⟨_, m', rfl, Failure.ofKind_blame.2 hfailure⟩

/-- Two computations that agree do so with the scopes restored. -/
theorem finallyScopes {x y : Eval α} (h : AgreesUnless (Interrupt.OfKind kind) x y)
    (f : ScopeTree → ScopeTree) :
    AgreesUnless (Interrupt.OfKind kind) (Eval.finallyScopes x f) (Eval.finallyScopes y f) := by
  intro m
  unfold Eval.finallyScopes
  rcases h m with heq | ⟨i, m', herror, hi⟩
  · rw [heq]
    exact .inl rfl
  · rw [herror]
    exact .inr ⟨i, _, rfl, hi⟩

/-- A loop stops the jumps that its body sends, and these are no failures. -/
theorem iteration {body body' : Eval Value} (h : AgreesUnless (Interrupt.OfKind kind) body body') :
    AgreesUnless (Interrupt.OfKind kind) (Eval.iteration body) (Eval.iteration body') := by
  intro m
  unfold Eval.iteration
  rcases h m with heq | ⟨i, m', herror, hi⟩
  · rw [heq]
    exact .inl rfl
  · rw [herror]
    cases i with
    | failing failure => exact .inr ⟨_, m', rfl, hi⟩
    | returning | breaking | continuing => cases hi

/-- Two calls that agree do so in a scope of their own. -/
theorem inChild (parent : ScopeId) (bindings : Bindings) {body body' : ScopeId → Call α}
    (h : ∀ scope, AgreesUnless (Failure.OfKind kind) (body scope) (body' scope)) :
    AgreesUnless (Failure.OfKind kind) (Call.inChild parent bindings body)
      (Call.inChild parent bindings body') := by
  intro m
  unfold Call.inChild
  simp only
  rcases h m.scopes.size { m with scopes := m.scopes.child parent bindings } with
    heq | ⟨failure, m', herror, hfailure⟩
  · rw [heq]
    exact .inl rfl
  · rw [herror]
    exact .inr ⟨failure, _, rfl, hfailure⟩

/-- Two calls that agree do so one call deeper. -/
theorem deeper {body body' : Call α} (h : AgreesUnless (Failure.OfKind kind) body body') :
    AgreesUnless (Failure.OfKind kind) (Call.deeper body) (Call.deeper body') := by
  intro m
  unfold Call.deeper
  rcases h { m with depth := m.depth + 1 } with heq | ⟨failure, m', herror, hfailure⟩
  · rw [heq]
    exact .inl rfl
  · rw [herror]
    exact .inr ⟨failure, _, rfl, hfailure⟩

/-- A call stops `return`, which is no failure. -/
theorem ofBody (isExpression : Bool) {body body' : Eval Value}
    (h : AgreesUnless (Interrupt.OfKind kind) body body') :
    AgreesUnless (Failure.OfKind kind) (Call.ofBody isExpression body)
      (Call.ofBody isExpression body') := by
  intro m
  unfold Call.ofBody
  rcases h m with heq | ⟨i, m', herror, hi⟩
  · rw [heq]
    exact .inl rfl
  · rw [herror]
    cases i with
    | failing failure => exact .inr ⟨_, m', rfl, hi⟩
    | returning | breaking | continuing => cases hi

end

/-! ## Plans -/

section

variable {eval eval' : Node → Site → ScopeId → Eval Value}
variable {call call' : Value → List Value → ScopeId → Call Value} {site : Site} {scope : ScopeId}

/-- The plans are the same, but for failures of the kind that the first one may end in. -/
def relation (kind : FaultKind) (eval eval' : Node → Site → ScopeId → Eval Value) (site : Site)
    (scope : ScopeId) : PlanRelation where
  values := .admits fun _ _ => True
  stops := Eq
  excused := Interrupt.OfKind kind
  parts position node node' := AgreesUnless (Interrupt.OfKind kind)
    (eval node (site.child position) scope) (eval' node' (site.child position) scope)
  rounds position node node' := AgreesUnless (Interrupt.OfKind kind)
    (eval node (site.child position) scope) (eval' node' (site.child position) scope)
  reads _ := True
  binds _ := True
  unbinds _ := True
  blames := Eq

/-- Plans agree if their steps do. -/
theorem of_related (hcall : ∀ callee args,
      AgreesUnless (Failure.OfKind kind) (call callee args scope) (call' callee args scope))
    {p p' : Plan} (h : Plan.Related (relation kind eval eval' site scope) p p') :
    AgreesUnless (Interrupt.OfKind kind) (p.run eval call site scope)
      (p'.run eval' call' site scope) := by
  have hany : ∀ v : Value, v.Admits fun _ _ => True := Value.admits_of_forall fun _ _ => trivial
  induction h with
  | done h =>
    obtain ⟨-, rfl⟩ := h
    exact .refl _
  | stop h =>
    obtain rfl : _ = _ := h
    exact .refl _
  -- Here the first plan fails in the way that is excused, whatever the second does.
  | excused h p => exact fun m => .inr ⟨_, m, rfl, h⟩
  | part h _ ih => exact .bind h fun v => ih v v ⟨hany v, rfl⟩
  | round h _ ih => exact .bind (.iteration h) fun goesOn => ih goesOn
  | look _ _ _ ihsome ihnone =>
    refine .bind (.refl _) fun found => ?_
    cases found with
    | none => exact ihnone
    | some v => exact ihsome v v ⟨hany v, rfl⟩
  | define _ hv _ ih =>
    obtain ⟨-, rfl⟩ := hv
    exact .bind (.refl _) fun _ => ih
  | unbinding _ _ ih => exact .finallyScopes ih _
  | @call callee _ args args' span _ hcallee hargs h =>
    obtain ⟨-, rfl⟩ := hcallee
    obtain rfl : args = args' := List.forall₂_eq_eq_eq ▸ hargs.imp fun _ _ h => h.2
    obtain rfl : span = _ := h
    exact .ofCall (hcall callee args) span

end

section

variable {bad : Failure → Prop} {call call' : Value → List Value → ScopeId → Call Value}
variable (hcall : ∀ callee args scope,
  AgreesUnless bad (call callee args scope) (call' callee args scope))
variable (f : Value) (scope : ScopeId)

include hcall

/-- `map` agrees with itself if the callbacks do. -/
theorem mapFrom (results items : List Value) :
    AgreesUnless bad (Builtin.mapFrom call f scope results items)
      (Builtin.mapFrom call' f scope results items) := by
  induction items generalizing results with
  | nil => exact .refl _
  | cons item items ih => exact .bind (hcall f [item] scope) fun result => ih (result :: results)

/-- `reduce` agrees with itself if the callbacks do. -/
theorem reduceFrom (accumulated : Value) (items : List Value) :
    AgreesUnless bad (Builtin.reduceFrom call f scope accumulated items)
      (Builtin.reduceFrom call' f scope accumulated items) := by
  induction items generalizing accumulated with
  | nil => exact .refl _
  | cons item items ih => exact .bind (hcall f [accumulated, item] scope) fun next => ih next

end

end AgreesUnless

/-! ## Settings -/

/-- Settings that differ from more generous ones, if at all, by a limit whose violation is a fault
of the given kind. -/
structure Stricter (kind : FaultKind) (settings settings' : Settings) : Prop where
  /-- Unbound variables are treated alike, or are errors of that kind for the stricter settings. -/
  lookup : settings.strictVariables = settings'.strictVariables ∨
    settings.strictVariables = true ∧ kind = .undefinedVariable
  /-- The limits for calls are the same, or those above the lower one are errors of that kind. -/
  depth : settings.maxCallDepth = settings'.maxCallDepth ∨
    settings.maxCallDepth ≤ settings'.maxCallDepth ∧ kind = .stackOverflow

section

variable {settings settings' : Settings} {fuel : Nat} (h : Stricter kind settings settings')
variable {eval eval' : Node → Site → ScopeId → Eval Value}
variable {call call' : Value → List Value → ScopeId → Call Value}
variable (heval : ∀ node site scope,
  AgreesUnless (Interrupt.OfKind kind) (eval node site scope) (eval' node site scope))
variable (hcall : ∀ callee args scope,
  AgreesUnless (Failure.OfKind kind) (call callee args scope) (call' callee args scope))

include h heval hcall in
/-- A node is evaluated alike, or a failure of the kind ends the evaluation. -/
theorem agreesUnless_evalNode (node : Node) (site : Site) (scope : ScopeId) :
    AgreesUnless (Interrupt.OfKind kind) (evalNode settings fuel eval call node site scope)
      (evalNode settings' fuel eval' call' node site scope) := by
  have hpart : ∀ (position : Nat) (child child' : Node), node.form.parts[position]? = some child →
      node.form.parts[position]? = some child' →
      AgreesUnless (Interrupt.OfKind kind) (eval child (site.child position) scope)
        (eval' child' (site.child position) scope) := by
    intro position child child' hget hget'
    obtain rfl : child = child' := Option.some.inj (hget.symm.trans hget')
    exact heval child _ scope
  -- One node under two settings: the plans differ in nothing but the lookup of unbound names.
  have hsame :
      (AgreesUnless.relation kind eval eval' site scope).Corresponds settings settings' site
      site node node := {
    form := ⟨_, Form.alike_of_bare rfl⟩
    part := fun position child child' hget hget' _ => hpart position child child' hget hget'
    round := fun position child child' hget hget' _ => hpart position child child' hget hget'
    literal := fun definition definition' hform hform' => ⟨trivial,
      congrArg _ (Form.function.inj (hform.symm.trans hform'))⟩
    binds := fun _ _ => trivial
    unbinds := fun _ _ _ => trivial
    blames := rfl
    fault := fun _ _ => rfl
    bound := fun position child child' hget hget' => by
      rw [Option.some.inj (hget.symm.trans hget')]
      exact Eq.refl _
    unbound := h.lookup.imp_right fun hstrict => ⟨hstrict.1, fun _ => hstrict.2.symm⟩
    exhausted := fun _ => rfl
    returning := fun _ _ _ _ hv => congrArg _ hv.2
    breaking := fun _ => rfl
    continuing := fun _ => rfl }
  rw [evalNode_eq_run, evalNode_eq_run]
  exact .of_related (fun callee args => hcall callee args scope) (hsame.related_plan fuel)

include hcall in
/-- A built-in function runs alike if the functions that it calls do. -/
theorem agreesUnless_run (b : Builtin) (args : List Value) (caller : ScopeId) :
    AgreesUnless (Failure.OfKind kind) (b.run call args caller) (b.run call' args caller) := by
  cases b with
  | map =>
    show AgreesUnless _ (Builtin.mapCall call args caller) (Builtin.mapCall call' args caller)
    unfold Builtin.mapCall
    split
    · refine .bind (.refl _) fun items => .bind (.refl _) fun _ => ?_
      exact .inChild caller .empty fun scope => .mapFrom hcall _ scope [] items
    · exact .refl _
  | reduce =>
    show AgreesUnless _ (Builtin.reduceCall call args caller) (Builtin.reduceCall call' args caller)
    unfold Builtin.reduceCall
    split
    · refine .bind (.refl _) fun items => .bind (.refl _) fun _ => ?_
      exact .inChild caller .empty fun scope => .reduceFrom hcall _ scope _ items
    · exact .refl _
  | _ => exact .refl _

include h heval in
/-- A function of the script is called alike, or one more call is too many for the lower limit. -/
theorem agreesUnless_callFunction (site : Site) (definition : Definition) (args : List Value)
    (caller : ScopeId) :
    AgreesUnless (Failure.OfKind kind) (callFunction settings eval site definition args caller)
      (callFunction settings' eval' site definition args caller) := by
  intro m
  unfold callFunction
  by_cases hargs : args.length ≠ definition.params.length
  · rw [if_pos hargs, if_pos hargs]
    exact .inl rfl
  rw [if_neg hargs, if_neg hargs]
  have hbody := AgreesUnless.inChild caller (.ofPairs definition.params args) fun scope =>
    .deeper (.ofBody definition.isExpression (heval definition.body (site.child 0) scope))
  rcases h.depth with hsame | ⟨hle, hkind⟩
  · rw [hsame]
    split
    · exact .inl rfl
    · exact hbody m
  · by_cases hlimit : settings.maxCallDepth ≤ m.depth
    · rw [if_pos hlimit]
      exact .inr ⟨_, m, rfl, hkind.symm⟩
    · rw [if_neg hlimit, if_neg (fun hlimit' => hlimit (Nat.le_trans hle hlimit'))]
      exact hbody m

include h heval hcall in
/-- A value is called alike, or a failure of the kind ends the call. -/
theorem agreesUnless_callValue (callee : Value) (args : List Value) (caller : ScopeId) :
    AgreesUnless (Failure.OfKind kind) (callValue settings eval call callee args caller)
      (callValue settings' eval' call' callee args caller) := by
  cases callee with
  | function site definition => exact agreesUnless_callFunction h heval site definition args caller
  | builtin b => exact agreesUnless_run hcall b args caller
  | number | text | list | null => exact .refl _

end

/-- Every evaluation and every call under stricter settings agrees with that under the more generous
ones, unless it fails for the limit. -/
theorem agreesUnless_eval_call {settings settings' : Settings}
    (h : Stricter kind settings settings') (fuel : Nat) :
    (∀ node site scope, AgreesUnless (Interrupt.OfKind kind) (eval settings fuel node site scope)
      (eval settings' fuel node site scope)) ∧
    ∀ callee args scope, AgreesUnless (Failure.OfKind kind) (call settings fuel callee args scope)
      (call settings' fuel callee args scope) := by
  induction fuel with
  | zero => exact ⟨fun _ _ _ m => .inl (by simp), fun _ _ _ m => .inl (by simp)⟩
  | succ fuel ih =>
    rw [eval_succ, eval_succ, call_succ, call_succ]
    exact ⟨agreesUnless_evalNode h ih.1 ih.2, agreesUnless_callValue h ih.1 ih.2⟩

/-! ## Sessions -/

/-- The outcome of a run that ended in a failure with a fault of the given kind. -/
def Outcome.OfKind (kind : FaultKind) : Outcome → Prop
  | .error (.failed e) => e.fault.kind = kind
  | .error (.refused _) | .value _ | .exhausted => False

instance (kind : FaultKind) : DecidablePred (Outcome.OfKind kind)
  | .error (.failed e) => inferInstanceAs (Decidable (e.fault.kind = kind))
  | .error (.refused _) | .value _ | .exhausted => inferInstanceAs (Decidable False)

namespace Session

/-- The session under other settings. -/
def under (session : Session) (settings : Settings) : Session := { session with settings }

/-- An evaluation that fails for a fault of the kind ends the run with an outcome of the kind. -/
theorem ofKind_runProgram {session : Session} {fuel : Nat} {program : Program} {i : Interrupt}
    {machine : Machine} (hi : i.OfKind kind)
    (hrun : eval session.settings fuel program.tree (.root program.unit) ScopeTree.rootId
      { session.machine with depth := 0 } = .error i machine) :
    (session.runProgram fuel program).1.OfKind kind := by
  have hblame : (i.uncaught.blame program.tree.span).OfKind kind :=
    Failure.ofKind_blame.2 hi.uncaught
  simp only [runProgram, hrun]
  split
  · rename_i e he
    rw [he] at hblame
    exact hblame
  · rename_i he
    rw [he] at hblame
    cases hblame

section

variable {session : Session} {settings : Settings} (h : Stricter kind session.settings settings)

include h

/-- A run under more generous settings is the same run, unless the limit ends the stricter one. -/
theorem runProgram_under (fuel : Nat) (program : Program) :
    (session.runProgram fuel program).1.OfKind kind ∨
      (session.under settings).runProgram fuel program
        = ((session.runProgram fuel program).1,
          (session.runProgram fuel program).2.under settings) := by
  rcases (agreesUnless_eval_call h fuel).1 program.tree (.root program.unit) ScopeTree.rootId
    { session.machine with depth := 0 } with heq | ⟨i, machine, herror, hi⟩
  · refine .inr ?_
    simp only [runProgram, under, ← heq]
    split
    · rfl
    · split <;> rfl
  · exact .inl (ofKind_runProgram hi herror)

/-- The same for any input. -/
theorem feed_under (fuel : Nat) (input : Input) :
    (session.feed fuel input).1.OfKind kind ∨
      (session.under settings).feed fuel input
        = ((session.feed fuel input).1, (session.feed fuel input).2.under settings) := by
  cases input with
  | program program => exact runProgram_under h fuel program
  | source text =>
    simp only [feed]
    cases hparse : parseSource text with
    | error e =>
      rw [run_of_error hparse, run_of_error hparse]
      exact .inr rfl
    | ok tree =>
      rw [run_of_ok hparse, run_of_ok hparse]
      have hload : Stricter kind (session.load tree).2.settings settings := h
      exact runProgram_under hload fuel (session.load tree).1

omit h in
/-- Running an input does not change the settings. -/
theorem settings_feed (session : Session) (fuel : Nat) (input : Input) :
    (session.feed fuel input).2.settings = session.settings := by
  have hprogram : ∀ (session : Session) (program : Program),
      (session.runProgram fuel program).2.settings = session.settings := by
    intro session program
    simp only [runProgram]
    split
    · rfl
    · split <;> rfl
  cases input with
  | program program => exact hprogram session program
  | source text =>
    simp only [feed]
    cases hparse : parseSource text with
    | error e => rw [run_of_error hparse]
    | ok tree =>
      rw [run_of_ok hparse]
      exact hprogram (session.load tree).2 (session.load tree).1

/-- A whole session goes the same way under more generous settings, unless the limit ends one of its
runs under the stricter ones. -/
theorem outcomes_under (inputs : List (Nat × Input)) :
    (∃ outcome ∈ session.outcomes inputs, outcome.OfKind kind) ∨
      (session.under settings).outcomes inputs = session.outcomes inputs ∧
        (session.under settings).after inputs = (session.after inputs).under settings := by
  induction inputs generalizing session with
  | nil => exact .inr ⟨rfl, rfl⟩
  | cons input inputs ih =>
    obtain ⟨fuel, input⟩ := input
    simp only [outcomes, after]
    rcases feed_under h fuel input with hbad | heq
    · exact .inl ⟨_, List.mem_cons_self, hbad⟩
    have hnext : Stricter kind (session.feed fuel input).2.settings settings := by
      rw [settings_feed]
      exact h
    rw [heq]
    -- The two sessions have gone the same way so far, and the rest starts from there.
    rcases ih hnext with ⟨outcome, hmem, hbad⟩ | ⟨houtcomes, hafter⟩
    · exact .inl ⟨outcome, List.mem_cons_of_mem _ hmem, hbad⟩
    · exact .inr ⟨congrArg _ houtcomes, hafter⟩

end

end Session

/-- Strict variables only add one kind of failure. From every state, a session of programs in which
the use of an unbound variable is an error either has a run that ends in such an error, or all its
runs have the outcomes, and in the end leave the variables and the console, that they do when it is
no error. -/
theorem strictVariables_only_add_undefinedVariable (session : Session)
    (inputs : List (Nat × Session.Input)) :
    let strict := session.under { session.settings with strictVariables := true }
    let lenient := session.under { session.settings with strictVariables := false }
    (∃ outcome ∈ strict.outcomes inputs, outcome.OfKind .undefinedVariable) ∨
      lenient.outcomes inputs = strict.outcomes inputs ∧
        (lenient.after inputs).machine = (strict.after inputs).machine := by
  intro strict lenient
  have hstricter : Stricter .undefinedVariable strict.settings lenient.settings :=
    ⟨.inr ⟨rfl, rfl⟩, .inl rfl⟩
  rcases Session.outcomes_under hstricter inputs with hbad | ⟨houtcomes, hafter⟩
  · exact .inl hbad
  · have hmachine := congrArg Session.machine hafter
    exact .inr ⟨houtcomes, hmachine⟩

/-- Raising the limit for calls inside each other never changes a session that fits. If none of its
runs ends for too many calls under the lower limit, then under the higher one all of them have the
same outcomes, and in the end leave the same variables and console. -/
theorem higher_maxCallDepth_changes_nothing (session : Session) (limit limit' : Nat)
    (hle : limit ≤ limit') (inputs : List (Nat × Session.Input)) :
    let lower := session.under { session.settings with maxCallDepth := limit }
    let higher := session.under { session.settings with maxCallDepth := limit' }
    (∀ outcome ∈ lower.outcomes inputs, ¬ outcome.OfKind .stackOverflow) →
      higher.outcomes inputs = lower.outcomes inputs ∧
        (higher.after inputs).machine = (lower.after inputs).machine := by
  intro lower higher hfits
  have hstricter : Stricter .stackOverflow lower.settings higher.settings :=
    ⟨.inl rfl, .inr ⟨hle, rfl⟩⟩
  rcases Session.outcomes_under hstricter inputs with ⟨outcome, hmem, hbad⟩ | ⟨houtcomes, hafter⟩
  · exact absurd hbad (hfits outcome hmem)
  · have hmachine := congrArg Session.machine hafter
    exact ⟨houtcomes, hmachine⟩

/-- After `fun f(x) = x ? f(null) : x` the program `f(f)` makes two calls inside each other, so it
is the same whether two or ten of them are allowed. -/
theorem higher_maxCallDepth_changes_nothing_of_two :
    let node : Form → Node := fun form => ⟨form, default⟩
    let name : String → Node := fun s => node (.var s)
    let body := node (.ternary (name "x") (node (.call (name "f") [node .null])) (name "x"))
    let define := node (.block [node (.function ⟨some "f", ["x"], body, true⟩)])
    let use := node (.block [node (.call (name "f") [name "f"])])
    let inputs := [(20, .program ⟨0, define⟩), (20, .program ⟨1, use⟩)]
    let session := Session.new .default (.new [] none) 0
    let lower := session.under { session.settings with maxCallDepth := 2 }
    let higher := session.under { session.settings with maxCallDepth := 10 }
    (∀ outcome ∈ lower.outcomes inputs, ¬ outcome.OfKind .stackOverflow) ∧
      higher.outcomes inputs = lower.outcomes inputs ∧
        (higher.after inputs).machine = (lower.after inputs).machine := by
  intro node name body define use inputs session lower higher
  have hfits : ∀ outcome ∈ lower.outcomes inputs, ¬ outcome.OfKind .stackOverflow := by
    decide +kernel
  exact ⟨hfits, higher_maxCallDepth_changes_nothing session 2 10 (by decide) inputs hfits⟩

end Script
