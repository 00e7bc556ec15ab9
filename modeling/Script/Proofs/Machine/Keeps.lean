import Script.Proofs.Machine.Plans

/-!
# What a computation keeps

`Keeps inv value stop x` says three things about a computation `x` on a machine, whatever the
machine: `x` keeps the invariant `inv` however it ends, what it results in satisfies `value`, and
what cuts it short satisfies `stop`.

First come such judgements about the primitives of `Eval` and `Call`. None of them depends on what
`inv`, `value` and `stop` are about. They are all that is needed for the steps of a plan
(`Keeps.of_related`), and so for every node (`Keeps.evalNode`), whose judgement is put together from
those about the nodes below it and about the calls that it makes.
-/

namespace Script

/-- A computation keeps an invariant, and its result or what cuts it short is as described. -/
def Keeps {ε α : Type} (inv : Machine → Prop) (value : α → Prop) (stop : ε → Prop)
    (x : EStateM ε Machine α) : Prop :=
  ∀ m, inv m →
    match x m with
    | .ok a m' => inv m' ∧ value a
    | .error e m' => inv m' ∧ stop e

/-- The machine that a computation leaves behind. -/
def Machine.after {ε α : Type} : EStateM.Result ε Machine α → Machine
  | .ok _ m => m
  | .error _ m => m

namespace Keeps

section

variable {ε α β : Type} {inv : Machine → Prop} {value : α → Prop} {stop : ε → Prop}
variable {x : EStateM ε Machine α} {m m' : Machine}

/-- A value that a computation comes to is as it was said to be, on a machine with the invariant. -/
theorem of_ok (h : Keeps inv value stop x) (hm : inv m) {a : α} (hrun : x m = .ok a m') :
    inv m' ∧ value a := by
  have hx := h m hm
  rw [hrun] at hx
  exact hx

/-- What cuts a computation short is as it was said to be, on a machine with the invariant. -/
theorem of_error (h : Keeps inv value stop x) (hm : inv m) {e : ε} (hrun : x m = .error e m') :
    inv m' ∧ stop e := by
  have hx := h m hm
  rw [hrun] at hx
  exact hx

/-- The invariant holds in the end, however the computation ends. -/
theorem after (h : Keeps inv value stop x) (hm : inv m) : inv (Machine.after (x m)) := by
  cases hrun : x m with
  | ok a m' => exact (h.of_ok hm hrun).1
  | error e m' => exact (h.of_error hm hrun).1

/-- A judgement can say less of the ends. -/
theorem mono {value' : α → Prop} {stop' : ε → Prop} (h : Keeps inv value stop x)
    (hvalue : ∀ a, value a → value' a) (hstop : ∀ e, stop e → stop' e) :
    Keeps inv value' stop' x := by
  intro m hm
  cases hrun : x m with
  | ok a m' => exact ⟨(h.of_ok hm hrun).1, hvalue a (h.of_ok hm hrun).2⟩
  | error e m' => exact ⟨(h.of_error hm hrun).1, hstop e (h.of_error hm hrun).2⟩

/-- Two judgements about the same computation. -/
theorem and {inv' : Machine → Prop} {value' : α → Prop} {stop' : ε → Prop}
    (h : Keeps inv value stop x) (h' : Keeps inv' value' stop' x) :
    Keeps (fun m => inv m ∧ inv' m) (fun a => value a ∧ value' a)
      (fun e => stop e ∧ stop' e) x := by
  rintro m ⟨hm, hm'⟩
  cases hrun : x m with
  | ok a m₁ =>
    have hx := h.of_ok hm hrun
    have hx' := h'.of_ok hm' hrun
    exact ⟨⟨hx.1, hx'.1⟩, hx.2, hx'.2⟩
  | error e m₁ =>
    have hx := h.of_error hm hrun
    have hx' := h'.of_error hm' hrun
    exact ⟨⟨hx.1, hx'.1⟩, hx.2, hx'.2⟩

/-! ## Primitives -/

theorem pure {a : α} (h : value a) : Keeps inv value stop (pure a : EStateM ε Machine α) :=
  fun _ hm => ⟨hm, h⟩

theorem throw {e : ε} (h : stop e) : Keeps inv value stop (throw e : EStateM ε Machine α) :=
  fun _ hm => ⟨hm, h⟩

/-- A computation is judged part by part. -/
theorem bind {value' : β → Prop} {f : α → EStateM ε Machine β} (hx : Keeps inv value stop x)
    (hf : ∀ a, value a → Keeps inv value' stop (f a)) : Keeps inv value' stop (x >>= f) := by
  intro m hm
  show match EStateM.bind x f m with
    | .ok a m' => inv m' ∧ value' a
    | .error e m' => inv m' ∧ stop e
  unfold EStateM.bind
  cases hrun : x m with
  | ok a m' =>
    obtain ⟨hm', ha⟩ := hx.of_ok hm hrun
    exact hf a ha m' hm'
  | error e m' => exact hx.of_error hm hrun

end

/-! ## Calls -/

section

variable {α : Type} {inv : Machine → Prop} {value : α → Prop} {stop : Failure → Prop}

/-- A fault leaves the machine alone. -/
theorem callRaise {fault : Fault} (h : stop (.error ⟨fault, none⟩)) :
    Keeps inv value stop (Call.raise fault : Call α) :=
  fun _ hm => ⟨hm, h⟩

/-- An operation leaves the machine alone, whether it fails or not. -/
theorem callOfExcept {result : Except Fault α} (hok : ∀ a, result = .ok a → value a)
    (herror : ∀ fault, result = .error fault → stop (.error ⟨fault, none⟩)) :
    Keeps inv value stop (Call.ofExcept result) := by
  cases result with
  | ok a => exact .pure (hok a rfl)
  | error fault => exact .callRaise (herror fault rfl)

/-- Writing changes the console only. -/
theorem write (text : String) (hconsole : ∀ m console, inv m → inv { m with console })
    (hstop : ∀ fault, stop (.error ⟨.console fault, none⟩)) :
    Keeps inv (fun _ => True) stop (Call.write text) := by
  intro m hm
  unfold Call.write
  cases m.console.write text with
  | ok console => exact ⟨hconsole m console hm, trivial⟩
  | error fault => exact ⟨hm, hstop fault⟩

/-- Reading changes the console only. -/
theorem readLine (hconsole : ∀ m console, inv m → inv { m with console })
    (hstop : ∀ fault, stop (.error ⟨.console fault, none⟩)) :
    Keeps inv (fun _ => True) stop Call.readLine := by
  intro m hm
  unfold Call.readLine
  obtain ⟨result, console⟩ := m.console.readLine
  cases result with
  | ok line => exact ⟨hconsole m console hm, trivial⟩
  | error fault => exact ⟨hconsole m console hm, hstop fault⟩

/-- A computation in a new scope may keep another invariant, which holds at its start and from which
the old one comes back when the scope is gone. -/
theorem inChild {parent : ScopeId} {bindings : Bindings} {body : ScopeId → Call α}
    (h : ∀ m, inv m → ∃ inv' : Machine → Prop,
      inv' { m with scopes := m.scopes.child parent bindings } ∧
      Keeps inv' value stop (body m.scopes.size) ∧
      ∀ m', inv' m' → inv { m' with scopes := m'.scopes.keep m.scopes.size }) :
    Keeps inv value stop (Call.inChild parent bindings body) := by
  intro m hm
  obtain ⟨inv', hopen, hbody, hclose⟩ := h m hm
  unfold Call.inChild
  simp only
  cases hrun : body m.scopes.size { m with scopes := m.scopes.child parent bindings } with
  | ok a m' => exact ⟨hclose m' (hbody.of_ok hopen hrun).1, (hbody.of_ok hopen hrun).2⟩
  | error e m' => exact ⟨hclose m' (hbody.of_error hopen hrun).1, (hbody.of_error hopen hrun).2⟩

/-- While a call is counted another invariant may be kept, as with a new scope. -/
theorem deeper_of {inv' : Machine → Prop} {body : Call α}
    (hopen : ∀ m, inv m → inv' { m with depth := m.depth + 1 })
    (hclose : ∀ m, inv' m → inv { m with depth := m.depth - 1 }) (h : Keeps inv' value stop body) :
    Keeps inv value stop (Call.deeper body) := by
  intro m hm
  unfold Call.deeper
  cases hrun : body { m with depth := m.depth + 1 } with
  | ok a m' => exact ⟨hclose m' (h.of_ok (hopen m hm) hrun).1, (h.of_ok (hopen m hm) hrun).2⟩
  | error e m' =>
    exact ⟨hclose m' (h.of_error (hopen m hm) hrun).1, (h.of_error (hopen m hm) hrun).2⟩

/-- Calls are counted apart from everything else. -/
theorem deeper {body : Call α} (hdepth : ∀ m depth, inv m → inv { m with depth })
    (h : Keeps inv value stop body) : Keeps inv value stop (Call.deeper body) :=
  .deeper_of (fun m => hdepth m _) (fun m => hdepth m _) h

/-- A body is left by what it returns, and every other interrupt is not caught. -/
theorem ofBody {value : Value → Prop} {stopBody : Interrupt → Prop} {isExpression : Bool}
    {body : Eval Value} (h : Keeps inv value stopBody body) (hnull : value .null)
    (hreturn : ∀ v, stopBody (.returning v) → value v)
    (hstop : ∀ i, stopBody i → (∀ v, i ≠ .returning v) → stop i.uncaught) :
    Keeps inv value stop (Call.ofBody isExpression body) := by
  intro m hm
  unfold Call.ofBody
  cases hrun : body m with
  | ok v m' =>
    obtain ⟨hm', hv⟩ := h.of_ok hm hrun
    refine ⟨hm', ?_⟩
    split
    · exact hv
    · exact hnull
  | error i m' =>
    obtain ⟨hm', hi⟩ := h.of_error hm hrun
    cases i with
    | returning v => exact ⟨hm', hreturn v hi⟩
    | breaking | continuing | failing => exact ⟨hm', hstop _ hi nofun⟩

end

/-! ## Evaluations -/

section

variable {α : Type} {inv : Machine → Prop} {value : α → Prop} {stop : Interrupt → Prop}

/-- A fault with its place leaves the machine alone. -/
theorem raise {fault : Fault} {span : Span} (h : stop (.failing (.error ⟨fault, some span⟩))) :
    Keeps inv value stop (Eval.raise fault span : Eval α) :=
  fun _ hm => ⟨hm, h⟩

/-- A call is judged as such, and its failures as blamed on its node. -/
theorem ofCall {stopCall : Failure → Prop} {c : Call α} {span : Span}
    (h : Keeps inv value stopCall c) (hstop : ∀ f, stopCall f → stop (.failing (f.blame span))) :
    Keeps inv value stop (Eval.ofCall c span) := by
  intro m hm
  unfold Eval.ofCall
  cases hrun : c m with
  | ok a m' => exact h.of_ok hm hrun
  | error f m' => exact ⟨(h.of_error hm hrun).1, hstop f (h.of_error hm hrun).2⟩

/-- The scopes may be changed in a way that keeps the invariant. -/
theorem modifyScopes {f : ScopeTree → ScopeTree}
    (h : ∀ m, inv m → inv { m with scopes := f m.scopes }) :
    Keeps inv (fun _ => True) stop (Eval.modifyScopes f) :=
  fun m hm => ⟨h m hm, trivial⟩

/-- What is looked up is as the invariant says of variables. -/
theorem lookup {value : Value → Prop} {scope : ScopeId} {name : String}
    (h : ∀ m v, inv m → m.scopes.get? scope name = some v → value v) :
    Keeps inv (fun found => ∀ v, found = some v → value v) stop (Eval.lookup scope name) :=
  fun m hm => ⟨hm, fun v hv => h m v hm hv⟩

/-- What is done to the scopes in the end keeps the invariant, however the computation ends. -/
theorem finallyScopes {x : Eval α} {f : ScopeTree → ScopeTree} (hx : Keeps inv value stop x)
    (h : ∀ m, inv m → inv { m with scopes := f m.scopes }) :
    Keeps inv value stop (Eval.finallyScopes x f) := by
  intro m hm
  unfold Eval.finallyScopes
  cases hrun : x m with
  | ok a m' => exact ⟨h m' (hx.of_ok hm hrun).1, (hx.of_ok hm hrun).2⟩
  | error i m' => exact ⟨h m' (hx.of_error hm hrun).1, (hx.of_error hm hrun).2⟩

end

section

variable {inv : Machine → Prop} {value : Value → Prop} {stop : Interrupt → Prop}

/-- A node that has to be a number may also fail for not being one. -/
theorem evalNumber {eval : Node → Site → ScopeId → Eval Value} {site : Site} {scope : ScopeId}
    {node : Node} (h : Keeps inv value stop (eval node site scope))
    (hstop : stop (.failing (.error ⟨.expectedNumber, some node.span⟩))) :
    Keeps inv (fun _ => True) stop (Script.evalNumber eval node site scope) := by
  refine .bind h fun v _ => ?_
  split
  · exact .pure trivial
  · exact .raise hstop

/-- The body of a loop is left by `break` and `continue` only up to the loop. -/
theorem iteration {stopBody : Interrupt → Prop} {body : Eval Value}
    (h : Keeps inv value stopBody body)
    (hstop : ∀ i, stopBody i → (∀ span, i ≠ .breaking span) → (∀ span, i ≠ .continuing span) →
      stop i) :
    Keeps inv (fun _ => True) stop (Eval.iteration body) := by
  intro m hm
  unfold Eval.iteration
  cases hrun : body m with
  | ok v m' => exact ⟨(h.of_ok hm hrun).1, trivial⟩
  | error i m' =>
    obtain ⟨hm', hi⟩ := h.of_error hm hrun
    cases i with
    | breaking | continuing => exact ⟨hm', trivial⟩
    | returning | failing => exact ⟨hm', hstop _ hi nofun nofun⟩

end

/-! ## Nodes -/

section

variable {inv : Machine → Prop} {P : Site → Definition → Prop} {stopCall : Failure → Prop}
variable {stop : Interrupt → Prop} {eval : Node → Site → ScopeId → Eval Value}
variable {call : Value → List Value → ScopeId → Call Value} {site : Site} {scope : ScopeId}

/-- What the steps of a plan have to keep. -/
abbrev relation (inv : Machine → Prop) (P : Site → Definition → Prop) (stopCall : Failure → Prop)
    (stop : Interrupt → Prop) (eval : Node → Site → ScopeId → Eval Value) (site : Site)
    (scope : ScopeId) : PlanRelation :=
  .single P stop
    (fun position node => Keeps inv (·.Admits P) stop (eval node (site.child position) scope))
    (fun position node =>
      Keeps inv (fun _ => True) stop (Eval.iteration (eval node (site.child position) scope)))
    (fun name => ∀ m (v : Value), inv m → v.Admits P →
      inv { m with scopes := m.scopes.define scope name v })
    (fun name => ∀ m, inv m → inv { m with scopes := m.scopes.remove scope name })
    (fun span => ∀ f, stopCall f → stop (.failing (f.blame span)))

variable (hcall : ∀ callee args, callee.Admits P → (∀ v ∈ args, v.Admits P) →
  Keeps inv (·.Admits P) stopCall (call callee args scope))
variable (hlookup : ∀ m name v, inv m → m.scopes.get? scope name = some v → v.Admits P)

include hcall hlookup

/-- A plan keeps what its steps do. -/
theorem of_related {p p' : Plan}
    (h : Plan.Related (relation inv P stopCall stop eval site scope) p p') :
    Keeps inv (·.Admits P) stop (p.run eval call site scope) := by
  induction h with
  | done h => exact .pure h.1
  | stop h => exact .throw h
  | excused h => cases h
  | part h _ ih => exact .bind h fun v hv => ih v v ⟨hv, rfl⟩
  | round h _ ih => exact .bind h fun goesOn _ => ih goesOn
  | @look name next _ _ _ _ ihsome ihnone =>
    refine .bind (.lookup fun m v => hlookup m name v) fun found hfound => ?_
    cases found with
    | none => exact ihnone
    | some v => exact ihsome v v ⟨hfound v rfl, rfl⟩
  | define h hv _ ih => exact .bind (.modifyScopes fun m hm => h m _ hm hv.1) fun _ _ => ih
  | unbinding h _ ih => exact .finallyScopes ih h
  | call hcallee hargs h =>
    exact .ofCall (hcall _ _ hcallee.1 ((List.forall₂_and_left _ _).mp hargs).1) h

/-- A node keeps what the nodes below it and the calls that it makes do, if its own name may be
bound and unbound in its scope and variables may be looked up, and if it may make the function that
it is a literal of. What leaves the body of a loop need not be what may leave the loop. -/
theorem evalNode {settings : Settings} {fuel : Nat} {node : Node}
    (hpart : ∀ (position : Nat) (child : Node), node.form.parts[position]? = some child →
      node.form.body? ≠ some position →
      Keeps inv (·.Admits P) stop (eval child (site.child position) scope))
    (hround : ∀ (position : Nat) (child : Node), node.form.parts[position]? = some child →
      node.form.body? = some position →
      Keeps inv (fun _ => True) stop (Eval.iteration (eval child (site.child position) scope)))
    (hdefine : ∀ name, node.form.named? = some name → ∀ m (v : Value), inv m → v.Admits P →
      inv { m with scopes := m.scopes.define scope name v })
    (hremove : ∀ name, node.form.named? = some name → ∀ m, inv m →
      inv { m with scopes := m.scopes.remove scope name })
    (hstop : MayStop P stop node)
    (hblame : ∀ f, stopCall f → stop (.failing (f.blame node.span)))
    (hliteral : ∀ definition, node.form = .function definition → P site definition) :
    Keeps inv (·.Admits P) stop (Script.evalNode settings fuel eval call node site scope) := by
  rw [evalNode_eq_run]
  exact .of_related hcall hlookup (hstop.related_plan hpart hround hdefine
    (fun name hname _ => hremove name hname) hblame hliteral fuel)

end

/-! ## Calls of functions -/

/-- A call that is not refused runs the body in a new scope. -/
theorem callFunction {inv : Machine → Prop} {value : Value → Prop} {stop : Failure → Prop}
    {settings : Settings} {eval : Node → Site → ScopeId → Eval Value} {site : Site}
    {definition : Definition} {args : List Value} {caller : ScopeId}
    (harity : ∀ name expected got, stop (.error ⟨.arity name expected got, none⟩))
    (hdepth : ∀ limit, stop (.error ⟨.callDepth limit, none⟩))
    (h : Keeps inv value stop (Call.inChild caller (.ofPairs definition.params args) fun scope =>
      Call.deeper (Call.ofBody definition.isExpression
        (eval definition.body (site.child 0) scope)))) :
    Keeps inv value stop (Script.callFunction settings eval site definition args caller) := by
  intro m hm
  unfold Script.callFunction
  by_cases hargs : args.length ≠ definition.params.length
  · rw [if_pos hargs]
    exact ⟨hm, harity _ _ _⟩
  · rw [if_neg hargs]
    by_cases hlimit : settings.maxCallDepth ≤ m.depth
    · rw [if_pos hlimit]
      exact ⟨hm, hdepth _⟩
    · rw [if_neg hlimit]
      exact h m hm

section

variable {inv : Machine → Prop} {value : Value → Prop} {stop : Failure → Prop}
variable {call : Value → List Value → ScopeId → Call Value} {f : Value} {scope : ScopeId}

/-- `map` keeps what its callbacks keep, and comes to a list of their values. -/
theorem mapFrom {items : List Value}
    (hcall : ∀ item ∈ items, Keeps inv value stop (call f [item] scope))
    (hlist : ∀ values, (∀ v ∈ values, value v) → value (.list values)) {results : List Value}
    (hresults : ∀ v ∈ results, value v) :
    Keeps inv value stop (Builtin.mapFrom call f scope results items) := by
  induction items generalizing results with
  | nil => exact .pure (hlist _ fun v hv => hresults v (List.mem_reverse.mp hv))
  | cons item items ih =>
    rw [Builtin.mapFrom]
    refine .bind (hcall item List.mem_cons_self) fun result hresult => ?_
    refine ih (fun item hitem => hcall item (List.mem_cons_of_mem _ hitem)) ?_
    intro v hv
    rcases List.mem_cons.mp hv with rfl | hv
    · exact hresult
    · exact hresults v hv

/-- `reduce` keeps what its callbacks keep, and comes to the value of the last one. -/
theorem reduceFrom {items : List Value} (hcall : ∀ accumulated, value accumulated → ∀ item ∈ items,
      Keeps inv value stop (call f [accumulated, item] scope)) {accumulated : Value}
    (h : value accumulated) :
    Keeps inv value stop (Builtin.reduceFrom call f scope accumulated items) := by
  induction items generalizing accumulated with
  | nil => exact .pure h
  | cons item items ih =>
    rw [Builtin.reduceFrom]
    refine .bind (hcall accumulated h item List.mem_cons_self) fun next hnext => ?_
    refine ih (fun accumulated h item hitem => ?_) hnext
    exact hcall accumulated h item (List.mem_cons_of_mem _ hitem)

end

section

variable {P : Site → Definition → Prop} {inv : Machine → Prop} {stop : Failure → Prop}
variable {call : Value → List Value → ScopeId → Call Value} {caller : ScopeId}
variable (hconsole : ∀ m console, inv m → inv { m with console })
variable (hstop : ∀ fault : Fault, fault.Ordinary → stop (.error ⟨fault, none⟩))

include hstop in
/-- An operation is judged by what it gives. -/
theorem ofGives {α : Type} {value : α → Prop} {result : Except Fault α}
    (h : Gives value Fault.OfOperation result) : Keeps inv value stop (Call.ofExcept result) :=
  .callOfExcept h.of_ok fun fault herror => hstop fault (h.of_error fault herror).ordinary

include hconsole hstop in
/-- A built-in function that makes no calls writes, reads and fails in ordinary ways, and has no
functions to give but those in its arguments. -/
theorem runAlone {b : Builtin} (hmap : b ≠ .map) (hreduce : b ≠ .reduce) {args : List Value}
    (hargs : ∀ v ∈ args, v.Admits P) : Keeps inv (·.Admits P) stop (b.run call args caller) := by
  have hwrite : ∀ text, Keeps inv (fun _ => True) stop (Call.write text) :=
    fun text => .write text hconsole fun fault => hstop _ (by simp [Fault.kind])
  unfold Builtin.run
  split
  · exact .bind (hwrite _) fun _ _ => .pure trivial
  · exact .bind (hwrite _) fun _ _ => .pure trivial
  · refine .bind (.ofGives hstop (Builtin.gives_scanPrompt args)) fun _ _ => ?_
    refine .bind (hwrite _) fun _ _ =>
      .bind (.readLine hconsole fun fault => hstop _ ?_) fun _ _ => ?_
    · simp [Fault.kind]
    · exact .pure trivial
  · exact absurd rfl hmap
  · exact absurd rfl hreduce
  · exact .ofGives hstop (Builtin.gives_compute? b hargs)

include hconsole hstop in
/-- What else a built-in function does is done by the calls that `map` and `reduce` make in a new
scope. -/
theorem run
    (hmap : ∀ f items, f.Admits P → (∀ item ∈ items, item.Admits P) →
      Keeps inv (·.Admits P) stop
        (Call.inChild caller .empty fun scope => Builtin.mapFrom call f scope [] items))
    (hreduce : ∀ f initial items, f.Admits P → initial.Admits P → (∀ item ∈ items, item.Admits P) →
      Keeps inv (·.Admits P) stop
        (Call.inChild caller .empty fun scope => Builtin.reduceFrom call f scope initial items))
    (b : Builtin) {args : List Value} (hargs : ∀ v ∈ args, v.Admits P) :
    Keeps inv (·.Admits P) stop (b.run call args caller) := by
  by_cases hbmap : b = .map
  · subst hbmap
    show Keeps _ _ _ (Builtin.mapCall call args caller)
    unfold Builtin.mapCall
    split
    · rename_i list f
      have hlist := Builtin.gives_wantList .map (hargs list List.mem_cons_self)
      refine .bind (.ofGives hstop hlist) fun items hitems => ?_
      refine .bind (.ofGives hstop (Builtin.gives_wantFunction .map f)) fun _ _ => ?_
      exact hmap f items (hargs f (by simp)) hitems
    · exact .callRaise (hstop _ (by simp [Builtin.arityFault, Fault.kind]))
  by_cases hbreduce : b = .reduce
  · subst hbreduce
    show Keeps _ _ _ (Builtin.reduceCall call args caller)
    unfold Builtin.reduceCall
    split
    · rename_i list f initial
      have hlist := Builtin.gives_wantList .reduce (hargs list List.mem_cons_self)
      refine .bind (.ofGives hstop hlist) fun items hitems => ?_
      refine .bind (.ofGives hstop (Builtin.gives_wantFunction .reduce f)) fun _ _ => ?_
      exact hreduce f initial items (hargs f (by simp)) (hargs initial (by simp)) hitems
    · exact .callRaise (hstop _ (by simp [Builtin.arityFault, Fault.kind]))
  -- The others make no calls.
  exact .runAlone hconsole hstop hbmap hbreduce hargs

end

end Keeps

end Script
