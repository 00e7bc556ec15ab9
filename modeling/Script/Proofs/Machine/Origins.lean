import Script.Proofs.Machine.Reachable

/-!
# Where functions and blame come from

A run gets hold of nodes in two ways only: it goes down from a node to those below it, and it calls
a function, which was made from a literal in some tree. An `Origins` is a guess at all the nodes and
literals that a run can get hold of in this way, closed under both of them. Then the run stays
inside of it: every function within reach was made from one of the literals, and every node that is
ever blamed for an error is one of the nodes (`known_eval_call`).

The invariant also counts the calls that are going on. There are as many of them when a computation
is over as there were when it started, however it ends.
-/

namespace Script

/-- The nodes and literals that a run can get hold of, each with its place, and the spans that it
can blame. -/
structure Origins where
  /-- The nodes that may be evaluated. -/
  nodes : Site → Node → Prop
  /-- The literals that functions may be made from. -/
  functions : Site → Definition → Prop
  /-- The spans that may be blamed. -/
  spans : Span → Prop
  /-- What stands below a node may be evaluated too. -/
  child : ∀ {site : Site} {node child : Node} (position : Nat), nodes site node →
    node.children[position]? = some child → nodes (site.child position) child
  /-- A literal that is evaluated makes a function. -/
  literal : ∀ {site : Site} {definition : Definition} {span : Span},
    nodes site ⟨.function definition, span⟩ → functions site definition
  /-- A function that is called evaluates its body. -/
  body : ∀ {site : Site} {definition : Definition}, functions site definition →
    nodes (site.child 0) definition.body
  /-- What is evaluated may be blamed. -/
  span : ∀ {site : Site} {node : Node}, nodes site node → spans node.span

variable {K : Origins} {depth : Nat} {scope : ScopeId}

/-- A failure that is blamed on a known span, or on nothing yet. No `return` was out of place: a
call catches it, so that only a program as a whole can fail with it. -/
def Failure.Known (K : Origins) : Failure → Prop
  | .error e => e.fault ≠ .misplaced .return ∧ ∀ span, e.span = some span → K.spans span
  | .exhausted => True

/-- An interrupt that carries known functions and known spans. -/
def Interrupt.Known (K : Origins) : Interrupt → Prop
  | .returning value => value.Admits K.functions
  | .breaking span | .continuing span => K.spans span
  | .failing failure => failure.Known K

namespace Failure

variable {fault : Fault} {span : Span}

/-- An ordinary fault without a place has nothing unknown. -/
theorem known_unblamed (h : fault.Ordinary) : (Failure.error ⟨fault, none⟩).Known K := by
  refine ⟨?_, nofun⟩
  rintro rfl
  exact h rfl

/-- An ordinary fault at a known place has nothing unknown. -/
theorem known_blamed (h : fault.Ordinary) (hspan : K.spans span) :
    (Failure.error ⟨fault, some span⟩).Known K := by
  refine ⟨?_, fun _ hblamed => Option.some.inj hblamed ▸ hspan⟩
  rintro rfl
  exact h rfl

/-- To blame a failure on a known place leaves it known. -/
theorem Known.blame {failure : Failure} (h : failure.Known K) (hspan : K.spans span) :
    (failure.blame span).Known K := by
  cases failure with
  | exhausted => trivial
  | error e =>
    obtain ⟨fault, _ | nearer⟩ := e
    · exact ⟨h.1, fun _ hblamed => Option.some.inj hblamed ▸ hspan⟩
    · exact h

end Failure

/-- A jump that nothing catches is a known failure, unless it is a return. -/
theorem Interrupt.Known.uncaught {interrupt : Interrupt} (h : interrupt.Known K)
    (hreturn : ∀ value, interrupt ≠ .returning value) : interrupt.uncaught.Known K := by
  cases interrupt with
  | returning value => exact absurd rfl (hreturn value)
  | breaking span | continuing span =>
    refine ⟨?_, fun _ hblamed => Option.some.inj hblamed ▸ h⟩
    simp
  | failing failure => exact h

/-- Every function within reach is known, and so many calls are going on. -/
structure Machine.Known (K : Origins) (depth : Nat) (scope : ScopeId) (m : Machine) : Prop where
  functions : m.scopes.Admits K.functions scope
  depth_eq : m.depth = depth

/-- An evaluation that gets hold of nothing unknown. -/
def EvalKnown (K : Origins) (depth : Nat) (scope : ScopeId) (x : Eval Value) : Prop :=
  Keeps (Machine.Known K depth scope) (·.Admits K.functions) (Interrupt.Known K) x

/-- A call that gets hold of nothing unknown. -/
def CallKnown (K : Origins) (depth : Nat) (scope : ScopeId) (x : Call Value) : Prop :=
  Keeps (Machine.Known K depth scope) (·.Admits K.functions) (Failure.Known K) x

namespace Machine.Known

variable {m : Machine}

theorem define (h : m.Known K depth scope) (name : String) {value : Value}
    (hvalue : value.Admits K.functions) :
    ({ m with scopes := m.scopes.define scope name value } : Machine).Known K depth scope :=
  ⟨h.functions.define name hvalue, h.depth_eq⟩

theorem remove (h : m.Known K depth scope) (name : String) :
    ({ m with scopes := m.scopes.remove scope name } : Machine).Known K depth scope :=
  ⟨h.functions.remove name, h.depth_eq⟩

end Machine.Known

namespace Keeps

/-- While a call is going on it is counted, and when it is over no more. -/
theorem deeper_known {value : Value → Prop} {stop : Failure → Prop} {body : Call Value}
    (h : Keeps (Machine.Known K (depth + 1) scope) value stop body) :
    Keeps (Machine.Known K depth scope) value stop (Call.deeper body) := by
  refine .deeper_of (fun m hm => ⟨hm.functions, ?opened⟩) (fun m hm => ⟨hm.functions, ?closed⟩) h
  case opened => exact congrArg (· + 1) hm.depth_eq
  case closed => exact congrArg (· - 1) hm.depth_eq

/-- A new scope for known bindings reaches nothing unknown, and when it is gone all scopes are as
they were. -/
theorem inChild_known {value : Value → Prop} {stop : Failure → Prop} {parent : ScopeId}
    {b : Bindings} {body : ScopeId → Call Value} (hb : b.Admits K.functions)
    (hbody : ∀ scope, Keeps (Machine.Known K depth scope) value stop (body scope))
    (hframe : ∀ scope, ∃ names, Touches scope names (body scope)) :
    Keeps (Machine.Known K depth parent) value stop (Call.inChild parent b body) := by
  refine .inChild fun m hm => ?_
  obtain ⟨names, htouches⟩ := hframe m.scopes.size
  refine ⟨_, ⟨⟨hm.functions.child hb, hm.depth_eq⟩, .refl m.scopes.size names _⟩,
    ((hbody m.scopes.size).and (htouches _)).mono (fun _ h => h.1) fun _ h => h.1, ?_⟩
  rintro m' ⟨hm', hframe'⟩
  refine ⟨?_, hm'.depth_eq⟩
  rw [hframe'.keep_eq]
  exact hm.functions

end Keeps

/-! ## Nodes and calls -/

section

variable {settings : Settings} {fuel : Nat} {eval : Node → Site → ScopeId → Eval Value}
variable {call : Value → List Value → ScopeId → Call Value}
variable (heval : ∀ {site : Site} {node : Node}, K.nodes site node → ∀ depth scope,
  EvalKnown K depth scope (eval node site scope))
variable (hcall : ∀ {callee : Value} {args : List Value}, callee.Admits K.functions →
  (∀ v ∈ args, v.Admits K.functions) →
    ∀ depth scope, CallKnown K depth scope (call callee args scope))

include heval hcall in
/-- A known node gets hold of nothing unknown, if the nodes below it and the calls that it makes do
not. -/
theorem known_evalNode {site : Site} {node : Node} (h : K.nodes site node) (depth : Nat)
    (scope : ScopeId) :
    EvalKnown K depth scope (evalNode settings fuel eval call node site scope) := by
  have hspan := K.span h
  have hstop : MayStop K.functions (Interrupt.Known K) node := {
    fault := fun _ hfault => Failure.known_blamed hfault hspan
    bound := by
      intro child hmem
      obtain ⟨position, hget⟩ := List.getElem?_of_mem hmem
      exact Failure.known_blamed (by simp [Fault.kind]) (K.span (K.child position h hget))
    returning := fun _ _ _ hvalue => hvalue
    breaking := fun _ => hspan
    continuing := fun _ => hspan
    exhausted := fun _ => trivial }
  have hpart : ∀ (position : Nat) (child : Node), node.form.parts[position]? = some child →
      EvalKnown K depth scope (eval child (site.child position) scope) :=
    fun position _ hget => heval (K.child position h (Form.getElem?_children hget)) depth scope
  refine .evalNode (fun _ _ hcallee hargs => hcall hcallee hargs depth scope)
    (fun _ _ _ hm hv => hm.functions.get? hv)
      (fun position child hget _ => hpart position child hget)
    (fun position child hget _ => .iteration (hpart position child hget) fun _ hi _ _ => hi)
    (fun name _ _ _ hm hv => hm.define name hv) (fun name _ _ hm => hm.remove name) hstop
    (fun _ hfailure => hfailure.blame hspan) ?_
  intro definition hform
  obtain ⟨_, span⟩ := node
  obtain rfl := hform
  exact K.literal h

variable (htouches : ∀ node site scope, Touches scope node.assigned (eval node site scope))
variable (hleaves : ∀ callee args scope, LeavesScopes (call callee args scope))

include hcall hleaves in
/-- A built-in function gets hold of nothing unknown, if the functions that it calls do not. -/
theorem known_run (b : Builtin) {args : List Value} (hargs : ∀ v ∈ args, v.Admits K.functions)
    (depth : Nat) (caller : ScopeId) : CallKnown K depth caller (b.run call args caller) := by
  refine .run (fun _ _ hm => ⟨hm.functions, hm.depth_eq⟩) (fun _ => Failure.known_unblamed)
    ?_ ?_ b hargs
  · intro f items hf hitems
    refine .inChild_known Bindings.admits_empty (fun scope => ?_) fun scope =>
      ⟨[], touches_mapFrom hleaves f scope [] items⟩
    refine .mapFrom (fun item hitem => hcall hf ?_ depth scope) (fun _ => Value.admits_list.mpr)
      (List.forall_mem_nil _)
    simpa using hitems item hitem
  · intro f initial items hf hinitial hitems
    refine .inChild_known Bindings.admits_empty (fun scope => ?_) fun scope =>
      ⟨[], touches_reduceFrom hleaves f scope initial items⟩
    refine .reduceFrom (fun accumulated haccumulated item hitem => hcall hf ?_ depth scope) hinitial
    simpa using ⟨haccumulated, hitems item hitem⟩

include heval hcall htouches hleaves in
/-- A call of a known function runs a known body, one call deeper. -/
theorem known_callValue {callee : Value} {args : List Value} (hcallee : callee.Admits K.functions)
    (hargs : ∀ v ∈ args, v.Admits K.functions) (depth : Nat) (caller : ScopeId) :
    CallKnown K depth caller (callValue settings eval call callee args caller) := by
  cases callee with
  | function site definition =>
    refine .callFunction (fun _ _ _ => Failure.known_unblamed (by simp [Fault.kind]))
      (fun _ => Failure.known_unblamed (by simp [Fault.kind])) ?_
    refine .inChild_known (Bindings.admits_ofPairs definition.params hargs) (fun scope => ?_)
      fun scope => ⟨_, touches_body (htouches definition.body _ scope)⟩
    refine .deeper_known
      (.ofBody (heval (K.body hcallee) (depth + 1) scope) trivial (fun v hv => hv) ?_)
    exact fun i hi hreturn => hi.uncaught hreturn
  | builtin b => exact known_run hcall hleaves b hargs depth caller
  | number | text | list | null => exact .callRaise (Failure.known_unblamed (by simp [Fault.kind]))

end

/-- Known nodes and calls of known functions get hold of nothing unknown, and leave as many calls
behind as there were. -/
theorem known_eval_call (K : Origins) (settings : Settings) (fuel : Nat) :
    (∀ (site : Site) {node : Node}, K.nodes site node → ∀ depth scope,
      EvalKnown K depth scope (eval settings fuel node site scope)) ∧
    ∀ {callee : Value} {args : List Value}, callee.Admits K.functions →
      (∀ v ∈ args, v.Admits K.functions) → ∀ depth scope,
      CallKnown K depth scope (call settings fuel callee args scope) := by
  induction fuel with
  | zero =>
    constructor
    · intro site node _ depth scope m hm
      rw [eval_zero]
      exact ⟨hm, trivial⟩
    · intro callee args _ _ depth scope m hm
      rw [call_zero]
      exact ⟨hm, trivial⟩
  | succ fuel ih =>
    obtain ⟨htouches, hleaves⟩ := touches_eval_call settings fuel
    rw [eval_succ, call_succ]
    exact ⟨fun _ _ h => known_evalNode (ih.1 _) ih.2 h,
      fun hcallee hargs => known_callValue (ih.1 _) ih.2 htouches hleaves hcallee hargs⟩

end Script
