import Script.Proofs.Machine.Keeps
import Script.Session

/-!
# What a run leaves alone

A node changes the variables of its own scope only, and among them only those that it names
(`Node.assigned`): the names it assigns to, those of its functions and the variables of its loops,
the bodies of its functions left out. A call changes no variable at all, whatever the function does.

## Shape of the proof

`Frame` is a relation between the scopes before and after. It is a preorder and grows with the
names, so that what the parts of a node leave alone the node leaves alone too. A call runs in a
scope of its own above all others. What its body changes is in that scope, and when the scope is
gone the others are exactly as they were (`Frame.keep_eq`). Evaluation and calls go by induction on
the fuel together.
-/

namespace Script

/-! ## Names that a node assigns to -/

mutual

/-- The names that a node assigns to in its scope. -/
def Node.assigned : Node → List String
  | ⟨form, _⟩ => form.assigned

/-- The names that a form assigns to in its scope. The body of a function is not part of it. -/
def Form.assigned : Form → List String
  | .number _ | .text _ | .null | .var _ | .breaking | .continuing => []
  | .list items => assignedByNodes items
  | .assign name value => name :: value.assigned
  | .binary left _ right => left.assigned ++ right.assigned
  | .unary _ operand => operand.assigned
  | .ternary cond yes no => cond.assigned ++ (yes.assigned ++ no.assigned)
  | .index target place => target.assigned ++ place.assigned
  | .ifElse arms otherwise => assignedByArms arms ++ assignedByOption otherwise
  | .whileLoop cond body => cond.assigned ++ body.assigned
  | .forLoop name first last step body =>
    name :: (first.assigned ++ (last.assigned ++ (assignedByOption step ++ body.assigned)))
  | .function definition => definition.assigned
  | .call callee args => callee.assigned ++ assignedByNodes args
  | .returning value => assignedByOption value
  | .block statements => assignedByNodes statements

/-- A function literal assigns to its own name. -/
def Definition.assigned : Definition → List String
  | ⟨name, _, _, _⟩ => name.toList

/-- The names that nodes assign to. -/
def assignedByNodes : List Node → List String
  | [] => []
  | node :: nodes => node.assigned ++ assignedByNodes nodes

/-- The names that arms assign to. -/
def assignedByArms : List Arm → List String
  | [] => []
  | ⟨cond, body⟩ :: arms => cond.assigned ++ (body.assigned ++ assignedByArms arms)

/-- The names that a node, if there is one, assigns to. -/
def assignedByOption : Option Node → List String
  | none => []
  | some node => node.assigned

end

/-- Nodes assign to what one of them assigns to. -/
theorem mem_assignedByNodes {name : String} {nodes : List Node} :
    name ∈ assignedByNodes nodes ↔ ∃ node ∈ nodes, name ∈ node.assigned := by
  induction nodes with
  | nil => simp [assignedByNodes]
  | cons node nodes ih => simp [assignedByNodes, ih]

/-- Arms assign to what a condition or a body among them assigns to. -/
theorem mem_assignedByArms {name : String} {arms : List Arm} :
    name ∈ assignedByArms arms ↔
      ∃ node ∈ arms.flatMap fun arm => [arm.cond, arm.body], name ∈ node.assigned := by
  induction arms with
  | nil => simp [assignedByArms]
  | cons arm arms ih =>
    obtain ⟨cond, body⟩ := arm
    rw [assignedByArms, List.mem_append, List.mem_append, ih]
    simp

/-- A part that may be missing assigns to what it assigns to if it is there. -/
theorem mem_assignedByOption {name : String} {node : Option Node} :
    name ∈ assignedByOption node ↔ ∃ child ∈ node.toList, name ∈ child.assigned := by
  cases node <;> simp [assignedByOption]

/-- A form assigns to the name it gives itself, and to those that the nodes evaluated with it assign
to. -/
theorem Form.mem_assigned_iff {form : Form} {name : String} :
    name ∈ form.assigned ↔
      form.named? = some name ∨ ∃ child ∈ form.parts, name ∈ child.assigned := by
  cases form with
  | function definition =>
    obtain ⟨own, params, body, isExpression⟩ := definition
    simp [assigned, Definition.assigned, named?, parts]
  | assign | forLoop =>
    simp [assigned, named?, parts, children, mem_assignedByOption, eq_comm]
  | _ =>
    simp [assigned, named?, parts, children, mem_assignedByNodes, mem_assignedByArms,
      mem_assignedByOption, or_and_right, exists_or]

/-! ## Frames -/

namespace ScopeTree

variable {tree : ScopeTree} {id id' : ScopeId} {f : Bindings → Bindings}

/-- To change a scope adds none. -/
@[simp]
theorem size_update : (tree.update id f).size = tree.size := by
  simp [update, size]

/-- To change a scope moves none. -/
@[simp]
theorem parent?_update : (tree.update id f).parent? id' = tree.parent? id' := by
  simp only [parent?, update, Array.getElem?_modify]
  split
  · cases tree.scopes[id']? <;> rfl
  · rfl

/-- To change a scope leaves the others alone. -/
theorem bindings_update_of_ne (h : id' ≠ id) :
    (tree.update id f).bindings id' = tree.bindings id' := by
  simp only [bindings, update, Array.getElem?_modify, if_neg (Ne.symm h)]

/-- To change a scope changes its bindings. -/
theorem bindings_update_self (h : id < tree.size) :
    (tree.update id f).bindings id = f (tree.bindings id) := by
  have hget : tree.scopes[id]? = some (tree.scopes[id]) := Array.getElem?_eq_getElem h
  simp [bindings, update, Array.getElem?_modify, hget]

theorem bindings_of_size_le (h : tree.size ≤ id) : tree.bindings id = .empty := by
  simp [bindings, Array.getElem?_eq_none h]

/-- A new scope is one more. -/
@[simp]
theorem size_child (parent : ScopeId) (b : Bindings) :
    (tree.child parent b).size = tree.size + 1 := by
  simp [child, size]

/-- A new scope leaves the others alone. -/
theorem getElem?_child_of_lt (parent : ScopeId) (b : Bindings) (h : id < tree.size) :
    (tree.child parent b).scopes[id]? = tree.scopes[id]? := by
  rw [child, Array.getElem?_push_lt h, Array.getElem?_eq_getElem h]

/-- A scope is its parent and its bindings. -/
theorem getElem?_eq_of {tree' : ScopeTree} (h : id < tree.size) (h' : id < tree'.size)
    (hparent : tree.parent? id = tree'.parent? id)
    (hbindings : tree.bindings id = tree'.bindings id) :
    tree.scopes[id]? = tree'.scopes[id]? := by
  have hget := Array.getElem?_eq_getElem h
  have hget' := Array.getElem?_eq_getElem h'
  simp only [parent?, bindings, hget, hget', Option.bind_some, Option.map_some, Option.getD_some]
    at hparent hbindings
  rw [hget, hget', Option.some.injEq]
  cases hscope : tree.scopes[id] with
  | mk parent b =>
    cases hscope' : tree'.scopes[id] with
    | mk parent' b' =>
      rw [hscope, hscope'] at hparent hbindings
      rw [Scope.mk.injEq]
      exact ⟨hparent, hbindings⟩

/-- The oldest scopes of a tree are all of another one if they are the same one by one. -/
theorem keep_eq_of {tree' : ScopeTree}
    (h : ∀ id, id < tree.size → tree'.scopes[id]? = tree.scopes[id]?) :
    tree'.keep tree.size = tree := by
  refine congrArg ScopeTree.mk (Array.ext_getElem? fun id => ?_)
  rw [← Array.getElem?_toList, Array.toList_shrink]
  rcases Nat.lt_or_ge id tree.size with hlt | hge
  · rw [List.getElem?_take_of_lt hlt, Array.getElem?_toList, h id hlt]
  · rw [List.getElem?_take_eq_none hge, Array.getElem?_eq_none hge]

end ScopeTree

/-- The scopes before and after a computation that changes nothing but the given names in one
scope. -/
structure Frame (scope : ScopeId) (names : List String) (before after : ScopeTree) : Prop where
  /-- There are as many scopes as there were. -/
  size : after.size = before.size
  /-- Every scope has the parent it had. -/
  parent : ∀ id, after.parent? id = before.parent? id
  /-- All other scopes have the bindings they had. -/
  elsewhere : ∀ id, id ≠ scope → after.bindings id = before.bindings id
  /-- All other names are bound in this scope as they were, or still not bound. -/
  here : ∀ name, name ∉ names → (after.bindings scope).get? name = (before.bindings scope).get? name

namespace Frame

variable {scope : ScopeId} {names names' : List String} {tree before middle after : ScopeTree}

theorem refl (scope : ScopeId) (names : List String) (tree : ScopeTree) :
    Frame scope names tree tree :=
  ⟨rfl, fun _ => rfl, fun _ _ => rfl, fun _ _ => rfl⟩

/-- What two changes leave alone is left alone by both of them together. -/
theorem trans (h : Frame scope names before middle) (h' : Frame scope names middle after) :
    Frame scope names before after where
  size := h'.size.trans h.size
  parent id := (h'.parent id).trans (h.parent id)
  elsewhere id hid := (h'.elsewhere id hid).trans (h.elsewhere id hid)
  here name hname := (h'.here name hname).trans (h.here name hname)

theorem mono (h : Frame scope names before after) (hnames : names ⊆ names') :
    Frame scope names' before after :=
  ⟨h.size, h.parent, h.elsewhere, fun name hname => h.here name fun hmem => hname (hnames hmem)⟩

/-- A change of bindings that spares all other names. -/
theorem update {f : Bindings → Bindings}
    (hf : ∀ b name, name ∉ names → (f b).get? name = b.get? name) :
    Frame scope names tree (tree.update scope f) where
  size := ScopeTree.size_update
  parent _ := ScopeTree.parent?_update
  elsewhere _ hid := ScopeTree.bindings_update_of_ne hid
  here name hname := by
    rcases Nat.lt_or_ge scope tree.size with hlt | hge
    · rw [ScopeTree.bindings_update_self hlt, hf _ name hname]
    · have hge' : (tree.update scope f).size ≤ scope := by rwa [ScopeTree.size_update]
      rw [ScopeTree.bindings_of_size_le hge, ScopeTree.bindings_of_size_le hge']

theorem define {name : String} (hname : name ∈ names) (value : Value) :
    Frame scope names tree (tree.define scope name value) := by
  refine update fun b other hother => Bindings.get?_insert_of_ne b value ?_
  rintro rfl
  exact hother hname

theorem remove {name : String} (hname : name ∈ names) :
    Frame scope names tree (tree.remove scope name) := by
  refine update fun b other hother => Bindings.get?_erase_of_ne b ?_
  rintro rfl
  exact hother hname

/-- When a new scope is gone, all others are as they were if nothing but the new one was changed. -/
theorem keep_eq {parent : ScopeId} {b : Bindings}
    (h : Frame tree.size names (tree.child parent b) after) : after.keep tree.size = tree := by
  refine ScopeTree.keep_eq_of fun id hid => ?_
  have hchild : id < (tree.child parent b).size := by
    rw [ScopeTree.size_child]
    exact Nat.lt_succ_of_lt hid
  have hafter : id < after.size := by rwa [h.size]
  rw [ScopeTree.getElem?_eq_of hafter hchild (h.parent id) (h.elsewhere id (Nat.ne_of_lt hid)),
    ScopeTree.getElem?_child_of_lt parent b hid]

end Frame

/-! ## Judgements -/

/-- A computation that touches nothing but the given names in one scope. -/
def Touches {ε α : Type} (scope : ScopeId) (names : List String) (x : EStateM ε Machine α) : Prop :=
  ∀ before, Keeps (fun m => Frame scope names before m.scopes) (fun _ => True) (fun _ => True) x

/-- A computation that leaves all scopes as they are. -/
def LeavesScopes {ε α : Type} (x : EStateM ε Machine α) : Prop :=
  ∀ before, Keeps (fun m => m.scopes = before) (fun _ => True) (fun _ => True) x

section

variable {ε α : Type} {scope : ScopeId} {names names' : List String} {x : EStateM ε Machine α}

/-- What a computation touches is all that it changes. -/
theorem Touches.frame (h : Touches scope names x) (m : Machine) :
    Frame scope names m.scopes (Machine.after (x m)).scopes :=
  (h m.scopes).after (Frame.refl scope names m.scopes)

/-- A computation touches what it changes, however it ends. -/
theorem Touches.of_frame (h : ∀ m, Frame scope names m.scopes (Machine.after (x m)).scopes) :
    Touches scope names x := by
  intro before m hm
  have hframe := hm.trans (h m)
  cases hrun : x m with
  | ok a m' =>
    rw [hrun] at hframe
    exact ⟨hframe, trivial⟩
  | error e m' =>
    rw [hrun] at hframe
    exact ⟨hframe, trivial⟩

/-- A computation that touches some names touches no others of a larger list. -/
theorem Touches.mono (h : Touches scope names x) (hnames : names ⊆ names') :
    Touches scope names' x :=
  .of_frame fun m => (h.frame m).mono hnames

/-- The scopes are the same after a computation that leaves them. -/
theorem LeavesScopes.scopes_eq (h : LeavesScopes x) (m : Machine) :
    (Machine.after (x m)).scopes = m.scopes :=
  (h m.scopes).after rfl

/-- A computation that leaves the scopes touches no name. -/
theorem LeavesScopes.touches (h : LeavesScopes x) : Touches scope names x :=
  .of_frame fun m => by
    rw [h.scopes_eq m]
    exact .refl scope names m.scopes

end

/-- A computation in a new scope leaves all scopes as they are if it touches nothing but the new
one. -/
theorem leavesScopes_inChild {α : Type} (parent : ScopeId) (bindings : Bindings)
    {body : ScopeId → Call α} (h : ∀ scope, ∃ names, Touches scope names (body scope)) :
    LeavesScopes (Call.inChild parent bindings body) := by
  intro before
  refine .inChild fun m hm => ?_
  obtain ⟨names, hbody⟩ := h m.scopes.size
  refine ⟨fun m' => Frame m.scopes.size names (m.scopes.child parent bindings) m'.scopes,
    .refl _ _ _, hbody _, fun m' hm' => ?_⟩
  exact hm'.keep_eq.trans hm

/-! ## Evaluation -/

/-- The body of a function touches what it names. -/
theorem touches_body {isExpression : Bool} {scope : ScopeId} {names : List String}
    {body : Eval Value} (h : Touches scope names body) :
    Touches scope names (Call.deeper (Call.ofBody isExpression body)) := by
  intro before
  refine .deeper (fun _ _ hm => hm) ?_
  exact .ofBody (h before) trivial (fun _ _ => trivial) fun _ _ _ => trivial

section

variable {call : Value → List Value → ScopeId → Call Value}
variable (hcall : ∀ callee args scope, LeavesScopes (call callee args scope))

include hcall

/-- The callbacks of `map` leave the scope alone that they share. -/
theorem touches_mapFrom (f : Value) (scope : ScopeId) (results items : List Value) :
    Touches scope [] (Builtin.mapFrom call f scope results items) :=
  fun _ => .mapFrom (fun _ _ => (hcall _ _ scope).touches _) (fun _ _ => trivial) fun _ _ => trivial

/-- The callbacks of `reduce` leave the scope alone that they share. -/
theorem touches_reduceFrom (f : Value) (scope : ScopeId) (accumulated : Value)
    (items : List Value) :
    Touches scope [] (Builtin.reduceFrom call f scope accumulated items) :=
  fun _ => .reduceFrom (fun _ _ _ _ => (hcall _ _ scope).touches _) trivial

/-- A built-in function leaves all scopes as they are if the calls that it makes do. -/
theorem leavesScopes_run (b : Builtin) (args : List Value) (caller : ScopeId) :
    LeavesScopes (b.run call args caller) := by
  intro before
  have hany : ∀ v : Value, v.Admits fun _ _ => True := Value.admits_of_forall fun _ _ => trivial
  have hrun : Keeps (fun m => m.scopes = before) (·.Admits fun _ _ => True) (fun _ => True)
      (b.run call args caller) := by
    refine .run (fun _ _ hm => hm) (fun _ _ => trivial) ?_ ?_ b fun v _ => hany v
    · intro f items _ _
      have hleaves := leavesScopes_inChild caller .empty
        fun scope => ⟨[], touches_mapFrom hcall f scope [] items⟩
      exact (hleaves before).mono (fun v _ => hany v) fun _ _ => trivial
    · intro f initial items _ _ _
      have hleaves := leavesScopes_inChild caller .empty
        fun scope => ⟨[], touches_reduceFrom hcall f scope initial items⟩
      exact (hleaves before).mono (fun v _ => hany v) fun _ _ => trivial
  exact hrun.mono (fun _ _ => trivial) fun _ _ => trivial

end

section

variable {settings : Settings} {fuel : Nat} {eval : Node → Site → ScopeId → Eval Value}
variable {call : Value → List Value → ScopeId → Call Value}
variable (heval : ∀ node site scope, Touches scope node.assigned (eval node site scope))
variable (hcall : ∀ callee args scope, LeavesScopes (call callee args scope))

include heval hcall

/-- A node touches what it names if the nodes below it do and calls leave all scopes as they are. -/
theorem touches_evalNode (node : Node) (site : Site) (scope : ScopeId) :
    Touches scope node.assigned (evalNode settings fuel eval call node site scope) := by
  intro before
  obtain ⟨form, span⟩ := node
  show Keeps (fun m => Frame scope form.assigned before m.scopes) _ _ _
  have hany : ∀ v : Value, v.Admits fun _ _ => True := Value.admits_of_forall fun _ _ => trivial
  have hname : ∀ name, form.named? = some name → name ∈ form.assigned :=
    fun name h => Form.mem_assigned_iff.mpr (.inl h)
  -- What a part assigns is among what the whole does.
  have hpart : ∀ (position : Nat) (child : Node), form.parts[position]? = some child →
      Keeps (fun m => Frame scope form.assigned before m.scopes) (·.Admits fun _ _ => True)
        (fun _ => True) (eval child (site.child position) scope) := by
    intro position child hget
    have hsub : child.assigned ⊆ form.assigned := fun name h =>
      Form.mem_assigned_iff.mpr (.inr ⟨child, List.mem_of_getElem? hget, h⟩)
    exact ((heval child _ scope).mono hsub before).mono (fun v _ => hany v) fun _ h => h
  have hcalls : ∀ callee args, callee.Admits (fun _ _ => True) →
      (∀ v ∈ args, v.Admits fun _ _ => True) →
      Keeps (fun m => Frame scope form.assigned before m.scopes) (·.Admits fun _ _ => True)
        (fun _ => True) (call callee args scope) := by
    intro callee args _ _
    exact ((hcall callee args scope).touches before).mono (fun v _ => hany v) fun _ h => h
  refine (Keeps.evalNode hcalls (fun _ _ v _ _ => hany v) (fun position child hget _ => ?_)
    (fun position child hget _ => ?_) ?_ ?_ (.of_forall fun _ => trivial) (fun _ _ => trivial)
    fun _ _ => trivial).mono
    (fun _ _ => trivial) fun _ h => h
  · exact hpart position child hget
  · exact .iteration (hpart position child hget) fun _ h _ _ => h
  · exact fun name h _ v hm _ => hm.trans (.define (hname name h) v)
  · exact fun name h _ hm => hm.trans (.remove (hname name h))

/-- A call leaves all scopes as they are, if nodes touch what they name and the calls that it makes
leave all scopes as they are. -/
theorem leavesScopes_callValue (callee : Value) (args : List Value) (caller : ScopeId) :
    LeavesScopes (callValue settings eval call callee args caller) := by
  cases callee with
  | function site definition =>
    intro before
    refine .callFunction (fun _ _ _ => trivial) (fun _ => trivial) ?_
    refine leavesScopes_inChild caller _ (fun scope => ?_) before
    exact ⟨_, touches_body (heval definition.body _ scope)⟩
  | builtin b => exact leavesScopes_run hcall b args caller
  | number | text | list | null => exact fun before => .callRaise trivial

end

/-- Every evaluation touches what its node names, and every call leaves all scopes as they are. -/
theorem touches_eval_call (settings : Settings) (fuel : Nat) :
    (∀ node site scope, Touches scope node.assigned (eval settings fuel node site scope)) ∧
      ∀ callee args scope, LeavesScopes (call settings fuel callee args scope) := by
  induction fuel with
  | zero =>
    constructor
    · intro node site scope before m hm
      rw [eval_zero]
      exact ⟨hm, trivial⟩
    · intro callee args scope before m hm
      rw [call_zero]
      exact ⟨hm, trivial⟩
  | succ fuel ih =>
    -- A call has less fuel than the node that makes it, and a body less than its call.
    rw [eval_succ, call_succ]
    exact ⟨touches_evalNode ih.1 ih.2, leavesScopes_callValue ih.1 ih.2⟩

/-! ## Sessions -/

/-- In the global scope a name means what is bound there, and nothing else. -/
theorem ScopeTree.get?_rootId (tree : ScopeTree) (name : String) :
    tree.get? rootId name = (tree.bindings rootId).get? name := by
  rw [get?, bindings]
  cases tree.scopes[rootId]? with
  | none => rfl
  | some scope =>
    simp only [Option.map_some, Option.getD_some]
    cases scope.bindings.get? name with
    | some value => rfl
    | none =>
      cases scope.parent with
      | none => rfl
      | some parent => exact if_neg (Nat.not_lt_zero parent)

/-- A source that is no program changes nothing. -/
theorem Session.run_of_error {source : String} {e : SyntaxError} (h : parseSource source = .error e)
    (session : Session) (fuel : Nat) :
    session.run fuel source = (.error (.refused e), session) := by
  rw [run, h]

/-- A source is run as the program that it is read as. -/
theorem Session.run_of_ok {source : String} {tree : Node} (h : parseSource source = .ok tree)
    (session : Session) (fuel : Nat) :
    session.run fuel source = (session.load tree).2.runProgram fuel (session.load tree).1 := by
  rw [run, h]

/-- A run leaves behind the machine that the evaluation of its program does. -/
theorem Session.machine_runProgram (session : Session) (fuel : Nat) (program : Program) :
    (session.runProgram fuel program).2.machine
      = Machine.after (eval session.settings fuel program.tree (.root program.unit) ScopeTree.rootId
          { session.machine with depth := 0 }) := by
  simp only [runProgram]
  cases eval session.settings fuel program.tree (.root program.unit) ScopeTree.rootId
      { session.machine with depth := 0 } with
  | ok value machine => rfl
  | error interrupt machine =>
    simp only
    split <;> rfl

/-- Running a program changes the machine only. -/
theorem Session.runProgram_eq (session : Session) (fuel : Nat) (program : Program) :
    (session.runProgram fuel program).2
      = { session with machine := (session.runProgram fuel program).2.machine } := by
  simp only [runProgram]
  split
  · rfl
  · split <;> rfl

/-- So does a call, and it leaves behind the machine that the call of its value does. -/
theorem Session.callValue_eq (session : Session) (fuel : Nat) (callee : Value)
    (args : List Value) :
    (session.callValue fuel callee args).2 = { session with
      machine := Machine.after
        (call session.settings fuel callee args ScopeTree.rootId session.machine) } := by
  unfold Session.callValue
  split <;> rename_i hcall <;> rw [hcall] <;> rfl

/-- A run changes no global variable that its program does not name. -/
theorem Session.global?_runProgram (session : Session) (fuel : Nat) (program : Program)
    {name : String} (hname : name ∉ program.tree.assigned) :
    (session.runProgram fuel program).2.global? name = session.global? name := by
  rw [global?, global?, ScopeTree.get?_rootId, ScopeTree.get?_rootId, machine_runProgram]
  exact ((touches_eval_call session.settings fuel).1 _ _ _).frame _ |>.here name hname

/-- An expression changes only what it names, and calls cannot touch the variables of their caller.
However an evaluation ends, all scopes but its own have the bindings they had, and in its own only
the names it assigns to can be bound anew, changed or unbound. A call leaves every scope as it was,
whatever is called. And an input, in particular one that fails, changes no global variable that it
does not assign to. -/
theorem only_assigned_names_change (fuel : Nat) :
    (∀ (settings : Settings) (node : Node) (site : Site) (scope : ScopeId) (m : Machine),
      Frame scope node.assigned m.scopes
        (Machine.after (eval settings fuel node site scope m)).scopes) ∧
    (∀ (settings : Settings) (callee : Value) (args : List Value) (scope : ScopeId) (m : Machine),
      (Machine.after (call settings fuel callee args scope m)).scopes = m.scopes) ∧
    (∀ (session : Session) (source name : String),
      (∀ tree, parseSource source = .ok tree → name ∉ tree.assigned) →
      (session.run fuel source).2.global? name = session.global? name) ∧
    ∀ (session : Session) (program : Program) (name : String), name ∉ program.tree.assigned →
      (session.runProgram fuel program).2.global? name = session.global? name := by
  refine ⟨?_, ?_, ?_, ?_⟩
  · exact fun settings node site scope =>
      ((touches_eval_call settings fuel).1 node site scope).frame
  · exact fun settings callee args scope =>
      ((touches_eval_call settings fuel).2 callee args scope).scopes_eq
  · intro session source name hname
    cases hparse : parseSource source with
    | error e => rw [Session.run_of_error hparse]
    | ok tree =>
      rw [Session.run_of_ok hparse]
      exact Session.global?_runProgram _ fuel ⟨session.units, tree⟩ (hname tree hparse)
  · exact fun session program name hname => session.global?_runProgram fuel program hname

/-- `fun f() { set y = 1 } f() + null` fails, and although the call of `f` assigns to `y` the input
does not: the global `y` is what it was. -/
theorem only_assigned_names_change_by_calls :
    let node : Form → Node := fun form => ⟨form, default⟩
    let body := node (.block [node (.assign "y" (node (.number 1.0)))])
    let tree := node (.block [node (.function ⟨some "f", [], body, false⟩),
      node (.binary (node (.call (node (.var "f")) [])) .add (node .null))])
    let session := Session.new .default (.new [] none) 0
    "y" ∉ tree.assigned ∧
      (session.runProgram 20 ⟨0, tree⟩).2.global? "y" = session.global? "y" := by
  intro node body tree session
  have hname : "y" ∉ tree.assigned := by decide
  exact ⟨hname, (only_assigned_names_change 20).2.2.2 session ⟨0, tree⟩ "y" hname⟩

end Script
