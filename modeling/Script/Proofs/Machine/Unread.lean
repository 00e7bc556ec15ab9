import Script.Proofs.Machine.Blame
import Script.Proofs.Machine.Relayout

/-!
# Unread variables do not matter

Names are resolved while a program runs, on the way from a scope to the root, so what a function
reads depends on who calls it. Still, a global variable that is never looked up has no influence on
anything: not on the outcome of a run, nor on the console, nor on any other variable
(`unread_variables_do_not_matter`). It may be bound or not, and to any value, in particular to a
function that does look it up.

## Shape of the proof

The two runs evaluate the same tree from states that differ in one variable. That is a `Likeness`
(`apartFrom name`) in which nodes correspond to themselves if they never look up the name. So the
runs go side by side, and values that are alike turn out to be the same. All scopes but the global
one are left as they were by every run, so that the variable of that name can differ in the global
scope only.
-/

namespace Script

/-! ## Trees that do not look up a name -/

/-- No node of the tree looks up the name, also not inside of a function. -/
def Node.NeverReads (name : String) (tree : Node) : Prop :=
  ∀ node : Node, node.Within tree → node.form ≠ .var name

/-- The body of the function never looks up the name. -/
def NeverReads (name : String) (_ : Site) (definition : Definition) : Prop :=
  definition.body.NeverReads name

/-- A tree that never reads a name has no child that does. -/
theorem Node.NeverReads.of_mem_children {name : String} {node child : Node}
    (h : node.NeverReads name) (hchild : child ∈ node.children) : child.NeverReads name :=
  fun inner hinner => h inner (.child hchild hinner)

/-- A node never reads a name if it is not the variable and its children never read it. -/
theorem Node.neverReads_mk {name : String} {form : Form} {span : Span} :
    Node.NeverReads name ⟨form, span⟩ ↔
      form ≠ .var name ∧ ∀ child ∈ form.children, child.NeverReads name := by
  constructor
  · exact fun h => ⟨h _ .refl, fun _ hchild => h.of_mem_children hchild⟩
  · rintro ⟨hform, hchildren⟩ inner hinner
    rcases Node.within_mk.mp hinner with rfl | ⟨child, hchild, hinner⟩
    · exact hform
    · exact hchildren child hchild inner hinner

/-- A form says the same as itself if the nodes below it correspond to themselves and its variable
is one that may be looked up. -/
theorem Form.alike_self {nodes : Node → Node → Prop} {reads : String → Prop} {form : Form}
    (hvar : ∀ name, form = .var name → reads name)
    (h : ∀ child ∈ form.children, nodes child child) :
    form.Alike nodes reads form := by
  -- The step of a loop, the last branch and the value of a `return` may be missing.
  have hoption : ∀ {node : Option Node}, (∀ child ∈ node.toList, nodes child child) →
      Option.Rel nodes node node := by
    rintro (_ | node) hnode
    · exact .none
    · exact .some (hnode node (List.mem_singleton_self node))
  cases form with
  | number x => exact .number x
  | text s => exact .text s
  | null => exact .null
  | var name => exact .var (hvar name rfl)
  | list => exact .list (List.forall₂_same.mpr h)
  | assign name => exact .assign name (h _ (.head _))
  | binary _ op => exact .binary op (h _ (.head _)) (h _ (.tail _ (.head _)))
  | unary op => exact .unary op (h _ (.head _))
  | ternary =>
    exact .ternary (h _ (.head _)) (h _ (.tail _ (.head _))) (h _ (.tail _ (.tail _ (.head _))))
  | index => exact .index (h _ (.head _)) (h _ (.tail _ (.head _)))
  | ifElse =>
    obtain ⟨harms, hotherwise⟩ := List.forall_mem_append.mp h
    refine .ifElse (List.forall₂_same.mpr fun arm harm => ?_) (hoption hotherwise)
    have hparts := fun part hpart => harms part (List.mem_flatMap.mpr ⟨arm, harm, hpart⟩)
    exact ⟨hparts _ (.head _), hparts _ (.tail _ (.head _))⟩
  | whileLoop => exact .whileLoop (h _ (.head _)) (h _ (.tail _ (.head _)))
  | forLoop name =>
    obtain ⟨hfront, hbody⟩ := List.forall_mem_append.mp h
    obtain ⟨hbounds, hstep⟩ := List.forall_mem_append.mp hfront
    exact .forLoop name (hbounds _ (.head _)) (hbounds _ (.tail _ (.head _))) (hoption hstep)
      (hbody _ (.head _))
  | function => exact .function ⟨rfl, rfl, h _ (.head _), rfl⟩
  | call =>
    obtain ⟨hcallee, hargs⟩ := List.forall_mem_cons.mp h
    exact .call hcallee (List.forall₂_same.mpr hargs)
  | returning => exact .returning (hoption h)
  | breaking => exact .breaking
  | continuing => exact .continuing
  | block => exact .block (List.forall₂_same.mpr h)

/-! ## Two runs of one program -/

/-- Runs of trees that never look up a name, whose states may differ in variables of that name. -/
def apartFrom (name : String) : Likeness where
  nodes node node' := node = node' ∧ node.NeverReads name
  sites := Eq
  spans := Eq
  reads other := other ≠ name
  form_alike := by
    rintro node _ ⟨rfl, hnode⟩
    refine Form.alike_self (fun other hform hname => ?_) fun child hchild => ?_
    · exact hnode node .refl (hname ▸ hform)
    · exact ⟨rfl, hnode.of_mem_children hchild⟩
  span_alike h := congrArg Node.span h.1
  child_alike := upToSpans.child_alike
  sites_iff := upToSpans.sites_iff

variable {name : String}

/-- Definitions are alike apart from a name if they are equal and never read it. -/
theorem Definition.alike_apartFrom_iff {definition definition' : Definition} :
    definition.Alike (apartFrom name).nodes definition' ↔
      definition = definition' ∧ definition.body.NeverReads name := by
  obtain ⟨own, params, body, isExpression⟩ := definition
  obtain ⟨own', params', body', isExpression'⟩ := definition'
  rw [Definition.mk.injEq]
  constructor
  · exact fun h => ⟨⟨h.name, h.params, h.body.1, h.isExpression⟩, h.body.2⟩
  · exact fun h => ⟨h.1.1, h.1.2.1, ⟨h.1.2.2.1, h.2⟩, h.1.2.2.2⟩

/-- What never reads a name is like itself apart from it. -/
theorem apartFrom_fixes : (apartFrom name).Fixes (NeverReads name) :=
  fun _ _ h => ⟨rfl, Definition.alike_apartFrom_iff.mpr ⟨rfl, h⟩⟩

mutual

/-- Values of such runs are the same, and no function in them looks up the name. -/
theorem Value.Alike.eq_and_admits : {v w : Value} → v.Alike (apartFrom name) w →
    v = w ∧ v.Admits (NeverReads name)
  | .list _, _, .list hitems => by
    obtain ⟨heq, hadmits⟩ := eq_and_allAdmit hitems
    exact ⟨congrArg Value.list heq, hadmits⟩
  | _, _, .function hsite hdefinition => by
    obtain ⟨heq, hbody⟩ := Definition.alike_apartFrom_iff.mp hdefinition
    exact ⟨by rw [heq, show _ = _ from hsite], hbody⟩
  | _, _, .number _ | _, _, .text _ | _, _, .null | _, _, .builtin _ => ⟨rfl, trivial⟩

/-- Items that are alike apart from a name are equal, and hold no function that reads it. -/
theorem eq_and_allAdmit : {items items' : List Value} →
    List.Forall₂ (Value.Alike (apartFrom name)) items items' →
      items = items' ∧ AllAdmit (NeverReads name) items
  | [], _, .nil => ⟨rfl, trivial⟩
  | _ :: _, _, .cons hitem hitems => by
    obtain ⟨heq, hadmits⟩ := hitem.eq_and_admits
    obtain ⟨heqs, hadmit⟩ := eq_and_allAdmit hitems
    exact ⟨congrArg₂ List.cons heq heqs, hadmits, hadmit⟩

end

/-- What is found on both sides is alike apart from a name if it is equal and holds no function that
reads it. -/
theorem rel_alike_apartFrom_iff {found found' : Option Value} :
    Option.Rel (Value.Alike (apartFrom name)) found found' ↔
      found = found' ∧ ∀ v, found = some v → v.Admits (NeverReads name) := by
  constructor
  · rintro (hvalue | _)
    · obtain ⟨rfl, hadmits⟩ := hvalue.eq_and_admits
      exact ⟨rfl, fun v hv => Option.some.inj hv ▸ hadmits⟩
    · exact ⟨rfl, nofun⟩
  · rintro ⟨rfl, hadmits⟩
    cases found with
    | none => exact .none
    | some v => exact .some (apartFrom_fixes.value (hadmits v rfl))

/-- Outcomes that are alike apart from a name are equal. -/
theorem Outcome.Alike.eq_of_apartFrom {outcome outcome' : Outcome}
    (h : outcome.Alike (apartFrom name) outcome') : outcome = outcome' := by
  cases h with
  | value hvalue => exact congrArg Outcome.value hvalue.eq_and_admits.1
  | exhausted => rfl
  | @failed e e' herror =>
    obtain ⟨fault, span⟩ := e
    obtain ⟨fault', span'⟩ := e'
    obtain ⟨rfl, hspan⟩ := herror
    cases hspan with
    | none => rfl
    | some hspan => rw [show _ = _ from hspan]

/-! ## States -/

/-- No function in a variable of another name looks up the name. -/
def ScopeTree.NeverRead (name : String) (tree : ScopeTree) : Prop :=
  ∀ id other v, other ≠ name → (tree.bindings id).get? other = some v → v.Admits (NeverReads name)

/-- Trees of scopes that differ in nothing but what a name is bound to in the global scope. -/
structure ScopeTree.SameApartFrom (name : String) (tree tree' : ScopeTree) : Prop where
  size : tree.size = tree'.size
  parent : ∀ id, tree.parent? id = tree'.parent? id
  bindings : ∀ id other, (id = rootId → other ≠ name) →
    (tree.bindings id).get? other = (tree'.bindings id).get? other

/-- Sessions that differ in nothing but what a name is bound to in the global scope. -/
structure Session.SameApartFrom (name : String) (session session' : Session) : Prop where
  settings : session.settings = session'.settings
  scopes : session.machine.scopes.SameApartFrom name session'.machine.scopes
  depth : session.machine.depth = session'.machine.depth
  console : session.machine.console = session'.machine.console
  units : session.units = session'.units

namespace ScopeTree

variable {tree tree' : ScopeTree}

/-- Scopes that differ in a name only are alike apart from it, if no function in them reads it. -/
theorem SameApartFrom.alike (h : tree.SameApartFrom name tree') (hread : tree.NeverRead name) :
    tree.Alike (apartFrom name) tree' := by
  refine List.forall₂_iff_get.mpr ⟨h.size, fun id hid hid' => ?_⟩
  have hscope : tree.scopes[id]? = some (tree.scopes.toList.get ⟨id, hid⟩) :=
    Array.getElem?_eq_getElem hid
  have hscope' : tree'.scopes[id]? = some (tree'.scopes.toList.get ⟨id, hid'⟩) :=
    Array.getElem?_eq_getElem hid'
  refine ⟨?_, fun other hother => rel_alike_apartFrom_iff.mpr ⟨?_, fun v hv => ?_⟩⟩
  · simpa only [parent?, hscope, hscope', Option.bind_some] using h.parent id
  · simpa only [ScopeTree.bindings, hscope, hscope', Option.map_some, Option.getD_some]
      using h.bindings id other fun _ => hother
  · refine hread id other v hother ?_
    simpa only [ScopeTree.bindings, hscope, Option.map_some, Option.getD_some] using hv

/-- What a name is bound to in a scope, for trees that are alike. -/
theorem Alike.bindings_apartFrom (h : tree.Alike (apartFrom name) tree') (id : ScopeId)
    {other : String} (hother : other ≠ name) :
    (tree.bindings id).get? other = (tree'.bindings id).get? other ∧
      ∀ v, (tree.bindings id).get? other = some v → v.Admits (NeverReads name) := by
  have hscope := h.getElem? id
  rw [bindings, bindings]
  generalize tree.scopes[id]? = found at hscope ⊢
  generalize tree'.scopes[id]? = found' at hscope ⊢
  cases hscope with
  | none =>
    refine ⟨rfl, fun v hv => ?_⟩
    cases hv
  | some hscope => exact rel_alike_apartFrom_iff.mp (hscope.bindings other hother)

/-- Binding the name in the global scope makes no other difference. -/
theorem sameApartFrom_define (tree : ScopeTree) (name : String) (value : Value) :
    tree.SameApartFrom name (tree.define rootId name value) := by
  refine ⟨size_update.symm, fun _ => parent?_update.symm, fun id other hother => ?_⟩
  rw [define]
  by_cases hid : id = rootId
  · subst hid
    rcases Nat.lt_or_ge rootId tree.size with hlt | hge
    · rw [bindings_update_self hlt, Bindings.get?_insert_of_ne _ value (hother rfl).symm]
    · have hge' : (tree.update rootId fun b => b.insert name value).size ≤ rootId := by
        rwa [size_update]
      rw [bindings_of_size_le hge, bindings_of_size_le hge']
  · rw [bindings_update_of_ne hid]

end ScopeTree

namespace Session

variable {session session' : Session}

/-- Running a program keeps two sessions the same apart from the name. -/
theorem SameApartFrom.runProgram (h : session.SameApartFrom name session')
    (hread : session.machine.scopes.NeverRead name) (fuel : Nat) {program : Program}
    (hprogram : program.tree.NeverReads name) :
    (session.runProgram fuel program).1 = (session'.runProgram fuel program).1 ∧
      (session.runProgram fuel program).2.SameApartFrom name (session'.runProgram fuel program).2 ∧
      (session.runProgram fuel program).2.machine.scopes.NeverRead name := by
  have hmachine : session.machine.Alike (apartFrom name) session'.machine :=
    ⟨h.scopes.alike hread, h.depth, h.console⟩
  obtain ⟨houtcome, hend⟩ := alike_runProgram h.settings hmachine
    (show (apartFrom name).nodes program.tree program.tree from ⟨rfl, hprogram⟩)
    (show (apartFrom name).sites (.root program.unit) (.root program.unit) from rfl) fuel
  -- Nothing but the global scope is touched, which settles all other scopes for every name.
  have hframe :
      ∀ session : Session, Frame ScopeTree.rootId program.tree.assigned session.machine.scopes
      (session.runProgram fuel program).2.machine.scopes := by
    intro session
    rw [machine_runProgram]
    exact ((touches_eval_call session.settings fuel).1 program.tree _ _).frame
      { session.machine with depth := 0 }
  refine ⟨houtcome.eq_of_apartFrom, ?_, fun id other v hother => ?_⟩
  · rw [runProgram_eq session, runProgram_eq session']
    refine ⟨h.settings, ⟨hend.scopes.size_eq, fun id => ?_, fun id other hother => ?_⟩, hend.depth,
      hend.console, h.units⟩
    · rw [(hframe session).parent, (hframe session').parent]
      exact h.scopes.parent id
    · by_cases hid : id = ScopeTree.rootId
      · exact (hend.scopes.bindings_apartFrom id (hother hid)).1
      · rw [(hframe session).elsewhere id hid, (hframe session').elsewhere id hid]
        exact h.scopes.bindings id other hother
  · exact (hend.scopes.bindings_apartFrom id hother).2 v

end Session

/-- Unread variables do not matter. Take two states that differ only in what a name is bound to in
the global scope, and an input that never looks it up, in states where no function in a variable of
another name does. Then both runs end with the same value, or the same error for the same node, or
not at all; the consoles are the same in the end, both what was written and what is left to read;
and the states are again such states. -/
theorem unread_variables_do_not_matter {session session' : Session}
    (h : session.SameApartFrom name session') (hread : session.machine.scopes.NeverRead name)
    (fuel : Nat) {input : Session.Input}
    (hinput : ∀ tree, input.tree? = some tree → tree.NeverReads name) :
    let run := session.feed fuel input
    let run' := session'.feed fuel input
    run.1 = run'.1 ∧ run.2.SameApartFrom name run'.2 ∧ run.2.machine.scopes.NeverRead name := by
  intro run run'
  simp only [run, run']
  cases input with
  | program program => exact h.runProgram hread fuel (hinput program.tree rfl)
  | source text =>
    simp only [Session.feed]
    cases hparse : parseSource text with
    | error e =>
      rw [Session.run_of_error hparse, Session.run_of_error hparse]
      exact ⟨rfl, h, hread⟩
    | ok tree =>
      rw [Session.run_of_ok hparse, Session.run_of_ok hparse]
      -- Both sessions give the tree the same number.
      have hloaded : (session.load tree).2.SameApartFrom name (session'.load tree).2 :=
        ⟨h.settings, h.scopes, h.depth, h.console, congrArg (· + 1) h.units⟩
      have hprogram : (session'.load tree).1 = (session.load tree).1 := by
        rw [Session.load, Session.load, h.units]
      rw [hprogram]
      refine hloaded.runProgram hread fuel (hinput tree ?_)
      rw [Session.Input.tree?, hparse]
      rfl

/-- A new session looks up no name in its functions, as they are all built in. -/
theorem Session.neverRead_new (settings : Settings) (console : Console) (units : Nat) :
    (Session.new settings console units).machine.scopes.NeverRead name := by
  intro id other v _ hv
  by_cases hid : id = ScopeTree.rootId
  · subst hid
    exact admits_globals other v hv
  · have hsize : (Session.new settings console units).machine.scopes.size ≤ id :=
      Nat.pos_of_ne_zero hid
    rw [ScopeTree.bindings_of_size_le hsize] at hv
    cases hv

/-- `x` is a function that looks itself up in the one session, and not bound in the other. The
program `fun f(x) { set x = 1 } for x = 1 : 2 { println(f(7)) }` binds parameters of that name and
loops over it, which unbinds it in the end. -/
theorem unread_variables_do_not_matter_in_a_loop :
    let node : Form → Node := fun form => ⟨form, default⟩
    let call : String → Node → Node := fun f arg => node (.call (node (.var f)) [arg])
    let body := node (.block [node (.assign "x" (node (.number 1.0)))])
    let tree := node (.block [node (.function ⟨some "f", ["x"], body, false⟩),
      node (.forLoop "x" (node (.number 1.0)) (node (.number 2.0)) none
        (node (.block [call "println" (call "f" (node (.number 7.0)))])))])
    let own : Value := .function (.root 0) ⟨some "x", [], node (.var "x"), true⟩
    let session := Session.new .default (.new [] none) 2
    let session' : Session := { session with
      machine :=
        { session.machine with scopes := session.machine.scopes.define ScopeTree.rootId "x" own } }
    let run := session.feed 30 (.program ⟨1, tree⟩)
    let run' := session'.feed 30 (.program ⟨1, tree⟩)
    session.global? "x" = none ∧ session'.global? "x" = some own ∧ tree.NeverReads "x" ∧
      run.1 = run'.1 ∧ run.2.SameApartFrom "x" run'.2 ∧ run.2.machine.scopes.NeverRead "x" := by
  intro node call body tree own session session' run run'
  have hnever : tree.NeverReads "x" := by
    simp [tree, node, body, call, Node.neverReads_mk, Form.children]
  have hsame : session.SameApartFrom "x" session' :=
    ⟨rfl, ScopeTree.sameApartFrom_define _ _ _, rfl, rfl, rfl⟩
  refine ⟨?_, ?_, hnever, ?_⟩
  · rw [Session.global?, ScopeTree.get?_rootId]
    rfl
  · have hroot : ScopeTree.rootId < session.machine.scopes.size := Nat.zero_lt_one
    rw [Session.global?, ScopeTree.get?_rootId]
    show ((session.machine.scopes.define _ "x" own).bindings ScopeTree.rootId).get? "x" = _
    rw [ScopeTree.define, ScopeTree.bindings_update_self hroot, Bindings.get?_insert_self]
  · refine unread_variables_do_not_matter hsame (Session.neverRead_new _ _ _) 30
      fun other hother => ?_
    rw [Session.Input.tree?, Option.some.injEq] at hother
    exact hother ▸ hnever

end Script
