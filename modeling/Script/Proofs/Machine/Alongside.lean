import Script.Proofs.Machine.Plans
import Script.Session

/-!
# Runs side by side

Two runs whose trees correspond do the same at every step. `Alongside L values stops x y` says so of
two computations `x` and `y`: from machines that are alike they come to machines that are alike
again, and both give results that `values` relates or both are cut short by what `stops` relates.
Machines are alike if their consoles are the same and their variables have values that are alike.

First come such judgements about the primitives of `Eval` and `Call`, which are all that the steps
of a plan need (`Alongside.of_related`). Nodes that correspond have plans that do, and
`alongside_eval_call` is about everything that a run can do.
-/

namespace Script

variable {L : Likeness}

/-! ## Variables -/

/-- Bindings with values that are alike for every name that is looked up. -/
def Bindings.Alike (L : Likeness) (b b' : Bindings) : Prop :=
  ∀ name, L.reads name → Option.Rel (Value.Alike L) (b.get? name) (b'.get? name)

namespace Bindings

variable {b b' : Bindings}

theorem alike_empty : empty.Alike L empty := fun _ _ => .none

/-- A name that is bound to values that are alike stays within the likeness. -/
theorem Alike.insert (h : b.Alike L b') (name : String) {v v' : Value} (hv : v.Alike L v') :
    (b.insert name v).Alike L (b'.insert name v') := by
  intro other hother
  by_cases hname : name = other
  · subst hname
    rw [get?_insert_self, get?_insert_self]
    exact .some hv
  · rw [get?_insert_of_ne b v hname, get?_insert_of_ne b' v' hname]
    exact h other hother

/-- A name is unbound on both sides. -/
theorem Alike.erase (h : b.Alike L b') (name : String) :
    (b.erase name).Alike L (b'.erase name) := by
  intro other hother
  by_cases hname : name = other
  · subst hname
    rw [get?_erase_self, get?_erase_self]
    exact .none
  · rw [get?_erase_of_ne b hname, get?_erase_of_ne b' hname]
    exact h other hother

/-- Names are bound one after the other to values that are alike. -/
theorem Alike.insertAll (hb : b.Alike L b') (names : List String) {values values' : List Value}
    (h : List.Forall₂ (Value.Alike L) values values') :
    ((names.zip values).foldl (fun b pair => b.insert pair.1 pair.2) b).Alike L
      ((names.zip values').foldl (fun b pair => b.insert pair.1 pair.2) b') := by
  induction h generalizing names b b' with
  | nil =>
    rw [List.zip_nil_right]
    exact hb
  | cons hv _ ih =>
    cases names with
    | nil => exact hb
    | cons name names => exact ih (hb.insert name hv) names

/-- Parameters are bound to arguments that are alike. -/
theorem alike_ofPairs (names : List String) {values values' : List Value}
    (h : List.Forall₂ (Value.Alike L) values values') :
    (ofPairs names values).Alike L (ofPairs names values') :=
  alike_empty.insertAll names h

end Bindings

/-- Scopes below the same parent, with bindings that are alike. -/
structure Scope.Alike (L : Likeness) (scope scope' : Scope) : Prop where
  parent : scope.parent = scope'.parent
  bindings : scope.bindings.Alike L scope'.bindings

/-- Trees of scopes that are alike one by one. -/
def ScopeTree.Alike (L : Likeness) (tree tree' : ScopeTree) : Prop :=
  List.Forall₂ (Scope.Alike L) tree.scopes.toList tree'.scopes.toList

namespace ScopeTree.Alike

variable {tree tree' : ScopeTree}

theorem size_eq (h : tree.Alike L tree') : tree.size = tree'.size := h.length_eq

/-- A scope is opened on both sides, with bindings that are alike. -/
theorem child (h : tree.Alike L tree') (parent : ScopeId) {b b' : Bindings} (hb : b.Alike L b') :
    (tree.child parent b).Alike L (tree'.child parent b') := by
  unfold ScopeTree.Alike ScopeTree.child
  rw [Array.toList_push, Array.toList_push]
  exact List.rel_append h (.cons ⟨rfl, hb⟩ .nil)

/-- Scopes are closed on both sides. -/
theorem keep (h : tree.Alike L tree') (n : Nat) : (tree.keep n).Alike L (tree'.keep n) := by
  unfold ScopeTree.Alike ScopeTree.keep
  rw [Array.toList_shrink, Array.toList_shrink]
  exact List.forall₂_take n h

/-- A scope is changed on both sides in a way that keeps bindings alike. -/
theorem update (h : tree.Alike L tree') (id : ScopeId) {f f' : Bindings → Bindings}
    (hf : ∀ b b' : Bindings, b.Alike L b' → (f b).Alike L (f' b')) :
    (tree.update id f).Alike L (tree'.update id f') := by
  unfold ScopeTree.Alike ScopeTree.update
  rw [Array.toList_modify, Array.toList_modify]
  unfold ScopeTree.Alike at h
  generalize tree.scopes.toList = scopes at h
  generalize tree'.scopes.toList = scopes' at h
  induction h generalizing id with
  | nil =>
    rw [List.modify_nil, List.modify_nil]
    exact .nil
  | cons hscope hscopes ih =>
    cases id with
    | zero => exact .cons ⟨hscope.parent, hf _ _ hscope.bindings⟩ hscopes
    | succ id => exact .cons hscope (ih id)

theorem define (h : tree.Alike L tree') (id : ScopeId) (name : String) {v v' : Value}
    (hv : v.Alike L v') : (tree.define id name v).Alike L (tree'.define id name v') :=
  h.update id fun _ _ hb => hb.insert name hv

theorem remove (h : tree.Alike L tree') (id : ScopeId) (name : String) :
    (tree.remove id name).Alike L (tree'.remove id name) :=
  h.update id fun _ _ hb => hb.erase name

/-- A scope is there on both sides or on none. -/
theorem getElem? (h : tree.Alike L tree') (id : ScopeId) :
    Option.Rel (Scope.Alike L) tree.scopes[id]? tree'.scopes[id]? := by
  rw [← Array.getElem?_toList, ← Array.getElem?_toList]
  unfold ScopeTree.Alike at h
  generalize tree.scopes.toList = scopes at h
  generalize tree'.scopes.toList = scopes' at h
  induction h generalizing id with
  | nil => exact .none
  | cons hscope _ ih =>
    cases id with
    | zero => exact .some hscope
    | succ id => exact ih id

/-- A variable has values that are alike, seen from the same scope. -/
theorem get? (h : tree.Alike L tree') (id : ScopeId) {name : String} (hname : L.reads name) :
    Option.Rel (Value.Alike L) (tree.get? id name) (tree'.get? id name) := by
  induction id using Nat.strongRecOn with
  | ind id ih =>
    have hscope := h.getElem? id
    rw [ScopeTree.get?, ScopeTree.get?]
    generalize tree.scopes[id]? = found at hscope ⊢
    generalize tree'.scopes[id]? = found' at hscope ⊢
    cases hscope with
    | none => exact .none
    | @some scope scope' hscope =>
      have hvalue := hscope.bindings name hname
      simp only
      generalize scope.bindings.get? name = bound at hvalue ⊢
      generalize scope'.bindings.get? name = bound' at hvalue ⊢
      cases hvalue with
      | some hvalue => exact .some hvalue
      | none =>
        -- Not bound here: both walks go on with the same parent.
        simp only [hscope.parent]
        cases scope'.parent with
        | none => exact .none
        | some parent =>
          simp only
          split
          · exact ih parent ‹_›
          · exact .none

end ScopeTree.Alike

/-! ## Machines -/

/-- Machines that differ in nothing but variables whose values are alike. -/
structure Machine.Alike (L : Likeness) (m m' : Machine) : Prop where
  scopes : m.scopes.Alike L m'.scopes
  depth : m.depth = m'.depth
  console : m.console = m'.console

/-- Errors with the same fault, for which corresponding nodes are blamed. -/
structure RuntimeError.Alike (L : Likeness) (e e' : RuntimeError) : Prop where
  fault : e.fault = e'.fault
  span : Option.Rel L.spans e.span e'.span

/-- Failures for the same reason. -/
inductive Failure.Alike (L : Likeness) : Failure → Failure → Prop
  | error {e e' : RuntimeError} (h : e.Alike L e') : Alike L (.error e) (.error e')
  | exhausted : Alike L .exhausted .exhausted

/-- Jumps of the same kind, or failures for the same reason. -/
inductive Interrupt.Alike (L : Likeness) : Interrupt → Interrupt → Prop
  | returning {v v' : Value} (h : v.Alike L v') : Alike L (.returning v) (.returning v')
  | breaking {span span' : Span} (h : L.spans span span') :
      Alike L (.breaking span) (.breaking span')
  | continuing {span span' : Span} (h : L.spans span span') :
      Alike L (.continuing span) (.continuing span')
  | failing {f f' : Failure} (h : f.Alike L f') : Alike L (.failing f) (.failing f')

/-- Failures stay alike when they are blamed on places that correspond. -/
theorem Failure.Alike.blame {f f' : Failure} (h : f.Alike L f') {span span' : Span}
    (hspan : L.spans span span') : (f.blame span).Alike L (f'.blame span') := by
  cases h with
  | exhausted => exact .exhausted
  | @error e e' he =>
    obtain ⟨fault, place⟩ := e
    obtain ⟨fault', place'⟩ := e'
    obtain ⟨hfault, hplace⟩ := he
    cases hplace with
    | none => exact .error ⟨hfault, .some hspan⟩
    | some hplace => exact .error ⟨hfault, .some hplace⟩

/-- Interrupts that are alike are failures that are alike where nothing catches them. -/
theorem Interrupt.Alike.uncaught {i i' : Interrupt} (h : i.Alike L i') :
    i.uncaught.Alike L i'.uncaught := by
  cases h with
  | returning => exact .error ⟨rfl, .none⟩
  | breaking hspan => exact .error ⟨rfl, .some hspan⟩
  | continuing hspan => exact .error ⟨rfl, .some hspan⟩
  | failing hfailure => exact hfailure

/-- Two computations that ended alike. -/
inductive EndsAlike {ε α β : Type} (L : Likeness) (values : α → β → Prop) (stops : ε → ε → Prop) :
    EStateM.Result ε Machine α → EStateM.Result ε Machine β → Prop
  | ok {a : α} {b : β} {m m' : Machine} (hm : m.Alike L m') (h : values a b) :
      EndsAlike L values stops (.ok a m) (.ok b m')
  | error {e e' : ε} {m m' : Machine} (hm : m.Alike L m') (h : stops e e') :
      EndsAlike L values stops (.error e m) (.error e' m')

/-- Two computations that end alike whenever they start alike. -/
def Alongside {ε α β : Type} (L : Likeness) (values : α → β → Prop) (stops : ε → ε → Prop)
    (x : EStateM ε Machine α) (y : EStateM ε Machine β) : Prop :=
  ∀ ⦃m m' : Machine⦄, m.Alike L m' → EndsAlike L values stops (x m) (y m')

namespace Alongside

section

variable {ε α β α' β' : Type} {values : α → β → Prop} {values' : α' → β' → Prop}
variable {stops : ε → ε → Prop} {x : EStateM ε Machine α} {y : EStateM ε Machine β}

/-! ## Primitives -/

theorem pure {a : α} {b : β} (h : values a b) :
    Alongside L values stops (pure a : EStateM ε Machine α) (pure b) :=
  fun _ _ hm => .ok hm h

theorem throw {e e' : ε} (h : stops e e') :
    Alongside L values stops (throw e : EStateM ε Machine α) (throw e') :=
  fun _ _ hm => .error hm h

/-- Computations run alongside part by part. -/
theorem bind {f : α → EStateM ε Machine α'} {g : β → EStateM ε Machine β'}
    (h : Alongside L values stops x y)
    (hf : ∀ a b, values a b → Alongside L values' stops (f a) (g b)) :
    Alongside L values' stops (x >>= f) (y >>= g) := by
  intro m m' hm
  show EndsAlike L values' stops (EStateM.bind x f m) (EStateM.bind y g m')
  unfold EStateM.bind
  have hends := h hm
  generalize x m = r at hends ⊢
  generalize y m' = r' at hends ⊢
  cases hends with
  | ok hm hvalue => exact hf _ _ hvalue hm
  | error hm hstop => exact .error hm hstop

end

/-! ## Calls -/

section

variable {α β : Type} {values : α → β → Prop}

/-- The same fault is raised on both sides. -/
theorem callRaise (fault : Fault) :
    Alongside L values (Failure.Alike L) (Call.raise fault) (Call.raise fault) :=
  fun _ _ hm => .error hm (.error ⟨rfl, .none⟩)

/-- Faults that turn out to be the same are raised on both sides. -/
theorem callRaise_of_eq {fault fault' : Fault} (h : fault = fault') :
    Alongside L values (Failure.Alike L) (Call.raise fault) (Call.raise fault') := by
  rw [h]
  exact .callRaise fault'

/-- An operation on values fails on both sides or on none. -/
theorem callOfExcept {r : Except Fault α} {r' : Except Fault β} (h : Likewise values r r') :
    Alongside L values (Failure.Alike L) (Call.ofExcept r) (Call.ofExcept r') := by
  cases h with
  | ok h => exact .pure h
  | error fault => exact .callRaise fault

/-- The same text is written to consoles that are the same. -/
theorem write (text : String) :
    Alongside L Eq (Failure.Alike L) (Call.write text) (Call.write text) := by
  intro m m' hm
  unfold Call.write
  rw [hm.console]
  cases m'.console.write text with
  | ok console => exact .ok ⟨hm.scopes, hm.depth, rfl⟩ rfl
  | error fault => exact .error hm (.error ⟨rfl, .none⟩)

/-- Both sides read the same line, as their consoles are the same. -/
theorem readLine : Alongside L Eq (Failure.Alike L) Call.readLine Call.readLine := by
  intro m m' hm
  unfold Call.readLine
  rw [hm.console]
  obtain ⟨result, console⟩ := m'.console.readLine
  cases result with
  | ok line => exact .ok ⟨hm.scopes, hm.depth, rfl⟩ rfl
  | error fault => exact .error ⟨hm.scopes, hm.depth, rfl⟩ (.error ⟨rfl, .none⟩)

/-- The new scopes have the same number on both sides. -/
theorem inChild (parent : ScopeId) {b b' : Bindings} (hb : b.Alike L b') {body : ScopeId → Call α}
    {body' : ScopeId → Call β}
    (h : ∀ scope, Alongside L values (Failure.Alike L) (body scope) (body' scope)) :
    Alongside L values (Failure.Alike L) (Call.inChild parent b body)
      (Call.inChild parent b' body') := by
  intro m m' hm
  unfold Call.inChild
  simp only
  rw [hm.scopes.size_eq]
  have hstart : Machine.Alike L { m with scopes := m.scopes.child parent b }
      { m' with scopes := m'.scopes.child parent b' } :=
    ⟨hm.scopes.child parent hb, hm.depth, hm.console⟩
  have hends := h m'.scopes.size hstart
  generalize body _ _ = r at hends ⊢
  generalize body' _ _ = r' at hends ⊢
  cases hends with
  | ok hm hvalue => exact .ok ⟨hm.scopes.keep _, hm.depth, hm.console⟩ hvalue
  | error hm hfailure => exact .error ⟨hm.scopes.keep _, hm.depth, hm.console⟩ hfailure

/-- Both sides count a call, as they have the same depth. -/
theorem deeper {body : Call α} {body' : Call β}
    (h : Alongside L values (Failure.Alike L) body body') :
    Alongside L values (Failure.Alike L) (Call.deeper body) (Call.deeper body') := by
  intro m m' hm
  unfold Call.deeper
  have hstart : Machine.Alike L { m with depth := m.depth + 1 } { m' with depth := m'.depth + 1 } :=
    ⟨hm.scopes, congrArg (· + 1) hm.depth, hm.console⟩
  have hends := h hstart
  generalize body _ = r at hends ⊢
  generalize body' _ = r' at hends ⊢
  cases hends with
  | ok hm hvalue => exact .ok ⟨hm.scopes, congrArg (· - 1) hm.depth, hm.console⟩ hvalue
  | error hm hfailure => exact .error ⟨hm.scopes, congrArg (· - 1) hm.depth, hm.console⟩ hfailure

/-- A body is left on both sides in the same way: at its end, by a `return`, or by a failure. -/
theorem ofBody (isExpression : Bool) {body body' : Eval Value}
    (h : Alongside L (Value.Alike L) (Interrupt.Alike L) body body') :
    Alongside L (Value.Alike L) (Failure.Alike L) (Call.ofBody isExpression body)
      (Call.ofBody isExpression body') := by
  intro m m' hm
  unfold Call.ofBody
  have hends := h hm
  generalize body m = r at hends ⊢
  generalize body' m' = r' at hends ⊢
  cases hends with
  | ok hm hvalue =>
    cases isExpression with
    | true => exact .ok hm hvalue
    | false => exact .ok hm .null
  | error hm hstop =>
    cases hstop with
    | returning hvalue => exact .ok hm hvalue
    | breaking hspan => exact .error hm (Interrupt.Alike.breaking hspan).uncaught
    | continuing hspan => exact .error hm (Interrupt.Alike.continuing hspan).uncaught
    | failing hfailure => exact .error hm hfailure

/-! ## Evaluations -/

/-- A call is blamed on nodes that correspond. -/
theorem ofCall {c : Call α} {c' : Call β} (h : Alongside L values (Failure.Alike L) c c')
    {span span' : Span} (hspan : L.spans span span') :
    Alongside L values (Interrupt.Alike L) (Eval.ofCall c span) (Eval.ofCall c' span') := by
  intro m m' hm
  unfold Eval.ofCall
  have hends := h hm
  generalize c m = r at hends ⊢
  generalize c' m' = r' at hends ⊢
  cases hends with
  | ok hm hvalue => exact .ok hm hvalue
  | error hm hfailure => exact .error hm (.failing (hfailure.blame hspan))

/-- The scopes are changed on both sides in a way that keeps them alike. -/
theorem modifyScopes {f f' : ScopeTree → ScopeTree}
    (hf : ∀ tree tree' : ScopeTree, tree.Alike L tree' → (f tree).Alike L (f' tree')) :
    Alongside L Eq (Interrupt.Alike L) (Eval.modifyScopes f) (Eval.modifyScopes f') :=
  fun _ _ hm => .ok ⟨hf _ _ hm.scopes, hm.depth, hm.console⟩ rfl

/-- A name that may be read is bound on both sides or on none. -/
theorem lookup (scope : ScopeId) {name : String} (hname : L.reads name) :
    Alongside L (Option.Rel (Value.Alike L)) (Interrupt.Alike L) (Eval.lookup scope name)
      (Eval.lookup scope name) :=
  fun _ _ hm => .ok hm (hm.scopes.get? scope hname)

/-- What is done to the scopes in the end is done on both sides, however they end. -/
theorem finallyScopes {x : Eval α} {y : Eval β} (h : Alongside L values (Interrupt.Alike L) x y)
    {f f' : ScopeTree → ScopeTree}
    (hf : ∀ tree tree' : ScopeTree, tree.Alike L tree' → (f tree).Alike L (f' tree')) :
    Alongside L values (Interrupt.Alike L) (Eval.finallyScopes x f) (Eval.finallyScopes y f') := by
  intro m m' hm
  unfold Eval.finallyScopes
  have hends := h hm
  generalize x m = r at hends ⊢
  generalize y m' = r' at hends ⊢
  cases hends with
  | ok hm hvalue => exact .ok ⟨hf _ _ hm.scopes, hm.depth, hm.console⟩ hvalue
  | error hm hstop => exact .error ⟨hf _ _ hm.scopes, hm.depth, hm.console⟩ hstop

/-- One round of a loop ends it on both sides or on none. -/
theorem iteration {body body' : Eval Value}
    (h : Alongside L (Value.Alike L) (Interrupt.Alike L) body body') :
    Alongside L Eq (Interrupt.Alike L) (Eval.iteration body) (Eval.iteration body') := by
  intro m m' hm
  unfold Eval.iteration
  have hends := h hm
  generalize body m = r at hends ⊢
  generalize body' m' = r' at hends ⊢
  cases hends with
  | ok hm _ => exact .ok hm rfl
  | error hm hstop =>
    cases hstop with
    | returning hvalue => exact .error hm (.returning hvalue)
    | breaking => exact .ok hm rfl
    | continuing => exact .ok hm rfl
    | failing hfailure => exact .error hm (.failing hfailure)

end

/-! ## Plans -/

section

variable {eval eval' : Node → Site → ScopeId → Eval Value}
variable {call call' : Value → List Value → ScopeId → Call Value}
variable {site site' : Site} {scope : ScopeId}

/-- The plans have the same steps with corresponding nodes, at places that correspond, and with
values that are alike. -/
def relation (L : Likeness) (eval eval' : Node → Site → ScopeId → Eval Value) (site site' : Site)
    (scope : ScopeId) : PlanRelation where
  values := .alike L
  stops := Interrupt.Alike L
  excused _ := False
  parts position node node' := Alongside L (Value.Alike L) (Interrupt.Alike L)
    (eval node (site.child position) scope) (eval' node' (site'.child position) scope)
  rounds position node node' := Alongside L (Value.Alike L) (Interrupt.Alike L)
    (eval node (site.child position) scope) (eval' node' (site'.child position) scope)
  reads := L.reads
  binds _ := True
  unbinds _ := True
  blames := L.spans

/-- Plans are carried out side by side if their steps are. -/
theorem of_related (hcall : ∀ {callee callee' args args'}, callee.Alike L callee' →
      List.Forall₂ (Value.Alike L) args args' →
      Alongside L (Value.Alike L) (Failure.Alike L) (call callee args scope)
        (call' callee' args' scope))
    {p p' : Plan} (h : Plan.Related (relation L eval eval' site site' scope) p p') :
    Alongside L (Value.Alike L) (Interrupt.Alike L) (p.run eval call site scope)
      (p'.run eval' call' site' scope) := by
  induction h with
  | done h => exact .pure h
  | stop h => exact .throw h
  | excused h => cases h
  | part h _ ih => exact .bind h ih
  | round h _ ih => exact .bind (.iteration h) fun goesOn _ heq => heq ▸ ih goesOn
  | look hname _ _ ihsome ihnone =>
    refine .bind (.lookup scope hname) fun found found' hfound => ?_
    cases hfound with
    | none => exact ihnone
    | some hvalue => exact ihsome _ _ hvalue
  | @define name _ _ _ _ _ hv _ ih =>
    exact .bind (.modifyScopes fun _ _ htree => htree.define scope name hv) fun _ _ _ => ih
  | @unbinding name _ _ _ _ ih => exact .finallyScopes ih fun _ _ htree => htree.remove scope name
  | call hcallee hargs hspan => exact .ofCall (hcall hcallee hargs) hspan

end

section

variable {call call' : Value → List Value → ScopeId → Call Value}
variable (hcall : ∀ {callee callee' args args'}, callee.Alike L callee' →
  List.Forall₂ (Value.Alike L) args args' → ∀ scope,
  Alongside L (Value.Alike L) (Failure.Alike L) (call callee args scope)
    (call' callee' args' scope))
variable {f f' : Value} (hf : f.Alike L f') (scope : ScopeId)

include hcall hf

/-- The callbacks of `map` run alongside, item by item. -/
theorem mapFrom {items items' : List Value} (h : List.Forall₂ (Value.Alike L) items items')
    {results results' : List Value} (hresults : List.Forall₂ (Value.Alike L) results results') :
    Alongside L (Value.Alike L) (Failure.Alike L) (Builtin.mapFrom call f scope results items)
      (Builtin.mapFrom call' f' scope results' items') := by
  induction h generalizing results results' with
  | nil => exact .pure (.list (List.rel_reverse hresults))
  | cons hitem _ ih =>
    refine .bind (hcall hf (.cons hitem .nil) scope) fun result result' hresult => ?_
    exact ih (.cons hresult hresults)

/-- The callbacks of `reduce` run alongside, item by item. -/
theorem reduceFrom {items items' : List Value} (h : List.Forall₂ (Value.Alike L) items items')
    {accumulated accumulated' : Value} (haccumulated : accumulated.Alike L accumulated') :
    Alongside L (Value.Alike L) (Failure.Alike L)
      (Builtin.reduceFrom call f scope accumulated items)
      (Builtin.reduceFrom call' f' scope accumulated' items') := by
  induction h generalizing accumulated accumulated' with
  | nil => exact .pure haccumulated
  | cons hitem _ ih =>
    refine .bind (hcall hf (.cons haccumulated (.cons hitem .nil)) scope) fun next next' hnext => ?_
    exact ih hnext

end

end Alongside

/-! ## Nodes and calls -/

section

variable {settings : Settings} {fuel : Nat} {eval eval' : Node → Site → ScopeId → Eval Value}
variable {call call' : Value → List Value → ScopeId → Call Value}
variable (heval : ∀ {node node' site site'}, L.nodes node node' → L.sites site site' → ∀ scope,
  Alongside L (Value.Alike L) (Interrupt.Alike L) (eval node site scope) (eval' node' site' scope))
variable (hcall : ∀ {callee callee' args args'}, callee.Alike L callee' →
  List.Forall₂ (Value.Alike L) args args' → ∀ scope,
  Alongside L (Value.Alike L) (Failure.Alike L) (call callee args scope)
    (call' callee' args' scope))

include heval hcall in
/-- Nodes that correspond are evaluated side by side. -/
theorem alongside_evalNode {node node' : Node} {site site' : Site} (hnode : L.nodes node node')
    (hsite : L.sites site site') (scope : ScopeId) :
    Alongside L (Value.Alike L) (Interrupt.Alike L)
      (evalNode settings fuel eval call node site scope)
      (evalNode settings fuel eval' call' node' site' scope) := by
  have hspan := L.span_alike hnode
  have hbelow : ∀ (position : Nat) (child child' : Node), node.form.parts[position]? = some child →
      node'.form.parts[position]? = some child' → L.nodes child child' :=
    fun _ _ _ hget hget' =>
      (L.form_alike hnode).child (Form.getElem?_children hget) (Form.getElem?_children hget')
  have hpart : ∀ (position : Nat) (child child' : Node), node.form.parts[position]? = some child →
      node'.form.parts[position]? = some child' →
      Alongside L (Value.Alike L) (Interrupt.Alike L) (eval child (site.child position) scope)
        (eval' child' (site'.child position) scope) := by
    intro position child child' hget hget'
    exact heval (hbelow position child child' hget hget') (L.child_alike hsite position) scope
  -- Two nodes that are alike have plans that correspond, step by step.
  have hplans :
      (Alongside.relation L eval eval' site site' scope).Corresponds settings settings site
      site' node node' := {
    form := ⟨L.nodes, L.form_alike hnode⟩
    part := fun position child child' hget hget' _ => hpart position child child' hget hget'
    round := fun position child child' hget hget' _ => hpart position child child' hget hget'
    literal := by
      intro definition definition' hform hform'
      have hforms := L.form_alike hnode
      rw [hform, hform'] at hforms
      cases hforms with
      | function hdefinition => exact .function hsite hdefinition
    binds := fun _ _ => trivial
    unbinds := fun _ _ _ => trivial
    blames := hspan
    fault := fun _ _ => .failing (.error ⟨rfl, .some hspan⟩)
    bound := fun position child child' hget hget' =>
      .failing (.error ⟨rfl, .some (L.span_alike (hbelow position child child' hget hget'))⟩)
    unbound := .inl rfl
    exhausted := fun _ => .failing .exhausted
    returning := fun _ _ _ _ hv => .returning hv
    breaking := fun _ => .breaking hspan
    continuing := fun _ => .continuing hspan }
  rw [evalNode_eq_run, evalNode_eq_run]
  exact .of_related (fun hcallee hargs => hcall hcallee hargs scope) (hplans.related_plan fuel)

include hcall in
/-- Two calls of `map` run alongside, with callbacks in scopes of their own. -/
theorem alongside_mapCall {args args' : List Value} (h : List.Forall₂ (Value.Alike L) args args')
    (caller : ScopeId) :
    Alongside L (Value.Alike L) (Failure.Alike L) (Builtin.mapCall call args caller)
      (Builtin.mapCall call' args' caller) := by
  have harity := Builtin.arityFault_eq h .map 2
  cases h with
  | nil => exact .callRaise_of_eq harity
  | cons hlist hrest =>
    cases hrest with
    | nil => exact .callRaise_of_eq harity
    | cons hf hrest =>
      cases hrest with
      | cons => exact .callRaise_of_eq harity
      | nil =>
        refine .bind (.callOfExcept (Builtin.alike_wantList _ hlist)) fun items items' hitems => ?_
        refine .bind (.callOfExcept (Builtin.alike_wantFunction _ hf)) fun _ _ _ => ?_
        exact .inChild caller Bindings.alike_empty fun scope => .mapFrom hcall hf scope hitems .nil

include hcall in
/-- Two calls of `reduce` run alongside, with callbacks in scopes of their own. -/
theorem alongside_reduceCall {args args' : List Value} (h : List.Forall₂ (Value.Alike L) args args')
    (caller : ScopeId) :
    Alongside L (Value.Alike L) (Failure.Alike L) (Builtin.reduceCall call args caller)
      (Builtin.reduceCall call' args' caller) := by
  have harity := Builtin.arityFault_eq h .reduce 3
  cases h with
  | nil => exact .callRaise_of_eq harity
  | cons hlist hrest =>
    cases hrest with
    | nil => exact .callRaise_of_eq harity
    | cons hf hrest =>
      cases hrest with
      | nil => exact .callRaise_of_eq harity
      | cons hinitial hrest =>
        cases hrest with
        | cons => exact .callRaise_of_eq harity
        | nil =>
          refine .bind (.callOfExcept (Builtin.alike_wantList _ hlist))
            fun items items' hitems => ?_
          refine .bind (.callOfExcept (Builtin.alike_wantFunction _ hf)) fun _ _ _ => ?_
          exact .inChild caller Bindings.alike_empty fun scope =>
            .reduceFrom hcall hf scope hitems hinitial

include hcall in
/-- A built-in function runs side by side with itself. -/
theorem alongside_run (b : Builtin) {args args' : List Value}
    (h : List.Forall₂ (Value.Alike L) args args') (caller : ScopeId) :
    Alongside L (Value.Alike L) (Failure.Alike L) (b.run call args caller)
      (b.run call' args' caller) := by
  cases b with
  | print =>
    simp only [Builtin.run, Builtin.printText_eq h]
    exact .bind (.write _) fun _ _ _ => .pure .null
  | println =>
    simp only [Builtin.run, Builtin.printLine_eq h]
    exact .bind (.write _) fun _ _ _ => .pure .null
  | scan =>
    refine .bind (.callOfExcept (Builtin.alike_scanPrompt h)) fun prompt _ heq => heq ▸ ?_
    refine .bind (.write prompt) fun _ _ _ => ?_
    exact .bind .readLine fun line _ heq => heq ▸ .pure (.text line)
  | map => exact alongside_mapCall hcall h caller
  | reduce => exact alongside_reduceCall hcall h caller
  | _ =>
    unfold Builtin.run
    exact .callOfExcept (Builtin.alike_compute? h _)

include heval in
/-- Functions made from corresponding literals are called side by side. -/
theorem alongside_callFunction {site site' : Site} (hsite : L.sites site site')
    {definition definition' : Definition} (hdefinition : definition.Alike L.nodes definition')
    {args args' : List Value} (hargs : List.Forall₂ (Value.Alike L) args args') (caller : ScopeId) :
    Alongside L (Value.Alike L) (Failure.Alike L)
      (callFunction settings eval site definition args caller)
      (callFunction settings eval' site' definition' args' caller) := by
  intro m m' hm
  have hname : definition.displayName = definition'.displayName :=
    congrArg (·.getD "anonymous") hdefinition.name
  unfold callFunction
  rw [hargs.length_eq, hdefinition.params, hname, hm.depth, hdefinition.isExpression]
  split
  · exact Alongside.callRaise _ hm
  split
  · exact Alongside.callRaise _ hm
  -- The arguments fit and the limit is not reached: the bodies run in new scopes, which are alike.
  have hbody := heval hdefinition.body (L.child_alike hsite 0)
  refine Alongside.inChild caller (Bindings.alike_ofPairs _ hargs) (fun scope => ?_) hm
  exact .deeper (.ofBody _ (hbody scope))

include heval hcall in
/-- Values that are alike are called side by side. -/
theorem alongside_callValue {callee callee' : Value} (hcallee : callee.Alike L callee')
    {args args' : List Value} (hargs : List.Forall₂ (Value.Alike L) args args') (caller : ScopeId) :
    Alongside L (Value.Alike L) (Failure.Alike L) (callValue settings eval call callee args caller)
      (callValue settings eval' call' callee' args' caller) := by
  cases hcallee with
  | function hsite hdefinition => exact alongside_callFunction heval hsite hdefinition hargs caller
  | builtin b => exact alongside_run hcall b hargs caller
  | number | text | list | null => exact .callRaise _

end

/-- Whatever corresponds is evaluated, and whatever is alike is called, side by side. -/
theorem alongside_eval_call (L : Likeness) (settings : Settings) (fuel : Nat) :
    (∀ {node node' site site'}, L.nodes node node' → L.sites site site' → ∀ scope,
      Alongside L (Value.Alike L) (Interrupt.Alike L) (eval settings fuel node site scope)
        (eval settings fuel node' site' scope)) ∧
    ∀ {callee callee' args args'}, callee.Alike L callee' →
      List.Forall₂ (Value.Alike L) args args' → ∀ scope,
      Alongside L (Value.Alike L) (Failure.Alike L) (call settings fuel callee args scope)
        (call settings fuel callee' args' scope) := by
  induction fuel with
  | zero =>
    constructor
    · intro node node' site site' _ _ scope m m' hm
      rw [eval_zero, eval_zero]
      exact .error hm (.failing .exhausted)
    · intro callee callee' args args' _ _ scope m m' hm
      rw [call_zero, call_zero]
      exact .error hm .exhausted
  | succ fuel ih =>
    rw [eval_succ, call_succ]
    exact ⟨fun hnode hsite => alongside_evalNode ih.1 ih.2 hnode hsite,
      fun hcallee hargs => alongside_callValue ih.1 ih.2 hcallee hargs⟩

/-! ## Programs -/

/-- Runs that ended with values that are alike, or in errors for the same reason. -/
inductive Outcome.Alike (L : Likeness) : Outcome → Outcome → Prop
  | value {v v' : Value} (h : v.Alike L v') : Alike L (.value v) (.value v')
  | failed {e e' : RuntimeError} (h : e.Alike L e') :
      Alike L (.error (.failed e)) (.error (.failed e'))
  | exhausted : Alike L .exhausted .exhausted

/-- Programs whose evaluations end alike have outcomes that are alike and leave such machines
behind. -/
theorem Session.alike_of_endsAlike {session session' : Session} {program program' : Program}
    {fuel : Nat} (hspan : L.spans program.tree.span program'.tree.span)
    (hends : EndsAlike L (Value.Alike L) (Interrupt.Alike L)
      (eval session.settings fuel program.tree (.root program.unit) ScopeTree.rootId
        { session.machine with depth := 0 })
      (eval session'.settings fuel program'.tree (.root program'.unit) ScopeTree.rootId
        { session'.machine with depth := 0 })) :
    (session.runProgram fuel program).1.Alike L (session'.runProgram fuel program').1 ∧
      (session.runProgram fuel program).2.machine.Alike L
        (session'.runProgram fuel program').2.machine := by
  unfold runProgram
  simp only
  generalize eval _ _ program.tree _ _ _ = r at hends ⊢
  generalize eval _ _ program'.tree _ _ _ = r' at hends ⊢
  cases hends with
  | ok hm hvalue => exact ⟨.value hvalue, hm⟩
  | error hm hstop =>
    -- What comes out of a program is a failure, blamed on it as a whole if on nothing else.
    have hblamed := hstop.uncaught.blame hspan
    simp only
    generalize Failure.blame _ program.tree.span = f at hblamed ⊢
    generalize Failure.blame _ program'.tree.span = f' at hblamed ⊢
    cases hblamed with
    | error herror => exact ⟨.failed herror, hm⟩
    | exhausted => exact ⟨.exhausted, hm⟩

/-- Programs that correspond, run on machines that are alike, have outcomes that are alike and leave
such machines behind. -/
theorem Session.alike_runProgram {session session' : Session}
    (hsettings : session.settings = session'.settings)
    (hmachine : session.machine.Alike L session'.machine) {program program' : Program}
    (htree : L.nodes program.tree program'.tree)
    (hunit : L.sites (.root program.unit) (.root program'.unit)) (fuel : Nat) :
    (session.runProgram fuel program).1.Alike L (session'.runProgram fuel program').1 ∧
      (session.runProgram fuel program).2.machine.Alike L
        (session'.runProgram fuel program').2.machine := by
  have hstart :
      Machine.Alike L { session.machine with depth := 0 } { session'.machine with depth := 0 } :=
    ⟨hmachine.scopes, rfl, hmachine.console⟩
  have hends := (alongside_eval_call L session'.settings fuel).1 htree hunit ScopeTree.rootId hstart
  refine alike_of_endsAlike (L.span_alike htree) ?_
  rw [hsettings]
  exact hends

end Script
