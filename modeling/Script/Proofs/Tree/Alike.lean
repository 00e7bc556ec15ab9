import Mathlib.Data.List.Forall2
import Script.Proofs.Tree.Bare

/-!
# Trees that say the same

Two forms are alike (`Form.Alike`) if they are of the same kind and say the same, except that the
nodes directly below them correspond in some way that is left open (`Form.Alike.children`). If
corresponding nodes are the same, so are the forms (`Form.Alike.eq`). If they are the same when
bare, so are the forms (`Form.Alike.bare_eq`), and that is the only way in which forms are the same
when bare (`Form.alike_of_bare`).
-/

namespace Script

/-- The name that a form itself gives to a value, if it does. -/
def Form.named? : Form → Option String
  | .assign name _ | .forLoop name _ _ _ _ => some name
  | .function definition => definition.name
  | _ => none

/-- The nodes that are evaluated with a form. The body of a function waits for a call. -/
def Form.parts : Form → List Node
  | .function _ => []
  | form => form.children

/-- The position of the body of a loop among the nodes below. -/
def Form.body? : Form → Option Nat
  | .whileLoop _ _ => some 1
  | .forLoop _ _ _ step _ => some (if step.isSome then 3 else 2)
  | _ => none

/-- The parts of a form are the first of its children. -/
theorem Form.getElem?_children {form : Form} {position : Nat} {child : Node}
    (h : form.parts[position]? = some child) : form.children[position]? = some child := by
  cases form with
  | function definition => cases h
  | _ => exact h

/-- A part of a form is one of its children. -/
theorem Form.mem_children {form : Form} {child : Node} (h : child ∈ form.parts) :
    child ∈ form.children := by
  obtain ⟨position, hget⟩ := List.getElem?_of_mem h
  exact List.mem_of_getElem? (getElem?_children hget)

/-- Arms whose parts correspond. -/
structure Arm.Alike (nodes : Node → Node → Prop) (arm arm' : Arm) : Prop where
  cond : nodes arm.cond arm'.cond
  body : nodes arm.body arm'.body

/-- Definitions that say the same, except that their bodies correspond. -/
structure Definition.Alike (nodes : Node → Node → Prop) (definition definition' : Definition) :
    Prop where
  name : definition.name = definition'.name
  params : definition.params = definition'.params
  body : nodes definition.body definition'.body
  isExpression : definition.isExpression = definition'.isExpression

/-- Forms that say the same, except that the nodes directly below them correspond. They look up no
variables but those that `reads` holds of. -/
inductive Form.Alike (nodes : Node → Node → Prop) (reads : String → Prop) : Form → Form → Prop
  | number (x : Float) : Alike nodes reads (.number x) (.number x)
  | text (s : String) : Alike nodes reads (.text s) (.text s)
  | null : Alike nodes reads .null .null
  | list {items items' : List Node} (hitems : List.Forall₂ nodes items items') :
      Alike nodes reads (.list items) (.list items')
  | var {name : String} (hname : reads name) : Alike nodes reads (.var name) (.var name)
  | assign (name : String) {value value' : Node} (hvalue : nodes value value') :
      Alike nodes reads (.assign name value) (.assign name value')
  | binary (op : BinaryOp) {left left' right right' : Node} (hleft : nodes left left')
      (hright : nodes right right') :
      Alike nodes reads (.binary left op right) (.binary left' op right')
  | unary (op : UnaryOp) {operand operand' : Node} (hoperand : nodes operand operand') :
      Alike nodes reads (.unary op operand) (.unary op operand')
  | ternary {cond cond' yes yes' no no' : Node} (hcond : nodes cond cond') (hyes : nodes yes yes')
      (hno : nodes no no') : Alike nodes reads (.ternary cond yes no) (.ternary cond' yes' no')
  | index {target target' place place' : Node} (htarget : nodes target target')
      (hplace : nodes place place') :
      Alike nodes reads (.index target place) (.index target' place')
  | ifElse {arms arms' : List Arm} {otherwise otherwise' : Option Node}
      (harms : List.Forall₂ (Arm.Alike nodes) arms arms')
      (hotherwise : Option.Rel nodes otherwise otherwise') :
      Alike nodes reads (.ifElse arms otherwise) (.ifElse arms' otherwise')
  | whileLoop {cond cond' body body' : Node} (hcond : nodes cond cond') (hbody : nodes body body') :
      Alike nodes reads (.whileLoop cond body) (.whileLoop cond' body')
  | forLoop (name : String) {first first' last last' body body' : Node} {step step' : Option Node}
      (hfirst : nodes first first') (hlast : nodes last last') (hstep : Option.Rel nodes step step')
      (hbody : nodes body body') :
      Alike nodes reads (.forLoop name first last step body)
        (.forLoop name first' last' step' body')
  | function {definition definition' : Definition} (h : definition.Alike nodes definition') :
      Alike nodes reads (.function definition) (.function definition')
  | call {callee callee' : Node} {args args' : List Node} (hcallee : nodes callee callee')
      (hargs : List.Forall₂ nodes args args') :
      Alike nodes reads (.call callee args) (.call callee' args')
  | returning {value value' : Option Node} (hvalue : Option.Rel nodes value value') :
      Alike nodes reads (.returning value) (.returning value')
  | breaking : Alike nodes reads .breaking .breaking
  | continuing : Alike nodes reads .continuing .continuing
  | block {statements statements' : List Node}
      (hstatements : List.Forall₂ nodes statements statements') :
      Alike nodes reads (.block statements) (.block statements')

/-! ## The nodes below -/

/-- Parts that may be missing correspond as lists. -/
theorem forall₂_toList {nodes : Node → Node → Prop} {node node' : Option Node}
    (h : Option.Rel nodes node node') : List.Forall₂ nodes node.toList node'.toList := by
  cases h with
  | none => exact .nil
  | some h => exact .cons h .nil

/-- Arms that correspond have conditions and bodies that do. -/
theorem forall₂_flatMap_arms {nodes : Node → Node → Prop} {arms arms' : List Arm}
    (h : List.Forall₂ (Arm.Alike nodes) arms arms') :
    List.Forall₂ nodes (arms.flatMap fun arm => [arm.cond, arm.body])
      (arms'.flatMap fun arm => [arm.cond, arm.body]) := by
  induction h with
  | nil => exact .nil
  | cons harm _ ih => exact .cons harm.cond (.cons harm.body ih)

/-- The nodes directly below forms that are alike correspond one by one. -/
theorem Form.Alike.children {nodes : Node → Node → Prop} {reads : String → Prop} {form form' : Form}
    (h : form.Alike nodes reads form') : List.Forall₂ nodes form.children form'.children := by
  cases h with
  | number | text | null | var | breaking | continuing => exact .nil
  | list hitems => exact hitems
  | block hstatements => exact hstatements
  | returning hvalue => exact forall₂_toList hvalue
  | function h => exact .cons h.body .nil
  | assign _ hvalue => exact .cons hvalue .nil
  | unary _ hoperand => exact .cons hoperand .nil
  | binary _ hleft hright => exact .cons hleft (.cons hright .nil)
  | index htarget hplace => exact .cons htarget (.cons hplace .nil)
  | whileLoop hcond hbody => exact .cons hcond (.cons hbody .nil)
  | ternary hcond hyes hno => exact .cons hcond (.cons hyes (.cons hno .nil))
  | call hcallee hargs => exact .cons hcallee hargs
  | ifElse harms hotherwise =>
    exact List.rel_append (forall₂_flatMap_arms harms) (forall₂_toList hotherwise)
  | forLoop _ hfirst hlast hstep hbody =>
    exact .cons hfirst (.cons hlast (List.rel_append (forall₂_toList hstep) (.cons hbody .nil)))

/-- Nodes at the same position correspond. -/
theorem Form.Alike.child {nodes : Node → Node → Prop} {reads : String → Prop} {form form' : Form}
    (h : form.Alike nodes reads form') {position : Nat} {child child' : Node}
    (hget : form.children[position]? = some child)
    (hget' : form'.children[position]? = some child') : nodes child child' := by
  obtain ⟨hlt, rfl⟩ := List.getElem?_eq_some_iff.mp hget
  obtain ⟨hlt', rfl⟩ := List.getElem?_eq_some_iff.mp hget'
  exact h.children.get hlt hlt'

/-! ## The same nodes -/

/-- Arms with the same nodes are the same. -/
theorem Arm.Alike.eq {arm arm' : Arm} (h : arm.Alike Eq arm') : arm = arm' := by
  obtain ⟨cond, body⟩ := arm
  obtain ⟨cond', body'⟩ := arm'
  obtain ⟨rfl, rfl⟩ := h
  rfl

/-- Functions with the same nodes are the same. -/
theorem Definition.Alike.eq {definition definition' : Definition}
    (h : definition.Alike Eq definition') :
    definition = definition' := by
  obtain ⟨name, params, body, isExpression⟩ := definition
  obtain ⟨name', params', body', isExpression'⟩ := definition'
  obtain ⟨rfl, rfl, rfl, rfl⟩ := h
  rfl

/-- Parts that may be missing and correspond by equality are the same. -/
theorem eq_of_rel_eq {α : Type} {a b : Option α} (h : Option.Rel Eq a b) : a = b := by
  cases h with
  | none => rfl
  | some h => rw [h]

/-- Forms that are alike over the same nodes are the same. -/
theorem Form.Alike.eq {reads : String → Prop} {form form' : Form} (h : form.Alike Eq reads form') :
    form = form' := by
  have hlist : ∀ {nodes nodes' : List Node}, List.Forall₂ Eq nodes nodes' → nodes = nodes' :=
    fun h => by rwa [List.forall₂_eq_eq_eq] at h
  cases h with
  | number | text | null | var | breaking | continuing => rfl
  | list hitems => rw [hlist hitems]
  | assign name hvalue => rw [hvalue]
  | binary op hleft hright => rw [hleft, hright]
  | unary op hoperand => rw [hoperand]
  | ternary hcond hyes hno => rw [hcond, hyes, hno]
  | index htarget hplace => rw [htarget, hplace]
  | @ifElse arms arms' _ _ harms hotherwise =>
    have heq : List.Forall₂ Eq arms arms' := harms.imp fun _ _ h => h.eq
    rw [List.forall₂_eq_eq_eq] at heq
    rw [heq, eq_of_rel_eq hotherwise]
  | whileLoop hcond hbody => rw [hcond, hbody]
  | forLoop name hfirst hlast hstep hbody => rw [hfirst, hlast, eq_of_rel_eq hstep, hbody]
  | function h => rw [h.eq]
  | call hcallee hargs => rw [hcallee, hlist hargs]
  | returning hvalue => rw [eq_of_rel_eq hvalue]
  | block hstatements => rw [hlist hstatements]

/-! ## The same bare nodes -/

/-- Nodes are the same when bare if they are so pairwise. -/
theorem forall₂_bare_iff {nodes nodes' : List Node} :
    List.Forall₂ (fun node node' => node.bare = node'.bare) nodes nodes' ↔
      bareNodes nodes = bareNodes nodes' := by
  rw [bareNodes_eq_map, bareNodes_eq_map, ← List.forall₂_eq_eq_eq, List.forall₂_map_left_iff,
    List.forall₂_map_right_iff]

/-- Arms are the same when bare if their nodes are. -/
theorem Arm.alike_iff_bare {arm arm' : Arm} :
    arm.Alike (fun node node' => node.bare = node'.bare) arm' ↔ arm.bare = arm'.bare := by
  obtain ⟨cond, body⟩ := arm
  obtain ⟨cond', body'⟩ := arm'
  rw [Arm.bare, Arm.bare, Arm.mk.injEq]
  exact ⟨fun h => ⟨h.cond, h.body⟩, fun h => ⟨h.1, h.2⟩⟩

/-- Lists of arms are the same when bare if the arms are so pairwise. -/
theorem forall₂_bareArm_iff {arms arms' : List Arm} :
    List.Forall₂ (Arm.Alike fun node node' => node.bare = node'.bare) arms arms' ↔
      bareArms arms = bareArms arms' := by
  rw [bareArms_eq_map, bareArms_eq_map, ← List.forall₂_eq_eq_eq, List.forall₂_map_left_iff,
    List.forall₂_map_right_iff]
  exact ⟨fun h => h.imp fun _ _ => Arm.alike_iff_bare.mp,
    fun h => h.imp fun _ _ => Arm.alike_iff_bare.mpr⟩

/-- Parts that may be missing are the same when bare if both are missing or their nodes are the
same. -/
theorem rel_bare_iff {node node' : Option Node} :
    Option.Rel (fun node node' => node.bare = node'.bare) node node' ↔
      bareOption node = bareOption node' := by
  constructor
  · rintro (h | _)
    · rw [bareOption, bareOption, h]
    · rfl
  · intro h
    cases node with
    | none =>
      cases node' with
      | none => exact .none
      | some => cases h
    | some node =>
      cases node' with
      | none => cases h
      | some node' => exact .some (Option.some.inj h)

/-- Functions are the same when bare if their bodies are and all else is the same. -/
theorem Definition.alike_iff_bare {definition definition' : Definition} :
    definition.Alike (fun node node' => node.bare = node'.bare) definition' ↔
      definition.bare = definition'.bare := by
  obtain ⟨name, params, body, isExpression⟩ := definition
  obtain ⟨name', params', body', isExpression'⟩ := definition'
  rw [Definition.bare, Definition.bare, Definition.mk.injEq]
  exact ⟨fun h => ⟨h.name, h.params, h.body, h.isExpression⟩,
    fun h => ⟨h.1, h.2.1, h.2.2.1, h.2.2.2⟩⟩

/-- Forms that are the same when bare say the same. -/
theorem Form.alike_of_bare {form form' : Form} (h : form.bare = form'.bare) :
    form.Alike (fun node node' => node.bare = node'.bare) (fun _ => True) form' := by
  -- Forms of different kinds are different when bare, which leaves two of the same kind.
  cases form <;> cases form' <;> simp only [Form.bare, reduceCtorEq] at h
  case number.number x y =>
    obtain rfl := Form.number.inj h
    exact .number x
  case text.text s t =>
    obtain rfl := Form.text.inj h
    exact .text s
  case null.null => exact .null
  case list.list => exact .list (forall₂_bare_iff.mpr (Form.list.inj h))
  case var.var name name' =>
    obtain rfl := Form.var.inj h
    exact .var trivial
  case assign.assign name value name' value' =>
    obtain ⟨rfl, hvalue⟩ := Form.assign.inj h
    exact .assign name hvalue
  case binary.binary left op right left' op' right' =>
    obtain ⟨hleft, rfl, hright⟩ := Form.binary.inj h
    exact .binary op hleft hright
  case unary.unary op operand op' operand' =>
    obtain ⟨rfl, hoperand⟩ := Form.unary.inj h
    exact .unary op hoperand
  case ternary.ternary =>
    obtain ⟨hcond, hyes, hno⟩ := Form.ternary.inj h
    exact .ternary hcond hyes hno
  case index.index =>
    obtain ⟨htarget, hplace⟩ := Form.index.inj h
    exact .index htarget hplace
  case ifElse.ifElse =>
    obtain ⟨harms, hotherwise⟩ := Form.ifElse.inj h
    exact .ifElse (forall₂_bareArm_iff.mpr harms) (rel_bare_iff.mpr hotherwise)
  case whileLoop.whileLoop =>
    obtain ⟨hcond, hbody⟩ := Form.whileLoop.inj h
    exact .whileLoop hcond hbody
  case forLoop.forLoop name _ _ _ _ _ _ _ _ _ =>
    obtain ⟨rfl, hfirst, hlast, hstep, hbody⟩ := Form.forLoop.inj h
    exact .forLoop name hfirst hlast (rel_bare_iff.mpr hstep) hbody
  case function.function => exact .function (Definition.alike_iff_bare.mpr (Form.function.inj h))
  case call.call =>
    obtain ⟨hcallee, hargs⟩ := Form.call.inj h
    exact .call hcallee (forall₂_bare_iff.mpr hargs)
  case returning.returning => exact .returning (rel_bare_iff.mpr (Form.returning.inj h))
  case breaking.breaking => exact .breaking
  case continuing.continuing => exact .continuing
  case block.block => exact .block (forall₂_bare_iff.mpr (Form.block.inj h))

/-- Forms that say the same over nodes that are the same when bare are so themselves. -/
theorem Form.Alike.bare_eq {reads : String → Prop} {form form' : Form}
    (h : form.Alike (fun node node' => node.bare = node'.bare) reads form') :
    form.bare = form'.bare := by
  cases h with
  | number | text | null | var | breaking | continuing => rfl
  | list hitems => rw [Form.bare, Form.bare, forall₂_bare_iff.mp hitems]
  | assign name hvalue => rw [Form.bare, Form.bare, hvalue]
  | binary op hleft hright => rw [Form.bare, Form.bare, hleft, hright]
  | unary op hoperand => rw [Form.bare, Form.bare, hoperand]
  | ternary hcond hyes hno => rw [Form.bare, Form.bare, hcond, hyes, hno]
  | index htarget hplace => rw [Form.bare, Form.bare, htarget, hplace]
  | ifElse harms hotherwise =>
    rw [Form.bare, Form.bare, forall₂_bareArm_iff.mp harms, rel_bare_iff.mp hotherwise]
  | whileLoop hcond hbody => rw [Form.bare, Form.bare, hcond, hbody]
  | forLoop name hfirst hlast hstep hbody =>
    rw [Form.bare, Form.bare, hfirst, hlast, rel_bare_iff.mp hstep, hbody]
  | function h => rw [Form.bare, Form.bare, Definition.alike_iff_bare.mp h]
  | call hcallee hargs => rw [Form.bare, Form.bare, hcallee, forall₂_bare_iff.mp hargs]
  | returning hvalue => rw [Form.bare, Form.bare, rel_bare_iff.mp hvalue]
  | block hstatements => rw [Form.bare, Form.bare, forall₂_bare_iff.mp hstatements]

end Script
