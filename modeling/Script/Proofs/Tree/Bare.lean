import Script.Tree

/-!
# Trees up to their places

`Node.bare` forgets where the parts of a tree stand. Two trees say the same program exactly if they
are the same when bare.
-/

namespace Script

mutual

/-- The tree with every span forgotten. -/
def Node.bare : Node → Node
  | ⟨form, _⟩ => ⟨form.bare, default⟩

/-- The form with every span below it forgotten. -/
def Form.bare : Form → Form
  | .number x => .number x
  | .text s => .text s
  | .null => .null
  | .list items => .list (bareNodes items)
  | .var name => .var name
  | .assign name value => .assign name value.bare
  | .binary left op right => .binary left.bare op right.bare
  | .unary op operand => .unary op operand.bare
  | .ternary cond yes no => .ternary cond.bare yes.bare no.bare
  | .index target place => .index target.bare place.bare
  | .ifElse arms otherwise => .ifElse (bareArms arms) (bareOption otherwise)
  | .whileLoop cond body => .whileLoop cond.bare body.bare
  | .forLoop name first last step body =>
    .forLoop name first.bare last.bare (bareOption step) body.bare
  | .function definition => .function definition.bare
  | .call callee args => .call callee.bare (bareNodes args)
  | .returning value => .returning (bareOption value)
  | .breaking => .breaking
  | .continuing => .continuing
  | .block statements => .block (bareNodes statements)

/-- The arm with every span forgotten. -/
def Arm.bare : Arm → Arm
  | ⟨cond, body⟩ => ⟨cond.bare, body.bare⟩

/-- The definition with every span forgotten. -/
def Definition.bare : Definition → Definition
  | ⟨name, params, body, isExpression⟩ => ⟨name, params, body.bare, isExpression⟩

/-- Nodes with every span forgotten. -/
def bareNodes : List Node → List Node
  | [] => []
  | node :: nodes => node.bare :: bareNodes nodes

/-- Arms with every span forgotten. -/
def bareArms : List Arm → List Arm
  | [] => []
  | arm :: arms => arm.bare :: bareArms arms

/-- A node, if there is one, with every span forgotten. -/
def bareOption : Option Node → Option Node
  | none => none
  | some node => some node.bare

end

/-- A bare tree depends on the form alone. -/
theorem Node.bare_mk (form : Form) (span : Span) : Node.bare ⟨form, span⟩ = ⟨form.bare, default⟩ :=
  rfl

theorem Node.bare_eq_iff {node node' : Node} :
    node.bare = node'.bare ↔ node.form.bare = node'.form.bare := by
  obtain ⟨form, span⟩ := node
  obtain ⟨form', span'⟩ := node'
  simp only [Node.bare_mk, Node.mk.injEq, and_true]

theorem bareNodes_eq_map (nodes : List Node) : bareNodes nodes = nodes.map Node.bare := by
  induction nodes with
  | nil => rfl
  | cons node nodes ih => rw [bareNodes, ih, List.map_cons]

theorem bareArms_eq_map (arms : List Arm) : bareArms arms = arms.map Arm.bare := by
  induction arms with
  | nil => rfl
  | cons arm arms ih => rw [bareArms, ih, List.map_cons]

end Script
