import Script.Tree.Storage
import Script.Proofs.Json.RoundTrip
import Script.Proofs.Parser.Extents

/-!
# Stored trees are read back

A tree that is stored as JSON and read again is the same tree, with all its spans
(`stored_trees_are_read_back`).

The text of a tree is read as the value that was written, since all that is stored can be written
(`Node.proper_toJson`). From this value the tree is read node by node: a form is read back if the
nodes below it are (`formOfJson?_toJson`), and these are stored deeper inside
(`height_lt_of_mem_children`), so that the height of the whole value is fuel enough.
-/

namespace Script

/-! ## Storable trees -/

/-- The three counts of a position have at most 64 bits. -/
structure Position.Fits (p : Position) : Prop where
  index : p.index < Nat.pow 2 64
  line : p.line < Nat.pow 2 64
  column : p.column < Nat.pow 2 64

/-- The number is finite, and reading undoes writing for it. -/
structure Number.Storable (x : Float) : Prop where
  finite : x.isFinite
  toFloat? : ∀ n, Json.Numeral.ofFloat? x = some n → n.toFloat? = some x

/-- The span of the node and the number that it may be can be stored. -/
structure Node.Storable (node : Node) : Prop where
  start : node.span.start.Fits
  stop : node.span.stop.Fits
  number : ∀ x, node.form = .number x → Number.Storable x

/-! ## Lists of stored things -/

/-- Nodes are stored one by one. -/
theorem nodesToJson_eq_map (nodes : List Node) : nodesToJson nodes = nodes.map Node.toJson := by
  induction nodes with
  | nil => rfl
  | cons node nodes ih => rw [nodesToJson, ih, List.map_cons]

/-- A stored arm. -/
def Arm.toJson (arm : Arm) : Json := .record [("cond", arm.cond.toJson), ("body", arm.body.toJson)]

/-- Arms are stored one by one. -/
theorem armsToJson_eq_map (arms : List Arm) : armsToJson arms = arms.map Arm.toJson := by
  induction arms with
  | nil => rfl
  | cons arm arms ih =>
    obtain ⟨cond, body⟩ := arm
    rw [armsToJson, ih, List.map_cons, Arm.toJson]

/-- A list is read back if each of its items is. -/
theorem mapM_map_of_forall {α β : Type} {write : α → β} {read : β → Option α} {items : List α}
    (h : ∀ item ∈ items, read (write item) = some item) :
    (items.map write).mapM read = some items := by
  induction items with
  | nil => rfl
  | cons item items ih =>
    obtain ⟨hitem, hitems⟩ := List.forall_mem_cons.mp h
    simp [List.mapM_cons, hitem, ih hitems]

/-! ## Leaves -/

/-- A count of at most 64 bits is read back. -/
theorem toNat?_ofNat {n : Nat} (h : n < Nat.pow 2 64) : (Json.ofNat n).toNat? = some n := by
  show (Json.Numeral.ofNat n).toNat? = some n
  simp only [Json.Numeral.toNat?, Json.Numeral.ofNat, Number.Decimal.ofDigits_digits]
  simp [h]

/-- A position is read back if its counts fit. -/
theorem Position.Fits.ofJson?_toJson {p : Position} (h : p.Fits) :
    Position.ofJson? p.toJson = some p := by
  show (do
    return Position.mk (← (Json.ofNat p.index).toNat?) (← (Json.ofNat p.line).toNat?)
      (← (Json.ofNat p.column).toNat?)) = some p
  rw [toNat?_ofNat h.index, toNat?_ofNat h.line, toNat?_ofNat h.column]
  rfl

/-- A span is read back if both its ends are. -/
theorem Span.ofJson?_toJson {s : Span} (hstart : s.start.Fits) (hstop : s.stop.Fits) :
    Span.ofJson? s.toJson = some s := by
  show (do return Span.mk (← Position.ofJson? s.start.toJson) (← Position.ofJson? s.stop.toJson))
      = some s
  rw [hstart.ofJson?_toJson, hstop.ofJson?_toJson]
  rfl

/-- Finite numbers have a numeral. -/
theorem Number.Storable.exists_numeral {x : Float} (h : Number.Storable x) :
    ∃ n, Json.Numeral.ofFloat? x = some n ∧ numberToJson x = .number n ∧ n.toFloat? = some x := by
  obtain ⟨n, hn⟩ : ∃ n, Json.Numeral.ofFloat? x = some n := by
    obtain ⟨m, hm⟩ := Number.exists_magnitude h.finite
    rw [Json.Numeral.ofFloat?, Number.not_isNaN_of_isFinite h.finite, hm]
    exact ⟨_, rfl⟩
  exact ⟨n, hn, by rw [numberToJson, hn], h.toFloat? n hn⟩

/-! ## Forms -/

section

variable {node : Json → Option Node}

/-- A node that may be missing is read back, and so is that it is missing. -/
theorem optional_optionToJson {value : Option Node}
    (h : ∀ child ∈ value.toList, node child.toJson = some child) :
    Json.optional node (some (optionToJson value)) = some value := by
  cases value with
  | none => rfl
  | some child =>
    have hchild := h child (by simp)
    obtain ⟨form, span⟩ := child
    show (node (Node.toJson ⟨form, span⟩)).map some = _
    rw [hchild]
    rfl

/-- Nodes are read back if each of them is. -/
theorem mapM_nodesToJson {nodes : List Node} (h : ∀ child ∈ nodes, node child.toJson = some child) :
    (nodesToJson nodes).mapM node = some nodes := by
  rw [nodesToJson_eq_map]
  exact mapM_map_of_forall h

/-- An arm is read back if its condition and its body are. -/
theorem armOfJson?_toJson {arm : Arm} (hcond : node arm.cond.toJson = some arm.cond)
    (hbody : node arm.body.toJson = some arm.body) : armOfJson? node arm.toJson = some arm := by
  obtain ⟨cond, body⟩ := arm
  show (do return Arm.mk (← node cond.toJson) (← node body.toJson)) = _
  rw [hcond, hbody]
  rfl

/-- A function is read back if its body is. -/
theorem definitionOfJson?_toJson {definition : Definition}
    (hbody : node definition.body.toJson = some definition.body) :
    definitionOfJson? node definition.toJson = some definition := by
  obtain ⟨name, params, body, isExpression⟩ := definition
  have hname : Json.optional Json.toString? (some (nameToJson name)) = some name := by
    cases name <;> rfl
  have hparams : (params.map Json.ofString).mapM Json.toString? = some params :=
    mapM_map_of_forall fun _ _ => rfl
  show (do
    return Definition.mk (← Json.optional Json.toString? (some (nameToJson name)))
      (← (params.map Json.ofString).mapM Json.toString?) (← node body.toJson) isExpression) = _
  rw [hname, hparams, hbody]
  rfl

/-- A form is read back if the nodes below it are. -/
theorem formOfJson?_toJson {form : Form} (hnumber : ∀ x, form = .number x → Number.Storable x)
    (hchildren : ∀ child ∈ form.children, node child.toJson = some child) :
    formOfJson? node form.toJson = some form := by
  cases form with
  | number x =>
    -- The digits are those of a numeral that is read as the number.
    obtain ⟨n, -, hjson, hread⟩ := (hnumber x rfl).exists_numeral
    rw [Form.toJson, hjson]
    show (do return Form.number (← n.toFloat?)) = _
    rw [hread]
    rfl
  | text | null | var | breaking | continuing => rfl
  | list items =>
    have hitems : (nodesToJson items).mapM node = some items := mapM_nodesToJson hchildren
    show (do return Form.list (← (nodesToJson items).mapM node)) = _
    rw [hitems]
    rfl
  | block statements =>
    have hstatements : (nodesToJson statements).mapM node = some statements :=
      mapM_nodesToJson hchildren
    show (do return Form.block (← (nodesToJson statements).mapM node)) = _
    rw [hstatements]
    rfl
  | assign name value =>
    show (do return Form.assign name (← node value.toJson)) = _
    rw [hchildren value (by simp [Form.children])]
    rfl
  | binary left op right =>
    show (do
      return Form.binary (← node left.toJson) (← BinaryOp.ofStoredName? op.storedName)
        (← node right.toJson)) = _
    rw [hchildren left (by simp [Form.children]), hchildren right (by simp [Form.children]),
      BinaryOp.ofStoredName?_storedName]
    rfl
  | unary op operand =>
    show (do return Form.unary (← UnaryOp.ofStoredName? op.storedName) (← node operand.toJson)) = _
    rw [hchildren operand (by simp [Form.children]), UnaryOp.ofStoredName?_storedName]
    rfl
  | ternary cond yes no =>
    show (do return Form.ternary (← node cond.toJson) (← node yes.toJson) (← node no.toJson)) = _
    rw [hchildren cond (by simp [Form.children]), hchildren yes (by simp [Form.children]),
      hchildren no (by simp [Form.children])]
    rfl
  | index target place =>
    show (do return Form.index (← node target.toJson) (← node place.toJson)) = _
    rw [hchildren target (by simp [Form.children]), hchildren place (by simp [Form.children])]
    rfl
  | ifElse arms otherwise =>
    show (do
      return Form.ifElse (← (armsToJson arms).mapM (armOfJson? node))
        (← Json.optional node (some (optionToJson otherwise)))) = _
    -- Both nodes of an arm are below the form, in the part of its children that the arms make up.
    have harms : (armsToJson arms).mapM (armOfJson? node) = some arms := by
      rw [armsToJson_eq_map]
      refine mapM_map_of_forall fun arm harm => armOfJson?_toJson (hchildren _ ?_) (hchildren _ ?_)
      · exact List.mem_append_left _ (List.mem_flatMap.mpr ⟨arm, harm, by simp⟩)
      · exact List.mem_append_left _ (List.mem_flatMap.mpr ⟨arm, harm, by simp⟩)
    rw [harms, optional_optionToJson fun child hchild =>
      hchildren child (List.mem_append_right _ hchild)]
    rfl
  | whileLoop cond body =>
    show (do return Form.whileLoop (← node cond.toJson) (← node body.toJson)) = _
    rw [hchildren cond (by simp [Form.children]), hchildren body (by simp [Form.children])]
    rfl
  | forLoop name first last step body =>
    show (do
      return Form.forLoop name (← node first.toJson) (← node last.toJson)
        (← Json.optional node (some (optionToJson step))) (← node body.toJson)) = _
    have hstep : Json.optional node (some (optionToJson step)) = some step :=
      optional_optionToJson fun child hchild => hchildren child (by simp_all [Form.children])
    rw [hchildren first (by simp [Form.children]), hchildren last (by simp [Form.children]), hstep,
      hchildren body (by simp [Form.children])]
    rfl
  | function definition =>
    have hdefinition :=
      definitionOfJson?_toJson (hchildren definition.body (by simp [Form.children]))
    -- A kind with a content could also be one without, as long as the content is not seen to be
    -- there.
    obtain ⟨name, params, body, isExpression⟩ := definition
    show (do
      let read ← definitionOfJson? node (Definition.toJson ⟨name, params, body, _⟩)
      return Form.function read) = _
    rw [hdefinition]
    rfl
  | call callee args =>
    show (do return Form.call (← node callee.toJson) (← (nodesToJson args).mapM node)) = _
    rw [hchildren callee List.mem_cons_self,
      mapM_nodesToJson fun child hchild => hchildren child (List.mem_cons_of_mem _ hchild)]
    rfl
  | returning value =>
    cases value with
    | none => rfl
    | some value =>
      have hvalue := hchildren value (by simp [Form.children])
      obtain ⟨form, span⟩ := value
      show (do return Form.returning (← (node (Node.toJson ⟨form, span⟩)).map some)) = _
      rw [hvalue]
      rfl

end

/-! ## Heights -/

/-- An item is no higher than its list. -/
theorem Json.height_le_of_mem {items : List Json} {item : Json} (h : item ∈ items) :
    item.height ≤ Json.heightOfItems items := by
  induction items with
  | nil => cases h
  | cons first items ih =>
    rw [heightOfItems]
    rcases List.mem_cons.mp h with rfl | h
    · exact Nat.le_max_left _ _
    · exact (ih h).trans (Nat.le_max_right _ _)

/-- A stored node is no higher than the list it is in. -/
theorem height_le_nodesToJson {nodes : List Node} {node : Node} (h : node ∈ nodes) :
    node.toJson.height ≤ Json.heightOfItems (nodesToJson nodes) := by
  rw [nodesToJson_eq_map]
  exact Json.height_le_of_mem (List.mem_map_of_mem h)

/-- The nodes of a stored arm are no higher than the list it is in. -/
theorem height_le_armsToJson {arms : List Arm} {arm : Arm} (h : arm ∈ arms) :
    arm.cond.toJson.height ≤ Json.heightOfItems (armsToJson arms) ∧
      arm.body.toJson.height ≤ Json.heightOfItems (armsToJson arms) := by
  have hle : arm.toJson.height ≤ Json.heightOfItems (armsToJson arms) := by
    rw [armsToJson_eq_map]
    exact Json.height_le_of_mem (List.mem_map_of_mem h)
  simp only [Arm.toJson, Json.record, List.map_cons, List.map_nil, Json.height,
    Json.heightOfMembers] at hle
  omega

/-- A node that may be missing is stored as itself. -/
theorem height_optionToJson {value : Option Node} {node : Node} (h : node ∈ value.toList) :
    (optionToJson value).height = node.toJson.height := by
  obtain rfl : value = some node := by simpa using h
  rfl

/-- Nodes are stored below the forms they belong to. -/
theorem height_lt_of_mem_children {form : Form} {child : Node} (h : child ∈ form.children) :
    child.toJson.height < form.toJson.height := by
  cases form
  all_goals simp only
    [Form.toJson, taggedJson, Json.record, List.map_cons, List.map_nil, Json.height,
    Json.heightOfMembers]
  case number | text | null | var | breaking | continuing => cases h
  -- A list adds to the height of its items, a record to that of its members.
  case list | block =>
    have hle := height_le_nodesToJson h
    simp only [Form.children] at hle
    omega
  case assign | unary =>
    obtain rfl := List.mem_singleton.mp h
    omega
  case binary | index | whileLoop =>
    rcases List.mem_pair.mp h with rfl | rfl <;> omega
  case ternary =>
    simp only [Form.children, List.mem_cons, List.not_mem_nil, or_false] at h
    rcases h with rfl | rfl | rfl <;> omega
  case ifElse arms otherwise =>
    rcases List.mem_append.mp h with h | h
    · obtain ⟨arm, harm, h⟩ := List.mem_flatMap.mp h
      have hle := height_le_armsToJson harm
      rcases List.mem_pair.mp h with rfl | rfl <;> omega
    · have heq := height_optionToJson h
      omega
  case forLoop name first last step body =>
    simp only [Form.children, List.mem_append, List.mem_cons, List.not_mem_nil, or_false] at h
    rcases h with ((rfl | rfl) | h) | rfl
    · omega
    · omega
    · have heq := height_optionToJson h
      omega
    · omega
  case function definition =>
    obtain ⟨name, params, body, isExpression⟩ := definition
    obtain rfl := List.mem_singleton.mp h
    simp only [Definition.toJson, Json.record, List.map_cons, List.map_nil, Json.height,
      Json.heightOfMembers]
    omega
  case call callee args =>
    rcases List.mem_cons.mp h with rfl | h
    · omega
    · have hle := height_le_nodesToJson h
      omega
  case returning value =>
    have heq := height_optionToJson h
    omega

/-! ## What is stored can be written -/

/-- A record can be written if its members can. -/
theorem Json.Proper.record {members : List (String × Json)}
    (h : ∀ member ∈ members, Json.Proper member.2) :
    (Json.record members).Proper := by
  refine .object ?_ ?_
  · intro member hmember
    obtain ⟨⟨name, value⟩, -, rfl⟩ := List.mem_map.mp hmember
    rfl
  · intro member hmember
    obtain ⟨⟨name, value⟩, hmem, rfl⟩ := List.mem_map.mp hmember
    exact h _ hmem

theorem proper_ofNat (n : Nat) : (Json.ofNat n).Proper := .number (Json.Numeral.wellFormed_ofNat n)

/-- A position can be written. -/
theorem proper_position (p : Position) : p.toJson.Proper := by
  refine .record ?_
  simp [proper_ofNat]

/-- A span can be written. -/
theorem proper_span (s : Span) : s.toJson.Proper := by
  refine .record ?_
  simp [proper_position]

/-- Nodes can be written if each of them can. -/
theorem proper_nodesToJson {nodes : List Node} (h : ∀ node ∈ nodes, node.toJson.Proper) :
    (Json.array (nodesToJson nodes)).Proper := by
  rw [nodesToJson_eq_map]
  exact .array (List.forall_mem_map.mpr h)

/-- A node that may be missing can be written, and so can that it is missing. -/
theorem proper_optionToJson {value : Option Node} (h : ∀ node ∈ value.toList, node.toJson.Proper) :
    (optionToJson value).Proper := by
  cases value with
  | none => exact .null
  | some node => exact h node (by simp)

/-- A stored number is a numeral, or `null` if it has none. -/
theorem proper_numberToJson (x : Float) : (numberToJson x).Proper := by
  unfold numberToJson
  split
  next n hn => exact .number (Json.Numeral.wellFormed_ofFloat? hn)
  next => exact .null

/-- A form can be written if the nodes below it can. -/
theorem proper_form {form : Form} (h : ∀ child ∈ form.children, child.toJson.Proper) :
    form.toJson.Proper := by
  have htagged : ∀ {kind : String} {content : Json}, content.Proper →
      (taggedJson kind content).Proper :=
    fun hcontent => .record (List.forall_mem_singleton.mpr hcontent)
  cases form
  all_goals simp only [Form.toJson]
  case number x => exact htagged (proper_numberToJson x)
  case text s | var s => exact htagged (.text s)
  case null | breaking | continuing => exact .text _
  case list | block => exact htagged (proper_nodesToJson h)
  case returning value => exact htagged (proper_optionToJson h)
  case function definition =>
    obtain ⟨name, params, body, isExpression⟩ := definition
    have hname : (nameToJson name).Proper := by
      cases name with
      | none => exact .null
      | some name => exact .text name
    have hparams : (Json.array (params.map Json.ofString)).Proper :=
      .array (List.forall_mem_map.mpr fun param _ => .text param)
    have hbody : body.toJson.Proper := h body List.mem_cons_self
    exact htagged (.record (by simp [hname, hparams, hbody, Json.Proper.bool]))
  case ifElse arms otherwise =>
    obtain ⟨harms, hotherwise⟩ := List.forall_mem_append.mp h
    have hcases : (Json.array (armsToJson arms)).Proper := by
      rw [armsToJson_eq_map]
      refine .array (List.forall_mem_map.mpr fun arm harm => .record ?_)
      have hparts : ∀ child ∈ [arm.cond, arm.body], child.toJson.Proper := fun child hchild =>
        harms child (List.mem_flatMap.mpr ⟨arm, harm, hchild⟩)
      simpa using hparts
    exact htagged (.record (by simp [hcases, proper_optionToJson hotherwise]))
  case call callee args =>
    obtain ⟨hcallee, hargs⟩ := List.forall_mem_cons.mp h
    exact htagged (.record (by simp [hcallee, proper_nodesToJson hargs]))
  case forLoop name first last step body =>
    obtain ⟨⟨hbounds, hstep⟩, hbody⟩ :=
      (List.forall_mem_append.mp h).imp_left List.forall_mem_append.mp
    simp only [List.forall_mem_cons] at hbounds hbody
    exact htagged (.record (by simp [hbounds, hbody, proper_optionToJson hstep, Json.Proper.text]))
  -- The other forms have a fixed number of nodes, besides names and operators.
  all_goals
    simp only [Form.children, List.forall_mem_cons] at h
    exact htagged (.record (by simp [h, Json.Proper.text]))

/-! ## Whole trees -/

/-- Every tree can be written. -/
theorem Node.proper_toJson (node : Node) : node.toJson.Proper := by
  obtain ⟨form, span⟩ := node
  have hform : form.toJson.Proper := proper_form fun child _ => child.proper_toJson
  exact .record (by simp [hform, proper_span])
termination_by sizeOf node
decreasing_by
  have hlt : sizeOf child < sizeOf form := Form.sizeOf_lt_of_mem_children ‹_›
  simp only [Node.mk.sizeOf_spec]
  omega

/-- A tree is read back from its stored value. -/
theorem nodeOfJson?_toJson {tree : Node} (h : ∀ node : Node, node.Within tree → node.Storable)
    {height : Nat}
    (hheight : tree.toJson.height ≤ height) : nodeOfJson? height tree.toJson = some tree := by
  -- The height is the fuel of the reader, and nodes below a form are stored below it.
  induction height generalizing tree with
  | zero =>
    obtain ⟨form, span⟩ := tree
    simp [Node.toJson, Json.record, Json.height] at hheight
  | succ height ih =>
    obtain ⟨form, span⟩ := tree
    have hnode : Node.Storable ⟨form, span⟩ := h _ .refl
    have hform : formOfJson? (nodeOfJson? height) form.toJson = some form := by
      refine formOfJson?_toJson hnode.number fun child hchild => ih (fun inner hinner => ?_) ?_
      · exact h inner (.child hchild hinner)
      · have hlt := height_lt_of_mem_children hchild
        simp only [Node.toJson, Json.record, List.map_cons, List.map_nil, Json.height,
          Json.heightOfMembers] at hheight
        omega
    show (do
      let read ← formOfJson? (nodeOfJson? height) form.toJson
      return Node.mk read (← Span.ofJson? span.toJson)) = _
    rw [hform, Span.ofJson?_toJson hnode.start hnode.stop]
    rfl

/-- Reading undoes storing. Whatever the shape of a tree and however deep, and whatever texts and
names there are in it, its text is read as the tree itself, with all spans. The text may be laid out
in any way that adds only blanks. All that is asked of the tree is that its positions are counts of
64 bits, and that its numbers are finite and one by one read as they are written. -/
theorem stored_trees_are_read_back {layout : Json.Layout} (hlayout : layout.OnlyBlanks)
    {tree : Node} (h : ∀ node : Node, node.Within tree → node.Storable) :
    (Json.read? (tree.toJson.write layout)).bind Node.ofJson? = some tree := by
  rw [tree.proper_toJson.read?_write hlayout]
  exact nodeOfJson?_toJson h (Nat.le_refl _)

/-- A function without a name in a loop without a step, with a number that has no exact digits and a
text of characters that are escaped each in its own way. -/
theorem stored_trees_are_read_back_of_function :
    let place (start stop : Nat) : Span := ⟨⟨start, 1, start⟩, ⟨stop, 1, stop⟩⟩
    let tree : Node := ⟨.block [⟨.forLoop "i" ⟨.number 0.1, place 8 11⟩ ⟨.null, place 14 18⟩ none
      ⟨.function ⟨none, ["x", "y"],
        ⟨.returning (some ⟨.text "é\"\\\n\x01", place 39 50⟩), place 32 50⟩, false⟩,
        place 20 52⟩, place 0 54⟩], place 0 55⟩
    (∀ node : Node, node.Within tree → node.Storable) ∧
      (Json.read? (tree.toJson.write .indented)).bind Node.ofJson? = some tree := by
  intro place tree
  have htenth : Number.Storable 0.1 := by
    refine ⟨by decide, fun n hn => ?_⟩
    have hnumeral : Json.Numeral.ofFloat? 0.1 = some ⟨false, ['0'], ['1'], none⟩ := by
      decide +kernel
    obtain rfl := Option.some.inj (hnumeral.symm.trans hn)
    decide +kernel
  have hstorable : ∀ node : Node, node.Within tree → node.Storable := by
    intro node hnode
    -- All places in the tree are below a hundred, and there are seven nodes.
    have hlarge : 1 < Nat.pow 2 64 ∧ 100 < Nat.pow 2 64 := by decide
    have hfits : ∀ n, n < 100 → Position.Fits ⟨n, 1, n⟩ := fun n hn =>
      ⟨hn.trans hlarge.2, hlarge.1, hn.trans hlarge.2⟩
    simp only [tree, Node.within_mk, Form.children, exists_eq_left, List.mem_append, List.mem_cons,
      List.not_mem_nil, or_false, Option.mem_toList, reduceCtorEq, or_assoc, exists_eq_or_imp,
      Option.some.injEq, exists_eq_left', false_and, exists_false] at hnode
    rcases hnode with rfl | rfl | rfl | rfl | rfl | rfl | rfl <;>
      refine ⟨hfits _ (by decide), hfits _ (by decide), fun x hx => ?_⟩ <;> cases hx
    exact htenth
  exact ⟨hstorable, stored_trees_are_read_back Json.Layout.onlyBlanks_indented hstorable⟩

end Script
