import Script.Machine.Builtins
import Script.Proofs.Tree.Alike

/-!
# Values that are alike

Two runs can be compared step by step even if their trees are not the same, as long as both trees
ask for the same things to be done. A `Likeness` says how far the trees, the places of their nodes
and the variables of two runs correspond. It determines which values are alike (`Value.Alike`):
functions if they were made from corresponding literals at corresponding sites, lists if their items
are, and all other values only if they are the same.

No operation looks into a function. Sites are compared with each other only, and they correspond one
to one. So operations on values that are alike have results that are alike, or fail for the same
reason (`Likewise`).
-/

namespace Script

/-- How far two runs correspond. -/
structure Likeness where
  /-- Which nodes do. -/
  nodes : Node → Node → Prop
  /-- Which places of nodes do. -/
  sites : Site → Site → Prop
  /-- Which spans do. -/
  spans : Span → Span → Prop
  /-- The names of the variables that do. No others are looked up. -/
  reads : String → Prop
  /-- Nodes that correspond say the same. -/
  form_alike : ∀ {node node' : Node}, nodes node node' → node.form.Alike nodes reads node'.form
  /-- Their spans correspond. -/
  span_alike : ∀ {node node' : Node}, nodes node node' → spans node.span node'.span
  /-- So do the places directly below places that do. -/
  child_alike : ∀ {site site' : Site}, sites site site' →
    ∀ position, sites (site.child position) (site'.child position)
  /-- Places correspond one to one. -/
  sites_iff : ∀ {s s' t t' : Site}, sites s s' → sites t t' → (s = t ↔ s' = t')

/-- Two values of corresponding runs. -/
inductive Value.Alike (L : Likeness) : Value → Value → Prop
  | number (x : Float) : Alike L (.number x) (.number x)
  | text (s : String) : Alike L (.text s) (.text s)
  | list {items items' : List Value} (hitems : List.Forall₂ (Alike L) items items') :
      Alike L (.list items) (.list items')
  | null : Alike L .null .null
  | function {site site' : Site} {definition definition' : Definition} (hsite : L.sites site site')
      (hdefinition : definition.Alike L.nodes definition') :
      Alike L (.function site definition) (.function site' definition')
  | builtin (b : Builtin) : Alike L (.builtin b) (.builtin b)

/-- Two computations give corresponding results, or the same is wrong with both. -/
inductive Likewise {α β : Type} (values : α → β → Prop) : Except Fault α → Except Fault β → Prop
  | ok {a : α} {b : β} (h : values a b) : Likewise values (.ok a) (.ok b)
  | error (fault : Fault) : Likewise values (.error fault) (.error fault)

namespace Likewise

variable {α β α' β' : Type} {values : α → β → Prop} {values' : α' → β' → Prop}
variable {r : Except Fault α} {r' : Except Fault β}

/-- The same computation twice. -/
theorem refl (r : Except Fault α) : Likewise Eq r r := by
  cases r with
  | ok a => exact .ok rfl
  | error fault => exact .error fault

/-- Failures are alike if their faults are the same. -/
theorem error_of_eq {fault fault' : Fault} (h : fault = fault') :
    Likewise values (.error fault) (.error fault') := by
  rw [h]
  exact .error fault'

/-- Operations one after another are alike if each is. -/
theorem bind {f : α → Except Fault α'} {f' : β → Except Fault β'} (h : Likewise values r r')
    (hf : ∀ a b, values a b → Likewise values' (f a) (f' b)) :
    Likewise values' (r >>= f) (r' >>= f') := by
  cases h with
  | ok h => exact hf _ _ h
  | error fault => exact .error fault

/-- What is made of results that are alike is so too. -/
theorem map {f : α → α'} {f' : β → β'} (h : Likewise values r r')
    (hf : ∀ a b, values a b → values' (f a) (f' b)) : Likewise values' (r.map f) (r'.map f') := by
  cases h with
  | ok h => exact .ok (hf _ _ h)
  | error fault => exact .error fault

end Likewise

variable {L : Likeness}

namespace Value.Alike

/-! ## What is the same of values that are alike -/

section

variable {v w : Value}

theorem type_eq (h : v.Alike L w) : v.type = w.type := by
  cases h <;> rfl

theorem isTruthy_eq (h : v.Alike L w) : v.isTruthy = w.isTruthy := by
  cases h <;> rfl

theorem isCallable_eq (h : v.Alike L w) : v.isCallable = w.isCallable := by
  cases h <;> rfl

theorem isText_eq (h : v.Alike L w) : Builtin.isText v = Builtin.isText w := by
  cases h <;> rfl

/-- Values that are alike have the same length. -/
theorem length?_eq (h : v.Alike L w) : v.length? = w.length? := by
  cases h with
  | list hitems => exact congrArg some hitems.length_eq
  | number | text | null | function | builtin => rfl

end

/-- A number or a truth value that both runs computed. -/
theorem ofBool (b : Bool) : (Value.ofBool b).Alike L (Value.ofBool b) := .number _

end Value.Alike

mutual

/-- Values that are alike look the same when they are printed. -/
theorem Value.Alike.display_eq : {v w : Value} → v.Alike L w → v.display = w.display
  | .list items, _, .list hitems => by
    rw [Value.display, Value.display, map_display_eq hitems]
  | _, _, .function _ hdefinition => by
    rw [Value.display, Value.display, Definition.displayName, Definition.displayName,
      hdefinition.name, hdefinition.params]
  | _, _, .number _ | _, _, .text _ | _, _, .null | _, _, .builtin _ => rfl

/-- Values that are alike are shown in the same way. -/
theorem map_display_eq : {items items' : List Value} → List.Forall₂ (Value.Alike L) items items' →
    items.map Value.display = items'.map Value.display
  | [], _, .nil => rfl
  | item :: items, _, .cons hitem hitems => by
    rw [List.map_cons, List.map_cons, hitem.display_eq, map_display_eq hitems]

end

mutual

/-- Values are the same in one run if they are in the other. -/
theorem Value.Alike.equals_eq : {v w v' w' : Value} → v.Alike L v' → w.Alike L w' →
    v.equals w = v'.equals w'
  | .list items, _, _, _, .list hitems, hw => by
    cases hw with
    | list hothers => rw [Value.equals, Value.equals, allEqual_eq hitems hothers]
    | number | text | null | function | builtin => rfl
  | _, _, _, _, .function hsite _, hw => by
    cases hw with
    | function hother _ =>
      -- Functions are told apart by their sites alone.
      rw [Value.equals, Value.equals, Bool.eq_iff_iff, beq_iff_eq, beq_iff_eq]
      exact L.sites_iff hsite hother
    | number | text | list | null | builtin => rfl
  | _, _, _, _, .number _, hw | _, _, _, _, .text _, hw | _, _, _, _, .null, hw
  | _, _, _, _, .builtin _, hw => by
    cases hw <;> rfl

/-- Items that are alike are equal on both sides or on none. -/
theorem allEqual_eq : {items others items' others' : List Value} →
    List.Forall₂ (Value.Alike L) items items' → List.Forall₂ (Value.Alike L) others others' →
    Value.allEqual items others = Value.allEqual items' others'
  | [], _, _, _, .nil, .nil => rfl
  | [], _, _, _, .nil, .cons _ _ => rfl
  | _ :: _, _, _, _, .cons _ _, .nil => rfl
  | item :: items, _, _, _, .cons hitem hitems, .cons hother hothers => by
    rw [Value.allEqual, Value.allEqual, hitem.equals_eq hother, allEqual_eq hitems hothers]

end

namespace Value

/-! ## Operators -/

variable {v v' w w' : Value}

/-- Sums are alike if their operands are. -/
theorem alike_add (hv : v.Alike L v') (hw : w.Alike L w') :
    Likewise (Alike L) (add v w) (add v' w') := by
  cases hv with
  | number x =>
    cases hw with
    | number y => exact .ok (.number _)
    | text t => exact .ok (.text _)
    | list | null | function | builtin => exact .error _
  | text s =>
    cases hw with
    | number y => exact .ok (.text _)
    | text t => exact .ok (.text _)
    | list | null | function | builtin => exact .error _
  | list hitems =>
    cases hw with
    | list hothers => exact .ok (.list (List.rel_append hitems hothers))
    | number | text | null | function | builtin => exact .error _
  | null | function | builtin => exact .error _

/-- Arithmetic looks at numbers only, which are the same if they are alike. -/
theorem alike_arithmetic {op : BinaryOp} (f : Float → Float → Except Fault Float)
    (hv : v.Alike L v') (hw : w.Alike L w') :
    Likewise (Alike L) (arithmetic op f v w) (arithmetic op f v' w') := by
  cases hv with
  | number x =>
    cases hw with
    | number y => exact (Likewise.refl (f x y)).map fun _ _ heq => heq ▸ .number _
    | text | list | null | function | builtin => exact .error _
  | text | list | null | function | builtin => exact .error _

/-- A repeated text has no function in it. -/
theorem alike_repeatText (s : String) (x : Float) :
    Likewise (Alike L) (repeatText s x) (repeatText s x) := by
  simp only [repeatText]
  split
  · exact .ok (.text _)
  · split
    · split
      · exact .ok (.text _)
      · exact .error _
    · exact .error _

/-- Products are alike if their factors are. -/
theorem alike_mul (hv : v.Alike L v') (hw : w.Alike L w') :
    Likewise (Alike L) (mul v w) (mul v' w') := by
  cases hv with
  | number x =>
    cases hw with
    | number y => exact .ok (.number _)
    | text t => exact alike_repeatText t x
    | list | null | function | builtin => exact .error _
  | text s =>
    cases hw with
    | number y => exact alike_repeatText s y
    | text | list | null | function | builtin => exact .error _
  | list | null | function | builtin => exact .error _

/-- Values that are alike are in the same order. -/
theorem Alike.order_eq (hv : v.Alike L v') (hw : w.Alike L w') : order v w = order v' w' := by
  cases hv with
  | number x => cases hw <;> rfl
  | text s => cases hw <;> rfl
  | list | null | function | builtin => rfl

/-- Comparisons of values that are alike have the same result. -/
theorem alike_compare (accept : Ordering → Bool) (hv : v.Alike L v') (hw : w.Alike L w') :
    Likewise (Alike L) ((compare accept v w).map ofBool) ((compare accept v' w').map ofBool) := by
  have heq : compare accept v w = compare accept v' w' := by
    rw [compare, compare, hv.order_eq hw]
  rw [heq]
  exact (Likewise.refl _).map fun _ _ hbool => hbool ▸ .ofBool _

/-- What an operator makes of values that are alike is alike. -/
theorem alike_binary (op : BinaryOp) (hv : v.Alike L v') (hw : w.Alike L w') :
    Likewise (Alike L) (binary op v w) (binary op v' w') := by
  cases op with
  | add => exact alike_add hv hw
  | sub | pow | div | mod => exact alike_arithmetic _ hv hw
  | mul => exact alike_mul hv hw
  | eq | ne =>
    simp only [binary, hv.equals_eq hw]
    exact .ok (.ofBool _)
  | lt | gt | le | ge => exact alike_compare _ hv hw
  | and =>
    refine .ok ?_
    unfold Value.and
    rw [hv.isTruthy_eq, hw.isTruthy_eq]
    split
    · exact hw
    · exact .number _
  | or =>
    refine .ok ?_
    unfold Value.or
    rw [hv.isTruthy_eq, hw.isTruthy_eq]
    split
    · exact hv
    · split
      · exact hw
      · exact .number _

/-- A unary operator does the same to values that are alike. -/
theorem alike_unary (op : UnaryOp) (hv : v.Alike L v') :
    Likewise (Alike L) (unary op v) (unary op v') := by
  cases op with
  | neg => exact alike_mul hv (.number _)
  | plus => exact .ok hv
  | not =>
    refine .ok ?_
    rw [Value.not, Value.not, hv.isTruthy_eq]
    exact .ofBool _

/-- The items at the same position. -/
theorem alike_getD {items items' : List Value} (h : List.Forall₂ (Alike L) items items') (i : Nat) :
    (items.getD i .null).Alike L (items'.getD i .null) := by
  induction h generalizing i with
  | nil => exact .null
  | cons hitem _ ih =>
    cases i with
    | zero => exact hitem
    | succ i => exact ih i

/-- Elements at the same place of wholes that are alike. -/
theorem alike_index {target target' place place' : Value} (htarget : target.Alike L target')
    (hplace : place.Alike L place') :
    Likewise (Alike L) (index target place) (index target' place') := by
  unfold index
  rw [htarget.length?_eq, htarget.type_eq]
  cases target'.length? with
  | none => exact .error _
  | some length =>
    cases hplace with
    | number x =>
      refine (Likewise.refl (position x length)).bind fun i _ heq => heq ▸ ?_
      cases htarget with
      | list hitems => exact .ok (alike_getD hitems i)
      | text s =>
        refine .ok ?_
        cases s.toList[i]? with
        | none => exact .null
        | some c => exact .text _
      | number | null | function | builtin => exact .ok .null
    | text | list | null | function | builtin => exact .error _

end Value

namespace Builtin

/-! ## Built-in functions -/

section

variable {v v' : Value}

/-- A text is found on both sides or on none. -/
theorem alike_wantText (b : Builtin) (hv : v.Alike L v') :
    Likewise Eq (wantText b v) (wantText b v') := by
  cases hv with
  | text s => exact .ok rfl
  | number | list | null | function | builtin => exact .error _

/-- A list is found on both sides or on none, and the items are alike. -/
theorem alike_wantList (b : Builtin) (hv : v.Alike L v') :
    Likewise (List.Forall₂ (Value.Alike L)) (wantList b v) (wantList b v') := by
  cases hv with
  | list hitems => exact .ok hitems
  | number | text | null | function | builtin => exact .error _

/-- A function is found on both sides or on none. -/
theorem alike_wantFunction (b : Builtin) (hv : v.Alike L v') :
    Likewise Eq (wantFunction b v) (wantFunction b v') := by
  unfold wantFunction
  rw [hv.isCallable_eq, hv.type_eq]
  exact .refl _

/-- The lengths of values that are alike are the same. -/
theorem alike_lengthOf (hv : v.Alike L v') :
    Likewise (Value.Alike L) (lengthOf v) (lengthOf v') := by
  unfold lengthOf
  rw [hv.length?_eq, hv.type_eq]
  cases v'.length? with
  | none => exact .error _
  | some n => exact .ok (.number _)

/-- Values that are alike are converted to the same number. -/
theorem alike_toNumber (hv : v.Alike L v') :
    Likewise (Value.Alike L) (toNumber v) (toNumber v') := by
  cases hv with
  | number x => exact .ok (.number x)
  | text s =>
    simp only [toNumber]
    cases Number.read? s with
    | none => exact .error _
    | some x => exact .ok (.number x)
  | list | null | function | builtin => exact .error _

end

section

variable {args args' : List Value} (h : List.Forall₂ (Value.Alike L) args args')

include h

/-- Too many or too few arguments are the same fault on both sides. -/
theorem arityFault_eq (b : Builtin) (expected : Nat) :
    b.arityFault expected args = b.arityFault expected args' := by
  rw [arityFault, arityFault, h.length_eq]

/-- The only argument is alike on both sides. -/
theorem alike_one (b : Builtin) : Likewise (Value.Alike L) (one b args) (one b args') := by
  have harity := arityFault_eq h b 1
  cases h with
  | nil => exact .error_of_eq harity
  | cons hv hrest =>
    cases hrest with
    | nil => exact .ok hv
    | cons => exact .error_of_eq harity

/-- The items of a list that must not be empty are alike. -/
theorem alike_oneNonEmpty (b : Builtin) :
    Likewise (List.Forall₂ (Value.Alike L)) (oneNonEmpty b args) (oneNonEmpty b args') := by
  refine (alike_one h b).bind fun v v' hv =>
    (alike_wantList b hv).bind fun items items' hitems => ?_
  cases hitems with
  | nil => exact .error _
  | cons hitem hitems => exact .ok (.cons hitem hitems)

/-- The items of the list and the arguments behind it are alike. -/
theorem alike_listAndRest (b : Builtin) :
    Likewise (fun parts parts' => List.Forall₂ (Value.Alike L) parts.1 parts'.1 ∧
      List.Forall₂ (Value.Alike L) parts.2 parts'.2) (listAndRest b args)
        (listAndRest b args') := by
  have hlength : Fault.tooFewArguments b args.length = .tooFewArguments b args'.length := by
    rw [h.length_eq]
  cases h with
  | nil => exact .error_of_eq hlength
  | cons hfirst hrest =>
    cases hrest with
    | nil => exact .error_of_eq hlength
    | cons hnext hrest =>
      exact (alike_wantList b hfirst).bind fun _ _ hitems => .ok ⟨hitems, .cons hnext hrest⟩

/-- What becomes of a text is the same on both sides. -/
theorem alike_mapText (b : Builtin) (f : List Char → List Char) :
    Likewise (Value.Alike L) (mapText b f args) (mapText b f args') := by
  refine (alike_one h b).bind fun v v' hv => (alike_wantText b hv).bind fun s s' hs => ?_
  rw [hs]
  exact .ok (.text _)

/-- Replacing looks at texts only. -/
theorem alike_replaceAll : Likewise (Value.Alike L) (replaceAll args) (replaceAll args') := by
  have harity := arityFault_eq h .replace 3
  cases h with
  | nil => exact .error_of_eq harity
  | cons hv hrest =>
    cases hrest with
    | nil => exact .error_of_eq harity
    | cons hold hrest =>
      cases hrest with
      | nil => exact .error_of_eq harity
      | cons hnew hrest =>
        cases hrest with
        | cons => exact .error_of_eq harity
        | nil =>
          refine (alike_wantText _ hv).bind fun s s' hs =>
            (alike_wantText _ hold).bind fun t t' ht =>
            (alike_wantText _ hnew).bind fun u u' hu => ?_
          rw [hs, ht, hu]
          split
          · exact .ok (.text _)
          · exact .ok (.text _)

/-- The exit code is the same on both sides. -/
theorem exitArgument_eq : exitArgument args = exitArgument args' := by
  cases h with
  | nil => rfl
  | cons hv hrest => cases hv <;> rfl

/-- Results that only depend on the arguments are alike if the arguments are. -/
theorem alike_compute? (b : Builtin) :
    Likewise (Value.Alike L) ((b.compute? args).getD (.ok .null))
      ((b.compute? args').getD (.ok .null)) := by
  cases b with
  | len => exact (alike_one h _).bind fun _ _ hv => alike_lengthOf hv
  | append =>
    exact (alike_listAndRest h _).map fun _ _ hparts => .list (List.rel_append hparts.1 hparts.2)
  | prepend =>
    exact (alike_listAndRest h _).map fun _ _ hparts => .list (List.rel_append hparts.2 hparts.1)
  | pop =>
    refine (alike_oneNonEmpty h _).map fun items items' hitems => .list ?_
    rw [List.dropLast_eq_take, List.dropLast_eq_take, hitems.length_eq]
    exact List.forall₂_take _ hitems
  | shift =>
    refine (alike_oneNonEmpty h _).map fun items items' hitems => .list ?_
    rw [← List.drop_one, ← List.drop_one]
    exact List.forall₂_drop 1 hitems
  | str =>
    refine (alike_one h _).map fun v v' hv => ?_
    rw [hv.display_eq]
    exact .text _
  | num => exact (alike_one h _).bind fun _ _ hv => alike_toNumber hv
  | trim | upper | lower => exact alike_mapText h _ _
  | replace => exact alike_replaceAll h
  | exit => exact .error_of_eq (congrArg Fault.exit (exitArgument_eq h))
  -- These have results that depend on more than the arguments.
  | print | println | scan | map | reduce => exact .ok .null

/-- Behind a value that is printed, the others are printed in the same way. -/
theorem printAfter_eq {before before' : Value} (hbefore : before.Alike L before') :
    printAfter before args = printAfter before' args' := by
  induction h generalizing before before' with
  | nil => rfl
  | cons hv _ ih =>
    rw [printAfter, printAfter, hbefore.isText_eq, hv.isText_eq, hv.display_eq, ih hv]

/-- The same text is printed on both sides. -/
theorem printText_eq : printText args = printText args' := by
  cases h with
  | nil => rfl
  | cons hv hrest => rw [printText, printText, hv.display_eq, printAfter_eq hrest hv]

theorem printLine_eq : printLine args = printLine args' := by
  rw [printLine, printLine, map_display_eq h]

/-- The same prompt is shown on both sides. -/
theorem alike_scanPrompt : Likewise Eq (scanPrompt args) (scanPrompt args') := by
  have harity := arityFault_eq h .scan 1
  cases h with
  | nil => exact .refl _
  | cons hv hrest =>
    cases hrest with
    | nil => exact alike_wantText _ hv
    | cons => exact .error_of_eq harity

end

end Builtin

end Script
