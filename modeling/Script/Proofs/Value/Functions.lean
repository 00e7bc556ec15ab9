import Script.Machine.Builtins

/-!
# The functions inside values

Values are moved around by operators, lists and built-in functions, but none of these makes a
function: every function inside of a result was inside of an operand. `Value.Admits P` says of a
value that `P` holds of every function in it, also in the lists in it, and the theorems here say
that all operations preserve this, whatever `P` is.

Neither does any operation fail as a misplaced jump does, or for too many calls. So both are said at
once, by `Gives`.
-/

namespace Script

/-- What a computation gives, or what is wrong with it, is as described. -/
def Gives {α : Type} (value : α → Prop) (wrong : Fault → Prop) : Except Fault α → Prop
  | .ok a => value a
  | .error fault => wrong fault

namespace Gives

variable {α β : Type} {value : α → Prop} {value' : β → Prop} {wrong : Fault → Prop}
variable {result : Except Fault α}

@[simp]
theorem ok_iff {a : α} : Gives value wrong (.ok a) ↔ value a := Iff.rfl

@[simp]
theorem error_iff {fault : Fault} : Gives value wrong (.error fault) ↔ wrong fault := Iff.rfl

/-- What an operation comes to is as it is said to be. -/
theorem of_ok (h : Gives value wrong result) (a : α) (hok : result = .ok a) : value a := by
  subst hok
  exact h

/-- What an operation refuses its operands with is as it is said to be. -/
theorem of_error (h : Gives value wrong result) (fault : Fault) (herror : result = .error fault) :
    wrong fault := by
  subst herror
  exact h

theorem bind {f : α → Except Fault β} (h : Gives value wrong result)
    (hf : ∀ a, value a → Gives value' wrong (f a)) : Gives value' wrong (result >>= f) := by
  cases result with
  | ok a => exact hf a h
  | error fault => exact h

/-- What is made of a result is judged by the result. -/
theorem map {f : α → β} (h : Gives value wrong result) (hf : ∀ a, value a → value' (f a)) :
    Gives value' wrong (result.map f) := by
  cases result with
  | ok a => exact hf a h
  | error fault => exact h

end Gives

/-- A fault that is no jump out of place. -/
def Fault.Ordinary (fault : Fault) : Prop := fault.kind ≠ .invalidControlFlow

/-- Only a jump out of place is not ordinary. -/
@[simp]
theorem Fault.ordinary_iff {fault : Fault} : fault.Ordinary ↔ fault.kind ≠ .invalidControlFlow :=
  Iff.rfl

/-- A fault that has nothing to do with where a computation is: it is neither a jump out of place
nor one call too many. -/
structure Fault.OfOperation (fault : Fault) : Prop where
  ordinary : fault.Ordinary
  depth : fault.kind ≠ .stackOverflow

/-- An operation fails neither for a jump out of place nor for the depth of calls. -/
@[simp]
theorem Fault.ofOperation_iff {fault : Fault} :
    fault.OfOperation ↔ fault.kind ≠ .invalidControlFlow ∧ fault.kind ≠ .stackOverflow :=
  ⟨fun h => ⟨h.ordinary, h.depth⟩, fun h => ⟨h.1, h.2⟩⟩

mutual

/-- Every function in the value is one that `P` holds of. -/
def Value.Admits (P : Site → Definition → Prop) : Value → Prop
  | .list items => AllAdmit P items
  | .function site definition => P site definition
  | .number _ | .text _ | .null | .builtin _ => True

/-- Every function in the values is one that `P` holds of. -/
def AllAdmit (P : Site → Definition → Prop) : List Value → Prop
  | [] => True
  | value :: values => value.Admits P ∧ AllAdmit P values

end

variable {P : Site → Definition → Prop}

/-- Values are admitted together if each of them is. -/
theorem allAdmit_iff {values : List Value} : AllAdmit P values ↔ ∀ v ∈ values, v.Admits P := by
  induction values with
  | nil => simp [AllAdmit]
  | cons value values ih => simp [AllAdmit, ih]

mutual

/-- Nothing is said of a value by what holds of all functions. -/
theorem Value.admits_of_forall (h : ∀ site definition, P site definition) :
    (value : Value) → value.Admits P
  | .list items => allAdmit_of_forall h items
  | .function site definition => h site definition
  | .number _ | .text _ | .null | .builtin _ => trivial

/-- Every list is admitted if every function is. -/
theorem allAdmit_of_forall (h : ∀ site definition, P site definition) :
    (values : List Value) → AllAdmit P values
  | [] => trivial
  | value :: values => ⟨value.admits_of_forall h, allAdmit_of_forall h values⟩

end

mutual

/-- What holds of all functions in a value may be weakened. -/
theorem Value.Admits.mono {Q : Site → Definition → Prop}
    (h : ∀ site definition, P site definition → Q site definition) :
    {value : Value} → value.Admits P → value.Admits Q
  | .list _, hitems => allAdmit_mono h hitems
  | .function site definition, hfunction => h site definition hfunction
  | .number _, _ | .text _, _ | .null, _ | .builtin _, _ => trivial

/-- A weaker property admits more lists. -/
theorem allAdmit_mono {Q : Site → Definition → Prop}
    (h : ∀ site definition, P site definition → Q site definition) :
    {values : List Value} → AllAdmit P values → AllAdmit Q values
  | [], _ => trivial
  | _ :: _, ⟨hvalue, hvalues⟩ => ⟨hvalue.mono h, allAdmit_mono h hvalues⟩

end

namespace Value

/-- A list is admitted if its items are. -/
theorem admits_list {items : List Value} :
    (Value.list items).Admits P ↔ ∀ v ∈ items, v.Admits P := by
  rw [Admits]
  exact allAdmit_iff

/-! ## Operators -/

theorem ofOperation_unsupported (v : Value) (op : BinaryOp) : (v.unsupported op).OfOperation := by
  cases v <;> simp [unsupported, Fault.kind]

/-- A sum has no functions in it but those of its operands. -/
theorem gives_add {v w : Value} (hv : v.Admits P) (hw : w.Admits P) :
    Gives (·.Admits P) Fault.OfOperation (add v w) := by
  unfold add
  split
  · trivial
  · trivial
  · trivial
  · trivial
  · rw [admits_list] at hv hw
    refine admits_list.mpr fun u hu => ?_
    rcases List.mem_append.mp hu with hu | hu
    · exact hv u hu
    · exact hw u hu
  · simp [Fault.kind]
  · exact ofOperation_unsupported _ _

/-- Arithmetic comes to a number, which has no function in it. -/
theorem gives_arithmetic {op : BinaryOp} {f : Float → Float → Except Fault Float}
    (hf : ∀ x y, Gives (fun _ => True) Fault.OfOperation (f x y)) (v w : Value) :
    Gives (·.Admits P) Fault.OfOperation (arithmetic op f v w) := by
  unfold arithmetic
  split
  · exact (hf _ _).map fun _ _ => trivial
  · simp [Fault.kind]
  · exact ofOperation_unsupported _ _

/-- To divide by zero is a fault of the operation. -/
theorem gives_divided {y : Float} (x : Float) :
    Gives (fun _ => True) Fault.OfOperation
      (if y == 0.0 then .error .divisionByZero else .ok x) := by
  split
  · simp [Fault.kind]
  · trivial

/-- A repeated text may be too long, and has no function in it. -/
theorem gives_repeatText (s : String) (x : Float) :
    Gives (·.Admits P) Fault.OfOperation (repeatText s x) := by
  simp only [repeatText]
  split
  · trivial
  · split
    · split
      · trivial
      · simp [Fault.kind]
    · simp [Fault.kind]

/-- A product has no function in it. -/
theorem gives_mul (v w : Value) : Gives (·.Admits P) Fault.OfOperation (mul v w) := by
  unfold mul
  split
  · trivial
  · exact gives_repeatText _ _
  · exact gives_repeatText _ _
  · exact ofOperation_unsupported _ _

/-- A comparison comes to a number. -/
theorem gives_compare (accept : Ordering → Bool) (v w : Value) :
    Gives (·.Admits P) Fault.OfOperation ((compare accept v w).map ofBool) := by
  have horder : Gives (fun _ => True) Fault.OfOperation (order v w) := by
    unfold order
    split <;> simp [Fault.kind]
  have hcompare : Gives (fun _ => True) Fault.OfOperation (compare accept v w) :=
    horder.map fun _ _ => trivial
  exact hcompare.map fun _ _ => trivial

/-- What an operator makes of two values has no functions but theirs. -/
theorem gives_binary (op : BinaryOp) {v w : Value} (hv : v.Admits P) (hw : w.Admits P) :
    Gives (·.Admits P) Fault.OfOperation (binary op v w) := by
  cases op with
  | add => exact gives_add hv hw
  | sub => exact gives_arithmetic (f := fun x y => .ok (x - y)) (fun _ _ => trivial) v w
  | pow => exact gives_arithmetic (f := fun x y => .ok (Float.pow x y)) (fun _ _ => trivial) v w
  | mul => exact gives_mul v w
  | div | mod => exact gives_arithmetic (fun _ _ => gives_divided _) v w
  | eq | ne => trivial
  | lt | gt | le | ge => exact gives_compare _ v w
  | and =>
    show (v.and w).Admits P
    unfold Value.and
    split
    · exact hw
    · trivial
  | or =>
    show (v.or w).Admits P
    unfold Value.or
    split
    · exact hv
    · split
      · exact hw
      · trivial

/-- What an operator makes of a value has no functions but those in it. -/
theorem gives_unary (op : UnaryOp) {v : Value} (hv : v.Admits P) :
    Gives (·.Admits P) Fault.OfOperation (unary op v) := by
  cases op with
  | neg => exact gives_mul v _
  | plus => exact hv
  | not => trivial

/-- A position that is out of range is a fault of the operation. -/
theorem gives_position (index : Float) (length : Nat) :
    Gives (fun _ => True) Fault.OfOperation (position index length) := by
  unfold position
  split
  · simp [Fault.kind]
  · split
    · simp [Fault.kind]
    · split
      · simp [Fault.kind]
      · trivial

/-- An element has no functions but those in the whole. -/
theorem gives_index {target : Value} (htarget : target.Admits P) (place : Value) :
    Gives (·.Admits P) Fault.OfOperation (index target place) := by
  unfold index
  split
  · simp [Fault.kind]
  · split
    · refine (gives_position _ _).bind fun i _ => ?_
      split
      · rename_i items _
        show (items.getD i .null).Admits P
        rw [List.getD_eq_getElem?_getD]
        cases hitem : items[i]? with
        | none => trivial
        | some item => exact Value.admits_list.mp htarget item (List.mem_of_getElem? hitem)
      · rename_i s _
        show ((s.toList[i]?).elim Value.null fun c => .text (String.singleton c)).Admits P
        cases s.toList[i]? <;> trivial
      · trivial
    · simp [Fault.kind]

end Value

namespace Builtin

/-! ## Built-in functions -/

variable {args : List Value}

/-- A value that is no text is a fault of the operation. -/
theorem gives_wantText (b : Builtin) (v : Value) :
    Gives (fun _ => True) Fault.OfOperation (wantText b v) := by
  unfold wantText
  split
  · trivial
  · simp [Fault.kind]

/-- The items of a list that is admitted are admitted. -/
theorem gives_wantList (b : Builtin) {v : Value} (h : v.Admits P) :
    Gives (fun items => ∀ item ∈ items, item.Admits P) Fault.OfOperation (wantList b v) := by
  unfold wantList
  split
  · exact Value.admits_list.mp h
  · simp [Fault.kind]

/-- A value that cannot be called is a fault of the operation. -/
theorem gives_wantFunction (b : Builtin) (v : Value) :
    Gives (fun _ => True) Fault.OfOperation (wantFunction b v) := by
  unfold wantFunction
  split
  · trivial
  · simp [Fault.kind]

/-- The only argument is one of the arguments. -/
theorem gives_one (b : Builtin) (h : ∀ v ∈ args, v.Admits P) :
    Gives (·.Admits P) Fault.OfOperation (one b args) := by
  unfold one
  split
  · exact h _ List.mem_cons_self
  · simp [arityFault, Fault.kind]

/-- The items of a list in the arguments are admitted. -/
theorem gives_oneNonEmpty (b : Builtin) (h : ∀ v ∈ args, v.Admits P) :
    Gives (fun items => ∀ item ∈ items, item.Admits P) Fault.OfOperation (oneNonEmpty b args) := by
  refine (gives_one b h).bind fun v hv => (gives_wantList b hv).bind fun items hitems => ?_
  split
  · simp [Fault.kind]
  · exact hitems

/-- The items of the list and the arguments behind it are admitted. -/
theorem gives_listAndRest (b : Builtin) (h : ∀ v ∈ args, v.Admits P) :
    Gives (fun parts => (∀ item ∈ parts.1, item.Admits P) ∧ ∀ item ∈ parts.2, item.Admits P)
      Fault.OfOperation (listAndRest b args) := by
  unfold listAndRest
  split
  · rename_i first next rest
    refine (gives_wantList b (h first List.mem_cons_self)).bind fun items hitems => ?_
    exact ⟨hitems, fun item hitem => h item (List.mem_cons_of_mem _ hitem)⟩
  · simp [Fault.kind]

/-- What becomes of a text is a text. -/
theorem gives_mapText (b : Builtin) (f : List Char → List Char) (h : ∀ v ∈ args, v.Admits P) :
    Gives (·.Admits P) Fault.OfOperation (mapText b f args) :=
  (gives_one b h).bind fun v _ => (gives_wantText b v).bind fun _ _ => trivial

/-- A length is a number. -/
theorem gives_lengthOf (v : Value) : Gives (·.Admits P) Fault.OfOperation (lengthOf v) := by
  unfold lengthOf
  split
  · trivial
  · simp [Fault.kind]

/-- A conversion comes to a number. -/
theorem gives_toNumber (v : Value) : Gives (·.Admits P) Fault.OfOperation (toNumber v) := by
  unfold toNumber
  split
  · trivial
  · split
    · trivial
    · simp [Fault.kind]
  · simp [Fault.kind]

/-- Replacing comes to a text. -/
theorem gives_replaceAll (args : List Value) :
    Gives (·.Admits P) Fault.OfOperation (replaceAll args) := by
  unfold replaceAll
  split
  · refine (gives_wantText _ _).bind fun _ _ => (gives_wantText _ _).bind fun _ _ =>
      (gives_wantText _ _).bind fun _ _ => ?_
    split <;> trivial
  · simp [arityFault, Fault.kind]

/-- A result that only depends on the arguments has no functions but theirs. -/
theorem gives_compute? (b : Builtin) (h : ∀ v ∈ args, v.Admits P) :
    Gives (·.Admits P) Fault.OfOperation ((b.compute? args).getD (.ok .null)) := by
  cases b with
  | len => exact (gives_one _ h).bind fun v _ => gives_lengthOf v
  | append =>
    refine (gives_listAndRest _ h).map fun parts hparts => ?_
    exact Value.admits_list.mpr fun v hv => (List.mem_append.mp hv).elim (hparts.1 v) (hparts.2 v)
  | prepend =>
    refine (gives_listAndRest _ h).map fun parts hparts => ?_
    exact Value.admits_list.mpr fun v hv => (List.mem_append.mp hv).elim (hparts.2 v) (hparts.1 v)
  | pop =>
    refine (gives_oneNonEmpty _ h).map fun items hitems => ?_
    exact Value.admits_list.mpr fun v hv => hitems v ((List.dropLast_sublist items).subset hv)
  | shift =>
    refine (gives_oneNonEmpty _ h).map fun items hitems => ?_
    exact Value.admits_list.mpr fun v hv => hitems v (List.mem_of_mem_tail hv)
  | str => exact (gives_one _ h).map fun _ _ => trivial
  | num => exact (gives_one _ h).bind fun v _ => gives_toNumber v
  | trim | upper | lower => exact gives_mapText _ _ h
  | replace => exact gives_replaceAll args
  | exit => simp [compute?, Fault.kind]
  | print | println | scan | map | reduce => trivial

/-- A prompt may be missing or be no text. -/
theorem gives_scanPrompt (args : List Value) :
    Gives (fun _ => True) Fault.OfOperation (scanPrompt args) := by
  unfold scanPrompt
  split
  · trivial
  · exact gives_wantText _ _
  · simp [arityFault, Fault.kind]

end Builtin

end Script
