import Script.Proofs.Machine.Frame
import Script.Proofs.Value.Functions

/-!
# The functions within reach

A node can get hold of a function only by making one or by looking up a name, and a name is looked
up on the way from a scope to the root. `ScopeTree.Admits P tree scope` says of every function
within reach of a scope, in a variable or in a list in one, that `P` holds of it.

Binding a value that `P` admits keeps this, and so does a new scope whose bindings are all admitted.
What a call leaves behind needs no argument: a call leaves all scopes as they were, so whatever was
within reach before is within reach after it (`Keeps.inChild_admits`).
-/

namespace Script

variable {P : Site → Definition → Prop}

/-- Every function in the bindings is one that `P` holds of. -/
def Bindings.Admits (P : Site → Definition → Prop) (b : Bindings) : Prop :=
  ∀ name v, b.get? name = some v → v.Admits P

namespace Bindings

variable {b : Bindings}

theorem admits_empty : empty.Admits P := nofun

/-- A name may be bound to a value that is admitted. -/
theorem Admits.insert (h : b.Admits P) (name : String) {value : Value} (hvalue : value.Admits P) :
    (b.insert name value).Admits P := by
  intro other v hv
  by_cases hname : name = other
  · subst hname
    rw [get?_insert_self, Option.some.injEq] at hv
    exact hv ▸ hvalue
  · rw [get?_insert_of_ne b value hname] at hv
    exact h other v hv

/-- A name may be unbound. -/
theorem Admits.erase (h : b.Admits P) (name : String) : (b.erase name).Admits P := by
  intro other v hv
  by_cases hname : name = other
  · subst hname
    rw [get?_erase_self] at hv
    cases hv
  · rw [get?_erase_of_ne b hname] at hv
    exact h other v hv

/-- Names may be bound one after the other to values that are admitted. -/
theorem Admits.foldl_insert {α : Type} {items : List α} {name : α → String} {value : α → Value}
    (hvalue : ∀ item ∈ items, (value item).Admits P) (h : b.Admits P) :
    (items.foldl (fun b item => b.insert (name item) (value item)) b).Admits P := by
  induction items generalizing b with
  | nil => exact h
  | cons item items ih =>
    exact ih (fun item hitem => hvalue item (List.mem_cons_of_mem _ hitem))
      (h.insert _ (hvalue item List.mem_cons_self))

/-- Parameters may be bound to arguments that are admitted. -/
theorem admits_ofPairs (names : List String) {values : List Value} (h : ∀ v ∈ values, v.Admits P) :
    (ofPairs names values).Admits P := by
  refine Admits.foldl_insert (fun pair hpair => ?_) admits_empty
  exact h pair.2 (List.of_mem_zip hpair).2

end Bindings

namespace ScopeTree

variable {tree tree' : ScopeTree} {scope id id' : ScopeId}

/-- A scope is on the way from another one to the root, or is that scope. -/
inductive Above (tree : ScopeTree) : ScopeId → ScopeId → Prop
  | refl (id : ScopeId) : Above tree id id
  | step {id parent id' : ScopeId} (hparent : tree.parent? id = some parent) (hlt : parent < id)
      (h : Above tree parent id') : Above tree id id'

/-- Every function within reach of a scope is one that `P` holds of. -/
def Admits (P : Site → Definition → Prop) (tree : ScopeTree) (scope : ScopeId) : Prop :=
  ∀ id, tree.Above scope id → (tree.bindings id).Admits P

theorem Admits.mono {Q : Site → Definition → Prop} (h : tree.Admits P scope)
    (himp : ∀ site definition, P site definition → Q site definition) : tree.Admits Q scope :=
  fun id habove name v hv => (h id habove name v hv).mono himp

/-- A value is found in a scope on the way to the root. -/
theorem exists_above_of_get? {name : String} {v : Value} (h : tree.get? scope name = some v) :
    ∃ id, tree.Above scope id ∧ (tree.bindings id).get? name = some v := by
  fun_induction get? tree scope name with
  | case1 => cases h
  | case2 id scope hscope value hvalue =>
    cases h
    exact ⟨id, .refl id, by simp [bindings, hscope, hvalue]⟩
  | case3 id scope hscope hnone parent hparent hlt ih =>
    obtain ⟨id', habove, hid'⟩ := ih h
    exact ⟨id', .step (by simp [parent?, hscope, hparent]) hlt habove, hid'⟩
  | case4 => cases h
  | case5 => cases h

/-- What is looked up is within reach. -/
theorem Admits.get? (h : tree.Admits P scope) {name : String} {v : Value}
    (hv : tree.get? scope name = some v) : v.Admits P := by
  obtain ⟨id, habove, hid⟩ := exists_above_of_get? hv
  exact h id habove name v hid

/-- Which scopes lie above which depends on the parents only. -/
theorem Above.of_parents (hparent : ∀ id, tree'.parent? id = tree.parent? id)
    (h : tree'.Above id id') : tree.Above id id' := by
  induction h with
  | refl id => exact .refl id
  | step hstep hlt _ ih => exact .step ((hparent _).symm.trans hstep) hlt ih

/-- A scope may be changed in a way that admits its bindings. -/
theorem Admits.update {f : Bindings → Bindings} (h : tree.Admits P scope)
    (hf : ∀ b : Bindings, b.Admits P → (f b).Admits P) : (tree.update scope f).Admits P scope := by
  intro id habove
  have hid := h id (habove.of_parents fun _ => parent?_update)
  by_cases hscope : id = scope
  · subst hscope
    rcases Nat.lt_or_ge id tree.size with hlt | hge
    · rw [bindings_update_self hlt]
      exact hf _ hid
    · have hge' : (tree.update id f).size ≤ id := by rwa [size_update]
      rw [bindings_of_size_le hge']
      exact Bindings.admits_empty
  · rw [bindings_update_of_ne hscope]
    exact hid

theorem Admits.define (h : tree.Admits P scope) (name : String) {value : Value}
    (hvalue : value.Admits P) : (tree.define scope name value).Admits P scope :=
  h.update fun _ hb => hb.insert name hvalue

theorem Admits.remove (h : tree.Admits P scope) (name : String) :
    (tree.remove scope name).Admits P scope :=
  h.update fun _ hb => hb.erase name

/-! ## New scopes -/

/-- A new scope has the bindings it is given. -/
theorem bindings_child_self (parent : ScopeId) (b : Bindings) :
    (tree.child parent b).bindings tree.size = b := by
  simp [bindings, child, size]

/-- A new scope has the parent it is given. -/
theorem parent?_child_self (parent : ScopeId) (b : Bindings) :
    (tree.child parent b).parent? tree.size = some parent := by
  simp [parent?, child, size]

/-- A new scope is above none of the old ones. -/
theorem above_of_child {parent : ScopeId} {b : Bindings} (h : (tree.child parent b).Above id id')
    (hid : id < tree.size) : tree.Above id id' ∧ id' < tree.size := by
  induction h with
  | refl id => exact ⟨.refl id, hid⟩
  | @step id parent' id' hparent hlt _ ih =>
    obtain ⟨habove, hid'⟩ := ih (Nat.lt_trans hlt hid)
    rw [parent?, getElem?_child_of_lt parent b hid] at hparent
    exact ⟨.step hparent hlt habove, hid'⟩

/-- A new scope reaches what its parent does and its own bindings. -/
theorem Admits.child (h : tree.Admits P scope) {b : Bindings} (hb : b.Admits P) :
    (tree.child scope b).Admits P tree.size := by
  intro id habove
  cases habove with
  | refl =>
    rw [bindings_child_self]
    exact hb
  | step hparent hlt habove =>
    rw [parent?_child_self, Option.some.injEq] at hparent
    subst hparent
    obtain ⟨habove', hid⟩ := above_of_child habove hlt
    rw [bindings, getElem?_child_of_lt scope b hid]
    exact h id habove'

end ScopeTree

/-- A computation in a new scope may rely on what is within reach of its parent, if the bindings of
the new scope are admitted. -/
theorem Keeps.inChild_admits {α : Type} {value : α → Prop} {stop : Failure → Prop}
    {parent : ScopeId} {b : Bindings} {body : ScopeId → Call α} (hb : b.Admits P)
    (hbody : ∀ scope, Keeps (fun m => m.scopes.Admits P scope) value stop (body scope))
    (hframe : ∀ scope, ∃ names, Touches scope names (body scope)) :
    Keeps (fun m => m.scopes.Admits P parent) value stop (Call.inChild parent b body) := by
  refine .inChild fun m hm => ?_
  obtain ⟨names, htouches⟩ := hframe m.scopes.size
  refine ⟨_, ⟨hm.child hb, .refl m.scopes.size names _⟩,
    ((hbody m.scopes.size).and (htouches _)).mono (fun _ h => h.1) fun _ h => h.1, ?_⟩
  rintro m' ⟨-, hframe'⟩
  rw [hframe'.keep_eq]
  exact hm

end Script
