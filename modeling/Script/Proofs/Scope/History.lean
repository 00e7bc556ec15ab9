import Mathlib.Data.List.Chain
import Script.Proofs.Machine.Counting

/-!
# Scopes and their history

A tree of scopes is what a sequence of operations has made of it. `History` is such a sequence, in
which every operation is on a scope that exists, and `History.tree` is the tree it makes. Two things
can be read off a history without any tree: the way from a scope up to the root (`History.path`),
and what the latest operation on a name in a scope was (`History.latest?`).

`scope_tree_is_a_store` says that a look-up in the tree is a search along that way. What a later
operation changes follows from the same law, since it changes `latest?` at one scope and one name
only.

## Shape of the proof

The links of the tree go down in number (`parent?_tree`), so that the way up from a scope is that
scope and then the way up from its parent (`path_eq`). The look-up goes the same way, by induction
on the number of the scope.
-/

namespace Script

/-- What was done to a tree of `n` scopes since it was a single empty one. -/
inductive History : Nat → Type
  | root : History 1
  | child {n : Nat} (before : History n) (parent : Fin n) : History (n + 1)
  | define {n : Nat} (before : History n) (scope : Fin n) (name : String)
      (value : Value) : History n
  | remove {n : Nat} (before : History n) (scope : Fin n) (name : String) : History n

namespace History

/-- The tree that the operations have made. -/
def tree {n : Nat} : History n → ScopeTree
  | root => .root .empty
  | child before parent => before.tree.child parent .empty
  | define before scope name value => before.tree.define scope name value
  | remove before scope name => before.tree.remove scope name

/-- The scopes from one scope up to the root, each the parent of the one before it. -/
def path {n : Nat} : History n → ScopeId → List ScopeId
  | root, id => [id]
  | @child n before parent, id => if id = n then id :: before.path parent else before.path id
  | define before _ _ _, id => before.path id
  | remove before _ _, id => before.path id

/-- What the latest operation on a name in a scope has bound the name to. There is nothing if that
operation was a removal, or if there was none. -/
def latest? {n : Nat} : History n → ScopeId → String → Option Value
  | root, _, _ => none
  | child before _, id, name => before.latest? id name
  | define before scope name' value, id, name =>
    if scope = id ∧ name' = name then some value else before.latest? id name
  | remove before scope name', id, name =>
    if scope = id ∧ name' = name then none else before.latest? id name

/-- A name seen from a scope is looked for in scope `target`: this is on the way up, and no scope
before it on that way binds the name. -/
def Sees {n : Nat} (h : History n) (id target : ScopeId) (name : String) : Prop :=
  target ∈ h.path id ∧ ∀ nearer ∈ (h.path id).takeWhile (· ≠ target), h.latest? nearer name = none

instance {n : Nat} (h : History n) (id target : ScopeId) (name : String) :
    Decidable (h.Sees id target name) :=
  inferInstanceAs (Decidable (_ ∧ _))

end History

/-! ## Links and bindings -/

namespace ScopeTree

variable {tree : ScopeTree} {parent id : ScopeId}

/-- A new scope is linked to its parent, the others as before. -/
theorem parent?_child (b : Bindings) :
    (tree.child parent b).parent? id = if id = tree.size then some parent else tree.parent? id := by
  rw [parent?, child, Array.getElem?_push, ← size]
  by_cases h : id = tree.size
  · rw [if_pos h, if_pos h]
    rfl
  · rw [if_neg h, if_neg h, parent?]

/-- An empty new scope adds no binding. -/
theorem bindings_child_empty : (tree.child parent .empty).bindings id = tree.bindings id := by
  simp only [bindings, child, Array.getElem?_push]
  split
  next h => rw [h, Array.getElem?_eq_none (Nat.le_refl _)]; rfl
  next => rfl

end ScopeTree

namespace History

variable {n id : Nat}

/-- There are as many scopes as a history has opened. -/
@[simp]
theorem size_tree (h : History n) : h.tree.size = n := by
  induction h with
  | root => rfl
  | child before parent ih => rw [tree, ScopeTree.size_child, ih]
  | define before scope name value ih => rw [tree, ScopeTree.define, ScopeTree.size_update, ih]
  | remove before scope name ih => rw [tree, ScopeTree.remove, ScopeTree.size_update, ih]

/-- A scope is bound to what the latest operation says. -/
theorem get?_bindings_tree (h : History n) (id : ScopeId) (name : String) :
    (h.tree.bindings id).get? name = h.latest? id name := by
  induction h with
  | root =>
    cases id with
    | zero => rfl
    | succ id => rfl
  | child before parent ih => rw [tree, ScopeTree.bindings_child_empty, ih, latest?]
  | define before scope name' value ih =>
    rw [tree, ScopeTree.define, latest?, ← ih]
    by_cases hid : scope = id
    · subst hid
      rw [ScopeTree.bindings_update_self (by simp)]
      by_cases hname : name' = name
      · rw [hname, Bindings.get?_insert_self, if_pos ⟨rfl, rfl⟩]
      · rw [Bindings.get?_insert_of_ne _ _ hname, if_neg fun h => hname h.2]
    · rw [ScopeTree.bindings_update_of_ne (Ne.symm hid), if_neg fun h => hid h.1]
  | remove before scope name' ih =>
    rw [tree, ScopeTree.remove, latest?, ← ih]
    by_cases hid : scope = id
    · subst hid
      rw [ScopeTree.bindings_update_self (by simp)]
      by_cases hname : name' = name
      · rw [hname, Bindings.get?_erase_self, if_pos ⟨rfl, rfl⟩]
      · rw [Bindings.get?_erase_of_ne _ hname, if_neg fun h => hname h.2]
    · rw [ScopeTree.bindings_update_of_ne (Ne.symm hid), if_neg fun h => hid h.1]

/-- Parents are older than their children, and only the root has none. -/
theorem parent?_tree (h : History n) (hid : id < n) :
    (id = ScopeTree.rootId ∧ h.tree.parent? id = none) ∨
      ∃ parent < id, h.tree.parent? id = some parent := by
  induction h with
  | root =>
    obtain rfl : id = 0 := by omega
    exact .inl ⟨rfl, rfl⟩
  | @child n before parent ih =>
    rw [tree, ScopeTree.parent?_child, size_tree]
    by_cases hnew : id = n
    · rw [if_pos hnew]
      exact .inr ⟨parent, hnew ▸ parent.isLt, rfl⟩
    · rw [if_neg hnew]
      exact ih (by omega)
  | define before scope name value ih =>
    rw [tree, ScopeTree.define, ScopeTree.parent?_update]
    exact ih hid
  | remove before scope name ih =>
    rw [tree, ScopeTree.remove, ScopeTree.parent?_update]
    exact ih hid

/-- The way up from a scope is that scope and then the way up from its parent. -/
theorem path_eq (h : History n) (hid : id < n) :
    h.path id = id :: (h.tree.parent? id).elim [] h.path := by
  induction h with
  | root =>
    obtain rfl : id = 0 := by omega
    rfl
  | @child n before parent ih =>
    rw [tree, ScopeTree.parent?_child, size_tree, path]
    by_cases hnew : id = n
    · have hold : (parent : Nat) ≠ n := Nat.ne_of_lt parent.isLt
      rw [if_pos hnew, if_pos hnew, Option.elim_some, path, if_neg hold]
    · have hlt : id < n := by omega
      rw [if_neg hnew, if_neg hnew, ih hlt]
      rcases before.parent?_tree hlt with ⟨-, hparent⟩ | ⟨above, habove, hparent⟩
      · rw [hparent, Option.elim_none, Option.elim_none]
      · have hold : above ≠ n := by omega
        rw [hparent, Option.elim_some, Option.elim_some, path, if_neg hold]
  | define before scope name value ih =>
    rw [tree, ScopeTree.define, ScopeTree.parent?_update, path, ih hid]
    rfl
  | remove before scope name ih =>
    rw [tree, ScopeTree.remove, ScopeTree.parent?_update, path, ih hid]
    rfl

/-- Following the links of the tree from a scope leads along the way up, and ends at the root. -/
theorem isChain_path (h : History n) (hid : id < n) :
    (h.path id).IsChain (fun below above => h.tree.parent? below = some above) ∧
      (h.path id).getLast? = some ScopeTree.rootId := by
  induction id using Nat.strongRecOn with
  | ind id ih =>
    rw [h.path_eq hid]
    rcases h.parent?_tree hid with ⟨rfl, hparent⟩ | ⟨above, habove, hparent⟩
    · rw [hparent]
      exact ⟨.singleton _, rfl⟩
    · obtain ⟨hchain, hlast⟩ := ih above habove (Nat.lt_trans habove hid)
      rw [hparent, Option.elim_some]
      rw [h.path_eq (Nat.lt_trans habove hid)] at hchain hlast ⊢
      exact ⟨.cons_cons hparent hchain, by rwa [List.getLast?_cons_cons]⟩

/-- A look-up searches the way up. -/
theorem get?_tree (h : History n) (hid : id < n) (name : String) :
    h.tree.get? id name = (h.path id).findSome? fun scope => h.latest? scope name := by
  induction id using Nat.strongRecOn with
  | ind id ih =>
    rw [ScopeTree.get?_eq_or, get?_bindings_tree, h.path_eq hid, List.findSome?_cons]
    have houter : h.tree.outer? id name
        = ((h.tree.parent? id).elim [] h.path).findSome? fun scope => h.latest? scope name := by
      rw [ScopeTree.outer?]
      rcases h.parent?_tree hid with ⟨-, hparent⟩ | ⟨above, habove, hparent⟩
      · rw [hparent]
        rfl
      · rw [hparent, Option.bind_some, if_pos habove, ih above habove (Nat.lt_trans habove hid),
          Option.elim_some]
    rw [houter]
    cases h.latest? id name with
    | none => rfl
    | some value => rfl

/-! ## What an operation changes -/

/-- A scope sees its own bindings. -/
theorem sees_self (h : History n) (hid : id < n) (name : String) : h.Sees id id name := by
  rw [Sees, h.path_eq hid]
  simp

/-- A scope that is not the target hands the name on to its parent unless it binds the name
itself. -/
theorem sees_iff (h : History n) (hid : id < n) {target : ScopeId} (hne : id ≠ target)
    (name : String) :
    h.Sees id target name ↔ h.latest? id name = none ∧
      ∃ above, h.tree.parent? id = some above ∧ h.Sees above target name := by
  rw [Sees, h.path_eq hid, List.takeWhile_cons_of_pos (by simpa using hne), List.mem_cons,
    or_iff_right (Ne.symm hne), List.forall_mem_cons]
  cases h.tree.parent? id with
  | none => simp
  | some above =>
    rw [Option.elim_some]
    constructor
    · rintro ⟨hmem, hlatest, hnearer⟩
      exact ⟨hlatest, above, rfl, hmem, hnearer⟩
    · rintro ⟨hlatest, _, hparent, hmem, hnearer⟩
      cases hparent
      exact ⟨hmem, hlatest, hnearer⟩

/-- A change in one scope is noticed where a name is looked for in that scope, and nowhere else. -/
theorem get?_of_frame (h : History n) {after : ScopeTree} {target : ScopeId} {names : List String}
    (hframe : Frame target names h.tree after) (hid : id < n) (name : String) :
    after.get? id name
      = if h.Sees id target name then after.get? target name else h.tree.get? id name := by
  -- The induction goes up the scopes, each of which is older than those below it.
  induction id using Nat.strongRecOn with
  | ind id ih =>
    by_cases htarget : id = target
    · rw [← htarget, if_pos (h.sees_self hid name)]
    · have hbindings : (after.bindings id).get? name = h.latest? id name := by
        rw [hframe.elsewhere id htarget, get?_bindings_tree]
      rw [ScopeTree.get?_eq_or after, ScopeTree.get?_eq_or h.tree id, hbindings, get?_bindings_tree]
      cases hlatest : h.latest? id name with
      | some value =>
        -- Bound here: what lies further up is not seen.
        have hsees : ¬ h.Sees id target name := by
          simp [h.sees_iff hid htarget, hlatest]
        rw [if_neg hsees, Option.some_or, Option.some_or]
      | none =>
        rw [Option.none_or, Option.none_or, ScopeTree.outer?, ScopeTree.outer?, hframe.parent]
        rcases h.parent?_tree hid with ⟨-, hparent⟩ | ⟨above, habove, hparent⟩
        · have hsees : ¬ h.Sees id target name := by
            simp [h.sees_iff hid htarget, hparent]
          rw [hparent, if_neg hsees]
          rfl
        · have hsees : h.Sees id target name ↔ h.Sees above target name := by
            simp [h.sees_iff hid htarget, hlatest, hparent]
          rw [hparent, Option.bind_some, Option.bind_some, if_pos habove, if_pos habove,
            ih above habove (Nat.lt_trans habove hid), if_congr hsees rfl rfl]

/-- A change in one scope is not noticed under other names. -/
theorem get?_of_frame_of_notMem (h : History n) {after : ScopeTree} {target : ScopeId}
    {names : List String} (hframe : Frame target names h.tree after) (hid : id < n) {name : String}
    (hname : name ∉ names) :
    after.get? id name = h.tree.get? id name := by
  have htarget : after.get? target name = h.tree.get? target name := by
    rw [ScopeTree.get?_eq_or, ScopeTree.get?_eq_or h.tree, hframe.here name hname, hframe.outer?_eq]
  rw [h.get?_of_frame hframe hid, htarget, ← h.get?_of_frame (Frame.refl target names h.tree) hid]

/-- A definition is found from where the scope is seen, and nowhere else. -/
theorem get?_tree_define (h : History n) (hid : id < n) (target : Fin n) (name' : String)
    (value : Value) (name : String) :
    (h.define target name' value).tree.get? id name
      = if name' = name ∧ h.Sees id target name then some value else h.tree.get? id name := by
  have hframe : Frame target [name'] h.tree (h.define target name' value).tree :=
    .define (List.mem_singleton_self name') value
  by_cases hname : name' = name
  · subst hname
    have htarget : (h.define target name' value).tree.get? target name' = some value := by
      rw [ScopeTree.get?_eq_or, get?_bindings_tree, latest?, if_pos ⟨rfl, rfl⟩, Option.some_or]
    rw [h.get?_of_frame hframe hid, htarget]
    exact if_congr (by simp) rfl rfl
  · rw [h.get?_of_frame_of_notMem hframe hid (by simpa using Ne.symm hname),
      if_neg fun h => hname h.1]

/-- A removal uncovers what lies further out, from where the scope is seen. -/
theorem get?_tree_remove (h : History n) (hid : id < n) (target : Fin n) (name' name : String) :
    (h.remove target name').tree.get? id name
      = if name' = name ∧ h.Sees id target name then h.tree.outer? target name
        else h.tree.get? id name := by
  have hframe : Frame target [name'] h.tree (h.remove target name').tree :=
    .remove (List.mem_singleton_self name')
  by_cases hname : name' = name
  · subst hname
    have htarget : (h.remove target name').tree.get? target name' = h.tree.outer? target name' := by
      rw [ScopeTree.get?_eq_or, get?_bindings_tree, latest?, if_pos ⟨rfl, rfl⟩, Option.none_or,
        hframe.outer?_eq]
    rw [h.get?_of_frame hframe hid, htarget]
    exact if_congr (by simp) rfl rfl
  · rw [h.get?_of_frame_of_notMem hframe hid (by simpa using Ne.symm hname),
      if_neg fun h => hname h.1]

end History

/-- After any operations, a name seen from a scope means what the latest operation has bound it to
in the nearest scope on the way to the root where that is something, and nothing if there is no such
scope. To define or remove a name in a scope is noticed under that name only, and only in scopes
that look for it there; a removal uncovers what the name means above. The links from any scope lead
to the root, which has none. -/
theorem scope_tree_is_a_store {n : Nat} (h : History n) (id target : Fin n) (name name' : String)
    (value : Value) :
    h.tree.get? id name = ((h.path id).findSome? fun scope => h.latest? scope name) ∧
    h.tree.contains id name = (h.tree.get? id name).isSome ∧
    (h.define target name' value).tree.get? id name
      = (if name' = name ∧ h.Sees id target name then some value else h.tree.get? id name) ∧
    (h.remove target name').tree.get? id name
      = (if name' = name ∧ h.Sees id target name then h.tree.outer? target name
        else h.tree.get? id name) ∧
    (h.path id).head? = some (id : ScopeId) ∧
    (h.path id).IsChain (fun below above => h.tree.parent? below = some above) ∧
    (h.path id).getLast? = some ScopeTree.rootId ∧ h.tree.parent? ScopeTree.rootId = none := by
  refine ⟨h.get?_tree id.isLt name, rfl, h.get?_tree_define id.isLt target name' value name,
    h.get?_tree_remove id.isLt target name' name, ?head, (h.isChain_path id.isLt).1,
    (h.isChain_path id.isLt).2, ?root⟩
  case head => rw [h.path_eq id.isLt, List.head?_cons]
  case root =>
    rcases h.parent?_tree (Nat.zero_lt_of_lt id.isLt) with ⟨-, hparent⟩ | ⟨parent, hlt, -⟩
    · exact hparent
    · exact absurd hlt (Nat.not_lt_zero parent)

end Script
