import Script.Value

/-!
# Scopes

Variables are kept in scopes that form a growing tree. A name is looked up in a scope, then in its
parent, and so on up to the root; it is bound and unbound in one scope only.

* `Bindings` are the names bound in one scope, each once, in the order in which they were first
  bound.
* `ScopeTree` numbers its scopes in the order of their making, so that a parent has a smaller number
  than its children, and every walk toward the root ends.

The equations below describe every operation by what a later look-up finds.
-/

namespace Script

/-- The names bound in one scope. -/
structure Bindings where
  /-- Names and their values, oldest first. -/
  entries : List (String × Value)

namespace Bindings

/-- No names. -/
def empty : Bindings := ⟨[]⟩

/-- The value of a name. -/
def get? (b : Bindings) (name : String) : Option Value :=
  (b.entries.find? fun entry => entry.1 == name).map Prod.snd

/-- Replace the value of a name among entries, or add an entry for it at the end. -/
def insertEntry (name : String) (value : Value) : List (String × Value) → List (String × Value)
  | [] => [(name, value)]
  | entry :: entries =>
    if entry.1 = name then (name, value) :: entries else entry :: insertEntry name value entries

/-- Bind a name, in place of the value it had. -/
def insert (b : Bindings) (name : String) (value : Value) : Bindings :=
  ⟨insertEntry name value b.entries⟩

/-- Unbind a name. -/
def erase (b : Bindings) (name : String) : Bindings :=
  ⟨b.entries.filter fun entry => entry.1 != name⟩

/-- How many names are bound. -/
def size (b : Bindings) : Nat := b.entries.length

/-- Bind names to values in order; a later value of the same name wins. -/
def ofPairs (names : List String) (values : List Value) : Bindings :=
  (names.zip values).foldl (fun b pair => b.insert pair.1 pair.2) empty

/-- Names and values in the order of the names, by code points. -/
def sorted (b : Bindings) : List (String × Value) :=
  b.entries.mergeSort fun x y => decide (x.1 ≤ y.1)

@[simp]
theorem get?_empty (name : String) : empty.get? name = none := rfl

theorem find?_insertEntry (entries : List (String × Value)) (name other : String) (value : Value) :
    ((insertEntry name value entries).find? fun entry => entry.1 == other).map Prod.snd
      = if name = other then some value
        else (entries.find? fun entry => entry.1 == other).map Prod.snd := by
  induction entries with
  | nil => by_cases h : name = other <;> simp [insertEntry, h]
  | cons entry entries ih =>
    obtain ⟨key, old⟩ := entry
    by_cases hn : key = name
    · by_cases h : name = other <;> simp [insertEntry, hn, h]
    · by_cases he : key = other
      · subst he
        simp [insertEntry, hn, Ne.symm hn]
      · simpa [insertEntry, hn, he] using ih

@[simp]
theorem get?_insert_self (b : Bindings) (name : String) (value : Value) :
    (b.insert name value).get? name = some value := by
  simp [get?, insert, find?_insertEntry]

theorem get?_insert_of_ne (b : Bindings) {name other : String} (value : Value) (h : name ≠ other) :
    (b.insert name value).get? other = b.get? other := by
  simp [get?, insert, find?_insertEntry, h]

@[simp]
theorem get?_erase_self (b : Bindings) (name : String) : (b.erase name).get? name = none := by
  simp [get?, erase, List.find?_eq_none]

theorem get?_erase_of_ne (b : Bindings) {name other : String} (h : name ≠ other) :
    (b.erase name).get? other = b.get? other := by
  simp only [get?, erase, List.find?_filter]
  congr 2
  funext entry
  by_cases he : entry.1 = other
  · have hne : ¬ entry.1 = name := fun hn => h (hn.symm.trans he)
    simp [he, Ne.symm h]
  · simp [he]

end Bindings

/-- The number of a scope. -/
abbrev ScopeId := Nat

/-- One scope: its parent and the names bound in it. -/
structure Scope where
  /-- The scope to go on with when a name is not bound here. -/
  parent : Option ScopeId
  /-- The names bound here. -/
  bindings : Bindings

/-- All scopes, each under its number. -/
structure ScopeTree where
  /-- The scopes in the order of their making. -/
  scopes : Array Scope

namespace ScopeTree

/-- A tree of one scope, the root. -/
def root (bindings : Bindings) : ScopeTree := ⟨#[⟨none, bindings⟩]⟩

/-- The number of the root. -/
def rootId : ScopeId := 0

/-- How many scopes there are, which is also the number of the next one. -/
def size (tree : ScopeTree) : Nat := tree.scopes.size

/-- The names bound in one scope. -/
def bindings (tree : ScopeTree) (id : ScopeId) : Bindings :=
  (tree.scopes[id]?.map Scope.bindings).getD .empty

/-- The parent of a scope. -/
def parent? (tree : ScopeTree) (id : ScopeId) : Option ScopeId :=
  tree.scopes[id]?.bind Scope.parent

/-- A new scope below `parent`, under the next number. -/
def child (tree : ScopeTree) (parent : ScopeId) (bindings : Bindings) : ScopeTree :=
  ⟨tree.scopes.push ⟨some parent, bindings⟩⟩

/-- The scopes numbered below `n`. -/
def keep (tree : ScopeTree) (n : Nat) : ScopeTree := ⟨tree.scopes.shrink n⟩

/-- Change the names bound in one scope. -/
def update (tree : ScopeTree) (id : ScopeId) (f : Bindings → Bindings) : ScopeTree :=
  ⟨tree.scopes.modify id fun scope => { scope with bindings := f scope.bindings }⟩

/-- Bind a name in one scope. -/
def define (tree : ScopeTree) (id : ScopeId) (name : String) (value : Value) : ScopeTree :=
  tree.update id fun b => b.insert name value

/-- Unbind a name in one scope. -/
def remove (tree : ScopeTree) (id : ScopeId) (name : String) : ScopeTree :=
  tree.update id fun b => b.erase name

/-- The value of a name seen from a scope: that in the nearest scope on the way to the root that
binds it. A parent is older than its children, so the way ends. -/
def get? (tree : ScopeTree) (id : ScopeId) (name : String) : Option Value :=
  match tree.scopes[id]? with
  | none => none
  | some scope =>
    match scope.bindings.get? name with
    | some value => some value
    | none =>
      match scope.parent with
      | some parent => if parent < id then tree.get? parent name else none
      | none => none
termination_by id

/-- Whether a name is bound, seen from a scope. -/
def contains (tree : ScopeTree) (id : ScopeId) (name : String) : Bool :=
  (tree.get? id name).isSome

end ScopeTree

end Script
