import Script.Proofs.Machine.CallDepth

/-!
# Lists in parts

`map` and `reduce` over a list are `map` and `reduce` over its parts, one after the other, with all
that the callbacks write, read and run into.

Over a list they are `List.mapM` and `List.foldlM`, which split over an append. What is left to see
is the scope in which all callbacks of one call are made. A call leaves all scopes as they are, so
this scope is still empty when a callback is over. Closing it after the first part and opening
another one for the second changes nothing (`inChild_bind`).
-/

namespace Script

/-! ## Parts of a list -/

section

variable (call : Value → List Value → ScopeId → Call Value) (f : Value) (scope : ScopeId)

/-- `map` calls its function on one item after the other. -/
theorem mapFrom_eq_mapM (results items : List Value) :
    Builtin.mapFrom call f scope results items = (do
      let values ← items.mapM fun item => call f [item] scope
      return .list (results.reverse ++ values)) := by
  induction items generalizing results with
  | nil => simp [Builtin.mapFrom]
  | cons item items ih => simp [Builtin.mapFrom, ih]

/-- `reduce` folds its function over the items from the left. -/
theorem reduceFrom_eq_foldlM (initial : Value) (items : List Value) :
    Builtin.reduceFrom call f scope initial items
      = items.foldlM (fun accumulated item => call f [accumulated, item] scope) initial := by
  induction items generalizing initial with
  | nil => rfl
  | cons item items ih => simp only [Builtin.reduceFrom, List.foldlM_cons, ih]

/-- To map over two parts is to map over the one and over the other, and to add the lists. -/
theorem mapFrom_append (xs ys : List Value) :
    Builtin.mapFrom call f scope [] (xs ++ ys) = (do
      let v ← Builtin.mapFrom call f scope [] xs
      let w ← Builtin.mapFrom call f scope [] ys
      Call.ofExcept (Value.binary .add v w)) := by
  simp only [mapFrom_eq_mapM, List.mapM_append, bind_assoc, pure_bind, List.reverse_nil,
    List.nil_append]
  rfl

/-- To reduce two parts is to reduce the second from where the first has come. -/
theorem reduceFrom_append (initial : Value) (xs ys : List Value) :
    Builtin.reduceFrom call f scope initial (xs ++ ys) = (do
      let accumulated ← Builtin.reduceFrom call f scope initial xs
      Builtin.reduceFrom call f scope accumulated ys) := by
  simp only [reduceFrom_eq_foldlM, List.foldlM_append]

end

/-! ## The scope of the callbacks -/

/-- To open a scope and to close it changes nothing. -/
theorem ScopeTree.keep_child (tree : ScopeTree) (parent : ScopeId) (b : Bindings) :
    (tree.child parent b).keep tree.size = tree :=
  ScopeTree.keep_eq_of fun _ hid => ScopeTree.getElem?_child_of_lt parent b hid

section

variable {α β : Type} {parent : ScopeId} {b : Bindings} {body : ScopeId → Call α} {m m₁ : Machine}

/-- A result in a new scope that was left as it is. -/
theorem inChild_of_ok {a : α}
    (h : body m.scopes.size { m with scopes := m.scopes.child parent b } = .ok a m₁)
    (hscopes : m₁.scopes = m.scopes.child parent b) :
    Call.inChild parent b body m = .ok a { m₁ with scopes := m.scopes } := by
  simp only [Call.inChild, h, hscopes, ScopeTree.keep_child]

/-- What is done in a new scope comes to what its body comes to. -/
theorem inChild_eq_ok {a : α} (h : Call.inChild parent b body m = .ok a m₁) :
    ∃ m₂, body m.scopes.size { m with scopes := m.scopes.child parent b } = .ok a m₂ := by
  unfold Call.inChild at h
  cases hrun : body m.scopes.size { m with scopes := m.scopes.child parent b } with
  | ok a' m₂ =>
    simp only [hrun] at h
    cases h
    exact ⟨m₂, rfl⟩
  | error f m₂ =>
    simp only [hrun] at h
    cases h

/-- What is done in a new scope fails if its body does. -/
theorem inChild_of_error {f : Failure}
    (h : body m.scopes.size { m with scopes := m.scopes.child parent b } = .error f m₁) :
    Call.inChild parent b body m = .error f { m₁ with scopes := m₁.scopes.keep m.scopes.size } := by
  simp only [Call.inChild, h]

/-- What is done in a new scope can as well be done in two of them, one after the other, if the
first part leaves its scope as it is. -/
theorem inChild_bind (hbody : ∀ scope, LeavesScopes (body scope)) (next : ScopeId → α → Call β) :
    Call.inChild parent b (fun scope => body scope >>= next scope) m
      = (Call.inChild parent b body >>= fun a => Call.inChild parent b fun scope =>
        next scope a) m := by
  cases hrun : body m.scopes.size { m with scopes := m.scopes.child parent b } with
  | error f m₁ =>
    rw [run_bind_of_error (inChild_of_error hrun), inChild_of_error (run_bind_of_error hrun)]
  | ok a m₁ =>
    have hscopes : m₁.scopes = m.scopes.child parent b :=
      ((hbody m.scopes.size (m.scopes.child parent b)).of_ok rfl hrun).1
    rw [run_bind_of_ok (inChild_of_ok hrun hscopes), Call.inChild, Call.inChild]
    -- The second scope has the number of the first one and is as empty.
    have hopen : { m₁ with scopes := m.scopes.child parent b } = m₁ := by rw [← hscopes]
    simp only [run_bind_of_ok hrun, hopen]

/-- A result that does not depend on the machine needs no scope. -/
theorem inChild_ofExcept (result : Except Fault β) :
    Call.inChild parent b (fun _ => Call.ofExcept result) = Call.ofExcept result := by
  funext m
  cases result with
  | ok v =>
    show EStateM.Result.ok v { m with scopes := (m.scopes.child parent b).keep m.scopes.size }
        = .ok v m
    rw [ScopeTree.keep_child]
  | error fault =>
    show EStateM.Result.error (Failure.error ⟨fault, none⟩)
      { m with scopes := (m.scopes.child parent b).keep m.scopes.size }
        = .error (Failure.error ⟨fault, none⟩) m
    rw [ScopeTree.keep_child]

end

section

variable {call : Value → List Value → ScopeId → Call Value}
variable (hcall : ∀ callee args scope, LeavesScopes (call callee args scope))

include hcall

/-- To map leaves the scopes alone if the callbacks do. -/
theorem leavesScopes_mapFrom (f : Value) (scope : ScopeId) (results items : List Value) :
    LeavesScopes (Builtin.mapFrom call f scope results items) :=
  fun before => .mapFrom (fun item _ => hcall f [item] scope before) (fun _ _ => trivial)
    fun _ _ => trivial

/-- To reduce leaves the scopes alone if the callbacks do. -/
theorem leavesScopes_reduceFrom (f : Value) (scope : ScopeId) (initial : Value)
    (items : List Value) :
    LeavesScopes (Builtin.reduceFrom call f scope initial items) :=
  fun before => .reduceFrom
    (fun accumulated _ item _ => hcall f [accumulated, item] scope before) trivial

variable (f : Value) (caller : ScopeId) (xs ys : List Value) (m : Machine)

/-- To map over two parts in one scope is to map over each in a scope of its own. -/
theorem inChild_mapFrom_append :
    Call.inChild caller .empty (fun scope => Builtin.mapFrom call f scope [] (xs ++ ys)) m = (do
      let v ← Call.inChild caller .empty fun scope => Builtin.mapFrom call f scope [] xs
      let w ← Call.inChild caller .empty fun scope => Builtin.mapFrom call f scope [] ys
      Call.ofExcept (Value.binary .add v w)) m := by
  simp only [mapFrom_append]
  rw [inChild_bind fun scope => leavesScopes_mapFrom hcall f scope [] xs]
  apply run_bind_congr rfl
  intro v m₁ _
  rw [inChild_bind fun scope => leavesScopes_mapFrom hcall f scope [] ys]
  apply run_bind_congr rfl
  intro w m₂ _
  rw [inChild_ofExcept]

/-- To reduce two parts in one scope is to reduce each in a scope of its own. -/
theorem inChild_reduceFrom_append (initial : Value) :
    Call.inChild caller .empty
      (fun scope => Builtin.reduceFrom call f scope initial (xs ++ ys)) m = (do
      let accumulated ← Call.inChild caller .empty fun scope =>
        Builtin.reduceFrom call f scope initial xs
      Call.inChild caller .empty fun scope =>
        Builtin.reduceFrom call f scope accumulated ys) m := by
  simp only [reduceFrom_append]
  rw [inChild_bind fun scope => leavesScopes_reduceFrom hcall f scope initial xs]

end

/-! ## Calls -/

section

variable {settings : Settings} {k : Nat} {f : Value} {scope : ScopeId} {m : Machine}

/-- A call of `map` with a function maps it in a new scope. -/
theorem call_map_of_isCallable (hf : f.isCallable) (items : List Value) :
    call settings (k + 1) (.builtin .map) [.list items, f] scope
      = Call.inChild scope .empty fun scope =>
        Builtin.mapFrom (call settings k) f scope [] items := by
  rw [call_succ, callValue, Builtin.run, mapCall_of_isCallable hf]

/-- A call of `reduce` with a function reduces with it in a new scope. -/
theorem call_reduce_of_isCallable (hf : f.isCallable) (items : List Value) (initial : Value) :
    call settings (k + 1) (.builtin .reduce) [.list items, f, initial] scope
      = Call.inChild scope .empty fun scope =>
        Builtin.reduceFrom (call settings k) f scope initial items := by
  rw [call_succ, callValue, Builtin.run, reduceCall_of_isCallable hf]

/-- What cannot be called is refused before the list is looked at. -/
theorem call_of_not_isCallable (hf : f.isCallable = false) {b : Builtin} {n : Nat}
    (hb : b.callbackArity? = some n) {items rest : List Value}
    (hn : (.list items :: f :: rest).length = n) :
    call settings (k + 1) (.builtin b) (.list items :: f :: rest) scope m
      = .error (.error ⟨.wrongArgument b .function f.type, none⟩) m := by
  have hwant : Builtin.wantFunction b f = .error (.wrongArgument b .function f.type) := by
    rw [Builtin.wantFunction, hf, if_neg Bool.false_ne_true]
  rw [call_succ, callValue]
  exact (Builtin.Refuses.function hb hn rfl rfl rfl hwant).run_eq _ _

/-- A call of `map` splits over an append, also where it is refused. -/
theorem call_map_append (fuel : Nat) (xs ys : List Value) :
    call settings fuel (.builtin .map) [.list (xs ++ ys), f] scope m = (do
      let v ← call settings fuel (.builtin .map) [.list xs, f] scope
      let w ← call settings fuel (.builtin .map) [.list ys, f] scope
      Call.ofExcept (Value.binary .add v w)) m := by
  cases fuel with
  | zero => rw [call_zero, run_bind_of_error (call_zero _ _ _ _ _)]
  | succ k =>
    cases hf : f.isCallable with
    | true =>
      simp only [call_map_of_isCallable hf]
      exact inChild_mapFrom_append (touches_eval_call settings k).2 f scope xs ys m
    | false =>
      rw [call_of_not_isCallable hf rfl rfl, run_bind_of_error (call_of_not_isCallable hf rfl rfl)]

/-- A call of `reduce` splits over an append, also where it is refused. -/
theorem call_reduce_append (fuel : Nat) (xs ys : List Value) (initial : Value) :
    call settings fuel (.builtin .reduce) [.list (xs ++ ys), f, initial] scope m = (do
      let accumulated ← call settings fuel (.builtin .reduce) [.list xs, f, initial] scope
      call settings fuel (.builtin .reduce) [.list ys, f, accumulated] scope) m := by
  cases fuel with
  | zero => rw [call_zero, run_bind_of_error (call_zero _ _ _ _ _)]
  | succ k =>
    cases hf : f.isCallable with
    | true =>
      simp only [call_reduce_of_isCallable hf]
      exact inChild_reduceFrom_append (touches_eval_call settings k).2 f scope xs ys m initial
    | false =>
      rw [call_of_not_isCallable hf rfl rfl, run_bind_of_error (call_of_not_isCallable hf rfl rfl)]

/-- There is a result for every item. -/
theorem length_of_mapFrom {call : Value → List Value → ScopeId → Call Value}
    {results items : List Value}
    {v : Value} {m' : Machine} (h : Builtin.mapFrom call f scope results items m = .ok v m') :
    ∃ values, v = .list values ∧ values.length = results.length + items.length := by
  induction items generalizing results m with
  | nil =>
    cases h
    exact ⟨results.reverse, rfl, List.length_reverse⟩
  | cons item items ih =>
    obtain ⟨result, m₁, -, hrest⟩ := run_bind_eq_ok h
    obtain ⟨values, rfl, hlength⟩ := ih hrest
    refine ⟨values, rfl, ?_⟩
    rw [hlength, List.length_cons, List.length_cons]
    omega

/-- `map` comes to a list as long as the one it is called with. -/
theorem length_of_call_map {fuel : Nat} {items : List Value} {v : Value} {m' : Machine}
    (h : call settings fuel (.builtin .map) [.list items, f] scope m = .ok v m') :
    ∃ values, v = .list values ∧ values.length = items.length := by
  cases fuel with
  | zero =>
    rw [call_zero] at h
    cases h
  | succ k =>
    cases hf : f.isCallable with
    | false =>
      rw [call_of_not_isCallable hf rfl rfl] at h
      cases h
    | true =>
      rw [call_map_of_isCallable hf] at h
      obtain ⟨m₁, hitems⟩ := inChild_eq_ok h
      obtain ⟨values, rfl, hlength⟩ := length_of_mapFrom hitems
      exact ⟨values, rfl, hlength.trans (Nat.zero_add _)⟩

/-- All callbacks of one call are made with the same variables: those of the caller and an empty
scope. -/
theorem Inside.scopes_of_builtin {fuel : Nat} {b : Builtin} {args : List Value}
    {surroundings : List Surrounding} {t : Stage}
    (h : Inside settings (.call fuel (.builtin b) args scope m) surroundings t) :
    t.machine.scopes = m.scopes.child scope .empty := by
  cases h with
  | @mapped k _ _ m₁ _ f _ _ _ _ _ _ hbefore =>
    exact ((leavesScopes_mapFrom (touches_eval_call settings k).2 f _ _ _ _).of_ok rfl hbefore).1
  | @reduced k _ _ m₁ _ f _ _ _ _ _ _ _ hbefore =>
    exact ((leavesScopes_reduceFrom (touches_eval_call settings k).2 f _ _ _ _).of_ok rfl hbefore).1

end

/-- `map` and `reduce` split over an append, with all effects: outcome, console, depth and scopes
are those of the two parts one after the other, and the second part does not start if the first one
fails. The scope that all callbacks of a call share carries nothing from one to the next, and `map`
keeps the length of its list. -/
theorem map_and_reduce_split (settings : Settings) (fuel : Nat) (f : Value) (xs ys : List Value)
    (scope : ScopeId) (m : Machine) :
    (∀ initial, call settings fuel (.builtin .reduce) [.list (xs ++ ys), f, initial] scope m = (do
      let accumulated ← call settings fuel (.builtin .reduce) [.list xs, f, initial] scope
      call settings fuel (.builtin .reduce) [.list ys, f, accumulated] scope) m) ∧
    (call settings fuel (.builtin .map) [.list (xs ++ ys), f] scope m = (do
      let v ← call settings fuel (.builtin .map) [.list xs, f] scope
      let w ← call settings fuel (.builtin .map) [.list ys, f] scope
      Call.ofExcept (Value.binary .add v w)) m) ∧
    (∀ b args surroundings t,
      Inside settings (.call fuel (.builtin b) args scope m) surroundings t →
      t.machine.scopes = m.scopes.child scope .empty) ∧
    ∀ v m', call settings fuel (.builtin .map) [.list xs, f] scope m = .ok v m' →
      ∃ values, v = .list values ∧ values.length = xs.length := by
  refine ⟨fun initial => call_reduce_append fuel xs ys initial, call_map_append fuel xs ys, ?_, ?_⟩
  · exact fun b args surroundings t => Inside.scopes_of_builtin
  · exact fun v m' => length_of_call_map

/-- To map `fun(x) = set y = x` over `[1] + [null]` is to map it over `[1]` and over `[null]` and to
add the two lists, although the function assigns to a variable; and over `[1]` it comes to a list of
one value. -/
theorem map_and_reduce_split_of_assignment :
    let node : Form → Node := fun form => ⟨form, default⟩
    let f := Value.function (.root 0) ⟨none, ["x"], node (.assign "y" (node (.var "x"))), true⟩
    let m := (Session.new .default (.new [] none) 0).machine
    let mapped : List Value → Call Value := fun items =>
      call .default 4 (.builtin .map) [.list items, f] ScopeTree.rootId
    mapped ([.number 1.0] ++ [.null]) m = (do
      let v ← mapped [.number 1.0]
      let w ← mapped [.null]
      Call.ofExcept (Value.binary .add v w)) m ∧
    mapped [.number 1.0] m = .ok (.list [.number 1.0]) m ∧
    ∃ values, Value.list [.number 1.0] = .list values ∧ values.length = 1 := by
  intro node f m mapped
  have hfirst : mapped [.number 1.0] m = .ok (.list [.number 1.0]) m := by with_unfolding_all rfl
  obtain ⟨-, hsplit, -, hlength⟩ :=
    map_and_reduce_split .default 4 f [.number 1.0] [.null] ScopeTree.rootId m
  exact ⟨hsplit, hfirst, hlength _ m hfirst⟩

end Script
