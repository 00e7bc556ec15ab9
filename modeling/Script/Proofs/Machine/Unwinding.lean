import Script.Proofs.Machine.ControlFlow
import Script.Proofs.Machine.Raising

/-!
# Errors end a run as they were raised

No construct catches an error or changes it. The first error that is raised in a run is what the run
ends with: the same fault, blamed on the innermost node that it left (`raised_errors_end_the_run`).
On its way out it leaves the constructs around it, and `Unwound` says what that changes: the
variables of the counting loops are removed and the scopes of the calls are gone, but nothing is
written or read any more.

Conversely, a run that ends with an error has raised it in one of its stages, or a jump has left the
program as a whole. The search for the stage goes down with the fuel (`exists_raises_of_fails`).
-/

namespace Script

/-! ## Ways to a stage -/

/-- A stage comes to another one, through any number of stages. Between them an error leaves the
constructs in the list, the innermost first. -/
inductive ComesTo (settings : Settings) : Stage → List Surrounding → Stage → Prop
  | here (s : Stage) : ComesTo settings s [] s
  | inside {s t u : Stage} {inner outer : List Surrounding} (h : Inside settings s outer t)
      (ht : ComesTo settings t inner u) : ComesTo settings s (inner ++ outer) u

/-- What a stage fails with, every stage that comes to it fails with. -/
theorem Fails.of_comesTo {settings : Settings} {s t : Stage} {surroundings : List Surrounding}
    {f : Failure}
    {m' : Machine} (hcomes : ComesTo settings s surroundings t) (h : Fails settings t f m') :
    Fails settings s (Surrounding.passAll surroundings f)
      (Surrounding.leaveAll surroundings m') := by
  induction hcomes with
  | here s => exact h
  | inside hinside _ ih =>
    rw [Surrounding.passAll_append, Surrounding.leaveAll_append]
    exact .of_inside hinside (ih h)

/-- The fuel that a stage is given. -/
def Stage.fuel : Stage → Nat
  | .node fuel .. => fuel
  | .call fuel .. => fuel

/-- A stage inside has one unit of fuel less. -/
theorem Inside.fuel_eq {settings : Settings} {s t : Stage} {surroundings : List Surrounding}
    (h : Inside settings s surroundings t) : s.fuel = t.fuel + 1 := by
  cases h <;> rfl

/-- A stage that fails with an error comes to one that raises an error. -/
theorem exists_raises_of_fails {settings : Settings} {s : Stage} {e : RuntimeError} {m' : Machine}
    (h : Fails settings s (.error e) m') :
    ∃ surroundings t raised m, ComesTo settings s surroundings t ∧ Raises settings t raised m := by
  -- Each stage has less fuel than the one that comes to it.
  induction hfuel : s.fuel generalizing s e m' with
  | zero =>
    rcases raises_or_inside h with hraises | ⟨surroundings, t, -, -, hinside, -⟩
    · exact ⟨[], s, e, m', .here s, hraises⟩
    · rw [hinside.fuel_eq] at hfuel
      cases hfuel
  | succ k ih =>
    rcases raises_or_inside h with hraises | ⟨outer, t, e₁, m₁, hinside, hfails⟩
    · exact ⟨[], s, e, m', .here s, hraises⟩
    · rw [hinside.fuel_eq] at hfuel
      obtain ⟨inner, u, raised, m, hcomes, hraises⟩ := ih hfails (Nat.succ.inj hfuel)
      exact ⟨inner ++ outer, u, raised, m, .inside hinside hcomes, hraises⟩

/-! ## What an error is blamed on -/

/-- On its way out an error without a place is blamed on the innermost call around it. -/
theorem passAll_error (surroundings : List Surrounding) (e : RuntimeError) :
    Surrounding.passAll surroundings (.error e)
      = .error ⟨e.fault, e.span.or (surroundings.findSome? Surrounding.blamed?)⟩ := by
  induction surroundings generalizing e with
  | nil =>
    rw [List.findSome?_nil, Option.or_none]
    rfl
  | cons surrounding surroundings ih =>
    have hpass : Surrounding.pass surrounding (.error e)
        = .error ⟨e.fault, e.span.or surrounding.blamed?⟩ := by
      obtain ⟨fault, span⟩ := e
      cases surrounding <;> cases span <;> rfl
    show Surrounding.passAll surroundings (surrounding.pass (.error e)) = _
    rw [hpass, ih, Option.or_assoc]
    cases surrounding <;> rfl

/-- Whether a stage is a call. -/
def Stage.isCall : Stage → Bool
  | .node .. => false
  | .call .. => true

/-- Between a node and a call stands the node of a call. -/
theorem ComesTo.blamed?_isSome {settings : Settings} {s t : Stage} {surroundings : List Surrounding}
    (h : ComesTo settings s surroundings t) (hs : s.isCall = false) (ht : t.isCall = true) :
    (surroundings.findSome? Surrounding.blamed?).isSome := by
  induction h with
  | here s =>
    rw [hs] at ht
    cases ht
  | @inside s t u inner outer hinside _ ih =>
    rw [List.findSome?_append, Option.isSome_or]
    cases hcall : t.isCall with
    | false => rw [ih hcall ht, Bool.true_or]
    | true =>
      have houter : (outer.findSome? Surrounding.blamed?).isSome := by
        cases hinside with
        | calls => rfl
        | mapped | reduced => cases hs
        | _ => cases hcall
      rw [houter, Bool.or_true]

/-- An error that a node raises is blamed on a node at once. -/
theorem Raises.span_isSome {settings : Settings} {s : Stage} {e : RuntimeError} {m : Machine}
    (h : Raises settings s e m) (hs : s.isCall = false) : e.span.isSome := by
  cases h with
  | notCallable | arity | depth | jump | builtin => cases hs
  | _ => rfl

/-! ## What is left behind -/

/-- Between the machine at an error and the one that is left behind when the error has left these
constructs, the variables of the counting loops among them are removed from their scopes, and scopes
may be gone. Nothing else happens. -/
structure Unwound (surroundings : List Surrounding) (before after : Machine) : Prop where
  console : after.console = before.console
  size : after.scopes.size ≤ before.scopes.size
  parent : ∀ id < after.scopes.size, after.scopes.parent? id = before.scopes.parent? id
  removed : ∀ id < after.scopes.size, ∀ name, .loop id name ∈ surroundings →
    (after.scopes.bindings id).get? name = none
  kept : ∀ id < after.scopes.size, ∀ name, .loop id name ∉ surroundings →
    (after.scopes.bindings id).get? name = (before.scopes.bindings id).get? name

theorem ScopeTree.size_keep_le (tree : ScopeTree) (n : Nat) : (tree.keep n).size ≤ tree.size := by
  simp only [keep, size, Array.size_shrink]
  omega

/-- The scopes that are kept are as they were. -/
theorem ScopeTree.getElem?_keep {tree : ScopeTree} {n : Nat} {id : ScopeId}
    (h : id < (tree.keep n).size) :
    (tree.keep n).scopes[id]? = tree.scopes[id]? := by
  have hid : id < min n tree.scopes.size := by
    simpa only [keep, size, Array.size_shrink] using h
  rw [keep, ← Array.getElem?_toList, Array.toList_shrink,
    List.getElem?_take_of_lt (Nat.lt_of_lt_of_le hid (Nat.min_le_left _ _)), Array.getElem?_toList]

namespace Unwound

variable {surroundings : List Surrounding} {m m₁ m₂ : Machine}

theorem refl (m : Machine) : Unwound [] m m :=
  ⟨rfl, Nat.le_refl _, fun _ _ => rfl, fun _ _ _ hmem => absurd hmem List.not_mem_nil,
    fun _ _ _ _ => rfl⟩

/-- Scopes that go take nothing with them but themselves. -/
theorem of_keep {surrounding : Surrounding} (hloop : ∀ id name, surrounding ≠ .loop id name)
    (hconsole : m₁.console = m.console) {n : Nat} (hscopes : m₁.scopes = m.scopes.keep n) :
    Unwound [surrounding] m m₁ := by
  have helem : ∀ id < m₁.scopes.size, m₁.scopes.scopes[id]? = m.scopes.scopes[id]? := by
    rw [hscopes]
    exact fun id hid => ScopeTree.getElem?_keep hid
  constructor
  · exact hconsole
  · rw [hscopes]
    exact ScopeTree.size_keep_le _ _
  · intro id hid
    rw [ScopeTree.parent?, helem id hid, ScopeTree.parent?]
  · intro id hid name hmem
    exact absurd (List.mem_singleton.1 hmem).symm (hloop id name)
  · intro id hid name _
    rw [ScopeTree.bindings, helem id hid, ScopeTree.bindings]

/-- A counting loop that is left takes its variable away. -/
theorem of_remove (m : Machine) (scope : ScopeId) (name : String) :
    Unwound [.loop scope name] m { m with scopes := m.scopes.remove scope name } := by
  constructor
  · rfl
  · exact Nat.le_of_eq ScopeTree.size_update
  · exact fun _ _ => ScopeTree.parent?_update
  · intro id hid other hmem
    cases List.mem_singleton.1 hmem
    have hsize : scope < m.scopes.size := by rwa [ScopeTree.remove, ScopeTree.size_update] at hid
    simp only [ScopeTree.remove]
    rw [ScopeTree.bindings_update_self hsize, Bindings.get?_erase_self]
  · intro id hid other hmem
    simp only [ScopeTree.remove] at hid ⊢
    by_cases hscope : id = scope
    · subst hscope
      have hname : name ≠ other := by
        rintro rfl
        exact hmem (List.mem_singleton.2 rfl)
      rw [ScopeTree.size_update] at hid
      rw [ScopeTree.bindings_update_self hid, Bindings.get?_erase_of_ne _ hname]
    · rw [ScopeTree.bindings_update_of_ne hscope]

/-- To leave a surrounding unwinds it. -/
theorem leave (surrounding : Surrounding) (m : Machine) :
    Unwound [surrounding] m (surrounding.leave m) := by
  cases surrounding with
  | call span =>
    exact ⟨rfl, Nat.le_refl _, fun _ _ => rfl,
      fun _ _ _ hmem => absurd (List.mem_singleton.1 hmem) Surrounding.noConfusion,
        fun _ _ _ _ => rfl⟩
  | loop scope name => exact of_remove m scope name
  | function scope => exact of_keep (fun _ _ => Surrounding.noConfusion) rfl rfl
  | items scope => exact of_keep (fun _ _ => Surrounding.noConfusion) rfl rfl

/-- What is removed further in stays removed. -/
theorem cons {surrounding : Surrounding} (h : Unwound [surrounding] m m₁)
    (h' : Unwound surroundings m₁ m₂) : Unwound (surrounding :: surroundings) m m₂ where
  console := h'.console.trans h.console
  size := Nat.le_trans h'.size h.size
  parent id hid := (h'.parent id hid).trans (h.parent id (Nat.lt_of_lt_of_le hid h'.size))
  removed id hid name hmem := by
    by_cases hrest : .loop id name ∈ surroundings
    · exact h'.removed id hid name hrest
    · rw [h'.kept id hid name hrest]
      refine h.removed id (Nat.lt_of_lt_of_le hid h'.size) name ?_
      exact List.mem_singleton.2 ((List.mem_cons.1 hmem).resolve_right hrest)
  kept id hid name hmem := by
    rw [List.mem_cons, not_or] at hmem
    rw [h'.kept id hid name hmem.2]
    exact h.kept id (Nat.lt_of_lt_of_le hid h'.size) name fun hfirst =>
      hmem.1 (List.mem_singleton.1 hfirst)

/-- To leave surroundings unwinds them all. -/
theorem leaveAll (surroundings : List Surrounding) (m : Machine) :
    Unwound surroundings m (Surrounding.leaveAll surroundings m) := by
  induction surroundings generalizing m with
  | nil => exact refl m
  | cons surrounding surroundings ih => exact (leave surrounding m).cons (ih (surrounding.leave m))

end Unwound

/-! ## Runs -/

/-- The stage that a run starts with. -/
def Session.firstStage (session : Session) (fuel : Nat) (program : Program) : Stage :=
  .node fuel program.tree (.root program.unit) ScopeTree.rootId { session.machine with depth := 0 }

/-- A run ends with the error that its first stage fails with, if something is blamed for it. -/
theorem runProgram_of_fails {session : Session} {fuel : Nat} {program : Program} {fault : Fault}
    {span : Span} {after : Machine} (h : Fails session.settings (session.firstStage fuel program)
      (.error ⟨fault, some span⟩) after) :
    session.runProgram fuel program
      = (.error (.failed ⟨fault, some span⟩), { session with machine := after }) := by
  rw [Session.runProgram, show eval _ _ _ _ _ _ = _ from h]
  rfl

/-- A raised error is blamed on the innermost node that it leaves. -/
theorem exists_blamed {settings : Settings} {s t : Stage} {surroundings : List Surrounding}
    {e : RuntimeError} {m : Machine} (hs : s.isCall = false)
    (hcomes : ComesTo settings s surroundings t) (hraises : Raises settings t e m) :
    ∃ span, e.span.or (surroundings.findSome? Surrounding.blamed?) = some span := by
  rw [← Option.isSome_iff_exists, Option.isSome_or]
  cases ht : t.isCall with
  | false => rw [hraises.span_isSome ht, Bool.true_or]
  | true => rw [hcomes.blamed?_isSome hs ht, Bool.or_true]

/-- A run has as many scopes in the end as it had before. -/
theorem size_of_fails {session : Session} {fuel : Nat} {program : Program} {f : Failure}
    {after : Machine} (h : Fails session.settings (session.firstStage fuel program) f after) :
    after.scopes.size = session.machine.scopes.size := by
  have hframe := ((touches_eval_call session.settings fuel).1 program.tree (.root program.unit)
    ScopeTree.rootId).frame { session.machine with depth := 0 }
  rw [show eval _ _ _ _ _ _ = _ from h] at hframe
  exact hframe.size

/-- A raised error ends the run. -/
theorem runProgram_of_raises {session : Session} {fuel : Nat} {program : Program}
    {surroundings : List Surrounding} {stage : Stage} {e : RuntimeError} {m : Machine}
    (hcomes : ComesTo session.settings (session.firstStage fuel program) surroundings stage)
    (hraises : Raises session.settings stage e m) :
    ∃ span after, e.span.or (surroundings.findSome? Surrounding.blamed?) = some span ∧
      session.runProgram fuel program
        = (.error (.failed ⟨e.fault, some span⟩), { session with machine := after }) ∧
      Unwound surroundings m after ∧ after.scopes.size = session.machine.scopes.size := by
  obtain ⟨span, hspan⟩ := exists_blamed rfl hcomes hraises
  have hfails := Fails.of_comesTo hcomes (.of_raises hraises)
  rw [passAll_error, hspan] at hfails
  exact ⟨span, _, hspan, runProgram_of_fails hfails, .leaveAll surroundings m, size_of_fails hfails⟩

/-- No construct swallows or changes an error. If a run comes to a stage that raises an error, the
run ends with this error, blamed on the innermost node that it left; from then on nothing is written
or read, and the scopes of the session change only by the removal of the variables of the counting
loops that are left. And if a run ends with an error, it has come to a stage that raised it, or else
a jump left the whole program. -/
theorem raised_errors_end_the_run (session : Session) (fuel : Nat) (program : Program) :
    (∀ surroundings stage e m,
      ComesTo session.settings (session.firstStage fuel program) surroundings stage →
      Raises session.settings stage e m →
      ∃ span after, e.span.or (surroundings.findSome? Surrounding.blamed?) = some span ∧
        session.runProgram fuel program
          = (.error (.failed ⟨e.fault, some span⟩), { session with machine := after }) ∧
        Unwound surroundings m after ∧ after.scopes.size = session.machine.scopes.size) ∧
    ∀ e, (session.runProgram fuel program).1 = .error (.failed e) →
      (∃ surroundings stage raised m,
        ComesTo session.settings (session.firstStage fuel program) surroundings stage ∧
        Raises session.settings stage raised m ∧ raised.fault = e.fault) ∨
      ∃ interrupt after,
        eval session.settings fuel program.tree (.root program.unit) ScopeTree.rootId
          { session.machine with depth := 0 } = .error interrupt after ∧
        (∀ failure, interrupt ≠ .failing failure) ∧
        interrupt.uncaught.blame program.tree.span = .error e := by
  refine ⟨fun _ _ _ _ => runProgram_of_raises, fun e he => ?_⟩
  obtain ⟨interrupt, after, hrun, hblame⟩ := Session.exists_of_runProgram_failed he
  -- What ended the evaluation was a failure, which some stage raised, or a jump that nothing
  -- stopped.
  by_cases hjump : ∃ failure, interrupt = .failing failure
  · obtain ⟨failure, rfl⟩ := hjump
    cases failure with
    | exhausted => cases hblame
    | error e₁ =>
      obtain ⟨surroundings, stage, raised, m, hcomes, hraises⟩ := exists_raises_of_fails
        (s := session.firstStage fuel program) hrun
      obtain ⟨span, after', -, houtcome, -⟩ := runProgram_of_raises hcomes hraises
      rw [houtcome] at he
      cases he
      exact .inl ⟨surroundings, stage, raised, m, hcomes, hraises, rfl⟩
  · exact .inr ⟨interrupt, after, hrun, fun failure hfailure => hjump ⟨failure, hfailure⟩, hblame⟩

/-- A loop `for i = 1 : 1` over the variable `y`, which is not bound, fails there and leaves no `i`
behind. -/
theorem raised_errors_end_the_run_in_a_loop :
    let place : Nat → Span := fun k => ⟨⟨k, 1, k⟩, ⟨k + 1, 1, k + 1⟩⟩
    let bound : Node := ⟨.number 1.0, place 8⟩
    let program : Program := ⟨0, ⟨.forLoop "i" bound bound none ⟨.var "y", place 17⟩, place 0⟩⟩
    let session := Session.new { strictVariables := true } (.new [] none) 1
    ∃ m, ComesTo session.settings (session.firstStage 2 program) [.loop ScopeTree.rootId "i"]
        (.node 1 ⟨.var "y", place 17⟩ ((Site.root 0).child 2) ScopeTree.rootId m) ∧
      Raises session.settings
        (.node 1 ⟨.var "y", place 17⟩ ((Site.root 0).child 2) ScopeTree.rootId m)
        ⟨.undefinedVariable "y", some (place 17)⟩ m ∧
      ∃ span after, some (place 17) = some span ∧
        session.runProgram 2 program
          = (.error (.failed ⟨.undefinedVariable "y", some span⟩),
            { session with machine := after }) ∧
        Unwound [.loop ScopeTree.rootId "i"] m after ∧
          after.scopes.size = session.machine.scopes.size := by
  intro place bound program session
  let start : Machine := { session.machine with depth := 0 }
  have hcomes : ComesTo session.settings (session.firstStage 2 program) [.loop ScopeTree.rootId "i"]
      (.node 1 ⟨.var "y", place 17⟩ ((Site.root 0).child 2) ScopeTree.rootId
        (start.counting ScopeTree.rootId "i" 1.0)) := by
    refine .inside (.forBody (x := 1.0) (y := 1.0) (z := 1.0) ⟨rfl, rfl, rfl⟩ ?_ Nat.zero_lt_one
      (.zero 1.0 start) ?_) (.here _)
    · decide
    · decide
  have hraises : Raises session.settings
      (.node 1 ⟨.var "y", place 17⟩ ((Site.root 0).child 2) ScopeTree.rootId
        (start.counting ScopeTree.rootId "i" 1.0))
      ⟨.undefinedVariable "y", some (place 17)⟩ (start.counting ScopeTree.rootId "i" 1.0) := by
    refine .undefined rfl ?_
    rw [ScopeTree.get?_rootId]
    rfl
  exact ⟨_, hcomes, hraises, (raised_errors_end_the_run session 2 program).1 _ _ _ _ hcomes hraises⟩

end Script
