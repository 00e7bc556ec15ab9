import Mathlib.Data.List.Nodup
import Script.Proofs.Machine.Custody
import Script.Proofs.Machine.Origins

/-!
# Histories of sessions

What can happen to a session, with as much of it kept along as a statement needs.

* `Session.Reached` is a session that anything has happened to. All that is known is that every
  function in it comes from a tree that has been given its number (`Reached.numbered`).
* `Session.Chronicle` also keeps which trees were loaded, and with which stages runs and calls have
  started. It says where a function comes from: `MadeFrom` says that one of the runs and calls came
  to the literal at a place of a program, and that the value of this literal was the function.
* `Session.after` is the session after some given inputs.

A session with a chronicle is reached (`Chronicle.reached`), and so is what comes after any inputs
to a reached session (`Reached.after`). A session at the prompt has a chronicle of its lines, too
(`Prompt.Evaluated.exists_chronicle`).
-/

namespace Script

/-! ## Sessions that are reached -/

/-- Everything that belongs to trees with smaller numbers. -/
def Origins.below (units : Nat) : Origins where
  nodes site _ := site.unit < units
  functions site _ := site.unit < units
  spans _ := True
  child _ h _ := h
  literal h := h
  body h := h
  span _ := trivial

namespace Session

/-- All functions in the variables were made from trees that have been given their numbers. -/
def Numbered (session : Session) : Prop :=
  ∀ id, (session.machine.scopes.bindings id).Admits fun site _ => site.unit < session.units

/-- The states that a session can be in. It can load trees, run what has been loaded, call values,
and its console can be used by others in between. -/
inductive Reached : Session → Prop
  | new (settings : Settings) (console : Console) (units : Nat) :
      Reached (.new settings console units)
  | load {session : Session} (tree : Node) (h : Reached session) : Reached (session.load tree).2
  | runProgram {session : Session} (fuel : Nat) {program : Program}
      (hloaded : program.unit < session.units) (h : Reached session) :
      Reached (session.runProgram fuel program).2
  | callValue {session : Session} (fuel : Nat) (callee : Value) (args : List Value)
      (h : Reached session) : Reached (session.callValue fuel callee args).2
  | console {session : Session} (console : Console) (h : Reached session) :
      Reached { session with machine := { session.machine with console } }

variable {session : Session}

/-- Nothing but built-in functions is bound in a new session. -/
theorem numbered_new (settings : Settings) (console : Console) (units : Nat) :
    (new settings console units).Numbered := by
  intro id
  by_cases hid : id = ScopeTree.rootId
  · subst hid
    exact admits_new settings console units ScopeTree.rootId (.refl _)
  · have hsize : (ScopeTree.root globals).size ≤ id := Nat.one_le_iff_ne_zero.mpr hid
    rw [new, ScopeTree.bindings_of_size_le hsize]
    exact Bindings.admits_empty

/-- One more number is given, and those from before still count. -/
theorem Numbered.load (h : session.Numbered) (tree : Node) : (session.load tree).2.Numbered :=
  fun id name v hv => (h id name v hv).mono fun _ _ hlt => Nat.lt_succ_of_lt hlt

/-- What a run of a session with such variables starts with. -/
theorem Numbered.known (h : session.Numbered) :
    ({ session.machine with depth := 0 } : Machine).Known (.below session.units) 0
      ScopeTree.rootId :=
  ⟨fun id _ => h id, rfl⟩

/-- Running a program gives no numbers. -/
theorem units_runProgram (session : Session) (fuel : Nat) (program : Program) :
    (session.runProgram fuel program).2.units = session.units := by
  rw [runProgram_eq]

/-- A run makes functions from its own tree only. -/
theorem Numbered.runProgram (h : session.Numbered) (fuel : Nat) {program : Program}
    (hloaded : program.unit < session.units) :
    (session.runProgram fuel program).2.Numbered := by
  have hknown : EvalKnown (.below session.units) 0 ScopeTree.rootId
      (eval session.settings fuel program.tree (.root program.unit) ScopeTree.rootId) :=
    (known_eval_call _ _ _).1 _ hloaded _ _
  have hframe := ((touches_eval_call session.settings fuel).1 program.tree (.root program.unit)
    ScopeTree.rootId).frame { session.machine with depth := 0 }
  intro id
  rw [units_runProgram, machine_runProgram]
  by_cases hid : id = ScopeTree.rootId
  · rw [hid]
    exact (hknown.after h.known).functions _ (.refl _)
  · rw [hframe.elsewhere id hid]
    exact h id

/-- A call leaves all variables as they are. -/
theorem Numbered.callValue (h : session.Numbered) (fuel : Nat) (callee : Value)
    (args : List Value) : (session.callValue fuel callee args).2.Numbered := by
  have htouches := (touches_eval_call session.settings fuel).2 callee args ScopeTree.rootId
  intro id
  rw [callValue_eq, htouches.scopes_eq]
  exact h id

/-- Whatever has happened to a session, its functions come from trees with a number. -/
theorem Reached.numbered (h : Reached session) : session.Numbered := by
  induction h with
  | new settings console units => exact numbered_new settings console units
  | load tree _ ih => exact ih.load tree
  | runProgram fuel hloaded _ ih => exact ih.runProgram fuel hloaded
  | callValue fuel callee args _ ih => exact ih.callValue fuel callee args
  | console _ _ ih => exact ih

/-! ## Sessions after inputs -/

/-- An input that a session has given a number, or will give one. -/
def Input.Known (session : Session) : Input → Prop
  | .source _ => True
  | .program loaded => loaded.unit < session.units

/-- Numbers are never taken back. -/
theorem units_le_feed (session : Session) (fuel : Nat) (input : Input) :
    session.units ≤ (session.feed fuel input).2.units := by
  cases input with
  | program loaded => exact Nat.le_of_eq (units_runProgram session fuel loaded).symm
  | source text =>
    have hfeed : (session.feed fuel (.source text)).2 = (session.run fuel text).2 := rfl
    cases hparse : parseSource text with
    | error e =>
      rw [run_of_error hparse] at hfeed
      exact Nat.le_of_eq (congrArg units hfeed).symm
    | ok tree =>
      rw [run_of_ok hparse] at hfeed
      have hunits := (congrArg units hfeed).trans (units_runProgram _ fuel _)
      exact Nat.le_trans (Nat.le_succ session.units) (Nat.le_of_eq hunits.symm)

/-- An input that is known to a session stays so when another one is fed. -/
theorem Input.Known.feed {input : Input} (h : input.Known session) (fuel : Nat) (first : Input) :
    input.Known (session.feed fuel first).2 := by
  cases input with
  | source text => exact trivial
  | program loaded => exact Nat.lt_of_lt_of_le h (units_le_feed session fuel first)

/-- Reading and running a source is loading and running. -/
theorem Reached.run (h : Reached session) (fuel : Nat) (source : String) :
    Reached (session.run fuel source).2 := by
  cases hparse : parseSource source with
  | error e =>
    rw [run_of_error hparse]
    exact h
  | ok tree =>
    rw [run_of_ok hparse]
    exact .runProgram fuel (Nat.lt_succ_self session.units) (.load tree h)

/-- A session is reached by inputs, one after the other. -/
theorem Reached.after (h : Reached session) {inputs : List (Nat × Input)}
    (hknown : ∀ input ∈ inputs, input.2.Known session) : Reached (session.after inputs) := by
  induction inputs generalizing session with
  | nil => exact h
  | cons first inputs ih =>
    obtain ⟨hfirst, hrest⟩ := List.forall_mem_cons.mp hknown
    refine ih ?_ fun input hmem => (hrest input hmem).feed first.1 first.2
    obtain ⟨fuel, input⟩ := first
    cases input with
    | source text => exact h.run fuel text
    | program loaded => exact .runProgram fuel hfirst h

end Session

/-! ## Chronicles -/

/-- The node at the end of a way down from the root. The way is given like that of a `Site`, last
position first. -/
def Node.nodeAt? (tree : Node) : List Nat → Option Node
  | [] => some tree
  | position :: path => (tree.nodeAt? path).bind fun parent => parent.children[position]?

/-- A value was made from the literal of a function at a place of a program: a run or call that
started with one of the stages came to the literal at this place, and this was its value. -/
def MadeFrom (settings : Settings) (stages : List Stage) (value : Value) (program : Program)
    (path : List Nat) : Prop :=
  ∃ start ∈ stages, ∃ surroundings fuel definition span scope m m',
    program.tree.nodeAt? path = some ⟨.function definition, span⟩ ∧
    ComesTo settings start surroundings
      (.node fuel ⟨.function definition, span⟩ ⟨program.unit, path⟩ scope m) ∧
    eval settings fuel ⟨.function definition, span⟩ ⟨program.unit, path⟩ scope m = .ok value m'

/-- A function was made from a literal of one of the programs. -/
def Made (settings : Settings) (programs : List Program) (stages : List Stage) (site : Site)
    (definition : Definition) : Prop :=
  ∃ program ∈ programs, ∃ path, MadeFrom settings stages (.function site definition) program path

/-- What has happened in a session with the given settings: the programs that were loaded, and the
stages that its runs and calls have started with. A call from outside passes on functions that the
session has made. -/
inductive Session.Chronicle (settings : Settings) :
    List Program → List Stage → Session → Prop
  | new (console : Console) (units : Nat) :
      Chronicle settings [] [] (.new settings console units)
  | load {programs : List Program} {stages : List Stage} {session : Session} (tree : Node)
      (h : Chronicle settings programs stages session) :
      Chronicle settings (programs ++ [(session.load tree).1]) stages (session.load tree).2
  | runProgram {programs : List Program} {stages : List Stage} {session : Session} (fuel : Nat)
      {program : Program} (hprogram : program ∈ programs)
      (h : Chronicle settings programs stages session) :
      Chronicle settings programs (stages ++ [session.firstStage fuel program])
        (session.runProgram fuel program).2
  | callValue {programs : List Program} {stages : List Stage} {session : Session} (fuel : Nat)
      {callee : Value} {args : List Value} (hcallee : callee.Admits (Made settings programs stages))
      (hargs : ∀ v ∈ args, v.Admits (Made settings programs stages))
      (h : Chronicle settings programs stages session) :
      Chronicle settings programs
        (stages ++ [.call fuel callee args ScopeTree.rootId session.machine])
        (session.callValue fuel callee args).2
  | console {programs : List Program} {stages : List Stage} {session : Session} (console : Console)
      (h : Chronicle settings programs stages session) :
      Chronicle settings programs stages
        { session with machine := { session.machine with console } }

namespace Session.Chronicle

variable {settings : Settings} {programs : List Program} {stages : List Stage} {session : Session}

/-- No step of a chronicle changes the settings. -/
theorem settings_eq (h : Chronicle settings programs stages session) :
    session.settings = settings := by
  induction h with
  | new => rfl
  | load _ _ ih | console _ _ ih => exact ih
  | runProgram fuel _ _ ih =>
    rw [runProgram_eq]
    exact ih
  | callValue fuel _ _ _ ih =>
    rw [callValue_eq]
    exact ih

/-- Programs have been given numbers that are not given again. -/
theorem unit_lt (h : Chronicle settings programs stages session) :
    ∀ program ∈ programs, program.unit < session.units := by
  induction h with
  | new => nofun
  | @load programs stages session tree _ ih =>
    intro program hmem
    rcases List.mem_append.1 hmem with hmem | hmem
    · exact Nat.lt_succ_of_lt (ih program hmem)
    · rw [List.mem_singleton.1 hmem]
      exact Nat.lt_succ_self session.units
  | runProgram fuel _ _ ih =>
    rw [runProgram_eq]
    exact ih
  | callValue fuel _ _ _ ih =>
    rw [callValue_eq]
    exact ih
  | console _ _ ih => exact ih

/-- No two programs have the same number, even if they were read from the same source. -/
theorem nodup_units (h : Chronicle settings programs stages session) :
    (programs.map Program.unit).Nodup := by
  induction h with
  | new => exact List.nodup_nil
  | @load programs stages session tree h ih =>
    rw [List.map_append, List.map_singleton, ← List.concat_eq_append]
    refine ih.concat fun hmem => ?_
    obtain ⟨program, hmem, hunit⟩ := List.mem_map.1 hmem
    exact Nat.ne_of_lt (h.unit_lt program hmem) hunit
  | runProgram _ _ _ ih | callValue _ _ _ _ ih | console _ _ ih => exact ih

/-- A session that there is a chronicle of is reached. The converse fails, as a call may be given
functions from outside of the session. -/
theorem reached (h : Chronicle settings programs stages session) : session.Reached := by
  induction h with
  | new console units => exact .new settings console units
  | load tree _ ih => exact .load tree ih
  | runProgram fuel hprogram h ih => exact .runProgram fuel (h.unit_lt _ hprogram) ih
  | callValue fuel _ _ _ ih => exact .callValue fuel _ _ ih
  | console console _ ih => exact .console console ih

/-- Reading a source and running it loads a program and runs it. -/
theorem run (h : Chronicle settings programs stages session) (fuel : Nat) {source : String}
    {tree : Node} (hparse : parseSource source = .ok tree) :
    Chronicle settings (programs ++ [(session.load tree).1])
      (stages ++ [(session.load tree).2.firstStage fuel (session.load tree).1])
      (session.run fuel source).2 := by
  rw [run_of_ok hparse]
  exact .runProgram fuel (List.mem_append_right programs (List.mem_singleton_self _))
    (.load tree h)

end Session.Chronicle

end Script
