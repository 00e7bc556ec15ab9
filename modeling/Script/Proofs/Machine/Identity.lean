import Mathlib.Data.List.Nodup
import Script.Proofs.Machine.Histories
import Script.Proofs.Value.Equality

/-!
# Functions are told apart by their literals

In every session, each function within reach was made from a literal of one of the programs that
were loaded, and two functions are equal exactly if they were made from the same literal of the same
program, however often it was evaluated and wherever the functions have been since
(`functions_equal_iff_same_literal`).

## Shape of the proof

The evaluator carries along the place of the node that it evaluates. That this is in fact the place
where the node stands is an invariant of stages (`Stage.InPlace`): it holds at the start of a run,
and going down to a child keeps it (`Inside.exists_child`). Only a call jumps, to the body of a
function. There the invariant comes from the function, which was made at a stage that had it. So
both have to be proved at once, which is what `Custody` does (`custody_made`).
-/

namespace Script

/-! ## Places of nodes -/

/-- A stage comes to the stages inside of those that it comes to. -/
theorem ComesTo.snoc {settings : Settings} {s t u : Stage} {inner outer : List Surrounding}
    (h : ComesTo settings s outer t) (hinside : Inside settings t inner u) :
    ComesTo settings s (inner ++ outer) u := by
  induction h with
  | here s =>
    rw [List.append_nil]
    exact .inside hinside (.here u)
  | inside hfirst _ ih =>
    rw [← List.append_assoc]
    exact .inside hfirst (ih hinside)

/-- Each arm takes up two places. -/
theorem getElem?_behind_arms (before : List Arm) (rest : List Node) (i : Nat) :
    (before.flatMap (fun arm => [arm.cond, arm.body]) ++ rest)[2 * before.length + i]?
      = rest[i]? := by
  induction before with
  | nil => rw [List.flatMap_nil, List.nil_append, List.length_nil, Nat.mul_zero, Nat.zero_add]
  | cons arm before ih =>
    have hindex : 2 * (arm :: before).length + i = 2 * before.length + i + 2 := by
      rw [List.length_cons]
      omega
    rw [hindex]
    exact ih

/-- What stands behind some items is at the position of their number. -/
theorem getElem?_append_cons {α : Type} {all before after : List α} {x : α}
    (h : all = before ++ x :: after) :
    all[before.length]? = some x := by
  rw [h, List.getElem?_append_right (Nat.le_refl _), Nat.sub_self, List.getElem?_cons_zero]

/-- A node goes on with one of its children, at the place of this child. -/
theorem Inside.exists_child {settings : Settings} {fuel fuel' : Nat} {node child : Node}
    {site site' : Site} {scope scope' : ScopeId} {m m' : Machine} {surroundings : List Surrounding}
    (h : Inside settings (.node fuel node site scope m) surroundings
      (.node fuel' child site' scope' m')) :
    ∃ position, node.children[position]? = some child ∧ site' = site.child position := by
  cases h with
  | assigned | operand | cond | target | first | callee | returned | left | whileCond =>
    exact ⟨0, rfl, rfl⟩
  | right | yes | place | whileBody | last => exact ⟨1, rfl, rfl⟩
  | no | step => exact ⟨2, rfl, rfl⟩
  | item hitems | statement hitems => exact ⟨_, getElem?_append_cons hitems, rfl⟩
  -- An arm has two children, so the arms before it count twice.
  | @armCond _ _ _ _ _ _ _ otherwise before arm after harms =>
    refine ⟨2 * before.length, ?_, rfl⟩
    rw [Node.children, Form.children, harms, List.flatMap_append, List.append_assoc]
    exact getElem?_behind_arms before _ 0
  | @armBody _ _ _ _ _ _ _ _ otherwise before arm after _ harms =>
    refine ⟨2 * before.length + 1, ?_, rfl⟩
    rw [Node.children, Form.children, harms, List.flatMap_append, List.append_assoc]
    exact getElem?_behind_arms before _ 1
  | @otherwise _ _ _ _ _ _ arms => exact ⟨2 * arms.length, getElem?_behind_arms arms [child] 0, rfl⟩
  | @forBody _ _ _ _ _ _ _ _ _ _ _ _ step =>
    cases step with
    | none => exact ⟨2, rfl, rfl⟩
    | some step => exact ⟨3, rfl, rfl⟩
  | @argument _ _ _ _ _ _ _ callee _ before _ _ _ _ _ hargs =>
    refine ⟨before.length + 1, getElem?_append_cons hargs, ?_⟩
    rw [Nat.add_comm]

/-- The node of a stage stands at the place that the stage is at, in one of the programs. -/
def Stage.InPlace (programs : List Program) : Stage → Prop
  | .node _ tree site _ _ =>
    ∃ program ∈ programs, ∃ path, site = ⟨program.unit, path⟩ ∧
      program.tree.nodeAt? path = some tree
  | .call .. => True

/-! ## Every function was made -/

/-- A function literal comes to a function of its place. -/
theorem eval_function (settings : Settings) (fuel : Nat) (definition : Definition) (span : Span)
    (site : Site) (scope : ScopeId) (m : Machine) :
    ∃ m', eval settings (fuel + 1) ⟨.function definition, span⟩ site scope m
      = .ok (.function site definition) m' := by
  rw [eval_succ]
  obtain ⟨name, params, body, isExpression⟩ := definition
  cases name with
  | none => exact ⟨m, rfl⟩
  | some name => exact ⟨_, rfl⟩

section

variable {settings : Settings} {programs : List Program} {stages : List Stage}

/-- What is made from the literal at a place is the function of this literal, with this place. -/
theorem MadeFrom.exists_literal {value : Value} {program : Program} {path : List Nat}
    (h : MadeFrom settings stages value program path) :
    ∃ definition span, value = .function ⟨program.unit, path⟩ definition ∧
      program.tree.nodeAt? path = some ⟨.function definition, span⟩ := by
  obtain ⟨_, _, _, fuel, definition, span, scope, m, m', hnode, -, hrun⟩ := h
  refine ⟨definition, span, ?_, hnode⟩
  cases fuel with
  | zero =>
    rw [eval_zero] at hrun
    cases hrun
  | succ fuel =>
    obtain ⟨m'', hvalue⟩ := eval_function settings fuel definition span ⟨program.unit, path⟩ scope m
    rw [hvalue] at hrun
    cases hrun
    rfl

/-- Functions that were made have bodies that are in place. -/
theorem Made.inPlace_body {site : Site} {definition : Definition}
    (h : Made settings programs stages site definition)
    (fuel : Nat) (scope : ScopeId) (m : Machine) :
    (Stage.node fuel definition.body (site.child 0) scope m).InPlace programs := by
  obtain ⟨program, hprogram, path, hmade⟩ := h
  obtain ⟨definition', span, hvalue, hnode⟩ := hmade.exists_literal
  cases hvalue
  refine ⟨program, hprogram, 0 :: path, rfl, ?_⟩
  rw [Node.nodeAt?, hnode]
  rfl

/-- Down to a child and into the body of a function, nodes are in place. -/
theorem Inside.inPlace {s t : Stage} {surroundings : List Surrounding}
    (h : Inside settings s surroundings t)
    (hs : s.InPlace programs) (hmade : s.Admits (Made settings programs stages)) :
    t.InPlace programs := by
  cases t with
  | call => trivial
  | node fuel child site scope m =>
    cases s with
    | node _ parent _ _ _ =>
      obtain ⟨program, hprogram, path, rfl, hparent⟩ := hs
      obtain ⟨position, hchild, rfl⟩ := h.exists_child
      refine ⟨program, hprogram, position :: path, rfl, ?_⟩
      rw [Node.nodeAt?, hparent]
      exact hchild
    | call =>
      cases h with
      | body => exact Made.inPlace_body hmade.1 _ _ _

/-- Stages that a chronicle comes to make functions from the literals at their places. -/
theorem custody_made (settings : Settings) (programs : List Program) (stages : List Stage) :
    Custody settings (Made settings programs stages) fun t =>
      (∃ start ∈ stages, ∃ surroundings, ComesTo settings start surroundings t) ∧
        t.InPlace programs where
  makes := by
    rintro _ site definition ⟨⟨start, hstart, surroundings, hcomes⟩, hplace⟩
      ⟨fuel, span, scope, m, rfl⟩
    obtain ⟨program, hprogram, path, rfl, hnode⟩ := hplace
    obtain ⟨m', hvalue⟩ := eval_function settings fuel definition span ⟨program.unit, path⟩ scope m
    exact ⟨program, hprogram, path, start, hstart, surroundings, _, definition, span, scope, m, m',
      hnode, hcomes, hvalue⟩
  inside := by
    rintro s surroundings t ⟨⟨start, hstart, _, hcomes⟩, hplace⟩ hmade hinside -
    exact ⟨⟨start, hstart, _, hcomes.snoc hinside⟩, hinside.inPlace hplace hmade⟩

theorem MadeFrom.mono {stages' : List Stage} {value : Value} {program : Program} {path : List Nat}
    (h : MadeFrom settings stages value program path) (hstages : stages ⊆ stages') :
    MadeFrom settings stages' value program path := by
  obtain ⟨start, hstart, hmade⟩ := h
  exact ⟨start, hstages hstart, hmade⟩

/-- A function that was made in some runs was made in more. -/
theorem Made.mono {programs' : List Program} {stages' : List Stage}
    (hprograms : programs ⊆ programs')
    (hstages : stages ⊆ stages') (site : Site) (definition : Definition)
    (h : Made settings programs stages site definition) :
    Made settings programs' stages' site definition := by
  obtain ⟨program, hprogram, path, hmade⟩ := h
  exact ⟨program, hprograms hprogram, path, hmade.mono hstages⟩

end

theorem Stage.Admits.mono {P Q : Site → Definition → Prop} {s : Stage} (h : s.Admits P)
    (himp : ∀ site definition, P site definition → Q site definition) : s.Admits Q := by
  cases s with
  | node => exact ScopeTree.Admits.mono h himp
  | call => exact ⟨h.1.mono himp, fun v hv => (h.2.1 v hv).mono himp, h.2.2.mono himp⟩

/-- A stage in place among some programs is so among more. -/
theorem Stage.InPlace.mono {programs programs' : List Program} {s : Stage} (h : s.InPlace programs)
    (hprograms : programs ⊆ programs') : s.InPlace programs' := by
  cases s with
  | node =>
    obtain ⟨program, hprogram, hplace⟩ := h
    exact ⟨program, hprograms hprogram, hplace⟩
  | call => trivial

namespace Session

variable {settings : Settings} {programs : List Program} {stages : List Stage} {session : Session}

/-- All functions that are within reach, and that runs and calls have started with, were made. -/
structure Accounted (settings : Settings) (programs : List Program) (stages : List Stage)
    (session : Session) :
    Prop where
  globals : session.machine.scopes.Admits (Made settings programs stages) ScopeTree.rootId
  starts : ∀ start ∈ stages, start.InPlace programs ∧ start.Admits (Made settings programs stages)

namespace Accounted

/-- What is accounted for by some runs is accounted for by more. -/
theorem mono {programs' : List Program} {stages' : List Stage}
    (h : session.Accounted settings programs stages)
    (hprograms : programs ⊆ programs') (hstages : stages ⊆ stages') :
    session.machine.scopes.Admits (Made settings programs' stages') ScopeTree.rootId ∧
    ∀ start ∈ stages, start.InPlace programs' ∧ start.Admits (Made settings programs' stages') := by
  refine ⟨h.globals.mono (Made.mono hprograms hstages), fun start hstart => ?_⟩
  obtain ⟨hplace, hadmits⟩ := h.starts start hstart
  exact ⟨hplace.mono hprograms, hadmits.mono (Made.mono hprograms hstages)⟩

/-- All stages that the runs and calls come to are in place, and start and end with functions that
were made. -/
theorem comesTo (h : session.Accounted settings programs stages) {start t : Stage}
    (hstart : start ∈ stages) {surroundings : List Surrounding}
    (hcomes : ComesTo settings start surroundings t) :
    t.InPlace programs ∧ t.Admits (Made settings programs stages) ∧
      t.Releases settings (Made settings programs stages) := by
  obtain ⟨hplace, hadmits⟩ := h.starts start hstart
  have hcustody := custody_made settings programs stages
  obtain ⟨horder, ht⟩ := hcustody.comesTo ⟨⟨start, hstart, [], .here start⟩, hplace⟩ hadmits hcomes
  exact ⟨horder.2, ht, hcustody.releases horder ht⟩

/-- One more run or call is about to start. -/
theorem start (h : session.Accounted settings programs stages) {start : Stage}
    (hplace : start.InPlace programs) (hadmits : start.Admits (Made settings programs stages)) :
    session.Accounted settings programs (stages ++ [start]) := by
  have hmore : stages ⊆ stages ++ [start] := List.subset_append_left stages [start]
  obtain ⟨hglobals, hstarts⟩ := h.mono (List.Subset.refl programs) hmore
  refine ⟨hglobals, fun s hs => ?_⟩
  rcases List.mem_append.1 hs with hs | hs
  · exact hstarts s hs
  · rw [List.mem_singleton.1 hs]
    exact ⟨hplace, hadmits.mono (Made.mono (List.Subset.refl programs) hmore)⟩

end Accounted

/-- All that a session holds and all stages of its runs are accounted for. -/
theorem Chronicle.accounted (h : Chronicle settings programs stages session) :
    session.Accounted settings programs stages := by
  induction h with
  | new console units => exact ⟨admits_new settings console units, nofun⟩
  | @load programs stages session tree _ ih =>
    -- To load a tree changes no variable, and the more programs there are, the more is accounted
    -- for.
    obtain ⟨hglobals, hstarts⟩ :=
      ih.mono (List.subset_append_left programs _) (List.Subset.refl stages)
    exact ⟨hglobals, hstarts⟩
  | @runProgram programs stages session fuel program hprogram h ih =>
    have hplace : (session.firstStage fuel program).InPlace programs :=
      ⟨program, hprogram, [], rfl, rfl⟩
    -- The run starts from what is accounted for, so all its stages and what it leaves are.
    have hmore := ih.start hplace ih.globals
    obtain ⟨-, -, hok, herror⟩ :=
      hmore.comesTo (List.mem_append_right stages (List.mem_singleton_self _)) (.here _)
    refine ⟨?_, hmore.starts⟩
    rw [machine_runProgram, h.settings_eq]
    cases hrun : eval settings fuel program.tree (.root program.unit) ScopeTree.rootId
        { session.machine with depth := 0 } with
    | ok v m => exact (hok v m hrun).1
    | error i m => exact (herror i m hrun).1
  | @callValue programs stages session fuel callee args hcallee hargs h ih =>
    have hmore : session.Accounted settings programs
        (stages ++ [.call fuel callee args ScopeTree.rootId session.machine]) :=
      ih.start trivial ⟨hcallee, hargs, ih.globals⟩
    refine ⟨?_, hmore.starts⟩
    -- A call leaves all variables as they are.
    rw [callValue_eq,
      ((touches_eval_call session.settings fuel).2 callee args ScopeTree.rootId).scopes_eq]
    exact hmore.globals
  | console _ _ ih => exact ⟨ih.globals, ih.starts⟩

end Session

/-- Values are equal by their content, and functions by where they come from. On all values, however
lists are nested, equality is symmetric and transitive; a value is equal to itself exactly if there
is no NaN in it; values of different types are never equal; and lists are equal exactly if they are
equally long and their items are equal position by position.

Take any session, with all programs that were loaded and all stages that its runs and calls have
started with. Every program has a number of its own. Every node that is evaluated on the way stands
at the place in one of the programs that the evaluator takes it to be at. Every function in a global
variable, and every function that any stage of the runs and calls starts with or comes to, was made
from a literal of one of the programs. And two functions are equal exactly if they were made from
the literal at the same place of the same program, whether or not both were made by the same
evaluation of it. -/
theorem functions_equal_iff_same_literal :
    (∀ v w : Value, v.equals w = w.equals v) ∧
    (∀ u v w : Value, u.equals v → v.equals w → u.equals w) ∧
    (∀ v : Value, v.equals v ↔ ¬ v.HasNaN) ∧
    (∀ v w : Value, v.equals w → v.type = w.type) ∧
    (∀ xs ys : List Value, (Value.list xs).equals (.list ys) ↔
      xs.length = ys.length ∧ ∀ (i : Nat) (v w : Value), xs[i]? = some v → ys[i]? = some w →
        v.equals w) ∧
    ∀ (settings : Settings) (programs : List Program) (stages : List Stage) (session : Session),
      session.Chronicle settings programs stages →
      (programs.map Program.unit).Nodup ∧
      (∀ name v, session.global? name = some v → v.Admits (Made settings programs stages)) ∧
      (∀ start ∈ stages, ∀ surroundings t, ComesTo settings start surroundings t →
        t.InPlace programs ∧ t.Admits (Made settings programs stages) ∧
          t.Releases settings (Made settings programs stages)) ∧
      ∀ program ∈ programs, ∀ program' ∈ programs, ∀ path path' f g,
        MadeFrom settings stages f program path → MadeFrom settings stages g program' path' →
        (f.equals g ↔ program = program' ∧ path = path') := by
  refine ⟨Value.equals_comm, fun _ _ _ => Value.equals_trans, Value.equals_self_iff,
    fun _ _ => Value.type_eq_of_equals, fun _ _ => Value.allEqual_iff, ?_⟩
  intro settings programs stages session h
  have haccounted := h.accounted
  refine ⟨h.nodup_units, fun name v hv => haccounted.globals.get? hv,
    fun start hstart surroundings t => haccounted.comesTo hstart, ?_⟩
  intro program hprogram program' hprogram' path path' f g hf hg
  obtain ⟨definition, span, rfl, -⟩ := hf.exists_literal
  obtain ⟨definition', span', rfl, -⟩ := hg.exists_literal
  -- No two programs that were loaded have the same unit.
  have hunit : program.unit = program'.unit ↔ program = program' :=
    ⟨fun hunit => List.inj_on_of_nodup_map h.nodup_units hprogram hprogram' hunit,
      congrArg Program.unit⟩
  rw [Value.equals, beq_iff_eq, Site.mk.injEq, hunit]

/-- A tree with the literal of a function is loaded twice, and the first of the two programs is run
twice. The functions that its two runs make are equal, and differ from that of the other program. -/
theorem functions_equal_iff_same_literal_of_tree_loaded_twice :
    let literal : Node := ⟨.function ⟨none, ["x"], ⟨.var "x", default⟩, true⟩, default⟩
    let tree : Node := ⟨.block [literal], default⟩
    let session := (((Session.new {} (.new [] none) 0).load tree).2.load tree).2
    let session' := (session.runProgram 2 ⟨0, tree⟩).2
    let session'' := (session'.runProgram 2 ⟨0, tree⟩).2
    let stages :=
      [session.firstStage 2 ⟨0, tree⟩, session'.firstStage 2 ⟨0, tree⟩,
        session''.firstStage 2 ⟨1, tree⟩]
    (session''.runProgram 2 ⟨1, tree⟩).2.Chronicle {} [⟨0, tree⟩, ⟨1, tree⟩] stages ∧
    ∃ f f' g, MadeFrom {} [session.firstStage 2 ⟨0, tree⟩] f ⟨0, tree⟩ [0] ∧
      MadeFrom {} [session'.firstStage 2 ⟨0, tree⟩] f' ⟨0, tree⟩ [0] ∧
      MadeFrom {} [session''.firstStage 2 ⟨1, tree⟩] g ⟨1, tree⟩ [0] ∧ f.equals f' ∧
        ¬ f.equals g := by
  intro literal tree session session' session'' stages
  have hchronicle :
      (session''.runProgram 2 ⟨1, tree⟩).2.Chronicle {} [⟨0, tree⟩, ⟨1, tree⟩] stages :=
    .runProgram 2 (.tail _ (.head _)) (.runProgram 2 (.head _) (.runProgram 2 (.head _)
      (.load tree (.load tree (.new (.new [] none) 0)))))
  -- The literal is the only statement of the tree.
  have hmade : ∀ (session : Session) (unit : Nat), ∃ value,
      MadeFrom {} [session.firstStage 2 ⟨unit, tree⟩] value ⟨unit, tree⟩ [0] := by
    intro session unit
    let start : Machine := { session.machine with depth := 0 }
    have hinside :=
      @Inside.statement {} 1 (.root unit) ScopeTree.rootId default start start [literal]
        [] literal []
      .null rfl rfl
    have hcomes : ComesTo {} (session.firstStage 2 ⟨unit, tree⟩) []
        (.node 1 literal ⟨unit, [0]⟩ ScopeTree.rootId start) := .inside hinside (.here _)
    obtain ⟨m', hvalue⟩ :=
      eval_function {} 0 ⟨none, ["x"], ⟨.var "x", default⟩, true⟩ default ⟨unit, [0]⟩
      ScopeTree.rootId start
    exact ⟨_, _, .head _, [], 1, _, _, _, start, m', rfl, hcomes, hvalue⟩
  obtain ⟨f, hf⟩ := hmade session 0
  obtain ⟨f', hf'⟩ := hmade session' 0
  obtain ⟨g, hg⟩ := hmade session'' 1
  have hiff := functions_equal_iff_same_literal.2.2.2.2.2 {} _ stages _ hchronicle |>.2.2.2
  refine ⟨hchronicle, f, f', g, hf, hf', hg, ?_, ?_⟩
  · refine (hiff ⟨0, tree⟩ (.head _) ⟨0, tree⟩ (.head _) [0] [0] f f' (hf.mono ?_) (hf'.mono ?_)).2
      ⟨rfl, rfl⟩
    · exact List.cons_subset_cons _ (List.nil_subset _)
    · exact List.subset_cons_of_subset _ (List.cons_subset_cons _ (List.nil_subset _))
  · intro hequal
    have hsame :=
      (hiff ⟨0, tree⟩ (.head _) ⟨1, tree⟩ (.tail _ (.head _)) [0] [0] f g (hf.mono ?_)
        (hg.mono ?_)).1 hequal
    · exact absurd (congrArg Program.unit hsame.1) Nat.zero_ne_one
    · exact List.cons_subset_cons _ (List.nil_subset _)
    · exact List.subset_cons_of_subset _ (List.subset_cons_self _ _)

end Script
