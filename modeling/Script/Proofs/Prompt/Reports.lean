import Script.Prompt
import Script.Proofs.Machine.Blame
import Script.Proofs.Machine.Histories

/-!
# What the prompt reports

The prompt reports a runtime error together with the line that was just evaluated. But functions
outlive their line, and an error says where it happened and not on which line. So the report of an
error inside of a function of an earlier line points into the wrong text
(`blames_text_of_another_line`).

What does hold is that every reported error belongs to a node of the line or to one inside of a
function of an earlier line, and to a node of the line itself as long as no function is within reach
(`reported_errors_have_a_line`).
-/

namespace Script

namespace Prompt

/-- A session at the prompt after these lines were evaluated. In between, anything may happen to the
console. -/
inductive Evaluated (settings : Settings) : List String → Session → Prop
  | new (console : Console) (units : Nat) : Evaluated settings [] (.new settings console units)
  | console {lines : List String} {session : Session} (console : Console)
      (h : Evaluated settings lines session) :
      Evaluated settings lines { session with machine := { session.machine with console } }
  | line {lines : List String} {session : Session} (line : String)
      (h : Evaluated settings lines session) :
      Evaluated settings (lines ++ [line]) (evalLine session line).2

/-- The inputs that lines are run as. -/
def inputs (lines : List String) : List (Nat × Session.Input) :=
  lines.map fun line => (ampleFuel, .source line)

variable {settings : Settings} {lines : List String} {session : Session}

/-- The trees of lines are those that they are read as. -/
theorem mem_trees_inputs {tree : Node} :
    tree ∈ Session.trees (inputs lines) ↔ ∃ line ∈ lines, parseSource line = .ok tree := by
  rw [Session.mem_trees]
  constructor
  · rintro ⟨input, hinput, htree⟩
    obtain ⟨line, hline, rfl⟩ := List.mem_map.mp hinput
    refine ⟨line, hline, ?_⟩
    cases hparse : parseSource line with
    | error e => simp [Session.Input.tree?, hparse, Except.toOption] at htree
    | ok tree' =>
      simp only [Session.Input.tree?, hparse, Except.toOption, Option.some.injEq] at htree
      rw [htree]
  · rintro ⟨line, hline, hparse⟩
    refine ⟨_, List.mem_map_of_mem hline, ?_⟩
    simp only [Session.Input.tree?, hparse, Except.toOption]

/-- All functions at the prompt are functions of the lines. -/
theorem Evaluated.holds (h : Evaluated settings lines session) :
    session.Holds (Session.trees (inputs lines)) := by
  induction h with
  | new console units => exact Session.holds_new settings console units
  | console _ _ ih => exact ih
  | line line _ ih =>
    rw [inputs, List.map_append, Session.trees, List.flatMap_append]
    exact ih.after [(ampleFuel, .source line)]

/-- There is a chronicle of every session at the prompt, in which all programs are lines. -/
theorem Evaluated.exists_chronicle (h : Evaluated settings lines session) :
    ∃ programs stages, session.Chronicle settings programs stages ∧
      ∀ program ∈ programs, ∃ line ∈ lines, parseSource line = .ok program.tree := by
  induction h with
  | new console units => exact ⟨[], [], .new console units, List.forall_mem_nil _⟩
  | console console _ ih =>
    obtain ⟨programs, stages, hchronicle, hlines⟩ := ih
    exact ⟨programs, stages, .console console hchronicle, hlines⟩
  | @line lines session line _ ih =>
    obtain ⟨programs, stages, hchronicle, hlines⟩ := ih
    have hearlier : ∀ program ∈ programs,
        ∃ earlier ∈ lines ++ [line], parseSource earlier = .ok program.tree := by
      intro program hmem
      obtain ⟨earlier, hearlier, hparse⟩ := hlines program hmem
      exact ⟨earlier, List.mem_append_left _ hearlier, hparse⟩
    -- Only a line that can be read is loaded and run.
    cases hparse : parseSource line with
    | error e =>
      refine ⟨programs, stages, ?_, hearlier⟩
      rw [evalLine, Session.run_of_error hparse]
      exact hchronicle
    | ok tree =>
      refine ⟨_, _, hchronicle.run ampleFuel hparse, ?_⟩
      rw [List.forall_mem_append, List.forall_mem_singleton]
      exact ⟨hearlier, line, List.mem_append_right _ (List.mem_singleton_self line), hparse⟩

/-- A turn of the prompt evaluates its line. -/
theorem Evaluated.turn (h : Evaluated settings lines session) (feed : Feed) (screen : Screen)
    (line : String) :
    Evaluated settings (lines ++ [line]) (Prompt.turn session feed screen line).2.1 :=
  .console _ (.line line (.console _ h))

/-- Only errors are reported, and not those that ask to leave. -/
theorem reply_eq_error_iff {outcome : Outcome} {e : ScriptError} :
    reply outcome = .error e ↔ outcome = .error e ∧ e.exitCode? = none := by
  cases outcome with
  | value value => cases value <;> simp [reply]
  | exhausted => simp [reply]
  | error e' =>
    cases hcode : e'.exitCode? with
    | some code =>
      simp only [reply, hcode, Outcome.error.injEq, reduceCtorEq, false_iff]
      rintro ⟨rfl, hnone⟩
      rw [hnone] at hcode
      cases hcode
    | none =>
      simp only [reply, hcode, Reply.error.injEq, Outcome.error.injEq]
      constructor
      · rintro rfl
        exact ⟨rfl, hcode⟩
      · exact fun h => h.1

end Prompt

open Prompt in
/-- Every error that the prompt reports has a line. The node to blame is one of the line just
evaluated, or is inside of a function of a line before; if no function is within reach, it is one of
the line just evaluated. This holds whatever was evaluated before, in particular after any turns of
the prompt. -/
theorem reported_errors_have_a_line {settings : Settings} :
    (∀ {lines : List String} {session : Session} {line : String} {e : RuntimeError},
      Evaluated settings lines session → (evalLine session line).1 = .error (.failed e) →
      ∃ tree, parseSource line = .ok tree ∧
        (∃ node : Node, e.span = some node.span ∧ (node.Within tree ∨
          ∃ earlier ∈ lines, ∃ tree', parseSource earlier = .ok tree' ∧ node.InFunction tree')) ∧
        (session.Holds [] → ∃ node : Node, e.span = some node.span ∧ node.Within tree)) ∧
    ∀ {lines : List String} {session : Session} (feed : Feed) (screen : Screen) (line : String),
      Evaluated settings lines session →
      Evaluated settings (lines ++ [line]) (turn session feed screen line).2.1 := by
  refine ⟨?_, fun feed screen line h => h.turn feed screen line⟩
  intro lines session line e h hreply
  have hrun : (session.run ampleFuel line).1 = .error (.failed e) :=
    (reply_eq_error_iff.mp hreply).1
  cases hparse : parseSource line with
  | error e' =>
    rw [Session.run_of_error hparse] at hrun
    cases hrun
  | ok tree =>
    rw [Session.run_of_ok hparse] at hrun
    -- Loading gives the tree a number and leaves all variables as they are.
    have hloaded : ∀ {trees}, session.Holds trees → (session.load tree).2.Holds trees := fun h => h
    refine ⟨tree, rfl, ?_, fun hnone => ?_⟩
    · obtain ⟨⟨node, hnode, hspan⟩, -⟩ := (hloaded h.holds).blames hrun
      refine ⟨node, hspan, hnode.imp_right ?_⟩
      rintro ⟨tree', hmem, hin⟩
      obtain ⟨earlier, hearlier, hparse'⟩ := mem_trees_inputs.mp hmem
      exact ⟨earlier, hearlier, tree', hparse', hin⟩
    · obtain ⟨⟨node, hnode, hspan⟩, -⟩ := (hloaded hnone).blames hrun
      refine ⟨node, hspan, hnode.resolve_right ?_⟩
      rintro ⟨tree', hmem, -⟩
      exact absurd hmem List.not_mem_nil

open Prompt in
/-- The first line defines a function that calls its argument, and on the second line this is
`null`. -/
theorem evalLine_of_failing_function :
    let place (start stop : Nat) : Span := ⟨⟨start, 1, start⟩, ⟨stop, 1, stop⟩⟩
    let session := (evalLine (.new .default (.new [] none) 0) "fun f(x) = x()").2
    Evaluated .default ["fun f(x) = x()"] session ∧
      parseSource "f(null)" = .ok
        ⟨.block [⟨.call ⟨.var "f", place 0 1⟩ [⟨.null, place 2 6⟩], place 0 7⟩], place 0 7⟩ ∧
      (evalLine session "f(null)").1
        = .error (.failed ⟨.notCallable .null, some (place 11 14)⟩) := by
  intro place session
  have hfirst : parseSource "fun f(x) = x()" = .ok ⟨.block [⟨.function ⟨some "f", ["x"],
      ⟨.call ⟨.var "x", place 11 12⟩ [], place 11 14⟩, true⟩, place 0 14⟩], place 0 14⟩ := by
    have htokens : tokenize "fun f(x) = x()" = .ok
        [⟨.keyword .fun, place 0 3⟩, ⟨.identifier "f", place 4 5⟩,
          ⟨.operator .openParen, place 5 6⟩, ⟨.identifier "x", place 6 7⟩,
          ⟨.operator .closeParen, place 7 8⟩, ⟨.operator .assign, place 9 10⟩,
          ⟨.identifier "x", place 11 12⟩, ⟨.operator .openParen, place 12 13⟩,
          ⟨.operator .closeParen, place 13 14⟩, ⟨.eof, place 14 15⟩] := by
      with_unfolding_all rfl
    rw [parseSource, htokens]
    rfl
  have hsecond : parseSource "f(null)" = .ok ⟨.block [⟨.call ⟨.var "f", place 0 1⟩
      [⟨.null, place 2 6⟩], place 0 7⟩], place 0 7⟩ := by
    have htokens : tokenize "f(null)" = .ok
        [⟨.identifier "f", place 0 1⟩, ⟨.operator .openParen, place 1 2⟩,
          ⟨.keyword .null, place 2 6⟩, ⟨.operator .closeParen, place 6 7⟩,
          ⟨.eof, place 7 8⟩] := by
      with_unfolding_all rfl
    rw [parseSource, htokens]
    rfl
  have hnew : Evaluated .default [] (.new .default (.new [] none) 0) := .new _ 0
  refine ⟨hnew.line _, hsecond, ?_⟩
  simp only [session, evalLine]
  rw [Session.run_of_ok hfirst, Session.run_of_ok hsecond]
  with_unfolding_all rfl

open Prompt in
/-- The error of the second line belongs to a node of the first. Where there is no function, the
node to blame is on the same line. -/
theorem reported_errors_have_a_line_in_function :
    let place (start stop : Nat) : Span := ⟨⟨start, 1, start⟩, ⟨stop, 1, stop⟩⟩
    let fresh := Session.new .default (.new [] none) 0
    let session := (evalLine fresh "fun f(x) = x()").2
    let e : RuntimeError := ⟨.notCallable .null, some (place 11 14)⟩
    let e' : RuntimeError := ⟨.notCallable .null, some (place 0 6)⟩
    ((evalLine session "f(null)").1 = .error (.failed e) ∧
      ∃ tree, parseSource "f(null)" = .ok tree ∧
      ∃ node : Node, e.span = some node.span ∧ (node.Within tree ∨ ∃ earlier ∈ ["fun f(x) = x()"],
        ∃ tree', parseSource earlier = .ok tree' ∧ node.InFunction tree')) ∧
    (evalLine fresh "null()").1 = .error (.failed e') ∧ ∃ tree, parseSource "null()" = .ok tree ∧
      ∃ node : Node, e'.span = some node.span ∧ node.Within tree := by
  intro place fresh session e e'
  obtain ⟨hsession, -, hreply⟩ := evalLine_of_failing_function
  have hlone : parseSource "null()" = .ok ⟨.block [⟨.call ⟨.null, place 0 4⟩ [], place 0 6⟩],
      place 0 6⟩ := by
    have htokens : tokenize "null()" = .ok
        [⟨.keyword .null, place 0 4⟩, ⟨.operator .openParen, place 4 5⟩,
          ⟨.operator .closeParen, place 5 6⟩, ⟨.eof, place 6 7⟩] := by
      with_unfolding_all rfl
    rw [parseSource, htokens]
    rfl
  have hreply' : (evalLine fresh "null()").1 = .error (.failed e') := by
    simp only [evalLine]
    rw [Session.run_of_ok hlone]
    with_unfolding_all rfl
  obtain ⟨tree, htree, hblamed, -⟩ := reported_errors_have_a_line.1 hsession hreply
  obtain ⟨tree', htree', -, hown⟩ := reported_errors_have_a_line.1 (.new _ 0) hreply'
  exact ⟨⟨hreply, tree, htree, hblamed⟩, hreply', tree', htree', hown (Session.holds_new _ _ _)⟩

open Prompt in
/-- The prompt can blame text of another line: the second line is shorter than what is blamed on it,
and none of its nodes has that span. -/
theorem blames_text_of_another_line :
    let place (start stop : Nat) : Span := ⟨⟨start, 1, start⟩, ⟨stop, 1, stop⟩⟩
    let session := (evalLine (.new .default (.new [] none) 0) "fun f(x) = x()").2
    let e : RuntimeError := ⟨.notCallable .null, some (place 11 14)⟩
    Evaluated .default ["fun f(x) = x()"] session ∧
      (evalLine session "f(null)").1 = .error (.failed e) ∧
      ∃ tree, parseSource "f(null)" = .ok tree ∧
        ∀ node : Node, node.Within tree → e.span ≠ some node.span := by
  intro place session e
  obtain ⟨hsession, hparse, hreply⟩ := evalLine_of_failing_function
  refine ⟨hsession, hreply, _, hparse, fun node hnode hspan => ?_⟩
  simp only [Node.within_mk, Form.children, List.mem_cons, List.not_mem_nil, or_false,
    exists_eq_left, exists_eq_or_imp, false_and, exists_false] at hnode
  rcases hnode with rfl | rfl | rfl | rfl <;> cases hspan

end Script
