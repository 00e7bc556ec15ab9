import Script.Proofs.Machine.ControlFlow
import Script.Proofs.Machine.Origins
import Script.Proofs.Parser.Extents

/-!
# Runtime errors blame a node

A run that fails blames a stretch of source. It is that of a node: of the program that was run, or
of the body of a function that an earlier program of the session left behind
(`runtime_errors_blame_a_node`).

Values and built-in functions fail without saying where. So this is about all the ways from there to
the end of the run, on one of which some node has to be blamed, and about all the ways on which a
function can get from one program to another. `Origins` takes care of both; what is left is to say
which nodes there are (`Origins.ofTrees`), and that a session holds nothing but functions of the
trees it has run (`Session.Holds`).
-/

namespace Script

/-! ## Nodes of trees -/

/-- What is in a part of a tree is in the tree. -/
theorem Node.Within.trans {inner middle outer : Node} (h : inner.Within middle)
    (h' : middle.Within outer) :
    inner.Within outer := by
  induction h' with
  | refl => exact h
  | child hchild _ ih => exact .child hchild ih

/-- The function is made from a literal of the tree. -/
def Definition.LiteralOf (definition : Definition) (tree : Node) : Prop :=
  ∃ span, Node.Within ⟨.function definition, span⟩ tree

/-- The node is part of the body of a function of the tree. -/
def Node.InFunction (node tree : Node) : Prop :=
  ∃ definition : Definition, definition.LiteralOf tree ∧ node.Within definition.body

/-- The body of a function that a tree makes is in the tree. -/
theorem Definition.LiteralOf.within {definition : Definition} {tree : Node}
    (h : definition.LiteralOf tree) : definition.body.Within tree := by
  obtain ⟨span, hliteral⟩ := h
  exact .trans (.child (.head _) .refl) hliteral

/-- The node may be evaluated by a run of the tree, if earlier runs have left functions of some
trees behind. -/
def Node.Among (tree : Node) (earlier : List Node) (node : Node) : Prop :=
  node.Within tree ∨ ∃ tree' ∈ earlier, node.InFunction tree'

variable {tree : Node} {earlier : List Node}

/-- What is in a node that may be blamed may be blamed. -/
theorem Node.Among.trans {inner node : Node} (h : Node.Among tree earlier node)
    (hinner : inner.Within node) :
    Node.Among tree earlier inner := by
  rcases h with h | ⟨tree', hmem, definition, hliteral, hbody⟩
  · exact .inl (hinner.trans h)
  · exact .inr ⟨tree', hmem, definition, hliteral, hinner.trans hbody⟩

/-- A function that such a node makes is one that some tree makes. -/
theorem Node.Among.exists_literalOf {definition : Definition} {span : Span}
    (h : Node.Among tree earlier ⟨.function definition, span⟩) :
    ∃ tree' ∈ earlier ++ [tree], definition.LiteralOf tree' := by
  rcases h with h | ⟨tree', hmem, outer, ⟨place, houter⟩, hbody⟩
  · exact ⟨tree, List.mem_append_right earlier (List.mem_singleton_self tree), span, h⟩
  · refine ⟨tree', List.mem_append_left [tree] hmem, span, ?_⟩
    exact hbody.trans (.trans (.child (.head _) .refl) houter)

/-- The body of a function that some tree makes may be blamed. -/
theorem Definition.LiteralOf.among {definition : Definition} {tree' : Node}
    (h : definition.LiteralOf tree') (hmem : tree' ∈ earlier ++ [tree]) :
    Node.Among tree earlier definition.body := by
  rcases List.mem_append.mp hmem with hmem | hmem
  · exact .inr ⟨tree', hmem, definition, h, .refl⟩
  · rw [List.mem_singleton.mp hmem] at h
    exact .inl h.within

/-- What a run of the tree can get hold of, if earlier runs have left functions of some trees
behind. -/
def Origins.ofTrees (tree : Node) (earlier : List Node) : Origins where
  nodes _ node := Node.Among tree earlier node
  functions _ definition := ∃ tree' ∈ earlier ++ [tree], definition.LiteralOf tree'
  spans span := ∃ node, Node.Among tree earlier node ∧ span = node.span
  child _ h hget := h.trans (.child (List.mem_of_getElem? hget) .refl)
  literal h := h.exists_literalOf
  body := fun ⟨_, hmem, hliteral⟩ => hliteral.among hmem
  span h := ⟨_, h, rfl⟩

/-! ## Sessions -/

/-- A failure that has been blamed has a place. -/
theorem Failure.exists_span_of_blame {failure : Failure} {span : Span} {e : RuntimeError}
    (h : failure.blame span = .error e) : ∃ blamed, e.span = some blamed := by
  cases failure with
  | exhausted => cases h
  | error e' =>
    obtain ⟨fault, _ | nearer⟩ := e'
    · cases h
      exact ⟨span, rfl⟩
    · cases h
      exact ⟨nearer, rfl⟩

namespace Session

/-- Functions within reach of the programs to come were made from literals of the trees. -/
def Holds (trees : List Node) (session : Session) : Prop :=
  session.machine.scopes.Admits (fun _ definition => ∃ tree ∈ trees, definition.LiteralOf tree)
    ScopeTree.rootId

variable {session : Session} {program : Program}

/-- A session that holds functions of some trees holds none but those of more trees. -/
theorem Holds.mono {trees : List Node} (h : session.Holds earlier)
    (hsub : ∀ tree ∈ earlier, tree ∈ trees) :
    session.Holds trees := by
  refine ScopeTree.Admits.mono h fun _ definition hfrom => ?_
  obtain ⟨tree, hmem, hliteral⟩ := hfrom
  exact ⟨tree, hsub tree hmem, hliteral⟩

/-- Where a session holds only functions of earlier trees, a run starts with nothing unknown. -/
theorem Holds.known (h : session.Holds earlier) (tree : Node) :
    ({ session.machine with depth := 0 } : Machine).Known (.ofTrees tree earlier) 0
      ScopeTree.rootId :=
  ⟨h.mono fun _ hmem => List.mem_append_left [tree] hmem, rfl⟩

/-- A run leaves functions of its own tree behind, besides those that it found. -/
theorem Holds.runProgram (h : session.Holds earlier) (fuel : Nat) (program : Program) :
    (session.runProgram fuel program).2.Holds (earlier ++ [program.tree]) := by
  have hknown := (known_eval_call (.ofTrees program.tree earlier) session.settings fuel).1
    (.root program.unit) (.inl .refl) 0 ScopeTree.rootId
  rw [Holds, machine_runProgram]
  exact (hknown.after (h.known program.tree)).functions

/-- A run that fails blames one of the nodes that it can get hold of. If it fails for a `return` out
of place, it blames the program as a whole. -/
theorem Holds.blames (h : session.Holds earlier) {fuel : Nat} {e : RuntimeError}
    (hrun : (session.runProgram fuel program).1 = .error (.failed e)) :
    (∃ node, Node.Among program.tree earlier node ∧ e.span = some node.span) ∧
      (e.fault = .misplaced .return → e.span = some program.tree.span) := by
  obtain ⟨interrupt, machine, heval, hblame⟩ := exists_of_runProgram_failed hrun
  have hknown := (known_eval_call (.ofTrees program.tree earlier) session.settings fuel).1
    (.root program.unit) (.inl .refl) 0 ScopeTree.rootId
  have hinterrupt := (hknown.of_error (h.known program.tree) heval).2
  by_cases hreturn : ∃ value, interrupt = .returning value
  · obtain ⟨value, rfl⟩ := hreturn
    cases hblame
    exact ⟨⟨program.tree, .inl .refl, rfl⟩, fun _ => rfl⟩
  · have hroot : (Origins.ofTrees program.tree earlier).spans program.tree.span :=
      ⟨program.tree, .inl .refl, rfl⟩
    have hfailure := (hinterrupt.uncaught fun value heq => hreturn ⟨value, heq⟩).blame hroot
    rw [hblame] at hfailure
    obtain ⟨blamed, hspan⟩ := Failure.exists_span_of_blame hblame
    obtain ⟨node, hnode, rfl⟩ := hfailure.2 blamed hspan
    exact ⟨⟨node, hnode, hspan⟩, fun hfault => absurd hfault hfailure.1⟩

/-- The tree that is run for an input, if it is a program at all. -/
def Input.tree? : Input → Option Node
  | .source text => (parseSource text).toOption
  | .program loaded => some loaded.tree

/-- The trees of inputs, in the order of the inputs. -/
def trees (inputs : List (Nat × Input)) : List Node :=
  inputs.flatMap fun input => input.2.tree?.toList

/-- The trees of inputs are those that they are read as. -/
theorem mem_trees {inputs : List (Nat × Input)} {tree : Node} :
    tree ∈ trees inputs ↔ ∃ input ∈ inputs, input.2.tree? = some tree := by
  simp [trees]

/-- An input is run as a program, or changes nothing. -/
theorem feed_cases (session : Session) (fuel : Nat) (input : Input) :
    (∃ error, input.tree? = none ∧ session.feed fuel input = (.error (.refused error), session)) ∨
    ∃ (program : Program) (start : Session), input.tree? = some program.tree ∧
      start.machine = session.machine ∧
        session.feed fuel input = start.runProgram fuel program := by
  cases input with
  | program loaded => exact .inr ⟨loaded, session, rfl, rfl, rfl⟩
  | source text =>
    rw [feed, Input.tree?]
    cases hparse : parseSource text with
    | error e => exact .inl ⟨e, rfl, run_of_error hparse session fuel⟩
    | ok tree =>
      exact .inr ⟨(session.load tree).1, (session.load tree).2, rfl, rfl,
        run_of_ok hparse session fuel⟩

/-- An input adds the functions of its tree. -/
theorem Holds.feed (h : session.Holds earlier) (fuel : Nat) (input : Input) :
    (session.feed fuel input).2.Holds (earlier ++ input.tree?.toList) := by
  rcases feed_cases session fuel input
    with ⟨error, htree, hfeed⟩ | ⟨program, start, htree, hstart, hfeed⟩
  · rw [htree, hfeed]
    exact h.mono fun _ hmem => List.mem_append_left [] hmem
  · rw [htree, hfeed]
    have hholds : start.Holds earlier := by
      rw [Holds, hstart]
      exact h
    exact hholds.runProgram fuel program

/-- Inputs add the functions of their trees. -/
theorem Holds.after (h : session.Holds earlier) (inputs : List (Nat × Input)) :
    (session.after inputs).Holds (earlier ++ trees inputs) := by
  induction inputs generalizing session earlier with
  | nil => exact h.mono fun _ hmem => List.mem_append_left [] hmem
  | cons input inputs ih =>
    have hrest := ih (h.feed input.1 input.2)
    rw [List.append_assoc] at hrest
    exact hrest

/-- A new session holds no function of a tree. -/
theorem holds_new (settings : Settings) (console : Console) (units : Nat) :
    (new settings console units).Holds [] :=
  admits_new settings console units

end Session

/-- Runtime errors blame a node. Whatever has been run in a session before, an input that ends in a
runtime error blames a node of its own tree, or one inside of a function of an earlier input. In a
new session there is no such function, and a `return` out of place is blamed on the program as a
whole. -/
theorem runtime_errors_blame_a_node {settings : Settings} {console : Console} {units fuel : Nat}
    {before : List (Nat × Session.Input)} {input : Session.Input} {e : RuntimeError}
    (h : (((Session.new settings console units).after before).feed fuel input).1
      = .error (.failed e)) :
    ∃ tree node : Node, input.tree? = some tree ∧ e.span = some node.span ∧
      (node.Within tree ∨ ∃ earlier ∈ before, ∃ tree', earlier.2.tree? = some tree' ∧
        node.InFunction tree') ∧
      (before = [] → node.Within tree) ∧
      (e.fault = .misplaced .return → e.span = some tree.span) := by
  have hholds := (Session.holds_new settings console units).after before
  rw [List.nil_append] at hholds
  -- All that is needed of the inputs before is that the session holds no functions but theirs.
  generalize (Session.new settings console units).after before = session at h hholds
  rcases session.feed_cases fuel input
    with ⟨error, -, hfeed⟩ | ⟨program, start, htree, hstart, hfeed⟩
  · rw [hfeed] at h
    cases h
  · rw [hfeed] at h
    rw [Session.Holds, ← hstart] at hholds
    obtain ⟨⟨node, hnode, hspan⟩, hreturn⟩ := Session.Holds.blames hholds h
    refine ⟨program.tree, node, htree, hspan, ?_, ?_, hreturn⟩
    · rcases hnode with hnode | ⟨tree', hmem, hnode⟩
      · exact .inl hnode
      · obtain ⟨earlier, hearlier, htree'⟩ := Session.mem_trees.mp hmem
        exact .inr ⟨earlier, hearlier, tree', htree', hnode⟩
    -- Without earlier inputs there are no earlier trees.
    · rintro rfl
      rcases hnode with hnode | ⟨tree', hmem, -⟩
      · exact hnode
      · exact absurd hmem List.not_mem_nil

/-- A function of the first line is called by `map` on the second, and calls `null`. The node to
blame is on the first line. -/
theorem runtime_errors_blame_a_node_of_earlier_line :
    let place (start stop : Nat) : Span := ⟨⟨start, 1, start⟩, ⟨stop, 1, stop⟩⟩
    let before := [(20, Session.Input.source "fun f(x) = x()")]
    let input := Session.Input.source "map([null], f)"
    let e : RuntimeError := ⟨.notCallable .null, some (place 11 14)⟩
    (((Session.new .default (.new [] none) 0).after before).feed 20 input).1 = .error (.failed e) ∧
      ∃ tree node : Node, input.tree? = some tree ∧ e.span = some node.span ∧
        (node.Within tree ∨
          ∃ earlier ∈ before, ∃ tree', earlier.2.tree? = some tree' ∧ node.InFunction tree') ∧
        (before = [] → node.Within tree) ∧
        (e.fault = .misplaced .return → e.span = some tree.span) := by
  intro place before input e
  have hfirst : parseSource "fun f(x) = x()" = .ok ⟨.block [⟨.function ⟨some "f", ["x"],
      ⟨.call ⟨.var "x", place 11 12⟩ [], place 11 14⟩, true⟩, place 0 14⟩], place 0 14⟩ := by
    have htokens : tokenize "fun f(x) = x()" = .ok
        [⟨.keyword .fun, place 0 3⟩, ⟨.identifier "f", place 4 5⟩,
          ⟨.operator .openParen, place 5 6⟩, ⟨.identifier "x", place 6 7⟩,
          ⟨.operator .closeParen, place 7 8⟩, ⟨.operator .assign, place 9 10⟩,
          ⟨.identifier "x", place 11 12⟩, ⟨.operator .openParen, place 12 13⟩,
          ⟨.operator .closeParen, place 13 14⟩, ⟨.eof, place 14 15⟩] := by
      with_unfolding_all rfl
    rw [parseSource, htokens]
    rfl
  have hsecond : parseSource "map([null], f)" = .ok ⟨.block [⟨.call ⟨.var "map", place 0 3⟩
      [⟨.list [⟨.null, place 5 9⟩], place 4 10⟩, ⟨.var "f", place 12 13⟩], place 0 14⟩],
      place 0 14⟩ := by
    have htokens : tokenize "map([null], f)" = .ok
        [⟨.identifier "map", place 0 3⟩, ⟨.operator .openParen, place 3 4⟩,
          ⟨.operator .openBracket, place 4 5⟩, ⟨.keyword .null, place 5 9⟩,
          ⟨.operator .closeBracket, place 9 10⟩, ⟨.operator .comma, place 10 11⟩,
          ⟨.identifier "f", place 12 13⟩, ⟨.operator .closeParen, place 13 14⟩,
          ⟨.eof, place 14 15⟩] := by
      with_unfolding_all rfl
    rw [parseSource, htokens]
    rfl
  have hrun : (((Session.new .default (.new [] none) 0).after before).feed 20 input).1
      = .error (.failed e) := by
    simp only [before, input, Session.after, Session.feed]
    rw [Session.run_of_ok hfirst, Session.run_of_ok hsecond]
    with_unfolding_all rfl
  exact ⟨hrun, runtime_errors_blame_a_node hrun⟩

end Script
