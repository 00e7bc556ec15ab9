import Script.Proofs.Machine.Histories
import Script.Proofs.Machine.Relayout
import Script.Proofs.Parser.Joining

/-!
# Line by line or all at once

It makes no difference whether two sources are run one after the other or as one source with a line
break in between (`line_by_line_equals_all_at_once`).

The source as a whole has the statements of both parts (`parseSource_join`), but they are not at the
same places: what was statement `i` of the second tree is statement `count + i` of the whole,
`count` being the number of statements in front. Functions are told apart by their places. So the
runs are compared by a `Likeness` that moves places over the seam and leaves all others as they are
(`seam`). This takes that the numbers of the two trees are new ones, which is an invariant of
sessions (`Session.Numbered`), and that nothing of the first run is left in the second but variables
and the console: no call is still going on.
-/

namespace Script

/-! ## Places -/

/-- A place in the run of a tree number `unit`, and the same place if the tree is run in two parts.
The first part has `count` statements and gets the same number, and the second part gets the next
one. -/
inductive Site.Seam (unit count : Nat) : Site → Site → Prop
  | earlier {site : Site} (h : site.unit < unit) : Seam unit count site site
  | first (inner : List Nat) {position : Nat} (h : position < count) :
      Seam unit count ⟨unit, inner ++ [position]⟩ ⟨unit, inner ++ [position]⟩
  | second (inner : List Nat) (position : Nat) :
      Seam unit count ⟨unit, inner ++ [count + position]⟩ ⟨unit + 1, inner ++ [position]⟩

namespace Site.Seam

variable {unit count : Nat} {s s' t t' : Site}

/-- Children of places across the seam are across it. -/
theorem child (h : Seam unit count s s') (position : Nat) :
    Seam unit count (s.child position) (s'.child position) := by
  cases h with
  | earlier h => exact .earlier h
  | first inner h => exact .first (position :: inner) h
  | second inner place => exact .second (position :: inner) place

/-- Different places stay different. -/
theorem eq_iff (hs : Seam unit count s s') (ht : Seam unit count t t') : s = t ↔ s' = t' := by
  -- Units tell places before the first line from those of the lines, and positions those of the
  -- first line from those of the second.
  cases hs with
  | earlier h =>
    cases ht with
    | earlier | first => exact Iff.rfl
    | second =>
      constructor <;> rintro rfl
      · exact absurd h (Nat.lt_irrefl unit)
      · exact absurd h (Nat.not_lt_of_le (Nat.le_succ unit))
  | first inner h =>
    cases ht with
    | earlier | first => exact Iff.rfl
    | second =>
      simp only [Site.mk.injEq, List.append_singleton_inj]
      constructor
      · rintro ⟨-, -, hposition⟩
        omega
      · rintro ⟨hunit, -⟩
        omega
  | second inner position =>
    cases ht with
    | earlier h =>
      constructor <;> rintro rfl
      · exact absurd h (Nat.lt_irrefl unit)
      · exact absurd h (Nat.not_lt_of_le (Nat.le_succ unit))
    | first inner' h =>
      simp only [Site.mk.injEq, List.append_singleton_inj]
      constructor
      · rintro ⟨-, -, hposition⟩
        omega
      · rintro ⟨hunit, -⟩
        omega
    | second =>
      simp only [Site.mk.injEq, List.append_singleton_inj, Nat.add_left_cancel_iff, true_and]

end Site.Seam

/-- Runs of a tree and of its two parts, of which the first has `count` statements. -/
def seam (unit count : Nat) : Likeness where
  nodes := upToSpans.nodes
  sites := Site.Seam unit count
  spans := upToSpans.spans
  reads := upToSpans.reads
  form_alike := upToSpans.form_alike
  span_alike := upToSpans.span_alike
  child_alike := Site.Seam.child
  sites_iff := Site.Seam.eq_iff

/-- Functions of earlier trees are the same in both runs. -/
theorem seam_fixes (unit count : Nat) : (seam unit count).Fixes fun site _ => site.unit < unit :=
  fun _ _ h => ⟨.earlier h, Definition.alike_iff_bare.mpr rfl⟩

namespace Session

/-- Run one source and then, if it comes to a value, another one. -/
def runInTurn (session : Session) (fuel : Nat) (first second : String) : Outcome × Session :=
  match session.run fuel first with
  | (.value _, after) => after.run fuel second
  | (outcome, after) => (outcome, after)

end Session

/-! ## Both runs -/

/-- A program is a block. -/
theorem eq_block_of_parseSource {source : String} {tree : Node}
    (h : parseSource source = .ok tree) :
    tree = ⟨.block tree.children, tree.span⟩ := by
  obtain ⟨lexemes, nodes, -, hform, -⟩ := exists_statements_of_parseSource h
  obtain ⟨form, span⟩ := tree
  obtain rfl : form = .block nodes := hform
  rfl

/-- Statements one after the other are evaluated one after the other. -/
theorem evalSequence_append (eval : Node → Site → ScopeId → Eval Value) (site : Site)
    (scope : ScopeId) (last : Value) (position : Nat) (front back : List Node) :
    evalSequence eval site scope last position (front ++ back)
      = evalSequence eval site scope last position front >>= fun value =>
          evalSequence eval site scope value (position + front.length) back := by
  induction front generalizing last position with
  | nil => rw [List.nil_append, evalSequence, pure_bind]; rfl
  | cons node front ih =>
    rw [List.cons_append, evalSequence, evalSequence, bind_assoc]
    refine bind_congr fun value => ?_
    rw [ih, List.length_cons, Nat.add_right_comm, Nat.add_assoc]

/-- A block is its statements in sequence. -/
theorem eval_block (settings : Settings) (fuel : Nat) (nodes : List Node) (span : Span)
    (site : Site) (scope : ScopeId) :
    eval settings (fuel + 1) ⟨.block nodes, span⟩ site scope
      = evalSequence (eval settings fuel) site scope .null 0 nodes := by
  rw [eval_succ]
  rfl

/-- A tree that has the statements of two others falls into two parts accordingly. -/
theorem exists_append_of_bareNodes {nodes front back : List Node}
    (h : bareNodes nodes = bareNodes (front ++ back)) :
    ∃ nodes₁ nodes₂, nodes = nodes₁ ++ nodes₂ ∧ List.Forall₂ upToSpans.nodes nodes₁ front ∧
      List.Forall₂ upToSpans.nodes nodes₂ back := by
  have hall := forall₂_bare_iff.mpr h
  exact ⟨_, _, (List.take_append_drop front.length nodes).symm, List.forall₂_take_append _ _ _ hall,
    List.forall₂_drop_append _ _ _ hall⟩

section

variable {settings : Settings} {fuel unit count : Nat} {nodes nodes' : List Node} {scope : ScopeId}

/-- Statements that correspond, at places that do, are evaluated side by side. -/
theorem alongside_evalSequence {L : Likeness} {site site' : Site}
    (h : List.Forall₂ L.nodes nodes nodes')
    {last last' : Value} (hlast : last.Alike L last') {position position' : Nat}
    (hsites : ∀ i < nodes.length,
      L.sites (site.child (position + i)) (site'.child (position' + i))) :
    Alongside L (Value.Alike L) (Interrupt.Alike L)
      (evalSequence (eval settings fuel) site scope last position nodes)
      (evalSequence (eval settings fuel) site' scope last' position' nodes') := by
  induction h generalizing last last' position position' with
  | nil => exact .pure hlast
  | cons hnode _ ih =>
    have hfirst := (alongside_eval_call L settings fuel).1 hnode (hsites 0 (Nat.succ_pos _)) scope
    refine .bind hfirst fun value value' hvalue => ih hvalue fun i hi => ?_
    rw [Nat.add_right_comm position, Nat.add_right_comm position']
    exact hsites (i + 1) (Nat.succ_lt_succ hi)

/-- The statements in front of the seam have the same places in both runs. -/
theorem alongside_first (h : List.Forall₂ (seam unit count).nodes nodes nodes')
    (hcount : nodes.length = count) :
    Alongside (seam unit count) (Value.Alike (seam unit count)) (Interrupt.Alike (seam unit count))
      (evalSequence (eval settings fuel) (.root unit) scope .null 0 nodes)
      (evalSequence (eval settings fuel) (.root unit) scope .null 0 nodes') := by
  refine alongside_evalSequence h .null fun i hi => ?_
  rw [Nat.zero_add]
  exact .first [] (hcount ▸ hi)

/-- The statements behind it are moved to a tree of their own. -/
theorem alongside_second (h : List.Forall₂ (seam unit count).nodes nodes nodes')
    {last last' : Value} (hlast : last.Alike (seam unit count) last') :
    Alongside (seam unit count) (Value.Alike (seam unit count)) (Interrupt.Alike (seam unit count))
      (evalSequence (eval settings fuel) (.root unit) scope last count nodes)
      (evalSequence (eval settings fuel) (.root (unit + 1)) scope last' 0 nodes') := by
  refine alongside_evalSequence h hlast fun i _ => ?_
  rw [Nat.zero_add]
  exact .second [] i

end

namespace Session

/-- Load a tree and run it. -/
def runTree (session : Session) (fuel : Nat) (tree : Node) : Outcome × Session :=
  (session.load tree).2.runProgram fuel (session.load tree).1

variable {session : Session} {fuel : Nat} {tree : Node} {m : Machine}

/-- An evaluation that comes to a value is a run that does. -/
theorem runTree_of_ok {value : Value}
    (h : eval session.settings fuel tree (.root session.units) ScopeTree.rootId
      { session.machine with depth := 0 } = .ok value m) :
    session.runTree fuel tree
      = (.value value, { session with machine := m, units := session.units + 1 }) := by
  simp only [runTree, load, runProgram, h]

/-- An evaluation that is interrupted is no run that comes to a value. -/
theorem runTree_ne_value {interrupt : Interrupt}
    (h : eval session.settings fuel tree (.root session.units) ScopeTree.rootId
      { session.machine with depth := 0 } = .error interrupt m) (value : Value) :
    (session.runTree fuel tree).1 ≠ .value value := by
  simp only [runTree, load, runProgram, h]
  split <;> simp

/-- No call is going on when a program has come to its value. -/
theorem Numbered.depth_eq (h : session.Numbered) {value : Value}
    (hrun : eval session.settings fuel tree (.root session.units) ScopeTree.rootId
      { session.machine with depth := 0 } = .ok value m) : m.depth = 0 := by
  have hknown : EvalKnown (.below (session.units + 1)) 0 ScopeTree.rootId
      (eval session.settings fuel tree (.root session.units) ScopeTree.rootId) :=
    (known_eval_call _ _ _).1 _ (Nat.lt_succ_self session.units) _ _
  exact (hknown.of_ok (h.load tree).known hrun).1.depth_eq

/-- A tree that has the statements of two others runs like these two, if the first of them comes to
a value, and else like the first of them. -/
theorem alike_runTree_parts (session : Session) (h : session.Numbered) (fuel : Nat)
    {nodes front back : List Node}
    (hnodes : bareNodes nodes = bareNodes (front ++ back)) (hback : back ≠ [])
    (span span' span'' : Span) :
    let L := seam session.units front.length
    let whole := session.runTree fuel ⟨.block nodes, span⟩
    let first := session.runTree fuel ⟨.block front, span'⟩
    let second := first.2.runTree fuel ⟨.block back, span''⟩
    ((∃ value, first.1 = .value value) ∧
      whole.1.Alike L second.1 ∧ whole.2.machine.Alike L second.2.machine) ∨
    ((∀ value, first.1 ≠ .value value) ∧
      whole.1.Alike L first.1 ∧ whole.2.machine.Alike L first.2.machine) := by
  intro L whole first second
  have hstart :
      ({ session.machine with depth := 0 } : Machine).Alike L { session.machine with depth := 0 } :=
    (seam_fixes _ _).machine h
  cases fuel with
  | zero =>
    refine .inr ⟨runTree_ne_value (eval_zero _ _ _ _ _), alike_of_endsAlike trivial ?_⟩
    simp only [load, eval_zero]
    exact .error hstart (.failing .exhausted)
  | succ fuel =>
    -- The statements of the whole are those of the first part and then those of the second.
    obtain ⟨nodes₁, nodes₂, rfl, hfront, hrest⟩ := exists_append_of_bareNodes hnodes
    have hwhole := eval_block session.settings fuel (nodes₁ ++ nodes₂) span (.root session.units)
      ScopeTree.rootId
    rw [evalSequence_append, hfront.length_eq, Nat.zero_add] at hwhole
    have hfirst :=
      eval_block session.settings fuel front span' (.root session.units) ScopeTree.rootId
    -- The first statements of the whole end like the first part.
    have hends : EndsAlike L (Value.Alike L) (Interrupt.Alike L)
        (evalSequence (eval session.settings fuel) (.root session.units) ScopeTree.rootId
          .null 0 nodes₁
          { session.machine with depth := 0 })
        (eval session.settings (fuel + 1) ⟨.block front, span'⟩ (.root session.units)
          ScopeTree.rootId
          { session.machine with depth := 0 }) := by
      rw [hfirst]
      exact alongside_first hfront hfront.length_eq hstart
    generalize hr : evalSequence _ _ _ _ _ nodes₁ _ = r at hends
    generalize hr' : eval _ _ ⟨.block front, span'⟩ _ _ _ = r' at hends
    cases hends with
    | error hm hstop =>
      refine .inr ⟨runTree_ne_value hr', alike_of_endsAlike trivial ?_⟩
      simp only [load]
      rw [hwhole, run_bind_of_error hr, hr']
      exact .error hm hstop
    | @ok value value' m m' hm hvalue =>
      have hdone :
          first = (.value value', { session with machine := m', units := session.units + 1 }) :=
        runTree_of_ok hr'
      -- No call is left over, so the second part starts from where the first has ended.
      have hdepth : ({ m' with depth := 0 } : Machine) = m' := by
        rw [← h.depth_eq hr']
      refine .inl ⟨⟨value', by rw [hdone]⟩, ?_⟩
      simp only [second, hdone]
      refine alike_of_endsAlike trivial ?_
      simp only [load]
      rw [hwhole, run_bind_of_ok hr, eval_block, hdepth]
      -- The last value of the first part is forgotten as soon as there is another statement.
      obtain ⟨node, others, rfl⟩ := List.exists_cons_of_ne_nil hback
      exact alongside_second hrest hvalue hm

/-- After a first line that comes to a value the second is run. -/
theorem runInTurn_of_value {first : String} {value : Value}
    (h : (session.run fuel first).1 = .value value) (second : String) :
    session.runInTurn fuel first second = (session.run fuel first).2.run fuel second := by
  unfold runInTurn
  generalize session.run fuel first = result at h ⊢
  obtain ⟨outcome, after⟩ := result
  cases h
  rfl

/-- After a first line that does not come to a value nothing is run. -/
theorem runInTurn_of_ne_value {first : String}
    (h : ∀ value, (session.run fuel first).1 ≠ .value value)
    (second : String) : session.runInTurn fuel first second = session.run fuel first := by
  unfold runInTurn
  generalize session.run fuel first = result at h ⊢
  obtain ⟨outcome, after⟩ := result
  cases outcome with
  | value value => exact absurd rfl (h value)
  | error | exhausted => rfl

/-- Sessions whose machines are alike have the same console and global variables that are alike. -/
theorem global?_alike {session session' : Session} {unit count : Nat}
    (h : session.machine.Alike (seam unit count) session'.machine) (name : String) :
    Option.Rel (Value.Alike (seam unit count)) (session.global? name) (session'.global? name) :=
  h.scopes.get? ScopeTree.rootId trivial

end Session

/-- Line by line or all at once. Take two sources that are read, of which the second has a statement
and does not start with `(`, `[`, `+` or `-`, and the first does not end with a `return` without a
value. With a line break in between they are read as the statements of the one and then those of the
other. And in every session whose functions come from trees that have been given their numbers,
running this has the same outcome, leaves the same console and binds the same global variables as
running the one source and then, if it comes to a value, the other: the same up to spans, and up to
the places that tell functions apart, which correspond one to one. Whatever has happened to a
session, its functions do come from such trees. -/
theorem line_by_line_equals_all_at_once {first second : String} {tree tree' : Node}
    (hfirst : parseSource first = .ok tree) (hsecond : parseSource second = .ok tree')
    (hstatement : tree'.children ≠ [])
    (htoken : ∀ lexemes, tokenize second = .ok lexemes →
      ∀ lexeme, lexemes.head? = some lexeme → lexeme.token.goesOn = false)
    (hreturn : ∀ last, tree.children.getLast? = some last → last.form ≠ .returning none) :
    (∃ whole, parseSource (first ++ "\n" ++ second) = .ok whole ∧
      whole.bare = Node.bare ⟨.block (tree.children ++ tree'.children), default⟩) ∧
    (∀ session : Session, session.Reached → session.Numbered) ∧
    ∀ session : Session, session.Numbered → ∀ fuel,
      let L := seam session.units tree.children.length
      let whole := session.run fuel (first ++ "\n" ++ second)
      let parts := session.runInTurn fuel first second
      whole.1.Alike L parts.1 ∧ whole.2.machine.console = parts.2.machine.console ∧
        ∀ name, Option.Rel (Value.Alike L) (whole.2.global? name) (parts.2.global? name) := by
  obtain ⟨joint, hjoint, hbare⟩ := parseSource_join hfirst hsecond htoken hreturn
  refine ⟨⟨joint, hjoint, hbare⟩, fun _ hreached => hreached.numbered, ?_⟩
  intro session hnumbered fuel L whole parts
  have hnodes : bareNodes joint.children = bareNodes (tree.children ++ tree'.children) := by
    rw [eq_block_of_parseSource hjoint] at hbare
    exact Form.block.inj (Node.bare_eq_iff.mp hbare)
  have halike := session.alike_runTree_parts hnumbered fuel hnodes hstatement joint.span
    tree.span tree'.span
  rw [← eq_block_of_parseSource hjoint, ← eq_block_of_parseSource hfirst,
    ← eq_block_of_parseSource hsecond] at halike
  have hwhole : whole = session.runTree fuel joint := Session.run_of_ok hjoint session fuel
  have hone : session.run fuel first = session.runTree fuel tree :=
    Session.run_of_ok hfirst session fuel
  -- States that are alike have the same console and global variables that are alike.
  suffices halike : whole.1.Alike L parts.1 ∧ whole.2.machine.Alike L parts.2.machine from
    ⟨halike.1, halike.2.console, Session.global?_alike halike.2⟩
  rw [hwhole]
  -- Only a first source that comes to a value is followed by the second.
  rcases halike with ⟨⟨value, hvalue⟩, halike⟩ | ⟨hvalue, halike⟩
  · have hparts : parts = (session.runTree fuel tree).2.runTree fuel tree' := by
      rw [← hone] at hvalue
      exact (Session.runInTurn_of_value hvalue second).trans
        (hone ▸ Session.run_of_ok hsecond _ fuel)
    rw [hparts]
    exact halike
  · have hparts : parts = session.runTree fuel tree := by
      rw [← hone] at hvalue
      exact (Session.runInTurn_of_ne_value hvalue second).trans hone
    rw [hparts]
    exact halike

/-- A function of the first line is called on the second with a function of the second, and so is
the value of both runs. Its place is that of statement 1 in the one run and of statement 0 in the
other. -/
theorem line_by_line_equals_all_at_once_of_functions :
    let place (start stop : Nat) : Span := ⟨⟨start, 1, start⟩, ⟨stop, 1, stop⟩⟩
    let definition : Node :=
      ⟨.function ⟨some "f", ["x"], ⟨.var "x", place 11 12⟩, true⟩, place 0 12⟩
    let argument : Node := ⟨.function ⟨none, [], ⟨.var "f", place 10 11⟩, true⟩, place 2 11⟩
    let call : Node := ⟨.call ⟨.var "f", place 0 1⟩ [argument], place 0 12⟩
    let session := Session.new .default (.new [] none) 0
    let whole := session.run 9 "fun f(x) = x\nf(fun() = f)"
    let parts := session.runInTurn 9 "fun f(x) = x" "f(fun() = f)"
    parseSource "fun f(x) = x" = .ok ⟨.block [definition], place 0 12⟩ ∧
      parseSource "f(fun() = f)" = .ok ⟨.block [call], place 0 12⟩ ∧
      (∃ joint, parseSource "fun f(x) = x\nf(fun() = f)" = .ok joint ∧
        joint.bare = Node.bare ⟨.block [definition, call], default⟩) ∧
      whole.1.Alike (seam 0 1) parts.1 ∧ whole.2.machine.console = parts.2.machine.console ∧
      ∀ name, Option.Rel (Value.Alike (seam 0 1)) (whole.2.global? name)
        (parts.2.global? name) := by
  intro place definition argument call session whole parts
  have hfirst : parseSource "fun f(x) = x" = .ok ⟨.block [definition], place 0 12⟩ := by
    have htokens : tokenize "fun f(x) = x" = .ok
        [⟨.keyword .fun, place 0 3⟩, ⟨.identifier "f", place 4 5⟩,
          ⟨.operator .openParen, place 5 6⟩, ⟨.identifier "x", place 6 7⟩,
          ⟨.operator .closeParen, place 7 8⟩, ⟨.operator .assign, place 9 10⟩,
          ⟨.identifier "x", place 11 12⟩, ⟨.eof, place 12 13⟩] := by
      with_unfolding_all rfl
    rw [parseSource, htokens]
    rfl
  have htokens : tokenize "f(fun() = f)" = .ok
      [⟨.identifier "f", place 0 1⟩, ⟨.operator .openParen, place 1 2⟩,
        ⟨.keyword .fun, place 2 5⟩, ⟨.operator .openParen, place 5 6⟩,
        ⟨.operator .closeParen, place 6 7⟩, ⟨.operator .assign, place 8 9⟩,
        ⟨.identifier "f", place 10 11⟩, ⟨.operator .closeParen, place 11 12⟩,
        ⟨.eof, place 12 13⟩] := by
    with_unfolding_all rfl
  have hsecond : parseSource "f(fun() = f)" = .ok ⟨.block [call], place 0 12⟩ := by
    rw [parseSource, htokens]
    rfl
  have hresult := line_by_line_equals_all_at_once hfirst hsecond (List.cons_ne_nil call [])
    (fun lexemes hlexemes lexeme hlexeme => by
      rw [htokens] at hlexemes
      cases hlexemes
      cases hlexeme
      rfl)
    (fun last hlast => by
      cases hlast
      simp [definition])
  exact ⟨hfirst, hsecond, hresult.1,
    hresult.2.2 session (hresult.2.1 session (.new _ _ _)) 9⟩

end Script
