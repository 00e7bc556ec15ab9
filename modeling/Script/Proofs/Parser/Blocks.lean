import Script.Proofs.Parser.Phrases

/-!
# Blocks and the forms that have one

Nothing has to be said of what follows a block: its closing brace ends it. What follows a statement
depends on the statement. Behind an expression there must be nothing that goes on with it, and
behind a `return` without a value nothing that starts one (`Form.mayPrecede`).

`Statements.read` is about a whole sequence of statements; from it come the blocks (`Braced.block`)
and, in the end, programs.
-/

namespace Script.Parser

/-- Tokens that are read as a block. -/
structure Braced (stop : Span) (tokens : List Token) (node : Node) : Prop where
  /-- A block starts with a brace. -/
  starts : ∃ others, tokens = .operator .openBrace :: others
  /-- The block is read, whatever follows. -/
  read : ∀ {n : Nat} (lexemes rest : List Lexeme) (saved : Option Abandoned),
    lexemes.map Lexeme.token = tokens → (lexemes ++ rest).length ≤ n →
    ∃ node', node'.bare = node.bare ∧
      predictGoal stop n .block ⟨lexemes ++ rest, saved⟩ = .ok node' ⟨rest, saved⟩

/-- A block starts with a brace. -/
theorem Braced.nextToken? {stop : Span} {tokens : List Token} {node : Node}
    (h : Braced stop tokens node) {lexemes : List Lexeme} (hmap : lexemes.map Lexeme.token = tokens)
    (rest : List Lexeme) : nextToken? (lexemes ++ rest) = some (.operator .openBrace) := by
  obtain ⟨others, rfl⟩ := h.starts
  obtain ⟨place, others, rfl, -⟩ := eq_cons_of_map hmap
  rfl

/-- An expression ends in front of a block. -/
theorem Braced.endsAt {stop : Span} {tokens : List Token} {node : Node} {level : Level}
    (h : Braced stop tokens node) {lexemes : List Lexeme} (hmap : lexemes.map Lexeme.token = tokens)
    (rest : List Lexeme) : EndsAt level (lexemes ++ rest) := by
  intro token joint hnext hjoins
  rw [h.nextToken? hmap, Option.some.injEq] at hnext
  subst hnext
  cases hjoins

/-- A part that stands behind a word of its own, or is missing. -/
inductive Marked (word : Keyword) (part : List Token → Node → Prop) :
    List Token → Option Node → Prop
  | absent : Marked word part [] none
  | present {tokens : List Token} {node : Node} (h : part tokens node) :
      Marked word part (.keyword word :: tokens) (some node)

/-- A part is read, if it is there and what follows does not look like it. -/
theorem Marked.read {word : Keyword} {part : List Token → Node → Prop} {tokens : List Token}
    {node : Option Node} (h : Marked word part tokens node) {p : Parser Node}
    {lexemes : List Lexeme}
    (rest : List Lexeme) (saved : Option Abandoned) (hmap : lexemes.map Lexeme.token = tokens)
    (hrest : nextToken? rest ≠ some (.keyword word))
    (hpart : ∀ (back : List Lexeme) (node : Node), back.length < lexemes.length →
      part (back.map Lexeme.token) node →
      ∃ node', node'.bare = node.bare ∧ p ⟨back ++ rest, saved⟩ = .ok node' ⟨rest, saved⟩) :
    ∃ node', bareOption node' = bareOption node ∧
      optionally word p ⟨lexemes ++ rest, saved⟩ = .ok node' ⟨rest, saved⟩ := by
  cases h with
  | absent =>
    obtain rfl : lexemes = [] := List.map_eq_nil_iff.mp hmap
    exact ⟨none, rfl, optionally_of_ne hrest⟩
  | @present tokens node hnode =>
    obtain ⟨place, back, rfl, rfl⟩ := eq_cons_of_map hmap
    obtain ⟨node', hnode', hread⟩ := hpart back node (Nat.lt_succ_self _) hnode
    refine ⟨some node', ?_, ?_⟩
    · simp [bareOption, hnode']
    · rw [List.cons_append, optionally_self]
      exact bind_of_ok hread

/-- Arms behind the first one of an `if`. -/
inductive Arms (stop : Span) : List Token → List Arm → Prop
  | nil : Arms stop [] []
  | cons {before middle after : List Token} {cond body : Node} {arms : List Arm}
      (hcond : Phrase stop .expression before cond) (hbody : Braced stop middle body)
      (harms : Arms stop after arms) :
      Arms stop (.keyword .elif :: (before ++ (middle ++ after))) (⟨cond, body⟩ :: arms)

/-- The condition and the block of an arm or a loop are read. -/
theorem read_guarded {stop : Span} {before middle : List Token} {cond body : Node}
    (hcond : Phrase stop .expression before cond) (hbody : Braced stop middle body) {n : Nat}
    {front between : List Lexeme} (rest : List Lexeme) (saved : Option Abandoned)
    (hbefore : front.map Lexeme.token = before) (hmiddle : between.map Lexeme.token = middle)
    (hlength : (front ++ (between ++ rest)).length ≤ n) :
    ∃ cond' body', cond'.bare = cond.bare ∧ body'.bare = body.bare ∧
      predictGoal stop n .expression ⟨front ++ (between ++ rest), saved⟩
        = .ok cond' ⟨between ++ rest, saved⟩ ∧
      predictGoal stop n .block ⟨between ++ rest, saved⟩ = .ok body' ⟨rest, saved⟩ := by
  obtain ⟨cond', hcond', hgoal⟩ := hcond.goal .expression (fun _ _ => rfl) (between ++ rest) saved
    hbefore hlength (hbody.endsAt hmiddle rest)
  have hlength' : (between ++ rest).length ≤ n := by
    rw [List.length_append] at hlength
    omega
  obtain ⟨body', hbody', hgoal'⟩ := hbody.read between rest saved hmiddle hlength'
  exact ⟨cond', body', hcond', hbody', hgoal, hgoal'⟩

/-- Arms are read up to something else. -/
theorem Arms.armsFrom {stop : Span} {tokens : List Token} {arms : List Arm}
    (h : Arms stop tokens arms)
    {n k : Nat} {lexemes : List Lexeme} (rest : List Lexeme) (saved : Option Abandoned)
    (hmap : lexemes.map Lexeme.token = tokens) (hlength : (lexemes ++ rest).length ≤ n)
    (hk : lexemes.length ≤ k) (hrest : nextToken? rest ≠ some (.keyword .elif)) (done : List Arm) :
    ∃ arms', bareArms arms' = bareArms arms ∧
      Parser.armsFrom (predictGoal stop n) k done ⟨lexemes ++ rest, saved⟩
        = .ok (done.reverse ++ arms') ⟨rest, saved⟩ := by
  -- The induction is on the arms, each of which takes one round.
  induction h generalizing lexemes k done with
  | nil =>
    obtain rfl : lexemes = [] := List.map_eq_nil_iff.mp hmap
    refine ⟨[], rfl, ?_⟩
    rw [List.append_nil, List.nil_append]
    cases k with
    | zero => rfl
    | succ k =>
      rw [Parser.armsFrom, acceptKeyword_bind_of_ne hrest]
      rfl
  | @cons before middle after cond body arms hcond hbody harms ih =>
    obtain ⟨place, others, rfl, hothers⟩ := eq_cons_of_map hmap
    obtain ⟨front, others, rfl, hbefore, hothers'⟩ := List.map_eq_append_iff.mp hothers
    obtain ⟨between, back, rfl, hmiddle, hafter⟩ := List.map_eq_append_iff.mp hothers'
    simp only [List.append_assoc, List.cons_append, List.length_append, List.length_cons]
      at hlength hk ⊢
    obtain ⟨k, rfl⟩ : ∃ j, k = j + 1 := ⟨k - 1, by omega⟩
    obtain ⟨cond', body', hcond', hbody', hgoal, hgoal'⟩ := read_guarded hcond hbody (n := n)
      (back ++ rest) saved hbefore hmiddle (by simp; omega)
    obtain ⟨arms', harms', hrun⟩ := ih (k := k) hafter (by simp; omega) (by omega)
      (⟨cond', body'⟩ :: done)
    refine ⟨⟨cond', body'⟩ :: arms', ?_, ?_⟩
    · simp [bareArms, Arm.bare, hcond', hbody', harms']
    · rw [Parser.armsFrom, acceptKeyword_bind_self]
      simp only
      rw [bind_of_ok hgoal, bind_of_ok hgoal', hrun, List.reverse_cons, List.append_assoc,
        List.singleton_append]

namespace Phrase

variable {stop : Span}

/-- The phrases of an `if`. -/
theorem ifElse {before middle after last : List Token} {cond body : Node} {arms : List Arm}
    {otherwise : Option Node} (hcond : Phrase stop .expression before cond)
    (hbody : Braced stop middle body) (harms : Arms stop after arms)
    (hotherwise : Marked .else (Braced stop) last otherwise) (span : Span) :
    Phrase stop .atom (.keyword .if :: (before ++ (middle ++ (after ++ last))))
      ⟨.ifElse (⟨cond, body⟩ :: arms) otherwise, span⟩ := by
  refine of_atomFrom rfl rfl ?_
  intro n bound lexemes rest saved place hbound hmap hlength hends
  obtain ⟨front, others, rfl, hbefore, hothers⟩ := List.map_eq_append_iff.mp hmap
  obtain ⟨between, others, rfl, hmiddle, hothers'⟩ := List.map_eq_append_iff.mp hothers
  obtain ⟨back, final, rfl, hafter, hlast⟩ := List.map_eq_append_iff.mp hothers'
  -- What follows is taken neither for another arm nor for the last one.
  have hnext : ∀ word, (Token.keyword word).joins = some .atom →
      nextToken? rest ≠ some (.keyword word) := fun word hjoins hnext => by
    have hlt := hends _ _ hnext hjoins
    omega
  simp only [List.append_assoc, List.length_append] at hlength ⊢
  obtain ⟨cond', body', hcond', hbody', hgoal, hgoal'⟩ := read_guarded hcond hbody (n := n)
    (back ++ (final ++ rest)) saved hbefore hmiddle (by simp; omega)
  have hfinal : Parser.nextToken? (final ++ rest) ≠ some (.keyword .elif) := by
    cases hotherwise with
    | absent =>
      obtain rfl : final = [] := List.map_eq_nil_iff.mp hlast
      exact hnext .elif rfl
    | present h =>
      obtain ⟨_, _, rfl, -⟩ := eq_cons_of_map hlast
      simp
  obtain ⟨arms', harms', hrun⟩ := harms.armsFrom (n := n) (k := bound) (final ++ rest) saved hafter
    (by simp; omega) (by omega) hfinal [⟨cond', body'⟩]
  obtain ⟨otherwise', hotherwise', hmarked⟩ := hotherwise.read (p := predictGoal stop n .block) rest
    saved hlast (hnext .else rfl) fun back node hlt h => h.read back rest saved rfl (by simp; omega)
  have hform :
      ifForm bound (predictGoal stop n) ⟨front ++ (between ++ (back ++ (final ++ rest))), saved⟩
      = .ok (.ifElse (⟨cond', body'⟩ :: arms') otherwise') ⟨rest, saved⟩ := by
    rw [ifForm, bind_of_ok hgoal, bind_of_ok hgoal', bind_of_ok hrun, bind_of_ok hmarked]
    rfl
  refine ⟨_, ?_, bind_of_ok (trailing_of_ok hform)⟩
  simp [Node.bare, Form.bare, bareArms, Arm.bare, hcond', hbody', harms', hotherwise']

/-- The phrases of a `while`. -/
theorem whileLoop {before after : List Token} {cond body : Node}
    (hcond : Phrase stop .expression before cond) (hbody : Braced stop after body) (span : Span) :
    Phrase stop .atom (.keyword .while :: (before ++ after)) ⟨.whileLoop cond body, span⟩ := by
  refine of_atomFrom rfl rfl ?_
  intro n bound lexemes rest saved place hbound hmap hlength hends
  obtain ⟨front, back, rfl, hbefore, hafter⟩ := List.map_eq_append_iff.mp hmap
  rw [List.append_assoc] at hlength ⊢
  obtain ⟨cond', body', hcond', hbody', hgoal, hgoal'⟩ :=
    read_guarded hcond hbody rest saved hbefore
    hafter hlength
  refine ⟨⟨.whileLoop cond' body', place.merge body'.span⟩, ?_, ?_⟩
  · simp [Node.bare, Form.bare, hcond', hbody']
  · rw [atomFrom, Parser.whileLoop, bind_of_ok hgoal, bind_of_ok hgoal']
    rfl

/-- The phrases of a `for`. -/
theorem forLoop {name : String} {before middle marked after : List Token} {first last body : Node}
    {step : Option Node} (hfirst : Phrase stop .expression before first)
    (hlast : Phrase stop .expression middle last)
    (hstep : Marked .by (Phrase stop .expression) marked step) (hbody : Braced stop after body)
    (span : Span) :
    Phrase stop .atom
      (.keyword .for :: .identifier name :: .operator .assign ::
        (before ++ .operator .colon :: (middle ++ (marked ++ after))))
      ⟨.forLoop name first last step body, span⟩ := by
  refine of_atomFrom rfl rfl ?_
  intro n bound lexemes rest saved place hbound hmap hlength hends
  obtain ⟨_, _, rfl, hname⟩ := eq_cons_of_map hmap
  obtain ⟨_, _, rfl, hassign⟩ := eq_cons_of_map hname
  obtain ⟨front, colon, _, rfl, hbefore, hcolon⟩ := eq_append_cons_of_map hassign
  obtain ⟨between, _, rfl, hmiddle, hothers⟩ := List.map_eq_append_iff.mp hcolon
  obtain ⟨extra, back, rfl, hmarked, hafter⟩ := List.map_eq_append_iff.mp hothers
  simp only [List.append_assoc, List.cons_append, List.length_append, List.length_cons] at hlength ⊢
  obtain ⟨first', hfirst', hgoal⟩ := hfirst.goal .expression (fun _ _ => rfl) (n := n)
    (⟨.operator .colon, colon⟩ :: (between ++ (extra ++ (back ++ rest)))) saved hbefore
    (by simp; omega) (endsAt_cons rfl)
  -- The second bound ends at `by`, or at the brace of the body if there is no step.
  have hends' : EndsAt .expression (extra ++ (back ++ rest)) := by
    cases hstep with
    | absent =>
      obtain rfl : extra = [] := List.map_eq_nil_iff.mp hmarked
      exact hbody.endsAt hafter rest
    | present h =>
      obtain ⟨_, _, rfl, -⟩ := eq_cons_of_map hmarked
      exact endsAt_cons rfl
  obtain ⟨last', hlast', hgoal'⟩ := hlast.goal .expression (fun _ _ => rfl) (n := n)
    (extra ++ (back ++ rest)) saved hmiddle (by simp; omega) hends'
  obtain ⟨step', hstep', hread⟩ := hstep.read (p := predictGoal stop n .expression) (back ++ rest)
    saved hmarked (by simp [hbody.nextToken? hafter]) fun front node hlt h =>
      h.goal .expression (fun _ _ => rfl) (back ++ rest) saved rfl (by simp; omega)
        (hbody.endsAt hafter rest)
  obtain ⟨body', hbody', hgoal''⟩ := hbody.read (n := n) back rest saved hafter (by simp; omega)
  refine ⟨⟨.forLoop name first' last' step' body', place.merge body'.span⟩, ?_, ?_⟩
  · simp [Node.bare, Form.bare, hfirst', hlast', hstep', hbody']
  · rw [atomFrom, Parser.forLoop, expectIdentifier_bind_self, require_bind_self, bind_of_ok hgoal,
      require_bind_self, bind_of_ok hgoal', bind_of_ok hread]
    exact bind_of_ok hgoal''

end Phrase

/-! ## Functions -/

/-- The names behind the first one, each with its comma. -/
theorem printNames_cons (name : String) (names : List String) :
    printNames (name :: names)
      = .identifier name :: names.flatMap fun name => [.operator .comma, .identifier name] := by
  induction names generalizing name with
  | nil => rfl
  | cons next names ih =>
    rw [printNames, ih, List.flatMap_cons]
    · rfl
    · simp

section

variable {stop : Span} {bound : Nat} {self : Goal → Parser Node} {saved : Option Abandoned}

/-- Parameters are read up to the closing parenthesis. -/
theorem paramsFrom_read {names : List String} {lexemes : List Lexeme}
    (hmap : lexemes.map Lexeme.token = names.flatMap fun name =>
      [.operator .comma, .identifier name])
    {k : Nat} (hk : lexemes.length ≤ k) (place : Span) (rest : List Lexeme) (done : List String) :
    (paramsFrom stop k done : Parser _) ⟨lexemes ++ ⟨.operator .closeParen, place⟩ :: rest, saved⟩
      = .ok (done.reverse ++ names) ⟨⟨.operator .closeParen, place⟩ :: rest, saved⟩ := by
  induction names generalizing lexemes k done with
  | nil =>
    obtain rfl : lexemes = [] := List.map_eq_nil_iff.mp hmap
    rw [List.append_nil, List.nil_append]
    cases k with
    | zero => rfl
    | succ k =>
      rw [paramsFrom, acceptOperator_bind_of_ne (by simp)]
      rfl
  | cons name names ih =>
    obtain ⟨_, _, rfl, hcomma⟩ := eq_cons_of_map hmap
    obtain ⟨_, back, rfl, hback⟩ := eq_cons_of_map hcomma
    simp only [List.cons_append, List.length_cons] at hk ⊢
    obtain ⟨k, rfl⟩ : ∃ j, k = j + 1 := ⟨k - 1, by omega⟩
    rw [paramsFrom, acceptOperator_bind_self]
    simp only
    rw [expectIdentifier_bind_self, ih hback (by omega), List.reverse_cons, List.append_assoc,
      List.singleton_append]

/-- Parameters and their closing parenthesis are read. -/
theorem params_read {names : List String} {lexemes : List Lexeme}
    (hmap : lexemes.map Lexeme.token = printNames names) (hbound : lexemes.length ≤ bound)
    (place : Span) (rest : List Lexeme) :
    (params stop bound : Parser _) ⟨lexemes ++ ⟨.operator .closeParen, place⟩ :: rest, saved⟩
      = .ok names ⟨rest, saved⟩ := by
  cases names with
  | nil =>
    obtain rfl : lexemes = [] := List.map_eq_nil_iff.mp hmap
    rw [List.nil_append, params, acceptOperator_bind_self]
    rfl
  | cons name names =>
    rw [printNames_cons] at hmap
    obtain ⟨_, back, rfl, hback⟩ := eq_cons_of_map hmap
    rw [List.length_cons] at hbound
    rw [List.cons_append, params, acceptOperator_bind_of_ne (by simp)]
    simp only
    rw [expectIdentifier_bind_self, bind_of_ok (paramsFrom_read hback (by omega) place rest [name]),
      expectOperator_bind_self]
    rfl

variable (stop self) in
/-- The rest of a function literal, behind its parameters. -/
def functionFrom (start : Span) (name : Option String) (names : List String) : Parser Node := do
  match ← acceptOperator .assign with
  | some _ =>
    let body ← self .expression
    return ⟨.function ⟨name, names, body, true⟩, start.merge body.span⟩
  | none =>
    match ← peek with
    | some ⟨.operator .openBrace, _⟩ =>
      let body ← self .block
      return ⟨.function ⟨name, names, body, false⟩, start.merge body.span⟩
    | _ => fail stop (.expected [.operator .openBrace, .operator .assign])

/-- The head of a function literal is read. -/
theorem function_eq_functionFrom {name : Option String} {names : List String}
    {lexemes : List Lexeme}
    (hmap : lexemes.map Lexeme.token = (name.map Token.identifier).toList ++ .operator .openParen ::
      (printNames names ++ [.operator .closeParen]))
    (hbound : lexemes.length ≤ bound) (start : Span) (ahead : List Lexeme) :
    function stop bound self start ⟨lexemes ++ ahead, saved⟩
      = functionFrom stop self start name names ⟨ahead, saved⟩ := by
  obtain ⟨front, opening, _, rfl, hname, hothers⟩ := eq_append_cons_of_map hmap
  obtain ⟨inner, closing, last, rfl, hinner, hlast⟩ := eq_append_cons_of_map hothers
  obtain rfl : last = [] := List.map_eq_nil_iff.mp hlast
  simp only [List.append_assoc, List.cons_append, List.nil_append, List.length_append,
    List.length_cons, List.length_nil] at hbound ⊢
  -- A name would be taken in front of the parenthesis, and an operator is none.
  cases name with
  | none =>
    obtain rfl : front = [] := List.map_eq_nil_iff.mp hname
    rw [List.nil_append, function, acceptIdentifier_bind_of_operator, expectOperator_bind_self,
      bind_of_ok (params_read hinner (by omega) closing ahead)]
    rfl
  | some name =>
    obtain ⟨_, front, rfl, hfront⟩ := eq_cons_of_map hname
    obtain rfl : front = [] := List.map_eq_nil_iff.mp hfront
    rw [List.cons_append, List.nil_append, function, acceptIdentifier_bind_self,
      expectOperator_bind_self,
      bind_of_ok (params_read hinner (by simp at hbound; omega) closing ahead)]
    rfl

end

namespace Phrase

variable {stop : Span} {name : Option String} {names : List String} {after : List Token}

/-- A function literal is a phrase if it is read from behind its parameters. -/
theorem of_functionFrom {level : Level} {node : Node} (hlevel : level.groupsLeft = false)
    (hrun : ∀ (n : Nat) (lexemes rest : List Lexeme) (saved : Option Abandoned) (start : Span),
      lexemes.map Lexeme.token = after → (lexemes ++ rest).length ≤ n → EndsAt level rest →
      ∃ node', node'.bare = node.bare ∧
        functionFrom stop (predictGoal stop n) start name names ⟨lexemes ++ rest, saved⟩
          = .ok node' ⟨rest, saved⟩) :
    Phrase stop level
      (.keyword .fun :: ((name.map Token.identifier).toList ++ .operator .openParen ::
        (printNames names ++ .operator .closeParen :: after))) node := by
  refine of_atomFrom hlevel rfl ?_
  intro n bound lexemes rest saved place hbound hmap hlength hends
  have htokens : (name.map Token.identifier).toList ++ .operator .openParen ::
      (printNames names ++ .operator .closeParen :: after)
      = ((name.map Token.identifier).toList ++ .operator .openParen ::
        (printNames names ++ [.operator .closeParen])) ++ after := by simp
  rw [htokens] at hmap
  obtain ⟨front, back, rfl, hfront, hback⟩ := List.map_eq_append_iff.mp hmap
  simp only [List.append_assoc, List.length_append] at hlength ⊢
  obtain ⟨node', hnode, hread⟩ := hrun n back rest saved place hback (by simp; omega) hends
  refine ⟨node', hnode, ?_⟩
  rw [atomFrom, function_eq_functionFrom hfront (by omega), hread]

/-- A function whose body is a block is an atom. -/
theorem functionBlock {body : Node} (h : Braced stop after body) (span : Span) :
    Phrase stop .atom
      (.keyword .fun :: ((name.map Token.identifier).toList ++ .operator .openParen ::
        (printNames names ++ .operator .closeParen :: after)))
      ⟨.function ⟨name, names, body, false⟩, span⟩ := by
  refine of_functionFrom rfl ?_
  intro n lexemes rest saved start hmap hlength _
  obtain ⟨body', hbody', hgoal⟩ := h.read lexemes rest saved hmap hlength
  refine ⟨⟨.function ⟨name, names, body', false⟩, start.merge body'.span⟩, ?_, ?_⟩
  · simp [Node.bare, Form.bare, Definition.bare, hbody']
  · obtain ⟨others, rfl⟩ := h.starts
    obtain ⟨brace, back, rfl, -⟩ := eq_cons_of_map hmap
    rw [functionFrom, acceptOperator_bind_of_ne (by simp)]
    simp only
    rw [bind_of_ok (p := peek) rfl]
    exact bind_of_ok hgoal

/-- A function whose body is an expression reaches as far as that does. -/
theorem functionExpression {body : Node} (h : Phrase stop .expression after body) (span : Span) :
    Phrase stop .expression
      (.keyword .fun :: ((name.map Token.identifier).toList ++ .operator .openParen ::
        (printNames names ++ .operator .closeParen :: .operator .assign :: after)))
      ⟨.function ⟨name, names, body, true⟩, span⟩ := by
  refine of_functionFrom rfl ?_
  intro n lexemes rest saved start hmap hlength hends
  obtain ⟨_, back, rfl, hback⟩ := eq_cons_of_map hmap
  simp only [List.cons_append, List.length_cons] at hlength ⊢
  obtain ⟨body', hbody', hgoal⟩ := h.goal .expression (fun _ _ => rfl) (n := n) rest saved hback
    (by omega) hends
  refine ⟨⟨.function ⟨name, names, body', true⟩, start.merge body'.span⟩, ?_, ?_⟩
  · simp [Node.bare, Form.bare, Definition.bare, hbody']
  · rw [functionFrom, acceptOperator_bind_self]
    exact bind_of_ok hgoal

end Phrase

/-! ## Statements -/

end Script.Parser

namespace Script

/-- Whether a token can start a statement. -/
def Token.startsStatement : Token → Bool
  | .keyword .return | .keyword .break | .keyword .continue => true
  | token => token.startsExpression

theorem Token.startsStatement_of_startsExpression {token : Token}
    (h : token.startsExpression = true) :
    token.startsStatement = true := by
  unfold startsStatement
  split
  · rfl
  · rfl
  · rfl
  · exact h

/-- A closing brace starts no statement. -/
theorem Token.ne_closeBrace_of_startsStatement {token : Token} (h : token.startsStatement = true) :
    token ≠ .operator .closeBrace := by
  rintro rfl
  cases h

/-- What starts a statement and does not go on with another one joins nowhere. -/
theorem Token.joins_eq_none {token : Token} (h : token.startsStatement = true)
    (hgoesOn : token.goesOn = false) : token.joins = none := by
  cases token with
  | keyword word => cases word <;> simp_all [startsStatement, startsExpression, joins]
  | operator op => cases op <;> simp_all [startsStatement, startsExpression, goesOn]
  | number | text | identifier | eof => rfl

/-- Whether a token may stand behind a statement. -/
def Form.mayPrecede : Form → Token → Bool
  | .returning none, token => !token.startsExpression
  | .breaking, _ | .continuing, _ => true
  | _, token => token.joins.isNone

/-- A closing brace may stand behind every statement. -/
theorem Form.mayPrecede_closeBrace (form : Form) :
    form.mayPrecede (.operator .closeBrace) = true := by
  unfold mayPrecede
  split <;> rfl

namespace Parser

/-- Tokens that are read as a statement. -/
structure Statement (stop : Span) (tokens : List Token) (node : Node) : Prop where
  /-- There is a first token, and it starts a statement. -/
  starts : ∃ first others, tokens = first :: others ∧ first.startsStatement = true
  /-- The statement is read in front of what may stand behind it. -/
  read : ∀ {n bound : Nat} (lexemes rest : List Lexeme) (saved : Option Abandoned), n ≤ bound →
    lexemes.map Lexeme.token = tokens → (lexemes ++ rest).length ≤ n + 1 →
    (∀ token, nextToken? rest = some token → node.form.mayPrecede token = true) →
    ∃ node', node'.bare = node.bare ∧
      Predictive.statement stop bound (predictGoal stop n) ⟨lexemes ++ rest, saved⟩
        = .ok node' ⟨rest, saved⟩

/-- What joins nowhere ends every expression. -/
theorem endsAt_of_isNone {level : Level} {rest : List Lexeme}
    (h : ∀ token, nextToken? rest = some token → token.joins.isNone = true) :
    EndsAt level rest := by
  intro token joint hnext hjoins
  have hnone := h token hnext
  simp [hjoins] at hnone

namespace Statement

variable {stop : Span} {tokens : List Token} {node : Node}

/-- An expression is a statement. -/
theorem expression (h : Phrase stop .expression tokens node) (hform : node.form.isJump = false) :
    Statement stop tokens node := by
  obtain ⟨first, others, rfl, hfirst, -⟩ := h.starts
  refine ⟨⟨first, others, rfl, Token.startsStatement_of_startsExpression hfirst⟩, ?_⟩
  intro n bound lexemes rest saved hbound hmap hlength hrest
  have hends : EndsAt .expression rest := endsAt_of_isNone fun token hnext => by
    have hmay := hrest token hnext
    unfold Form.mayPrecede at hmay
    split at hmay <;> simp_all [Form.isJump]
  obtain ⟨node', hnode, hread⟩ := h.closed rest saved hbound hmap hlength hends
  refine ⟨node', hnode, ?_⟩
  obtain ⟨place, back, rfl, -⟩ := eq_cons_of_map hmap
  rw [List.cons_append] at hread ⊢
  have hne : ∀ token : Token, token.startsExpression = false →
      nextToken? (⟨first, place⟩ :: (back ++ rest)) ≠ some token := by
    rintro token hnot hnext
    cases hnext
    simp [hfirst] at hnot
  rw [Predictive.statement_of_jump_ne (hne _ rfl) (hne _ rfl) (hne _ rfl)]
  exact hread

/-- `return` with a value is a statement. -/
theorem returnValue {value : Node} (h : Phrase stop .expression tokens value) (span : Span) :
    Statement stop (.keyword .return :: tokens) ⟨.returning (some value), span⟩ := by
  refine ⟨⟨_, tokens, rfl, rfl⟩, ?_⟩
  intro n bound lexemes rest saved hbound hmap hlength hrest
  obtain ⟨start, back, rfl, hback⟩ := eq_cons_of_map hmap
  simp only [List.cons_append, List.length_cons] at hlength ⊢
  obtain ⟨value', hvalue, hread⟩ := h.closed (n := n) rest saved hbound hback (by omega)
    (endsAt_of_isNone hrest)
  refine ⟨⟨.returning (some value'), start.merge value'.span⟩, ?_, ?_⟩
  · simp [Node.bare, Form.bare, bareOption, hvalue]
  · obtain ⟨first, others, rfl, hfirst, -⟩ := h.starts
    obtain ⟨place, back, rfl, -⟩ := eq_cons_of_map hback
    rw [List.cons_append] at hread ⊢
    rw [Predictive.statement_return_of_starts hfirst]
    exact bind_of_ok hread

/-- `return` without a value is a statement. -/
theorem returnNothing (span : Span) :
    Statement stop [.keyword .return] ⟨.returning none, span⟩ := by
  refine ⟨⟨_, [], rfl, rfl⟩, ?_⟩
  intro n bound lexemes rest saved hbound hmap hlength hrest
  obtain ⟨start, back, rfl, hback⟩ := eq_cons_of_map hmap
  obtain rfl : back = [] := List.map_eq_nil_iff.mp hback
  exact ⟨⟨.returning none, start⟩, rfl,
    Predictive.statement_return_of_not_starts fun token hnext => by
    simpa [Form.mayPrecede] using hrest token hnext⟩

/-- `break` is a statement. -/
theorem breaking (span : Span) : Statement stop [.keyword .break] ⟨.breaking, span⟩ := by
  refine ⟨⟨_, [], rfl, rfl⟩, ?_⟩
  intro n bound lexemes rest saved hbound hmap hlength hrest
  obtain ⟨start, back, rfl, hback⟩ := eq_cons_of_map hmap
  obtain rfl : back = [] := List.map_eq_nil_iff.mp hback
  exact ⟨⟨.breaking, start⟩, rfl, rfl⟩

/-- `continue` is a statement. -/
theorem continuing (span : Span) : Statement stop [.keyword .continue] ⟨.continuing, span⟩ := by
  refine ⟨⟨_, [], rfl, rfl⟩, ?_⟩
  intro n bound lexemes rest saved hbound hmap hlength hrest
  obtain ⟨start, back, rfl, hback⟩ := eq_cons_of_map hmap
  obtain rfl : back = [] := List.map_eq_nil_iff.mp hback
  exact ⟨⟨.continuing, start⟩, rfl, rfl⟩

end Statement

/-- Statements one after the other, each of which may stand behind the one before it. -/
inductive Statements (stop : Span) : List Token → List Node → Prop
  | nil : Statements stop [] []
  | cons {tokens others : List Token} {node : Node} {nodes : List Node}
      (hnode : Statement stop tokens node)
      (hnext : ∀ token, others.head? = some token → node.form.mayPrecede token = true)
      (hnodes : Statements stop others nodes) : Statements stop (tokens ++ others) (node :: nodes)

namespace Statements

variable {stop : Span} {tokens : List Token} {nodes : List Node} {terminator : Option Operator}
variable {n bound : Nat}

/-- What may stand behind each of several statements and a terminator. -/
theorem mayPrecede_of_end (hterminator : terminator = none ∨ terminator = some .closeBrace)
    {rest : List Lexeme} (hend : atSequenceEnd terminator rest = true) {lexemes : List Lexeme}
    {form : Form}
    (hnext : ∀ token, (lexemes.map Lexeme.token).head? = some token → form.mayPrecede token = true)
    (token : Token) (h : nextToken? (lexemes ++ rest) = some token) :
    form.mayPrecede token = true := by
  cases lexemes with
  | cons lexeme lexemes => exact hnext token h
  | nil =>
    rw [List.nil_append] at h
    obtain rfl : token = .operator .closeBrace := by
      rcases hterminator with rfl | rfl
      · obtain rfl := (atSequenceEnd_none_iff rest).mp hend
        cases h
      · rcases (atSequenceEnd_some_iff _ rest).mp hend with rfl | hclose
        · cases h
        · exact Option.some.inj (h.symm.trans hclose)
    exact form.mayPrecede_closeBrace

/-- Statements behind those that were read are read, up to the terminator. -/
theorem statementsFrom (h : Statements stop tokens nodes)
    (hterminator : terminator = none ∨ terminator = some .closeBrace) (hbound : n ≤ bound)
    {lexemes : List Lexeme} (rest : List Lexeme) (saved : Option Abandoned)
    (hmap : lexemes.map Lexeme.token = tokens) (hlength : (lexemes ++ rest).length ≤ n + 1)
    (hend : atSequenceEnd terminator rest = true) {k : Nat} (hk : lexemes.length ≤ k)
    (done : List Node) :
    ∃ nodes', bareNodes nodes' = bareNodes nodes ∧
      Predictive.statementsFrom stop bound (predictGoal stop n) terminator k done
          ⟨lexemes ++ rest, saved⟩
        = .ok (done.reverse ++ nodes') ⟨rest, saved⟩ := by
  induction h generalizing lexemes k done with
  | nil =>
    obtain rfl : lexemes = [] := List.map_eq_nil_iff.mp hmap
    refine ⟨[], rfl, ?_⟩
    rw [List.append_nil]
    exact Predictive.statementsFrom_of_end hend
  | @cons tokens others node nodes hnode hnext hnodes ih =>
    obtain ⟨front, back, rfl, hfront, rfl⟩ := List.map_eq_append_iff.mp hmap
    simp only [List.append_assoc, List.length_append] at hlength hk ⊢
    obtain ⟨node', hnode', hread⟩ := hnode.read (n := n) front (back ++ rest) saved hbound hfront
      (by simp; omega) (mayPrecede_of_end hterminator hend hnext)
    -- A statement has a token at least, which is not the end of the sequence and uses up a round.
    obtain ⟨first, others, rfl, hfirst⟩ := hnode.starts
    obtain ⟨place, front, rfl, -⟩ := eq_cons_of_map hfront
    simp only [List.length_cons] at hlength hk
    obtain ⟨k, rfl⟩ : ∃ j, k = j + 1 := ⟨k - 1, by omega⟩
    obtain ⟨nodes', hnodes', hrun⟩ := ih rfl (by simp; omega) (k := k) (by omega) (node' :: done)
    refine ⟨node' :: nodes', ?_, ?_⟩
    · rw [bareNodes, bareNodes, hnode', hnodes']
    · have hne := Token.ne_closeBrace_of_startsStatement hfirst
      rw [Predictive.statementsFrom_of_ok (atSequenceEnd_of_ne hterminator hne) hread, hrun,
        List.reverse_cons, List.append_assoc, List.singleton_append]

/-- Statements are read up to the terminator. -/
theorem read (h : Statements stop tokens nodes)
    (hterminator : terminator = none ∨ terminator = some .closeBrace) (hbound : n ≤ bound)
    {lexemes : List Lexeme} (rest : List Lexeme) (saved : Option Abandoned)
    (hmap : lexemes.map Lexeme.token = tokens) (hlength : (lexemes ++ rest).length ≤ n + 1)
    (hend : atSequenceEnd terminator rest = true) :
    ∃ nodes', bareNodes nodes' = bareNodes nodes ∧
      Predictive.statements stop bound (predictGoal stop n) terminator ⟨lexemes ++ rest, saved⟩
        = .ok nodes' ⟨rest, saved⟩ := by
  cases h with
  | nil =>
    obtain rfl : lexemes = [] := List.map_eq_nil_iff.mp hmap
    refine ⟨[], rfl, ?_⟩
    simp only [List.nil_append, Predictive.statements, hend, if_true]
  | @cons tokens others node nodes hnode hnext hnodes =>
    obtain ⟨front, back, rfl, hfront, rfl⟩ := List.map_eq_append_iff.mp hmap
    simp only [List.append_assoc, List.length_append] at hlength ⊢
    obtain ⟨node', hnode', hread⟩ := hnode.read (n := n) front (back ++ rest) saved hbound hfront
      (by simp; omega) (mayPrecede_of_end hterminator hend hnext)
    obtain ⟨first, others, rfl, hfirst⟩ := hnode.starts
    obtain ⟨place, front, rfl, -⟩ := eq_cons_of_map hfront
    simp only [List.length_cons] at hlength
    obtain ⟨nodes', hnodes', hrun⟩ :=
      hnodes.statementsFrom hterminator hbound (k := bound) rest saved rfl
      (by simp; omega) hend (by omega) [node']
    refine ⟨node' :: nodes', ?_, ?_⟩
    · rw [bareNodes, bareNodes, hnode', hnodes']
    · have hopen : atSequenceEnd terminator (⟨first, place⟩ :: (front ++ (back ++ rest))) = false :=
        atSequenceEnd_of_ne hterminator (Token.ne_closeBrace_of_startsStatement hfirst)
      rw [List.cons_append] at hread ⊢
      simp only [Predictive.statements, hopen, Bool.false_eq_true, if_false, hread]
      exact hrun

/-- Statements up to the end of the input are read as a program. -/
theorem program (h : Statements stop tokens nodes) {lexemes : List Lexeme}
    (saved : Option Abandoned) (hmap : lexemes.map Lexeme.token = tokens) :
    ∃ node, node.bare = Node.bare ⟨.block nodes, default⟩ ∧
      Predictive.program stop lexemes.length (predictGoal stop lexemes.length) ⟨lexemes, saved⟩
        = .ok node ⟨[], saved⟩ := by
  obtain ⟨nodes', hnodes', hread⟩ := h.read (.inl rfl) (Nat.le_refl lexemes.length) [] saved hmap
    (by simp) rfl
  rw [List.append_nil] at hread
  refine ⟨⟨.block nodes', programSpan (spanOf stop lexemes) nodes'⟩, ?_, ?_⟩
  · simp [Node.bare, Form.bare, hnodes']
  · rw [Predictive.program, bind_of_ok (p := get) rfl, bind_of_ok hread]
    rfl

end Statements

/-- Statements in braces are a block. -/
theorem Braced.block {stop : Span} {tokens : List Token} {nodes : List Node}
    (h : Statements stop tokens nodes) (span : Span) :
    Braced stop (.operator .openBrace :: (tokens ++ [.operator .closeBrace]))
      ⟨.block nodes, span⟩ := by
  refine ⟨⟨_, rfl⟩, ?_⟩
  intro n lexemes rest saved hmap hlength
  obtain ⟨opening, _, rfl, hothers⟩ := eq_cons_of_map hmap
  obtain ⟨inner, closing, last, rfl, hinner, hlast⟩ := eq_append_cons_of_map hothers
  obtain rfl : last = [] := List.map_eq_nil_iff.mp hlast
  simp only [List.append_assoc, List.cons_append, List.nil_append, List.length_append,
    List.length_cons] at hlength ⊢
  obtain ⟨n, rfl⟩ : ∃ j, n = j + 1 := ⟨n - 1, by omega⟩
  obtain ⟨nodes', hnodes', hread⟩ := h.read (n := n) (.inr rfl) (Nat.le_succ n)
    (⟨.operator .closeBrace, closing⟩ :: rest) saved hinner (by simp; omega) rfl
  refine ⟨⟨.block nodes', opening.merge closing⟩, ?_, ?_⟩
  · simp [Node.bare, Form.bare, hnodes']
  · show Predictive.block stop (n + 1) (predictGoal stop n) _ = _
    rw [Predictive.block, require_bind_self, bind_of_ok hread, require_bind_self]
    rfl

end Parser

end Script
