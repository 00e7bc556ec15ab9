import Script.Proofs.Parser.Cursor

/-!
# Parsing without going back

`parse` gives statements up and goes back to where they started, and what it reports in the end is a
failure that it kept for that case. `parsePredictively` is a parser for the same grammar that does
neither. It decides by the next token whether `return` has a value, a failure is the failure of
whatever it happens in, and nothing is kept for later. `parse_eq_parsePredictively` says that the
two parsers cannot be told apart.

## Shape of the proof

`Agree` relates a parser to its predictive counterpart: they succeed on the same inputs with the
same result and the same lexemes left, and fail on the same inputs with the same error. What is in
the slot for the abandoned statement plays no part, and a run leaves there what it found or nothing.
`Agree` is a relation that the grammar respects, so only statements are left to look at.

There the two parsers part ways in one case. If the value after `return` fails, the one succeeds
without a value while the other fails (`StatementRun.returned`). But then the next statement of the
sequence starts where the value did, and fails the same way. So what a sequence gives up is always
what its counterpart fails with (`SequenceRun.stopped`), and the slot is read before anything else
can fill it.
-/

namespace Script.Parser

namespace Predictive

section

variable (stop : Span) (bound : Nat) (self : Goal → Parser Node)

/-- One statement. There is a value after `return` if the next token can start one. -/
def statement : Parser Node := do
  match ← acceptKeyword .return with
  | some start =>
    if (← peek).any fun lexeme => lexeme.token.startsExpression then
      let value ← expression stop bound self
      return ⟨.returning (some value), start.merge value.span⟩
    else return ⟨.returning none, start⟩
  | none =>
    match ← acceptKeyword .continue with
    | some span => return ⟨.continuing, span⟩
    | none =>
      match ← acceptKeyword .break with
      | some span => return ⟨.breaking, span⟩
      | none => expression stop bound self

/-- The error of a sequence whose later statement, starting at `start`, failed at `reached`. It is
that of the statement, unless a closing bracket could have stood in place of its first token. -/
def laterError (terminator : Option Operator) (start reached : List Lexeme) (error : SyntaxError) :
    SyntaxError :=
  match terminator with
  | none => error
  | some close =>
    if reached.length < start.length then error
    else ⟨.expected [.operator close], spanOf stop start⟩

/-- Further statements up to the terminator, at most `n` of them. The statements so far are
`before`, last one first. -/
def statementsFrom (terminator : Option Operator) : Nat → List Node → Parser (List Node)
  | 0, before => return before.reverse
  | n + 1, before => fun s =>
    if atSequenceEnd terminator s.ahead then .ok before.reverse s
    else
      match statement stop bound self s with
      | .ok node s' => statementsFrom terminator n (node :: before) s'
      | .error error s' => .error (laterError stop terminator s.ahead s'.ahead error) s'

/-- All statements up to the terminator. -/
def statements (terminator : Option Operator) : Parser (List Node) := fun s =>
  if atSequenceEnd terminator s.ahead then .ok [] s
  else
    match statement stop bound self s with
    | .ok node s' => statementsFrom stop bound self terminator bound [node] s'
    | .error error s' => .error error s'

/-- Statements in braces. -/
def block : Parser Node := do
  let opening ← require stop .openBrace
  let body ← statements stop bound self (some .closeBrace)
  let closing ← require stop .closeBrace
  return ⟨.block body, opening.merge closing⟩

/-- The rule for a goal. Those for expressions are the ones of the grammar. -/
def goal : Goal → Parser Node
  | .expression => expression stop bound self
  | .comparison => comparison stop bound self
  | .factor => factor stop bound self
  | .block => block stop bound self

/-- All of the input as a sequence of statements. -/
def program : Parser Node := do
  let start := spanOf stop (← get).ahead
  let body ← statements stop bound self none
  return ⟨.block body, programSpan start body⟩

end

end Predictive

/-- The predictive parser of a goal for inputs of at most the given number of tokens. -/
def predictGoal (stop : Span) : Nat → Goal → Parser Node
  | 0, goal => fail stop goal.faultAtEnd
  | n + 1, goal => Predictive.goal stop (n + 1) (predictGoal stop n) goal

end Script.Parser

namespace Script

/-- The program that lexemes spell, read without ever going back. -/
def parsePredictively (lexemes : List Lexeme) : Except SyntaxError Node :=
  let ahead := lexemes.takeWhile fun l => !l.token.isEof
  let stop := endSpan lexemes
  let bound := ahead.length
  match Parser.Predictive.program stop bound (Parser.predictGoal stop bound) ⟨ahead, none⟩ with
  | .ok node _ => .ok node
  | .error error _ => .error error

namespace Parser

/-! ## Agreement -/

/-- Two runs that end alike, with results as `post` says. The first one left in its slot what it
found there or nothing; the second one has no use for a slot. At most `limit` lexemes are left. -/
inductive SameRun {α β : Type} (limit : Nat) (post : Nat → α → β → Prop)
    (saved : Option Abandoned) :
    EStateM.Result SyntaxError ParseState α → EStateM.Result SyntaxError ParseState β → Prop
  | ok {a : α} {b : β} {ahead : List Lexeme} {saved' kept : Option Abandoned}
      (hlimit : ahead.length ≤ limit) (hsaved : saved' = saved ∨ saved' = none)
      (hpost : post ahead.length a b) :
      SameRun limit post saved (.ok a ⟨ahead, saved'⟩) (.ok b ⟨ahead, kept⟩)
  | error {e : SyntaxError} {ahead ahead' : List Lexeme} {saved' kept : Option Abandoned}
      (hsaved : saved' = saved ∨ saved' = none) :
      SameRun limit post saved (.error e ⟨ahead, saved'⟩) (.error e ⟨ahead', kept⟩)

/-- A run that starts later, from a slot that was left alone or emptied. -/
theorem SameRun.trans {α β : Type} {limit limit' : Nat} {post : Nat → α → β → Prop}
    {saved saved' : Option Abandoned} {r : EStateM.Result SyntaxError ParseState α}
    {r' : EStateM.Result SyntaxError ParseState β} (h : SameRun limit' post saved' r r')
    (hlimit : limit' ≤ limit) (hsaved : saved' = saved ∨ saved' = none) :
    SameRun limit post saved r r' := by
  have hslot : ∀ last : Option Abandoned, last = saved' ∨ last = none →
      last = saved ∨ last = none := by
    rintro last (rfl | rfl)
    · exact hsaved
    · exact .inr rfl
  cases h with
  | ok hle hs hpost => exact .ok (Nat.le_trans hle hlimit) (hslot _ hs) hpost
  | error hs => exact .error (hslot _ hs)

/-- Two parsers that end alike on all inputs of `n` lexemes, whatever their slots hold. -/
def Agree (n : Nat) {α β : Type} (post : Nat → α → β → Prop) (p : Parser α) (q : Parser β) : Prop :=
  ∀ (ahead : List Lexeme) (saved kept : Option Abandoned), ahead.length = n →
    SameRun n post saved (p ⟨ahead, saved⟩) (q ⟨ahead, kept⟩)

/-- Rules agree part by part. -/
theorem Agree.bind {α β γ δ : Type} {n : Nat} {mid : Nat → α → β → Prop} {post : Nat → γ → δ → Prop}
    {p : Parser α} {q : Parser β} {f : α → Parser γ} {g : β → Parser δ} (hp : Agree n mid p q)
    (hf : ∀ k a b, k ≤ n → mid k a b → Agree k post (f a) (g b)) :
    Agree n post (p >>= f) (q >>= g) := by
  intro ahead saved kept hn
  rw [bind_apply, bind_apply]
  have hrun := hp ahead saved kept hn
  generalize p ⟨ahead, saved⟩ = r at hrun ⊢
  generalize q ⟨ahead, kept⟩ = r' at hrun ⊢
  cases hrun with
  | ok hle hs hmid => exact (hf _ _ _ hle hmid _ _ _ rfl).trans hle hs
  | error hs => exact .error hs

/-- Agreement is a relation that the grammar respects. -/
theorem ruleRelation_agree (stop : Span) : RuleRelation .same stop stop Agree where
  stops := rfl
  pure hpost := by
    rintro ahead saved kept rfl
    exact .ok (Nat.le_refl _) (.inl rfl) hpost
  bind := .bind
  peek := by
    rintro _ ahead saved kept rfl
    refine .ok (Nat.le_refl _) (.inl rfl) ⟨rfl, ?_⟩
    rcases ahead with _ | ⟨⟨token, span⟩, rest⟩
    · exact .none
    · exact .some (fun _ _ => trivial) rfl
  advance := by
    intro n ahead saved kept hn
    rcases ahead with _ | ⟨lexeme, rest⟩
    · cases hn
    · exact .ok (Nat.le_of_succ_le (Nat.le_of_eq hn)) (.inl rfl) (Nat.succ.inj hn)
  fail _ := by
    intro ahead saved kept _
    rw [fail_apply, fail_apply]
    exact .error (.inl rfl)
  trailing := by
    rintro α β n post p q start _ rfl hp ahead saved kept hn
    have hrun := hp ahead saved kept hn
    generalize hp' : p ⟨ahead, saved⟩ = r at hrun
    generalize hq' : q ⟨ahead, kept⟩ = r' at hrun
    cases hrun with
    | ok hle hs hpost =>
      rw [trailing_of_ok hp', trailing_of_ok hq']
      exact .ok hle hs ⟨hpost, rfl⟩
    | error hs =>
      rw [trailing_of_error hp', trailing_of_error hq']
      exact .error hs
  -- With nothing ahead, a look ahead finds nothing.
  peek_left := by
    intro α β post f q hp ahead saved kept hn
    obtain rfl : ahead = [] := List.length_eq_zero_iff.mp hn
    exact hp [] saved kept hn
  peek_right := by
    intro α β post p g hp ahead saved kept hn
    obtain rfl : ahead = [] := List.length_eq_zero_iff.mp hn
    exact hp [] saved kept hn

/-! ## Statements -/

section

variable {stop : Span} {bound : Nat} {self self' : Goal → Parser Node}
variable {saved kept : Option Abandoned}

/-- A statement that starts with no jump is an expression. -/
theorem statement_of_jump_ne {ahead : List Lexeme}
    (hreturn : nextToken? ahead ≠ some (.keyword .return))
    (hcontinue : nextToken? ahead ≠ some (.keyword .continue))
    (hbreak : nextToken? ahead ≠ some (.keyword .break)) :
    statement stop bound self ⟨ahead, saved⟩ = expression stop bound self ⟨ahead, saved⟩ := by
  rw [statement, acceptKeyword_bind_of_ne hreturn]
  simp only
  rw [acceptKeyword_bind_of_ne hcontinue]
  simp only
  rw [acceptKeyword_bind_of_ne hbreak]

/-- A statement that starts with no jump is predicted to be an expression. -/
theorem Predictive.statement_of_jump_ne {ahead : List Lexeme}
    (hreturn : nextToken? ahead ≠ some (.keyword .return))
    (hcontinue : nextToken? ahead ≠ some (.keyword .continue))
    (hbreak : nextToken? ahead ≠ some (.keyword .break)) :
    statement stop bound self ⟨ahead, saved⟩ = expression stop bound self ⟨ahead, saved⟩ := by
  rw [statement, acceptKeyword_bind_of_ne hreturn]
  simp only
  rw [acceptKeyword_bind_of_ne hcontinue]
  simp only
  rw [acceptKeyword_bind_of_ne hbreak]

/-- How one statement ends for the two parsers. -/
inductive StatementRun (stop : Span) (bound : Nat) (self : Goal → Parser Node) (limit : Nat)
    (saved : Option Abandoned) :
    EStateM.Result SyntaxError ParseState Node → EStateM.Result SyntaxError ParseState Node → Prop
  /-- Alike. -/
  | same {r r' : EStateM.Result SyntaxError ParseState Node}
      (h : SameRun limit (Consumed limit Eq) saved r r') :
      StatementRun stop bound self limit saved r r'
  /-- The value after `return` fails. The one parser goes back to before the value and succeeds. -/
  | returned {node : Node} {lexeme : Lexeme} {rest reached : List Lexeme} {e : SyntaxError}
      {saved' kept : Option Abandoned} (hlimit : rest.length + 1 < limit)
      (hreached : reached.length < limit) (hsaved : saved' = saved ∨ saved' = none)
      (hstart : lexeme.token.startsExpression = true)
      (hvalue : ∀ saved'' : Option Abandoned, ∃ s',
        expression stop bound self ⟨lexeme :: rest, saved''⟩ = .error e s') :
      StatementRun stop bound self limit saved (.ok node ⟨lexeme :: rest, saved'⟩)
        (.error e ⟨reached, kept⟩)

/-- Behind `return` an expression is attempted. -/
theorem statement_return {start : Span} {rest : List Lexeme} :
    statement stop bound self ⟨⟨.keyword .return, start⟩ :: rest, saved⟩ =
      (do
        let value ← attempt (expression stop bound self)
        return ⟨.returning value, (value.map fun v => start.merge v.span).getD start⟩ : Parser Node)
        ⟨rest, saved⟩ := by
  rw [statement, acceptKeyword_bind_self]

/-- Behind `return` an expression is predicted by a token that starts one. -/
theorem Predictive.statement_return_of_starts {start : Span} {lexeme : Lexeme} {rest : List Lexeme}
    (h : lexeme.token.startsExpression = true) :
    statement stop bound self ⟨⟨.keyword .return, start⟩ :: lexeme :: rest, kept⟩ =
      (do
        let value ← expression stop bound self
        return ⟨.returning (some value), start.merge value.span⟩ : Parser Node)
        ⟨lexeme :: rest, kept⟩ := by
  rw [statement, acceptKeyword_bind_self]
  simp only
  rw [peek_bind]
  simp [h]

/-- Behind `return` no expression is predicted by any other token. -/
theorem Predictive.statement_return_of_not_starts {start : Span} {rest : List Lexeme}
    (h : ∀ token, nextToken? rest = some token → token.startsExpression = false) :
    statement stop bound self ⟨⟨.keyword .return, start⟩ :: rest, kept⟩
      = .ok ⟨.returning none, start⟩ ⟨rest, kept⟩ := by
  rw [statement, acceptKeyword_bind_self]
  simp only
  rw [peek_bind]
  cases rest with
  | nil => rfl
  | cons lexeme rest =>
    have hstart : lexeme.token.startsExpression = false := h _ rfl
    simp only [List.head?_cons, Option.any_some, hstart, Bool.false_eq_true, if_false]
    rfl

variable {n : Nat}

/-- A `return` ends alike, or its value fails. -/
theorem statementRun_return (hself' : ∀ goal, Consuming (self' goal))
    (hexpression : ∀ k, k ≤ n →
      Agree k (Consumed k Eq) (expression stop bound self) (expression stop bound self'))
    (start : Span) (rest : List Lexeme) (saved kept : Option Abandoned) (hn : rest.length ≤ n) :
    StatementRun stop bound self (rest.length + 1) saved
      (statement stop bound self ⟨⟨.keyword .return, start⟩ :: rest, saved⟩)
      (Predictive.statement stop bound self' ⟨⟨.keyword .return, start⟩ :: rest, kept⟩) := by
  rw [statement_return]
  by_cases hnot : ∀ token, nextToken? rest = some token → token.startsExpression = false
  · rw [Predictive.statement_return_of_not_starts hnot,
      bind_of_ok (attempt_of_error (expression_of_not_starts hnot))]
    exact .same (.ok (Nat.le_succ _) (.inl rfl) ⟨Nat.lt_succ_self _, rfl⟩)
  · rcases rest with _ | ⟨lexeme, rest⟩
    · exact absurd (fun token h => by cases h) hnot
    have hstart : lexeme.token.startsExpression = true := by simpa using hnot
    rw [Predictive.statement_return_of_starts hstart]
    have hvalue := hexpression _ hn (lexeme :: rest) saved kept rfl
    cases hrun' : expression stop bound self' ⟨lexeme :: rest, kept⟩ with
    | ok value s' =>
      cases hrun : expression stop bound self ⟨lexeme :: rest, saved⟩ with
      | error e s => rw [hrun, hrun'] at hvalue; cases hvalue
      | ok value s =>
        rw [hrun, hrun'] at hvalue
        rw [bind_of_ok (attempt_of_ok hrun), bind_of_ok hrun']
        cases hvalue with
        | ok hle hs hpost =>
          obtain ⟨-, rfl⟩ := hpost
          exact .same (.ok (Nat.le_succ_of_le hle) hs ⟨Nat.lt_succ_of_le hle, rfl⟩)
    | error e s' =>
      -- Whatever the slot holds, the value fails like its counterpart does.
      have hfails : ∀ saved'' : Option Abandoned, ∃ s,
          expression stop bound self ⟨lexeme :: rest, saved''⟩ = .error e s
            ∧ (s.abandoned = saved'' ∨ s.abandoned = none) := by
        intro saved''
        have hagain := hexpression _ hn (lexeme :: rest) saved'' kept rfl
        rw [hrun'] at hagain
        cases hrun : expression stop bound self ⟨lexeme :: rest, saved''⟩ with
        | ok value s => rw [hrun] at hagain; cases hagain
        | error e' s =>
          rw [hrun] at hagain
          cases hagain with
          | error hs => exact ⟨_, rfl, hs⟩
      obtain ⟨s, hrun, hs⟩ := hfails saved
      have hmoves : MovesAt (expression stop bound self') ⟨lexeme :: rest, kept⟩ :=
        movesAt_expression hself' hstart
      rw [MovesAt, hrun'] at hmoves
      rw [bind_of_ok (attempt_of_error hrun), bind_of_error hrun']
      refine .returned (Nat.lt_succ_self _) (Nat.lt_succ_of_lt hmoves) hs hstart fun saved'' => ?_
      obtain ⟨s'', hrun'', -⟩ := hfails saved''
      exact ⟨s'', hrun''⟩

/-- The first lexeme, if it is known what its token is. -/
theorem eq_cons_of_nextToken? {ahead : List Lexeme} {token : Token}
    (h : nextToken? ahead = some token) : ∃ span rest, ahead = ⟨token, span⟩ :: rest := by
  rcases ahead with _ | ⟨⟨token', span⟩, rest⟩
  · cases h
  · cases h
    exact ⟨span, rest, rfl⟩

/-- One statement ends alike, or its value after `return` fails. -/
theorem statementRun (hself' : ∀ goal, Consuming (self' goal))
    (hexpression : ∀ k, k ≤ n →
      Agree k (Consumed k Eq) (expression stop bound self) (expression stop bound self'))
    (ahead : List Lexeme) (saved kept : Option Abandoned) (hn : ahead.length ≤ n) :
    StatementRun stop bound self ahead.length saved (statement stop bound self ⟨ahead, saved⟩)
      (Predictive.statement stop bound self' ⟨ahead, kept⟩) := by
  by_cases hreturn : nextToken? ahead = some (.keyword .return)
  · obtain ⟨start, rest, rfl⟩ := eq_cons_of_nextToken? hreturn
    exact statementRun_return hself' hexpression start rest saved kept (Nat.le_of_succ_le hn)
  by_cases hcontinue : nextToken? ahead = some (.keyword .continue)
  · obtain ⟨span, rest, rfl⟩ := eq_cons_of_nextToken? hcontinue
    exact .same (.ok (Nat.le_succ _) (.inl rfl) ⟨Nat.lt_succ_self _, rfl⟩)
  by_cases hbreak : nextToken? ahead = some (.keyword .break)
  · obtain ⟨span, rest, rfl⟩ := eq_cons_of_nextToken? hbreak
    exact .same (.ok (Nat.le_succ _) (.inl rfl) ⟨Nat.lt_succ_self _, rfl⟩)
  rw [statement_of_jump_ne hreturn hcontinue hbreak,
    Predictive.statement_of_jump_ne hreturn hcontinue hbreak]
  exact .same (hexpression _ hn ahead saved kept rfl)

/-- A statement that succeeds has moved past its first token. -/
theorem Predictive.consuming_statement (hself : ∀ goal, Consuming (self goal)) :
    Consuming (statement stop bound self) := by
  have hrel := sequenceRelation_yields_any stop
  have hexpression : ∀ n, Yields .any n (Consumed n fun _ _ => True) (expression stop bound self)
      (expression stop bound self) := (Rule.expression.consuming hself).yields
  refine consuming_of_yields (V := fun _ _ => True) fun n => ?_
  refine hrel.acceptKeyword_bind .return ?_ fun k hk _ _ _ => ?_
  · refine hrel.acceptKeyword_bind .continue ?_ fun k hk _ _ _ => hrel.pure ⟨hk, trivial⟩
    refine hrel.acceptKeyword_bind .break ?_ fun k hk _ _ _ => hrel.pure ⟨hk, trivial⟩
    exact hexpression n
  · refine hrel.bind (hrel.peek k) ?_
    rintro _ next next' - ⟨rfl, hnext⟩
    have hstarts : next.any (fun lexeme => lexeme.token.startsExpression)
        = next'.any fun lexeme => lexeme.token.startsExpression := by
      cases hnext <;> rfl
    rw [hstarts]
    split
    · refine hrel.bind (hexpression _) fun i _ _ hi _ => hrel.pure ?_
      exact ⟨Nat.lt_of_le_of_lt hi hk, trivial⟩
    · exact hrel.pure ⟨hk, trivial⟩

/-! ## Sequences -/

/-- What is wrong where a sequence of statements has to end and does not. -/
def sequenceFault : Option Operator → SyntaxFault
  | none => .unexpected
  | some close => .expected [.operator close]

/-- How a sequence of statements ends for the two parsers. -/
inductive SequenceRun (stop : Span) (terminator : Option Operator) (limit : Nat)
    (saved : Option Abandoned) : EStateM.Result SyntaxError ParseState (List Node) →
    EStateM.Result SyntaxError ParseState (List Node) → Prop
  /-- Both come to where the sequence may end. -/
  | ended {body : List Node} {ahead : List Lexeme} {saved' kept : Option Abandoned}
      (hend : atSequenceEnd terminator ahead = true) (hlimit : ahead.length ≤ limit)
      (hsaved : saved' = saved ∨ saved' = none) :
      SequenceRun stop terminator limit saved (.ok body ⟨ahead, saved'⟩) (.ok body ⟨ahead, kept⟩)
  /-- The first statement fails. -/
  | failed {e : SyntaxError} {ahead ahead' : List Lexeme} {saved' kept : Option Abandoned}
      (hsaved : saved' = saved ∨ saved' = none) :
      SequenceRun stop terminator limit saved (.error e ⟨ahead, saved'⟩) (.error e ⟨ahead', kept⟩)
  /-- A later statement fails. The one parser stops before it, where the sequence may not end, and
  has kept what the other one fails with. -/
  | stopped {body : List Node} {ahead : List Lexeme} {abandoned : Abandoned} {s' : ParseState}
      (hend : atSequenceEnd terminator ahead = false) :
      SequenceRun stop terminator limit saved (.ok body ⟨ahead, some abandoned⟩)
        (.error (leftoverError stop (sequenceFault terminator) ahead (some abandoned)) s')

/-- Sequences that end alike from later on end alike from here. -/
theorem SequenceRun.trans {terminator : Option Operator} {limit limit' : Nat}
    {saved saved' : Option Abandoned} {r r' : EStateM.Result SyntaxError ParseState (List Node)}
    (h : SequenceRun stop terminator limit' saved' r r') (hlimit : limit' ≤ limit)
    (hsaved : saved' = saved ∨ saved' = none) : SequenceRun stop terminator limit saved r r' := by
  have hslot : ∀ last : Option Abandoned, last = saved' ∨ last = none →
      last = saved ∨ last = none := by
    rintro last (rfl | rfl)
    · exact hsaved
    · exact .inr rfl
  cases h with
  | ended hend hle hs => exact .ended hend (Nat.le_trans hle hlimit) (hslot _ hs)
  | failed hs => exact .failed (hslot _ hs)
  | stopped hend => exact .stopped hend

variable {terminator : Option Operator}

/-- Only a closing brace ends a sequence, apart from the end of the input. -/
theorem atSequenceEnd_of_ne (hterminator : terminator = none ∨ terminator = some .closeBrace)
    {lexeme : Lexeme} {rest : List Lexeme} (hne : lexeme.token ≠ .operator .closeBrace) :
    atSequenceEnd terminator (lexeme :: rest) = false := by
  obtain ⟨token, span⟩ := lexeme
  cases token with
  | operator op =>
    have hop : op ≠ .closeBrace := fun hop => hne (congrArg Token.operator hop)
    rcases hterminator with rfl | rfl
    · rfl
    · simpa [atSequenceEnd] using Ne.symm hop
  | number | text | identifier | keyword | eof => rfl

/-- A token that starts an expression ends no sequence. -/
theorem atSequenceEnd_of_starts (hterminator : terminator = none ∨ terminator = some .closeBrace)
    {lexeme : Lexeme} {rest : List Lexeme} (hstart : lexeme.token.startsExpression = true) :
    atSequenceEnd terminator (lexeme :: rest) = false := by
  refine atSequenceEnd_of_ne hterminator fun hclose => ?_
  rw [hclose] at hstart
  cases hstart

/-- A token that starts an expression starts a statement that is one. -/
theorem statement_of_starts {lexeme : Lexeme} {rest : List Lexeme}
    (hstart : lexeme.token.startsExpression = true) :
    statement stop bound self ⟨lexeme :: rest, saved⟩
      = expression stop bound self ⟨lexeme :: rest, saved⟩ := by
  have hne : ∀ token : Token, token.startsExpression = false →
      nextToken? (lexeme :: rest) ≠ some token := by
    rintro token hnot hnext
    cases hnext
    simp [hstart] at hnot
  exact statement_of_jump_ne (hne _ rfl) (hne _ rfl) (hne _ rfl)

/-- The value that failed after `return` fails again as a statement, which is given up. -/
theorem statementsFrom_of_value (hself : ∀ goal, Consuming (self goal))
    (hterminator : terminator = none ∨ terminator = some .closeBrace) {lexeme : Lexeme}
    {rest : List Lexeme} {e : SyntaxError} (hstart : lexeme.token.startsExpression = true)
    (hvalue : ∃ s', expression stop bound self ⟨lexeme :: rest, saved⟩ = .error e s') (k : Nat)
    (before : List Node) :
    statementsFrom stop bound self terminator (k + 1) before ⟨lexeme :: rest, saved⟩
      = .ok before.reverse ⟨lexeme :: rest, some ⟨e, true⟩⟩ := by
  obtain ⟨s', hrun⟩ := hvalue
  have hmoves : MovesAt (expression stop bound self) ⟨lexeme :: rest, saved⟩ :=
    movesAt_expression hself hstart
  rw [MovesAt, hrun] at hmoves
  rw [statementsFrom_of_error (atSequenceEnd_of_starts hterminator hstart)
    ((statement_of_starts hstart).trans hrun)]
  simp only [leaves] at hmoves
  simp only [hmoves, decide_true]

/-- A later statement that fails for both parsers is kept by the one and reported by the other. -/
theorem laterError_eq (hself : ∀ goal, Consuming (self goal))
    (hself' : ∀ goal, Consuming (self' goal))
    {ahead : List Lexeme} {e : SyntaxError} {s s' : ParseState}
    (hrun : statement stop bound self ⟨ahead, saved⟩ = .error e s)
    (hrun' : Predictive.statement stop bound self' ⟨ahead, kept⟩ = .error e s') :
    Predictive.laterError stop terminator ahead s'.ahead e
      = leftoverError stop (sequenceFault terminator) ahead
        (some ⟨e, decide (s.ahead.length < ahead.length)⟩) := by
  -- A jump is read whatever follows it, so what failed is an expression.
  have hreturn : nextToken? ahead ≠ some (.keyword .return) := by
    intro hnext
    obtain ⟨start, rest, rfl⟩ := eq_cons_of_nextToken? hnext
    rw [statement_return] at hrun
    cases hvalue : expression stop bound self ⟨rest, saved⟩ with
    | ok value t => rw [bind_of_ok (attempt_of_ok hvalue)] at hrun; cases hrun
    | error e' t => rw [bind_of_ok (attempt_of_error hvalue)] at hrun; cases hrun
  have hcontinue : nextToken? ahead ≠ some (.keyword .continue) := by
    intro hnext
    obtain ⟨span, rest, rfl⟩ := eq_cons_of_nextToken? hnext
    cases hrun
  have hbreak : nextToken? ahead ≠ some (.keyword .break) := by
    intro hnext
    obtain ⟨span, rest, rfl⟩ := eq_cons_of_nextToken? hnext
    cases hrun
  rw [statement_of_jump_ne hreturn hcontinue hbreak] at hrun
  rw [Predictive.statement_of_jump_ne hreturn hcontinue hbreak] at hrun'
  -- Either the first token is refused by both parsers, or both get past it.
  by_cases hnot : ∀ token, nextToken? ahead = some token → token.startsExpression = false
  · rw [expression_of_not_starts hnot] at hrun hrun'
    cases hrun
    cases hrun'
    cases terminator <;> simp [Predictive.laterError, leftoverError, sequenceFault]
  · rcases ahead with _ | ⟨lexeme, rest⟩
    · exact absurd (fun token h => by cases h) hnot
    have hstart : lexeme.token.startsExpression = true := by simpa using hnot
    have hmoves : MovesAt (expression stop bound self) ⟨lexeme :: rest, saved⟩ :=
      movesAt_expression hself hstart
    have hmoves' : MovesAt (expression stop bound self') ⟨lexeme :: rest, kept⟩ :=
      movesAt_expression hself' hstart
    rw [MovesAt, hrun] at hmoves
    rw [MovesAt, hrun'] at hmoves'
    simp only [leaves] at hmoves hmoves'
    cases terminator <;>
      simp only [Predictive.laterError, leftoverError, hmoves, hmoves', decide_true, if_true]

/-- The statements end where a sequence may end. -/
theorem Predictive.statementsFrom_of_end {k : Nat} {before : List Node} {s : ParseState}
    (h : atSequenceEnd terminator s.ahead = true) :
    statementsFrom stop bound self terminator k before s = .ok before.reverse s := by
  cases k with
  | zero => rfl
  | succ k => simp only [statementsFrom, h, if_true]

/-- A statement is added to those before it. -/
theorem Predictive.statementsFrom_of_ok {k : Nat} {before : List Node} {s s' : ParseState}
    {node : Node} (h : atSequenceEnd terminator s.ahead = false)
    (hs : statement stop bound self s = .ok node s') :
    statementsFrom stop bound self terminator (k + 1) before s
      = statementsFrom stop bound self terminator k (node :: before) s' := by
  simp [statementsFrom, h, hs]

/-- A later statement that fails ends everything, with the error that giving it up would have led
to. -/
theorem Predictive.statementsFrom_of_error {k : Nat} {before : List Node} {s s' : ParseState}
    {e : SyntaxError} (h : atSequenceEnd terminator s.ahead = false)
    (hs : statement stop bound self s = .error e s') :
    statementsFrom stop bound self terminator (k + 1) before s
      = .error (laterError stop terminator s.ahead s'.ahead e) s' := by
  simp [statementsFrom, h, hs]

/-- There may be no statements at all. -/
theorem Predictive.statements_of_end {s : ParseState}
    (h : atSequenceEnd terminator s.ahead = true) :
    statements stop bound self terminator s = .ok [] s := by
  simp only [statements, h, if_true]

/-- Behind the first statement there may be others. -/
theorem Predictive.statements_of_ok {s s' : ParseState} {node : Node}
    (h : atSequenceEnd terminator s.ahead = false)
    (hs : statement stop bound self s = .ok node s') :
    statements stop bound self terminator s
      = statementsFrom stop bound self terminator bound [node] s' := by
  simp [statements, h, hs]

/-- The failure of the first statement is that of the sequence. -/
theorem Predictive.statements_of_error {s s' : ParseState} {e : SyntaxError}
    (h : atSequenceEnd terminator s.ahead = false)
    (hs : statement stop bound self s = .error e s') :
    statements stop bound self terminator s = .error e s' := by
  simp [statements, h, hs]

section

variable (hself : ∀ goal, Consuming (self goal)) (hself' : ∀ goal, Consuming (self' goal))
variable (hexpression : ∀ k, k ≤ n →
  Agree k (Consumed k Eq) (expression stop bound self) (expression stop bound self'))
variable (hterminator : terminator = none ∨ terminator = some .closeBrace)

include hself hself' hexpression hterminator

/-- Further statements end alike, or are given up where the counterpart fails. -/
theorem sequenceRun_statementsFrom (k : Nat) (before : List Node) (ahead : List Lexeme)
    (saved kept : Option Abandoned) (hk : ahead.length ≤ k) (hn : ahead.length ≤ n) :
    SequenceRun stop terminator ahead.length saved
      (statementsFrom stop bound self terminator k before ⟨ahead, saved⟩)
      (Predictive.statementsFrom stop bound self' terminator k before ⟨ahead, kept⟩) := by
  -- Every statement moves, so the rounds last for all the lexemes ahead.
  induction k generalizing before ahead saved kept with
  | zero =>
    obtain rfl : ahead = [] := List.length_eq_zero_iff.mp (Nat.le_zero.mp hk)
    exact .ended rfl (Nat.le_refl _) (.inl rfl)
  | succ k ih =>
    cases hend : atSequenceEnd terminator ahead with
    | true =>
      rw [statementsFrom_of_end hend, Predictive.statementsFrom_of_end hend]
      exact .ended hend (Nat.le_refl _) (.inl rfl)
    | false =>
      have hstep := statementRun hself' hexpression ahead saved kept hn
      generalize hrun : statement stop bound self ⟨ahead, saved⟩ = r at hstep
      generalize hrun' : Predictive.statement stop bound self' ⟨ahead, kept⟩ = r' at hstep
      cases hstep with
      | same h =>
        cases h with
        | ok hle hs hpost =>
          -- Both have read the same statement, and go on with the next.
          obtain ⟨hlt, rfl⟩ := hpost
          rw [statementsFrom_of_ok hend hrun, Predictive.statementsFrom_of_ok hend hrun']
          exact (ih _ _ _ _ (by omega) (by omega)).trans hle hs
        | error hs =>
          rw [statementsFrom_of_error hend hrun, Predictive.statementsFrom_of_error hend hrun',
            laterError_eq hself hself' hrun hrun']
          exact .stopped hend
      -- The value of a `return` failed: the one parser reports it, the other reads the `return`
      -- alone, then fails in the next round on the same lexemes.
      | @returned _ lexeme rest reached e _ _ hlimit hreached hs hstart hvalue =>
        have hlater : Predictive.laterError stop terminator ahead reached e
            = leftoverError stop (sequenceFault terminator) (lexeme :: rest) (some ⟨e, true⟩) := by
          cases terminator <;> simp only [Predictive.laterError, leftoverError, hreached, if_true]
        obtain ⟨k, rfl⟩ : ∃ k', k = k' + 1 := ⟨k - 1, by omega⟩
        rw [statementsFrom_of_ok hend hrun, Predictive.statementsFrom_of_error hend hrun',
          statementsFrom_of_value hself hterminator hstart (hvalue _), hlater]
        exact .stopped (atSequenceEnd_of_starts hterminator hstart)

/-- A sequence of statements ends alike, or is given up where the counterpart fails. -/
theorem sequenceRun_statements (hbound : n ≤ bound) (ahead : List Lexeme)
    (saved kept : Option Abandoned) (hn : ahead.length ≤ n) :
    SequenceRun stop terminator ahead.length saved
      (statements stop bound self terminator ⟨ahead, saved⟩)
      (Predictive.statements stop bound self' terminator ⟨ahead, kept⟩) := by
  cases hend : atSequenceEnd terminator ahead with
  | true =>
    rw [statements_of_end hend, Predictive.statements_of_end hend]
    exact .ended hend (Nat.le_refl _) (.inl rfl)
  | false =>
    have hstep := statementRun hself' hexpression ahead saved kept hn
    generalize hrun : statement stop bound self ⟨ahead, saved⟩ = r at hstep
    generalize hrun' : Predictive.statement stop bound self' ⟨ahead, kept⟩ = r' at hstep
    cases hstep with
    | same h =>
      cases h with
      | ok hle hs hpost =>
        obtain ⟨-, rfl⟩ := hpost
        rw [statements_of_ok hend hrun, Predictive.statements_of_ok hend hrun']
        exact (sequenceRun_statementsFrom hself hself' hexpression hterminator bound _ _ _ _
          (by omega) (by omega)).trans hle hs
      -- A first statement that fails is reported by both, no matter how far it has got.
      | error hs =>
        rw [statements_of_error hend hrun, Predictive.statements_of_error hend hrun']
        exact .failed hs
    | @returned _ lexeme rest _ e _ _ hlimit _ hs hstart hvalue =>
      obtain ⟨k, rfl⟩ : ∃ k, bound = k + 1 := ⟨bound - 1, by omega⟩
      rw [statements_of_ok hend hrun, Predictive.statements_of_error hend hrun',
        statementsFrom_of_value hself hterminator hstart (hvalue _)]
      have hkept : e = leftoverError stop (sequenceFault terminator) (lexeme :: rest)
          (some ⟨e, true⟩) := rfl
      rw [hkept]
      exact .stopped (atSequenceEnd_of_starts hterminator hstart)

end

/-! ## Blocks and goals -/

/-- A sequence in braces ends at its closing brace, or at the end of the input. -/
theorem atSequenceEnd_some_iff (close : Operator) (ahead : List Lexeme) :
    atSequenceEnd (some close) ahead = true ↔
      ahead = [] ∨ nextToken? ahead = some (.operator close) := by
  rcases ahead with _ | ⟨⟨token, span⟩, rest⟩
  · simp [atSequenceEnd]
  · cases token with
    | operator op => simpa [atSequenceEnd] using eq_comm
    | number | text | identifier | keyword | eof => simp [atSequenceEnd]

/-- A program ends at the end of the input only. -/
theorem atSequenceEnd_none_iff (ahead : List Lexeme) :
    atSequenceEnd none ahead = true ↔ ahead = [] := by
  rcases ahead with _ | ⟨⟨token, span⟩, rest⟩
  · simp [atSequenceEnd]
  · cases token <;> simp [atSequenceEnd]

/-- Blocks agree if expressions do. -/
theorem agree_block (hself : ∀ goal, Consuming (self goal))
    (hself' : ∀ goal, Consuming (self' goal)) (hbound : n ≤ bound)
    (hexpression : ∀ k, k ≤ n →
      Agree k (Consumed k Eq) (expression stop bound self) (expression stop bound self')) :
    Agree n (Consumed n Eq) (block stop bound self) (Predictive.block stop bound self') := by
  refine ((ruleRelation_agree stop).require .openBrace).bind fun i opening _ hi hopening => ?_
  obtain ⟨hin, rfl⟩ := hopening
  rintro ahead saved kept rfl
  rw [takeAbandoned_bind]
  have hbody :=
    sequenceRun_statements hself hself' hexpression (.inr rfl) hbound ahead none kept hi
  generalize hrun : statements stop bound self (some .closeBrace) ⟨ahead, none⟩ = r at hbody
  generalize hrun' : Predictive.statements stop bound self' (some .closeBrace) ⟨ahead, kept⟩ = r'
    at hbody
  cases hbody with
  | ended hend hle hs =>
    -- The slot is empty, so at the end of the input only the missing brace is left to report.
    obtain rfl := or_self_iff.mp hs
    rw [bind_of_ok hrun, bind_of_ok hrun', Parser.require, expectOperator, bind_assoc]
    rcases (atSequenceEnd_some_iff _ _).mp hend with rfl | hnext
    · exact .error (.inr rfl)
    · obtain ⟨span, rest, rfl⟩ := eq_cons_of_nextToken? hnext
      rw [acceptOperator_bind_self, acceptOperator_bind_self]
      exact .ok (Nat.le_of_succ_le hle) (.inr rfl)
        ⟨Nat.lt_trans (Nat.lt_of_succ_le hle) hin, rfl⟩
  | failed hs =>
    rw [bind_of_error hrun, bind_of_error hrun']
    exact .error (.inr (or_self_iff.mp hs))
  | @stopped _ rest abandoned _ hend =>
    -- The statements were not at an end, so no closing brace hides what was given up.
    have hnext : nextToken? rest ≠ some (.operator .closeBrace) := fun hnext => by
      simp [(atSequenceEnd_some_iff _ _).mpr (.inr hnext)] at hend
    rw [bind_of_ok hrun, bind_of_error hrun', acceptOperator_bind_of_ne hnext]
    show SameRun _ _ _ ((leftover stop (sequenceFault (some .closeBrace)) : Parser Node)
      ⟨rest, some abandoned⟩) _
    rw [leftover_apply]
    exact .error (.inr rfl)

/-- Predicted statements never go back. -/
theorem Predictive.shrinks_statementsFrom (hself : ∀ goal, Consuming (self goal)) (k : Nat)
    (before : List Node) : Shrinks (statementsFrom stop bound self terminator k before) := by
  induction k generalizing before with
  | zero => exact fun s => List.suffix_refl _
  | succ k ih =>
    intro s
    have hstatement : ShrinksAt (statement stop bound self) s :=
      (consuming_statement hself).shrinks s
    rw [ShrinksAt] at hstatement ⊢
    cases hend : atSequenceEnd terminator s.ahead with
    | true =>
      rw [statementsFrom_of_end hend]
      exact List.suffix_refl _
    | false =>
      cases hrun : statement stop bound self s with
      | ok node s' =>
        rw [hrun] at hstatement
        rw [statementsFrom_of_ok hend hrun]
        exact (ih (node :: before) s').trans hstatement
      | error e s' =>
        rw [hrun] at hstatement
        rw [statementsFrom_of_error hend hrun]
        exact hstatement

/-- A predicted sequence never goes back. -/
theorem Predictive.shrinks_statements (hself : ∀ goal, Consuming (self goal)) :
    Shrinks (statements stop bound self terminator) := by
  intro s
  have hstatement : ShrinksAt (statement stop bound self) s := (consuming_statement hself).shrinks s
  rw [ShrinksAt] at hstatement ⊢
  rw [statements]
  split
  · exact List.suffix_refl _
  · cases hrun : statement stop bound self s with
    | ok node s' =>
      rw [hrun] at hstatement
      exact (shrinks_statementsFrom hself bound [node] s').trans hstatement
    | error e s' =>
      rw [hrun] at hstatement
      exact hstatement

/-- Every predicted goal takes a lexeme. -/
theorem consuming_predictGoal (stop : Span) (n : Nat) (goal : Goal) :
    Consuming (predictGoal stop n goal) := by
  have hrel := sequenceRelation_yields_any stop
  induction n generalizing goal with
  | zero =>
    exact consuming_of_yields (V := fun _ _ => True) fun _ =>
      hrel.fail (concernsTokens_faultAtEnd goal)
  | succ n ih =>
    cases goal with
    | expression => exact Rule.expression.consuming ih
    | comparison => exact Rule.comparison.consuming ih
    | factor => exact Rule.factor.consuming ih
    | block =>
      refine consuming_of_yields (V := fun _ _ => True) fun k => ?_
      refine hrel.bind (hrel.require .openBrace) fun i opening opening' hi hopening => ?_
      refine hrel.bind ((Predictive.shrinks_statements ih).yields i) fun j body body' hj _ => ?_
      refine hrel.bind (hrel.require .closeBrace) fun l closing closing' hl _ => hrel.pure ?_
      exact ⟨Nat.lt_of_le_of_lt (Nat.le_trans hl hj) hopening.1, trivial⟩

/-- The two parsers of a goal agree. -/
theorem agree_parseGoal (stop : Span) (n : Nat) {k : Nat} (hk : k ≤ n) (goal : Goal) :
    Agree k (Consumed k Eq) (parseGoal stop n goal) (predictGoal stop n goal) := by
  have hrel := ruleRelation_agree stop
  induction n generalizing k goal with
  | zero => exact hrel.fail (concernsTokens_faultAtEnd goal)
  | succ n ih =>
    have hself : ∀ i, i < k → ∀ goal,
        Agree i (Consumed i Eq) (parseGoal stop n goal) (predictGoal stop n goal) :=
      fun i hi goal => ih (Nat.le_of_lt_succ (Nat.lt_of_lt_of_le hi hk)) goal
    rw [parseGoal_succ]
    cases goal with
    | expression => exact hrel.expression hself (.refl _ _)
    | comparison => exact hrel.comparison hself (.refl _ _)
    | factor => exact hrel.factor hself (.refl _ _)
    | block =>
      exact agree_block (consuming_parseGoal stop n) (consuming_predictGoal stop n) hk fun i hi =>
        hrel.expression (fun j hj => hself j (Nat.lt_of_lt_of_le hj hi)) (.refl _ _)

end

/-- The statements of a program end alike, or are given up where the counterpart fails. -/
theorem sequenceRun_program (stop : Span) (n : Nat) (ahead : List Lexeme)
    (saved kept : Option Abandoned) (hn : ahead.length ≤ n) :
    SequenceRun stop none ahead.length saved
      (statements stop n (parseGoal stop n) none ⟨ahead, saved⟩)
      (Predictive.statements stop n (predictGoal stop n) none ⟨ahead, kept⟩) := by
  refine sequenceRun_statements (consuming_parseGoal stop n) (consuming_predictGoal stop n)
    (fun k hk => ?_) (.inl rfl) (Nat.le_refl n) ahead saved kept hn
  exact (ruleRelation_agree stop).expression
    (fun i hi goal => agree_parseGoal stop n (Nat.le_trans (Nat.le_of_lt hi) hk) goal) (.refl _ _)

/-- The two parsers of a program agree. -/
theorem agree_program (stop : Span) (n : Nat) :
    Agree n (fun _ => Eq) (program stop n (parseGoal stop n))
      (Predictive.program stop n (predictGoal stop n)) := by
  rintro ahead saved kept rfl
  have hbody := sequenceRun_program stop _ ahead saved kept (Nat.le_refl _)
  rw [program, Predictive.program, peek_bind, bind_of_ok (p := get) rfl]
  generalize hrun :
    statements stop ahead.length (parseGoal stop ahead.length) none ⟨ahead, saved⟩ = r
    at hbody
  generalize hrun' : Predictive.statements stop ahead.length (predictGoal stop ahead.length) none
    ⟨ahead, kept⟩ = r' at hbody
  cases hbody with
  | ended hend hle hs =>
    -- A program ends with the input, and nothing is left over.
    obtain rfl := (atSequenceEnd_none_iff _).mp hend
    rw [bind_of_ok hrun, bind_of_ok hrun', peek_bind, spanOf_head]
    exact .ok (Nat.zero_le _) hs rfl
  | failed hs =>
    rw [bind_of_error hrun, bind_of_error hrun']
    exact .error hs
  | @stopped _ rest abandoned _ hend =>
    rw [bind_of_ok hrun, bind_of_error hrun', peek_bind]
    rcases rest with _ | ⟨lexeme, rest⟩
    · cases hend
    show SameRun _ _ _ ((leftover stop (sequenceFault none) : Parser Node)
      ⟨lexeme :: rest, some abandoned⟩) _
    rw [leftover_apply]
    exact .error (.inr rfl)

/-- A program is read to the end of the input. -/
theorem Predictive.ahead_eq_nil_of_program {stop : Span} {n : Nat} {ahead : List Lexeme}
    {kept : Option Abandoned} (hn : ahead.length ≤ n) {node : Node} {s : ParseState}
    (h : program stop n (predictGoal stop n) ⟨ahead, kept⟩ = .ok node s) : s.ahead = [] := by
  have hbody := sequenceRun_program stop n ahead none kept hn
  rw [program, bind_of_ok (p := get) rfl] at h
  generalize Parser.statements stop n (parseGoal stop n) none ⟨ahead, none⟩ = r at hbody
  generalize hrun : statements stop n (predictGoal stop n) none ⟨ahead, kept⟩ = r' at hbody
  cases hbody with
  | ended hend =>
    rw [bind_of_ok hrun] at h
    cases h
    exact (atSequenceEnd_none_iff _).mp hend
  | failed | stopped =>
    rw [bind_of_error hrun] at h
    cases h

/-- What a run comes to, apart from its slot: a result and the lexemes left, or an error. -/
def outcome {α : Type} :
    EStateM.Result SyntaxError ParseState α → Except SyntaxError (α × List Lexeme)
  | .ok a s => .ok (a, s.ahead)
  | .error e _ => .error e

/-- Runs that end alike have the same outcome. -/
theorem SameRun.outcome_eq {α : Type} {limit : Nat} {saved : Option Abandoned}
    {r r' : EStateM.Result SyntaxError ParseState α}
    (h : SameRun limit (Consumed limit Eq) saved r r') : outcome r = outcome r' := by
  cases h with
  | ok _ _ hpost => rw [outcome, outcome, hpost.2]
  | error => rfl

/-- The slot is left as it was, or empty. -/
theorem SameRun.abandoned_eq {α β : Type} {limit : Nat} {post : Nat → α → β → Prop}
    {saved : Option Abandoned} {r : EStateM.Result SyntaxError ParseState α}
    {r' : EStateM.Result SyntaxError ParseState β} (h : SameRun limit post saved r r') :
    (leaves r).abandoned = saved ∨ (leaves r).abandoned = none := by
  cases h <;> assumption

end Parser

/-- The two parsers read the same program. -/
theorem parse_eq_predicted (lexemes : List Lexeme) :
    parse lexemes = parsePredictively lexemes := by
  have hrun := Parser.agree_program (endSpan lexemes)
    (lexemes.takeWhile fun l => !l.token.isEof).length
    (lexemes.takeWhile fun l => !l.token.isEof) none none rfl
  rw [parse, parsePredictively]
  generalize (Parser.program _ _ _ : Parser Node) _ = r at hrun ⊢
  generalize Parser.Predictive.program _ _ _ _ = r' at hrun ⊢
  cases hrun with
  | ok _ _ hpost => simp only [hpost]
  | error => rfl

/-- Going back never changes what a source is read as. All lexemes are read as they are without
going back: as the same tree, or with the same error. And no statement that was given up is ever
held against another sequence: what a goal comes to does not depend on what is in the slot when it
starts, and it leaves nothing new there. -/
theorem parse_eq_parsePredictively :
    (∀ lexemes : List Lexeme, parse lexemes = parsePredictively lexemes) ∧
      ∀ (stop : Span) (goal : Goal) (ahead : List Lexeme) (saved : Option Abandoned),
        Parser.outcome (parseGoal stop ahead.length goal ⟨ahead, saved⟩)
            = Parser.outcome (parseGoal stop ahead.length goal ⟨ahead, none⟩) ∧
          ((Parser.leaves (parseGoal stop ahead.length goal ⟨ahead, saved⟩)).abandoned = saved ∨
            (Parser.leaves (parseGoal stop ahead.length goal ⟨ahead, saved⟩)).abandoned
              = none) := by
  refine ⟨parse_eq_predicted, ?_⟩
  intro stop goal ahead saved
  have hagree := Parser.agree_parseGoal stop ahead.length (Nat.le_refl _) goal ahead
  have hsaved := hagree saved none rfl
  have hnone := hagree none none rfl
  exact ⟨hsaved.outcome_eq.trans hnone.outcome_eq.symm, hsaved.abandoned_eq⟩

end Script
