import Script.Tree.Parser

/-!
# Runs of parsers

What a parser does from a given state, one equation for each primitive of the cursor and for each
way a rule made of them can go. Later proofs cite these equations and do not look into the
primitives.
-/

namespace Script.Parser

/-! ## One part after another -/

/-- A sequence runs its first part, and its second part from where the first has come. -/
theorem bind_apply {α β : Type} (p : Parser α) (f : α → Parser β) (s : ParseState) :
    (p >>= f) s =
      match p s with
      | .ok a s' => f a s'
      | .error e s' => .error e s' := by
  show EStateM.bind p f s = _
  unfold EStateM.bind
  cases p s <;> rfl

/-- A sequence whose first part succeeds goes on with the second. -/
theorem bind_of_ok {α β : Type} {p : Parser α} {f : α → Parser β} {s s' : ParseState} {a : α}
    (hp : p s = .ok a s') : (p >>= f) s = f a s' := by
  rw [bind_apply, hp]

/-- A sequence whose first part fails does so as well. -/
theorem bind_of_error {α β : Type} {p : Parser α} {f : α → Parser β} {s s' : ParseState}
    {e : SyntaxError} (hp : p s = .error e s') : (p >>= f) s = .error e s' := by
  rw [bind_apply, hp]

theorem peek_bind {β : Type} (f : Option Lexeme → Parser β) (s : ParseState) :
    (peek >>= f) s = f s.ahead.head? s := rfl

/-- To take what was given up leaves the slot empty. -/
theorem takeAbandoned_bind {β : Type} (f : Option Abandoned → Parser β) (s : ParseState) :
    (takeAbandoned >>= f) s = f s.abandoned { s with abandoned := none } := rfl

/-! ## Lexemes -/

/-- The next token, or nothing at the end of the input. -/
def nextToken? (ahead : List Lexeme) : Option Token := ahead.head?.map Lexeme.token

@[simp]
theorem nextToken?_nil : nextToken? [] = none := rfl

@[simp]
theorem nextToken?_cons (lexeme : Lexeme) (rest : List Lexeme) :
    nextToken? (lexeme :: rest) = some lexeme.token := rfl

/-- Only the next lexeme counts for what is blamed. -/
@[simp]
theorem spanOf_head (stop : Span) (ahead : List Lexeme) :
    spanOf stop ahead.head?.toList = spanOf stop ahead := by
  cases ahead <;> rfl

/-- One lexeme tells whether a sequence ends. -/
@[simp]
theorem atSequenceEnd_head (terminator : Option Operator) (ahead : List Lexeme) :
    atSequenceEnd terminator ahead.head?.toList = atSequenceEnd terminator ahead := by
  rcases ahead with _ | ⟨⟨token, span⟩, rest⟩
  · rfl
  · cases token <;> rfl

/-- A failure blames the next lexeme, or the end of the input. -/
theorem fail_apply {α : Type} (stop : Span) (fault : SyntaxFault) (s : ParseState) :
    (fail stop fault : Parser α) s = .error ⟨fault, spanOf stop s.ahead⟩ s := by
  rw [fail, peek_bind, spanOf_head]
  rfl

section

variable {α β : Type} {ahead rest : List Lexeme} {saved : Option Abandoned} {span : Span}

/-- A token that is not selected is not taken. -/
theorem accept_of_none {select : Token → Option α} (h : (nextToken? ahead).bind select = none) :
    (accept select : Parser _) ⟨ahead, saved⟩ = .ok none ⟨ahead, saved⟩ := by
  rw [accept, peek_bind]
  rcases ahead with _ | ⟨lexeme, rest⟩
  · rfl
  · have hsel : select lexeme.token = none := h
    simp only [List.head?_cons, hsel]
    rfl

/-- A token that is selected is taken. -/
theorem accept_of_some {select : Token → Option α} {lexeme : Lexeme} {a : α}
    (h : select lexeme.token = some a) :
    (accept select : Parser _) ⟨lexeme :: rest, saved⟩
      = .ok (some (a, lexeme.span)) ⟨rest, saved⟩ := by
  rw [accept, peek_bind]
  simp only [List.head?_cons, h]
  rfl

/-- A rule goes on without a token that is not selected. -/
theorem accept_bind_of_none {select : Token → Option α} {f : Option (α × Span) → Parser β}
    (h : (nextToken? ahead).bind select = none) :
    (accept select >>= f) ⟨ahead, saved⟩ = f none ⟨ahead, saved⟩ :=
  bind_of_ok (accept_of_none h)

/-- A rule goes on behind a token that is selected. -/
theorem accept_bind_of_some {select : Token → Option α} {f : Option (α × Span) → Parser β}
    {lexeme : Lexeme} {a : α} (h : select lexeme.token = some a) :
    (accept select >>= f) ⟨lexeme :: rest, saved⟩ = f (some (a, lexeme.span)) ⟨rest, saved⟩ :=
  bind_of_ok (accept_of_some h)

/-- A rule goes on without an operator that is not next. -/
theorem acceptOperator_bind_of_ne {op : Operator} {f : Option Span → Parser β}
    (h : nextToken? ahead ≠ some (.operator op)) :
    (acceptOperator op >>= f) ⟨ahead, saved⟩ = f none ⟨ahead, saved⟩ := by
  simp only [acceptOperator, bind_assoc, pure_bind]
  refine accept_bind_of_none ?_
  cases hnext : nextToken? ahead with
  | none => rfl
  | some token =>
    rw [hnext] at h
    simp only [Option.bind_some]
    split
    · rw [if_neg]
      rintro rfl
      exact h rfl
    · rfl

/-- A rule goes on behind an operator that is next. -/
theorem acceptOperator_bind_self (op : Operator) (f : Option Span → Parser β) :
    (acceptOperator op >>= f) ⟨⟨.operator op, span⟩ :: rest, saved⟩
      = f (some span) ⟨rest, saved⟩ := by
  simp only [acceptOperator, bind_assoc, pure_bind]
  exact accept_bind_of_some (if_pos rfl)

/-- A rule goes on without a keyword that is not next. -/
theorem acceptKeyword_bind_of_ne {word : Keyword} {f : Option Span → Parser β}
    (h : nextToken? ahead ≠ some (.keyword word)) :
    (acceptKeyword word >>= f) ⟨ahead, saved⟩ = f none ⟨ahead, saved⟩ := by
  simp only [acceptKeyword, bind_assoc, pure_bind]
  refine accept_bind_of_none ?_
  cases hnext : nextToken? ahead with
  | none => rfl
  | some token =>
    rw [hnext] at h
    simp only [Option.bind_some]
    split
    · rw [if_neg]
      rintro rfl
      exact h rfl
    · rfl

/-- A rule goes on behind a keyword that is next. -/
theorem acceptKeyword_bind_self (word : Keyword) (f : Option Span → Parser β) :
    (acceptKeyword word >>= f) ⟨⟨.keyword word, span⟩ :: rest, saved⟩
      = f (some span) ⟨rest, saved⟩ := by
  simp only [acceptKeyword, bind_assoc, pure_bind]
  exact accept_bind_of_some (if_pos rfl)

/-- A rule that may take a name leaves an operator alone. -/
theorem acceptIdentifier_bind_of_operator (op : Operator) (f : Option String → Parser β) :
    (acceptIdentifier >>= f) ⟨⟨.operator op, span⟩ :: rest, saved⟩
      = f none ⟨⟨.operator op, span⟩ :: rest, saved⟩ := by
  simp only [acceptIdentifier, bind_assoc, pure_bind]
  exact accept_bind_of_none rfl

/-- A rule that may take a name takes it. -/
theorem acceptIdentifier_bind_self (name : String) (f : Option String → Parser β) :
    (acceptIdentifier >>= f) ⟨⟨.identifier name, span⟩ :: rest, saved⟩
      = f (some name) ⟨rest, saved⟩ := by
  simp only [acceptIdentifier, bind_assoc, pure_bind]
  exact accept_bind_of_some rfl

/-- A rule goes on behind an operator that it expects. -/
theorem expectOperator_bind_self (stop : Span) (op : Operator) (items : List Expectation)
    (f : Span → Parser β) :
    (expectOperator stop op items >>= f) ⟨⟨.operator op, span⟩ :: rest, saved⟩
      = f span ⟨rest, saved⟩ := by
  rw [expectOperator, bind_assoc, acceptOperator_bind_self]
  rfl

/-- A rule goes on behind an operator that it requires. -/
theorem require_bind_self (stop : Span) (op : Operator) (f : Span → Parser β) :
    (require stop op >>= f) ⟨⟨.operator op, span⟩ :: rest, saved⟩ = f span ⟨rest, saved⟩ :=
  expectOperator_bind_self stop op _ f

/-- A rule goes on behind a name that it expects. -/
theorem expectIdentifier_bind_self (stop : Span) (name : String) (items : List Expectation)
    (f : String → Parser β) :
    (expectIdentifier stop items >>= f) ⟨⟨.identifier name, span⟩ :: rest, saved⟩
      = f name ⟨rest, saved⟩ := by
  rw [expectIdentifier, bind_assoc, acceptIdentifier_bind_self]
  rfl

/-- Nothing is read behind a keyword that is not there. -/
theorem optionally_of_ne {word : Keyword} {p : Parser α}
    (h : nextToken? ahead ≠ some (.keyword word)) :
    optionally word p ⟨ahead, saved⟩ = .ok none ⟨ahead, saved⟩ := by
  rw [optionally, acceptKeyword_bind_of_ne h]
  rfl

/-- What a keyword announces is read behind it. -/
theorem optionally_self (word : Keyword) (p : Parser α) :
    optionally word p ⟨⟨.keyword word, span⟩ :: rest, saved⟩ = (some <$> p) ⟨rest, saved⟩ := by
  rw [optionally, acceptKeyword_bind_self]
  rfl

end

/-! ## Rules that are watched -/

/-- What was moved past is what is no longer ahead. -/
theorem passedLexemes_append (own rest : List Lexeme) : passedLexemes (own ++ rest) rest = own := by
  simp [passedLexemes]

section

variable {α : Type} {p : Parser α} {s s' : ParseState} {e : SyntaxError}

/-- A rule that is watched tells where the last lexeme stands that it has passed. -/
theorem trailing_of_ok {start : Span} {a : α} (h : p s = .ok a s') :
    trailing start p s
      = .ok (a, ((passedLexemes s.ahead s'.ahead).getLast?.map Lexeme.span).getD start) s' := by
  simp only [trailing, h]

/-- Watching a rule does not change how it fails. -/
theorem trailing_of_error {start : Span} (h : p s = .error e s') :
    trailing start p s = .error e s' := by
  simp only [trailing, h]

section

variable {note : Abandoned → Option Abandoned → Option Abandoned}

theorem recover_of_ok {a : α} (h : p s = .ok a s') : recover p note s = .ok (some a) s' := by
  simp only [recover, h]

/-- A rule that fails is undone, and what it failed with is noted. -/
theorem recover_of_error (h : p s = .error e s') :
    recover p note s
      = .ok none ⟨s.ahead, note ⟨e, decide (s'.ahead.length < s.ahead.length)⟩ s'.abandoned⟩ := by
  simp only [recover, h]

end

theorem attempt_of_ok {a : α} (h : p s = .ok a s') : attempt p s = .ok (some a) s' :=
  recover_of_ok h

/-- An attempt that fails leaves the lexemes where they were, but not the slot. -/
theorem attempt_of_error (h : p s = .error e s') :
    attempt p s = .ok none { s' with ahead := s.ahead } :=
  recover_of_error h

/-! ## Statements -/

variable {stop : Span} {bound : Nat} {self : Goal → Parser Node} {terminator : Option Operator}
variable {k : Nat} {before : List Node} {node : Node}

/-- The statements end where a sequence may end. -/
theorem statementsFrom_of_end (h : atSequenceEnd terminator s.ahead = true) :
    statementsFrom stop bound self terminator k before s = .ok before.reverse s := by
  cases k with
  | zero => rfl
  | succ k =>
    rw [statementsFrom, peek_bind, atSequenceEnd_head, if_pos h]
    rfl

/-- A statement is added to those before it. -/
theorem statementsFrom_of_ok (h : atSequenceEnd terminator s.ahead = false)
    (hs : statement stop bound self s = .ok node s') :
    statementsFrom stop bound self terminator (k + 1) before s
      = statementsFrom stop bound self terminator k (node :: before) s' := by
  rw [statementsFrom, peek_bind, atSequenceEnd_head, if_neg (by simp [h]), giveUp,
    bind_of_ok (recover_of_ok hs)]

/-- A trailing statement that fails ends the sequence. It is given up, and its failure is kept. -/
theorem statementsFrom_of_error (h : atSequenceEnd terminator s.ahead = false)
    (hs : statement stop bound self s = .error e s') :
    statementsFrom stop bound self terminator (k + 1) before s
      = .ok before.reverse ⟨s.ahead, some ⟨e, decide (s'.ahead.length < s.ahead.length)⟩⟩ := by
  rw [statementsFrom, peek_bind, atSequenceEnd_head, if_neg (by simp [h]), giveUp,
    bind_of_ok (recover_of_error hs)]
  rfl

/-- There may be no statements at all. -/
theorem statements_of_end (h : atSequenceEnd terminator s.ahead = true) :
    statements stop bound self terminator s = .ok [] s := by
  rw [statements, peek_bind, atSequenceEnd_head, if_pos h]
  rfl

/-- Behind the first statement there may be others. -/
theorem statements_of_ok (h : atSequenceEnd terminator s.ahead = false)
    (hs : statement stop bound self s = .ok node s') :
    statements stop bound self terminator s
      = statementsFrom stop bound self terminator bound [node] s' := by
  rw [statements, peek_bind, atSequenceEnd_head, if_neg (by simp [h]), bind_of_ok hs]

/-- The failure of the first statement is that of the sequence. -/
theorem statements_of_error (h : atSequenceEnd terminator s.ahead = false)
    (hs : statement stop bound self s = .error e s') :
    statements stop bound self terminator s = .error e s' := by
  rw [statements, peek_bind, atSequenceEnd_head, if_neg (by simp [h]), bind_of_error hs]

/-- The error of a sequence that stopped before `ahead`: that of the statement given up there, if it
got past its first token. -/
def leftoverError (stop : Span) (fault : SyntaxFault) (ahead : List Lexeme) :
    Option Abandoned → SyntaxError
  | some ⟨error, true⟩ => error
  | _ => ⟨fault, spanOf stop ahead⟩

/-- A sequence that stopped too early fails, and forgets what was given up. -/
theorem leftover_apply {α : Type} (stop : Span) (fault : SyntaxFault) (s : ParseState) :
    (leftover stop fault : Parser α) s =
      .error (leftoverError stop fault s.ahead s.abandoned) { s with abandoned := none } := by
  obtain ⟨ahead, saved⟩ := s
  rw [leftover, takeAbandoned_bind]
  rcases saved with _ | ⟨error, _ | _⟩
  · exact fail_apply stop fault ⟨ahead, none⟩
  · exact fail_apply stop fault ⟨ahead, none⟩
  · rfl

/-- A goal with one more level of nesting has the other goals below it. -/
theorem parseGoal_succ (stop : Span) (n : Nat) (goal : Goal) :
    parseGoal stop (n + 1) goal = Parser.goal stop (n + 1) (parseGoal stop n) goal := by
  funext s
  simp only [parseGoal, deeply_eq]

end

end Script.Parser
