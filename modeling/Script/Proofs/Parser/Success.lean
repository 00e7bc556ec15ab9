import Script.Proofs.Parser.Blocks

/-!
# What success tells

The lemmas on the cursor say what a parser does on an input that looks in a certain way. These here
go the other way: a parser succeeded, so its input looked in that way. In the same manner a token
that joins at a level, or heads one, is told from that level (`Token.eq_of_joins`,
`Token.eq_of_heads`).
-/

namespace Script

/-- Every level but the tightest is looser than that. -/
theorem Level.rank_lt_atom {level : Level} (h : level ≠ .atom) : level.rank < Level.atom.rank := by
  cases level with
  | atom => exact absurd rfl h
  | _ => decide

/-- The right operand of an operator is tighter, unless it is a power. -/
theorem BinaryOp.rightLevel_eq_tighter {op : BinaryOp} (h : op.level ≠ .power) :
    op.rightLevel = op.level.tighter := by
  cases op with
  | pow => exact absurd rfl h
  | _ => rfl

namespace Token

/-- The tokens that go on with an expression: the question mark of a ternary, the brackets behind a
call or an access, the words that go on with an `if`, and the operators with two operands. -/
theorem eq_of_joins {token : Token} {level : Level} (h : token.joins = some level) :
    token = .operator .question ∧ level = .expression ∨
      (token = .operator .openParen ∨ token = .operator .openBracket) ∧ level = .suffix ∨
      (token = .keyword .elif ∨ token = .keyword .else) ∧ level = .atom ∨
      ∃ op : BinaryOp, token = op.token ∧ level = op.level := by
  -- The operators with two operands are all alike, and make up most of the cases.
  have hop : ∀ op : BinaryOp, token = op.token → some op.level = some level →
      ∃ op : BinaryOp, token = op.token ∧ level = op.level :=
    fun op htoken hlevel => ⟨op, htoken, (Option.some.inj hlevel).symm⟩
  cases token with
  | keyword word =>
    cases word with
    | and => exact .inr (.inr (.inr (hop .and rfl h)))
    | or => exact .inr (.inr (.inr (hop .or rfl h)))
    | elif => exact .inr (.inr (.inl ⟨.inl rfl, (Option.some.inj h).symm⟩))
    | «else» => exact .inr (.inr (.inl ⟨.inr rfl, (Option.some.inj h).symm⟩))
    | _ => cases h
  | operator op =>
    cases op with
    | question => exact .inl ⟨rfl, (Option.some.inj h).symm⟩
    | openParen => exact .inr (.inl ⟨.inl rfl, (Option.some.inj h).symm⟩)
    | openBracket => exact .inr (.inl ⟨.inr rfl, (Option.some.inj h).symm⟩)
    | equal => exact .inr (.inr (.inr (hop .eq rfl h)))
    | notEqual => exact .inr (.inr (.inr (hop .ne rfl h)))
    | greater => exact .inr (.inr (.inr (hop .gt rfl h)))
    | greaterEqual => exact .inr (.inr (.inr (hop .ge rfl h)))
    | less => exact .inr (.inr (.inr (hop .lt rfl h)))
    | lessEqual => exact .inr (.inr (.inr (hop .le rfl h)))
    | plus => exact .inr (.inr (.inr (hop .add rfl h)))
    | minus => exact .inr (.inr (.inr (hop .sub rfl h)))
    | star => exact .inr (.inr (.inr (hop .mul rfl h)))
    | slash => exact .inr (.inr (.inr (hop .div rfl h)))
    | percent => exact .inr (.inr (.inr (hop .mod rfl h)))
    | caret => exact .inr (.inr (.inr (hop .pow rfl h)))
    | _ => cases h
  | number | text | identifier | eof => cases h

/-- The tokens in front of an expression are `set` and the operators with one operand. -/
theorem eq_of_heads {token : Token} {level : Level} (h : token.heads = some level) :
    token = .keyword .set ∧ level = .expression ∨
      ∃ op : UnaryOp, token = op.token ∧ level = op.level := by
  cases token with
  | keyword word =>
    cases word with
    | set => exact .inl ⟨rfl, (Option.some.inj h).symm⟩
    | not => exact .inr ⟨.not, rfl, (Option.some.inj h).symm⟩
    | _ => cases h
  | operator op =>
    cases op with
    | plus => exact .inr ⟨.plus, rfl, (Option.some.inj h).symm⟩
    | minus => exact .inr ⟨.neg, rfl, (Option.some.inj h).symm⟩
    | _ => cases h
  | number | text | identifier | eof => cases h

end Token

namespace Parser

/-- A token that starts an atom is the first of it. -/
theorem eq_of_atomStart? {token first : Token} (h : atomStart? token = some first) :
    first = token := by
  cases token with
  | keyword word => cases word <;> simp_all [atomStart?]
  | operator op => cases op <;> simp_all [atomStart?]
  | number | text | identifier | eof => simp_all [atomStart?]

/-- An operator that is selected is written as its token and belongs to the level. -/
theorem eq_of_selectAt {level : Level} {token : Token} {op : BinaryOp}
    (h : selectAt level token = some op) : op.level = level ∧ op.token = token := by
  rcases Token.eq_of_joins (joins_of_selectAt h)
    with ⟨-, rfl⟩ | ⟨-, rfl⟩ | ⟨-, rfl⟩ | ⟨op', rfl, rfl⟩
  · cases h
  · cases h
  · cases h
  · obtain rfl : op' = op := Option.some.inj ((selectAt_token op').symm.trans h)
    exact ⟨rfl, rfl⟩

/-- What is none of the operators of a level joins there only if the level is not one of a chain. -/
theorem joins_ne_of_selectAt {level : Level} {ahead : List Lexeme}
    (h : (nextToken? ahead).bind (selectAt level) = none) (hexpression : level ≠ .expression)
    (hsuffix : level ≠ .suffix) (hatom : level ≠ .atom) (token : Token)
    (hnext : nextToken? ahead = some token) : token.joins ≠ some level := by
  intro hjoins
  rcases Token.eq_of_joins hjoins with ⟨-, rfl⟩ | ⟨-, rfl⟩ | ⟨-, rfl⟩ | ⟨op, rfl, rfl⟩
  · exact hexpression rfl
  · exact hsuffix rfl
  · exact hatom rfl
  · rw [hnext, Option.bind_some, selectAt_token] at h
    cases h

/-! ## Parsers that succeed -/

section

variable {α β : Type} {ahead : List Lexeme} {saved : Option Abandoned} {s' : ParseState} {b : β}

/-- A sequence that succeeds has parts that do. -/
theorem ok_of_bind {p : Parser α} {f : α → Parser β} (h : (p >>= f) ⟨ahead, saved⟩ = .ok b s') :
    ∃ a rest saved', p ⟨ahead, saved⟩ = .ok a ⟨rest, saved'⟩ ∧ f a ⟨rest, saved'⟩ = .ok b s' := by
  cases hp : p ⟨ahead, saved⟩ with
  | ok a s =>
    rw [bind_of_ok hp] at h
    exact ⟨a, s.ahead, s.abandoned, rfl, h⟩
  | error e s =>
    rw [bind_of_error hp] at h
    cases h

/-- A rule that was watched succeeded, and its last lexeme is known. -/
theorem ok_of_trailing {p : Parser α} {start last : Span} {a : α}
    (h : trailing start p ⟨ahead, saved⟩ = .ok (a, last) s') :
    p ⟨ahead, saved⟩ = .ok a s' ∧
      last = ((passedLexemes ahead s'.ahead).getLast?.map Lexeme.span).getD start := by
  cases hp : p ⟨ahead, saved⟩ with
  | ok a' s =>
    rw [trailing_of_ok hp] at h
    cases h
    exact ⟨rfl, rfl⟩
  | error e s =>
    rw [trailing_of_error hp] at h
    cases h

/-- A rule that looks for a token and succeeds has found it or gone on without. -/
theorem ok_of_accept_bind {select : Token → Option α} {f : Option (α × Span) → Parser β}
    (h : (accept select >>= f) ⟨ahead, saved⟩ = .ok b s') :
    (∃ lexeme rest a, ahead = lexeme :: rest ∧ select lexeme.token = some a ∧
        f (some (a, lexeme.span)) ⟨rest, saved⟩ = .ok b s') ∨
      (nextToken? ahead).bind select = none ∧ f none ⟨ahead, saved⟩ = .ok b s' := by
  cases ahead with
  | nil => exact .inr ⟨rfl, h⟩
  | cons lexeme rest =>
    cases hselect : select lexeme.token with
    | some a =>
      rw [accept_bind_of_some hselect] at h
      exact .inl ⟨lexeme, rest, a, rfl, hselect, h⟩
    | none =>
      have hnone : (nextToken? (lexeme :: rest)).bind select = none := hselect
      rw [accept_bind_of_none hnone] at h
      exact .inr ⟨hnone, h⟩

/-- A rule that looks for an operator and succeeds has found it or gone on without. -/
theorem ok_of_acceptOperator_bind {op : Operator} {f : Option Span → Parser β}
    (h : (acceptOperator op >>= f) ⟨ahead, saved⟩ = .ok b s') :
    (∃ place rest, ahead = ⟨.operator op, place⟩ :: rest ∧
        f (some place) ⟨rest, saved⟩ = .ok b s') ∨
      nextToken? ahead ≠ some (.operator op) ∧ f none ⟨ahead, saved⟩ = .ok b s' := by
  by_cases hnext : nextToken? ahead = some (.operator op)
  · obtain ⟨place, rest, rfl⟩ := eq_cons_of_nextToken? hnext
    rw [acceptOperator_bind_self] at h
    exact .inl ⟨place, rest, rfl, h⟩
  · rw [acceptOperator_bind_of_ne hnext] at h
    exact .inr ⟨hnext, h⟩

/-- A rule that looks for a keyword and succeeds has found it or gone on without. -/
theorem ok_of_acceptKeyword_bind {word : Keyword} {f : Option Span → Parser β}
    (h : (acceptKeyword word >>= f) ⟨ahead, saved⟩ = .ok b s') :
    (∃ place rest, ahead = ⟨.keyword word, place⟩ :: rest ∧
        f (some place) ⟨rest, saved⟩ = .ok b s') ∨
      nextToken? ahead ≠ some (.keyword word) ∧ f none ⟨ahead, saved⟩ = .ok b s' := by
  by_cases hnext : nextToken? ahead = some (.keyword word)
  · obtain ⟨place, rest, rfl⟩ := eq_cons_of_nextToken? hnext
    rw [acceptKeyword_bind_self] at h
    exact .inl ⟨place, rest, rfl, h⟩
  · rw [acceptKeyword_bind_of_ne hnext] at h
    exact .inr ⟨hnext, h⟩

/-- A name is consumed if it is there. -/
theorem ok_of_acceptIdentifier_bind {f : Option String → Parser β}
    (h : (acceptIdentifier >>= f) ⟨ahead, saved⟩ = .ok b s') :
    ∃ name own rest, ahead = own ++ rest ∧
      own.map Lexeme.token = (name.map Token.identifier).toList ∧
        f name ⟨rest, saved⟩ = .ok b s' := by
  rw [acceptIdentifier, bind_assoc] at h
  rcases ok_of_accept_bind h with ⟨⟨token, place⟩, rest, name, rfl, hselect, h⟩ | ⟨-, h⟩
  · obtain rfl : token = .identifier name := by
      cases token <;> simp_all
    exact ⟨some name, [⟨.identifier name, place⟩], rest, rfl, rfl, h⟩
  · exact ⟨none, [], ahead, rfl, rfl, h⟩

variable {stop : Span} {items : List Expectation}

/-- A rule that expects an operator and succeeds has found it. -/
theorem ok_of_expectOperator_bind {op : Operator} {f : Span → Parser β}
    (h : (expectOperator stop op items >>= f) ⟨ahead, saved⟩ = .ok b s') :
    ∃ place rest, ahead = ⟨.operator op, place⟩ :: rest ∧ f place ⟨rest, saved⟩ = .ok b s' := by
  rw [expectOperator, bind_assoc] at h
  rcases ok_of_acceptOperator_bind h with h | ⟨-, h⟩
  · exact h
  · cases h

/-- A rule that requires an operator and succeeds has found it. -/
theorem ok_of_require_bind {op : Operator} {f : Span → Parser β}
    (h : (require stop op >>= f) ⟨ahead, saved⟩ = .ok b s') :
    ∃ place rest, ahead = ⟨.operator op, place⟩ :: rest ∧ f place ⟨rest, saved⟩ = .ok b s' :=
  ok_of_expectOperator_bind h

/-- A rule that expects a name and succeeds has found one. -/
theorem ok_of_expectIdentifier_bind {f : String → Parser β}
    (h : (expectIdentifier stop items >>= f) ⟨ahead, saved⟩ = .ok b s') :
    ∃ name place rest, ahead = ⟨.identifier name, place⟩ :: rest ∧
      f name ⟨rest, saved⟩ = .ok b s' := by
  rw [expectIdentifier, bind_assoc] at h
  obtain ⟨name, own, rest, rfl, hown, h⟩ := ok_of_acceptIdentifier_bind h
  cases name with
  | none => cases h
  | some name =>
    obtain ⟨place, others, rfl, hothers⟩ := eq_cons_of_map hown
    obtain rfl : others = [] := List.map_eq_nil_iff.mp hothers
    exact ⟨name, place, rest, rfl, h⟩

end

end Parser

end Script
