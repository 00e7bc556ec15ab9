import Script.Proofs.Parser.Rules

/-!
# Where the cursor goes

Whatever a rule of the grammar does, it leaves a rest of the lexemes ahead that it found
(`Shrinks`), also when it fails, and if it succeeds it has moved past one of them at least
(`Rule.consuming`). This is what makes loops over rules and the recursion through the goals come to
an end.

For an expression the first lexeme tells more. If its token starts no expression, the rule blames
that very lexeme and has not moved (`expression_of_not_starts`); if it does, the rule moves past it,
whether it succeeds or not (`movesAt_expression`).
-/

namespace Script

/-- Whether an expression can start with the token. -/
def Token.startsExpression : Token → Bool
  | .number _ | .text _ | .identifier _ => true
  | .keyword word =>
    match word with
    | .null | .set | .not | .if | .while | .for | .fun => true
    | _ => false
  | .operator op =>
    match op with
    | .plus | .minus | .openParen | .openBracket => true
    | _ => false
  | .eof => false

namespace Parser

/-- The state that a run leaves behind. -/
def leaves {α : Type} : EStateM.Result SyntaxError ParseState α → ParseState
  | .ok _ s => s
  | .error _ s => s

/-- A parser that, run from a state, leaves a rest of the lexemes ahead. -/
def ShrinksAt {α : Type} (p : Parser α) (s : ParseState) : Prop :=
  (leaves (p s)).ahead <:+ s.ahead

/-- A parser that, run from a state, moves past the next lexeme. -/
def MovesAt {α : Type} (p : Parser α) (s : ParseState) : Prop :=
  (leaves (p s)).ahead.length < s.ahead.length

/-- A parser that never moves backward. -/
def Shrinks {α : Type} (p : Parser α) : Prop := ∀ s, ShrinksAt p s

/-- A parser that has moved past a lexeme whenever it succeeds. -/
def Progresses {α : Type} (p : Parser α) : Prop :=
  ∀ s a s', p s = .ok a s' → s'.ahead.length < s.ahead.length

/-- A parser that never moves backward, and forward if it succeeds. -/
structure Consuming {α : Type} (p : Parser α) : Prop where
  shrinks : Shrinks p
  progresses : Progresses p

/-- A sequence leaves no more than its parts do. -/
theorem ShrinksAt.bind {α β : Type} {p : Parser α} {f : α → Parser β} {s : ParseState}
    (hp : ShrinksAt p s) (hf : ∀ a s', p s = .ok a s' → ShrinksAt (f a) s') :
    ShrinksAt (p >>= f) s := by
  unfold ShrinksAt at hp ⊢
  rw [bind_apply]
  cases hrun : p s with
  | error e s' =>
    rw [hrun] at hp
    exact hp
  | ok a s' =>
    rw [hrun] at hp
    exact (hf a s' hrun).trans hp

/-- What is made of a result reads nothing. -/
theorem Shrinks.map {α β : Type} {p : Parser α} (hp : Shrinks p) (f : α → β) :
    Shrinks (p >>= fun a => pure (f a)) :=
  fun s => (hp s).bind fun _ s' _ => List.suffix_refl s'.ahead

/-- A sequence moves if its first part does. -/
theorem MovesAt.bind {α β : Type} {p : Parser α} {f : α → Parser β} {s : ParseState}
    (hp : MovesAt p s) (hf : ∀ a, Shrinks (f a)) : MovesAt (p >>= f) s := by
  unfold MovesAt at hp ⊢
  rw [bind_apply]
  cases hrun : p s with
  | error e s' =>
    rw [hrun] at hp
    exact hp
  | ok a s' =>
    rw [hrun] at hp
    exact Nat.lt_of_le_of_lt (hf a s').length_le hp

/-! ## One parser alone -/

/-- All names ahead are as `P` says. -/
def NamesAhead (P : String → Prop) (ahead : List Lexeme) : Prop :=
  ∀ lexeme ∈ ahead, ∀ name, lexeme.token = .identifier name → P name

/-- The names in the rest are names that were ahead. -/
theorem NamesAhead.of_suffix {P : String → Prop} {ahead rest : List Lexeme}
    (h : NamesAhead P ahead) (hrest : rest <:+ ahead) : NamesAhead P rest :=
  fun lexeme hlexeme => h lexeme (hrest.subset hlexeme)

/-- What is known of the results of a parser that starts with `n` lexemes ahead. This is a relation
in form only: nothing is asked of the second parser. -/
def Yields (M : Matching) (n : Nat) {α β : Type} (post : Nat → α → β → Prop) (p : Parser α)
    (_q : Parser β) : Prop :=
  ∀ s : ParseState, s.ahead.length = n → NamesAhead M.names s.ahead →
    ShrinksAt p s ∧ ∀ a s', p s = .ok a s' → ∃ b, post s'.ahead.length a b

namespace Yields

variable {M : Matching} {α β γ δ : Type} {n : Nat}

/-- A rule is judged part by part. -/
theorem bind {mid : Nat → α → β → Prop} {post : Nat → γ → δ → Prop} {p : Parser α} {q : Parser β}
    {f : α → Parser γ} {g : β → Parser δ} (hp : Yields M n mid p q)
    (hf : ∀ k a b, k ≤ n → mid k a b → Yields M k post (f a) (g b)) :
    Yields M n post (p >>= f) (q >>= g) := by
  rintro s rfl hnames
  obtain ⟨hshrinks, hresult⟩ := hp s rfl hnames
  cases hrun : p s with
  | error e s' =>
    refine ⟨hshrinks.bind fun a s' hok => ?_, fun c s' hok => ?_⟩
    · rw [hrun] at hok
      cases hok
    · rw [bind_of_error hrun] at hok
      cases hok
  | ok a s₁ =>
    obtain ⟨b, hmid⟩ := hresult a s₁ hrun
    -- The second part starts on a suffix of the lexemes, where the names are those of the whole.
    have hle : s₁.ahead <:+ s.ahead := by
      rw [ShrinksAt, hrun] at hshrinks
      exact hshrinks
    obtain ⟨hshrinks', hresult'⟩ := hf _ a b hle.length_le hmid s₁ rfl (hnames.of_suffix hle)
    refine ⟨hshrinks.bind fun a' s' hok => ?_, fun c s' hok => ?_⟩
    · rw [hrun] at hok
      cases hok
      exact hshrinks'
    · rw [bind_of_ok hrun] at hok
      exact hresult' c s' hok

/-- A rule that is given up leaves the cursor where it was. -/
theorem recover {post : Nat → α → β → Prop} {p : Parser α} {q : Parser β} (hp : Yields M n post p q)
    (note : Abandoned → Option Abandoned → Option Abandoned) :
    Yields M n (Tried n post) (recover p note) (recover q note) := by
  rintro s rfl hnames
  obtain ⟨hshrinks, hresult⟩ := hp s rfl hnames
  cases hrun : p s with
  | ok a s' =>
    rw [ShrinksAt, hrun] at hshrinks
    rw [ShrinksAt, recover_of_ok hrun]
    refine ⟨hshrinks, ?_⟩
    rintro _ _ ⟨⟩
    obtain ⟨b, hpost⟩ := hresult a s' hrun
    exact ⟨some b, .ok hpost⟩
  | error e s' =>
    rw [ShrinksAt, recover_of_error hrun]
    refine ⟨List.suffix_refl _, ?_⟩
    rintro _ _ ⟨⟩
    exact ⟨none, .failed⟩

/-- What always fails has no results to speak of. -/
theorem of_error {post : Nat → α → β → Prop} {p : Parser α} {q : Parser β}
    (hp : ∀ s, ∃ e s', p s = .error e s' ∧ s'.ahead = s.ahead) : Yields M n post p q := by
  intro s _ _
  obtain ⟨e, s', hrun, hahead⟩ := hp s
  rw [ShrinksAt, hrun]
  refine ⟨hahead ▸ List.suffix_refl _, ?_⟩
  rintro _ _ ⟨⟩

end Yields

/-- What is known of one parser alone is a relation that the grammar respects. -/
theorem sequenceRelation_yields {M : Matching} (hspans : ∀ span, M.spans span span) (stop : Span) :
    SequenceRelation M stop stop (Yields M) where
  stops := hspans stop
  pure := by
    rintro α β n post a b hpost s rfl -
    refine ⟨List.suffix_refl _, ?_⟩
    rintro _ _ ⟨⟩
    exact ⟨b, hpost⟩
  bind := .bind
  peek := by
    rintro _ s rfl hnames
    refine ⟨List.suffix_refl _, ?_⟩
    rintro _ _ ⟨⟩
    refine ⟨s.ahead.head?, rfl, ?_⟩
    rcases hahead : s.ahead with _ | ⟨⟨token, span⟩, rest⟩
    · exact .none
    · rw [hahead] at hnames
      exact .some (hnames ⟨token, span⟩ List.mem_cons_self) (hspans span)
  advance := by
    intro n s hn _
    refine ⟨List.tail_suffix _, ?_⟩
    rintro _ _ ⟨⟩
    refine ⟨(), ?_⟩
    rw [List.length_tail, hn, Nat.add_sub_cancel]
  fail _ := .of_error fun s => ⟨_, s, fail_apply _ _ s, rfl⟩
  trailing := by
    rintro α β n post p q start _ - hp s rfl hnames
    obtain ⟨hshrinks, hresult⟩ := hp s rfl hnames
    cases hrun : p s with
    | error e s' =>
      rw [ShrinksAt, hrun] at hshrinks
      rw [ShrinksAt, trailing_of_error hrun]
      refine ⟨hshrinks, ?_⟩
      rintro _ _ ⟨⟩
    | ok a s' =>
      rw [ShrinksAt, hrun] at hshrinks
      rw [ShrinksAt, trailing_of_ok hrun]
      refine ⟨hshrinks, ?_⟩
      rintro _ _ ⟨⟩
      obtain ⟨b, hpost⟩ := hresult a s' hrun
      exact ⟨(b, _), hpost, hspans _⟩
  -- With nothing ahead a look ahead finds nothing, whoever looks.
  peek_left := by
    intro α β post f q hp s hs hnames
    obtain ⟨ahead, saved⟩ := s
    obtain rfl : ahead = [] := List.length_eq_zero_iff.mp hs
    exact hp ⟨[], saved⟩ hs hnames
  peek_right hp := hp
  attempt hp := hp.recover _
  giveUp hp := hp.recover _
  takeAbandoned := by
    rintro _ s rfl -
    refine ⟨List.suffix_refl _, ?_⟩
    rintro _ _ ⟨⟩
    exact ⟨none, rfl⟩
  leftover _ := by
    refine .of_error fun s => ?_
    exact ⟨_, _, leftover_apply stop _ s, rfl⟩

/-! ## Rules consume -/

/-- Nothing is asked of what is read. -/
def Matching.any : Matching where
  names _ := True
  spans _ _ := True
  nodes _ _ := True
  merge _ _ := trivial
  span _ := trivial
  node _ _ _ := trivial
  widen _ _ := trivial

/-- That a rule takes lexemes is a relation between the rule and itself. -/
theorem sequenceRelation_yields_any (stop : Span) : SequenceRelation .any stop stop (Yields .any) :=
  sequenceRelation_yields (fun _ => trivial) stop

section

variable {α : Type} {p : Parser α}

/-- A rule that is judged at all never goes back. -/
theorem shrinks_of_yields {Q : Nat → Nat → α → α → Prop} (h : ∀ n, Yields .any n (Q n) p p) :
    Shrinks p :=
  fun s => (h _ s rfl fun _ _ _ _ => trivial).1

/-- A rule that never goes back is judged so. -/
theorem Shrinks.yields (h : Shrinks p) (n : Nat) : Yields .any n (fun _ _ _ => True) p p := by
  rintro s rfl -
  exact ⟨h s, fun a _ _ => ⟨a, trivial⟩⟩

/-- A rule that is judged to take a lexeme does so. -/
theorem consuming_of_yields {V : α → α → Prop} (h : ∀ n, Yields .any n (Consumed n V) p p) :
    Consuming p where
  shrinks := shrinks_of_yields h
  progresses s a s' hrun := by
    obtain ⟨_, hlt, -⟩ := (h _ s rfl fun _ _ _ _ => trivial).2 a s' hrun
    exact hlt

/-- A rule that takes a lexeme is judged to do so. -/
theorem Consuming.yields (h : Consuming p) (n : Nat) :
    Yields .any n (Consumed n fun _ _ => True) p p := by
  rintro s rfl -
  exact ⟨h.shrinks s, fun a s' hrun => ⟨a, h.progresses s a s' hrun, trivial⟩⟩

end

/-- The parsers that stand for the rules of the grammar. -/
inductive Rule (stop : Span) (bound : Nat) (self : Goal → Parser Node) :
    {α : Type} → Parser α → Prop where
  | statement : Rule stop bound self (statement stop bound self)
  | expression : Rule stop bound self (expression stop bound self)
  | comparison : Rule stop bound self (comparison stop bound self)
  | arithmetic : Rule stop bound self (arithmetic stop bound self)
  | term : Rule stop bound self (term stop bound self)
  | factor : Rule stop bound self (factor stop bound self)
  | power : Rule stop bound self (power stop bound self)
  | call : Rule stop bound self (call stop bound self)
  | atom : Rule stop bound self (atom stop bound self)
  | block : Rule stop bound self (block stop bound self)
  | ifElse (start : Span) : Rule stop bound self (ifElse bound self start)
  | whileLoop (start : Span) : Rule stop bound self (whileLoop self start)
  | forLoop (start : Span) : Rule stop bound self (forLoop stop self start)
  | function (start : Span) : Rule stop bound self (function stop bound self start)
  | items (close : Operator) : Rule stop bound self (items stop bound self close)

section

variable {stop : Span} {bound : Nat} {self : Goal → Parser Node}
variable (hself : ∀ goal, Consuming (self goal))

include hself

/-- Every rule of the grammar consumes if the goals do. -/
theorem Rule.consuming {α : Type} {p : Parser α} (h : Rule stop bound self p) : Consuming p := by
  -- The grammar is gone through once for all relations, so nothing is left to do but to name the
  -- rule.
  have hrel := sequenceRelation_yields_any stop
  have hle :
      ∀ n k, k ≤ n → ∀ goal, Yields .any k (Consumed k fun _ _ => True) (self goal) (self goal) :=
    fun _ k _ goal => (hself goal).yields k
  have hlt :
      ∀ n k, k < n → ∀ goal, Yields .any k (Consumed k fun _ _ => True) (self goal) (self goal) :=
    fun _ k _ goal => (hself goal).yields k
  cases h with
  | statement => exact consuming_of_yields fun n => hrel.statement (hlt n) (.refl n bound)
  | expression => exact consuming_of_yields fun n => hrel.expression (hlt n) (.refl n bound)
  | comparison => exact consuming_of_yields fun n => hrel.comparison (hlt n) (.refl n bound)
  | arithmetic => exact consuming_of_yields fun n => hrel.arithmetic (hlt n) (.refl n bound)
  | term => exact consuming_of_yields fun n => hrel.term (hlt n) (.refl n bound)
  | factor => exact consuming_of_yields fun n => hrel.factor (hlt n) (.refl n bound)
  | power => exact consuming_of_yields fun n => hrel.power (hlt n) (.refl n bound)
  | call => exact consuming_of_yields fun n => hrel.call (hlt n) (.refl n bound)
  | atom => exact consuming_of_yields fun n => hrel.atom (hlt n) (.refl n bound)
  | block => exact consuming_of_yields fun n => hrel.block (hlt n) (.refl n bound)
  | ifElse start => exact consuming_of_yields fun n => hrel.ifElse (hle n) (.refl n bound) trivial
  | whileLoop start => exact consuming_of_yields fun n => hrel.whileLoop (hle n) trivial
  | forLoop start => exact consuming_of_yields fun n => hrel.forLoop (hle n) trivial
  | function start =>
    exact consuming_of_yields fun n => hrel.function (hle n) (.refl n bound) trivial
  | items close => exact consuming_of_yields fun n => hrel.items (hle n) (.refl n bound) close

/-- The rest of an atom never goes back. -/
theorem shrinks_atomFrom (span : Span) (token : Token) :
    Shrinks (atomFrom stop bound self span token) :=
  shrinks_of_yields fun n => (sequenceRelation_yields_any stop).atomFrom
    (fun k _ goal => (hself goal).yields k) (.refl n bound) trivial token

/-- Suffixes never go back. -/
theorem shrinks_suffixesFrom (k : Nat) (callee : Node) :
    Shrinks (suffixesFrom stop bound self k callee) :=
  shrinks_of_yields fun n => (sequenceRelation_yields_any stop).suffixesFrom
    (fun k _ goal => (hself goal).yields k) (.refl n bound) (.refl n k) trivial

omit hself in
/-- The rest of a chain never goes back. -/
theorem shrinks_chainFrom {operand : Parser Node} (hoperand : Consuming operand)
    (select : Token → Option BinaryOp) (k : Nat) (left : Node) :
    Shrinks (chainFrom operand select k left) :=
  shrinks_of_yields fun n => (sequenceRelation_yields_any default).chainFrom select
    (fun k _ => hoperand.yields k) (.refl n k) trivial

end

/-- Every goal consumes. -/
theorem consuming_parseGoal (stop : Span) (n : Nat) (goal : Goal) :
    Consuming (parseGoal stop n goal) := by
  rw [parseGoal_eq_goalAt]
  exact consuming_of_yields fun _ => (sequenceRelation_yields_any stop).goalAt n goal

/-! ## The first token of an expression -/

/-- A rule moves if it takes the next lexeme. -/
theorem movesAt_accept_bind {α β : Type} {select : Token → Option α}
    {f : Option (α × Span) → Parser β} {lexeme : Lexeme} {rest : List Lexeme}
    {saved : Option Abandoned} {a : α} (hsel : select lexeme.token = some a)
    (hf : Shrinks (f (some (a, lexeme.span)))) :
    MovesAt (accept select >>= f) ⟨lexeme :: rest, saved⟩ := by
  rw [MovesAt, accept_bind_of_some hsel]
  exact Nat.lt_succ_of_le (hf ⟨rest, saved⟩).length_le

section

variable {stop : Span} {bound : Nat} {self : Goal → Parser Node}
variable {token : Token} {span : Span} {rest : List Lexeme} {saved : Option Abandoned}

/-- An expression starts like an atom, with a sign, or with a word of its own. -/
theorem startsExpression_iff (token : Token) :
    token.startsExpression = true ↔
      (atomStart? token).isSome ∨ (sign? token).isSome ∨ token = .keyword .not
        ∨ token = .keyword .set := by
  cases token with
  | keyword word => cases word <;> simp [Token.startsExpression, atomStart?, sign?]
  | operator op => cases op <;> simp [Token.startsExpression, atomStart?, sign?]
  | number | text | identifier | eof => simp [Token.startsExpression, atomStart?, sign?]

/-- If the next token starts no expression, it is to blame. -/
theorem expression_of_not_starts {ahead : List Lexeme}
    (h : ∀ token, nextToken? ahead = some token → token.startsExpression = false) :
    expression stop bound self ⟨ahead, saved⟩
      = .error ⟨.unexpected, spanOf stop ahead⟩ ⟨ahead, saved⟩ := by
  have hne : ∀ token : Token, token.startsExpression = true → nextToken? ahead ≠ some token :=
    fun token hstart hnext => by simp [h token hnext] at hstart
  have hatomStart : (nextToken? ahead).bind atomStart? = none := by
    rw [Option.bind_eq_none_iff]
    intro token hnext
    cases hsel : atomStart? token with
    | none => rfl
    | some a => exact absurd hnext (hne token ((startsExpression_iff token).mpr (by simp [hsel])))
  have hsign : (nextToken? ahead).bind sign? = none := by
    rw [Option.bind_eq_none_iff]
    intro token hnext
    cases hsel : sign? token with
    | none => rfl
    | some op => exact absurd hnext (hne token ((startsExpression_iff token).mpr (by simp [hsel])))
  -- The failure goes up from the atoms, through all levels, to the expression.
  have hatom : atom stop bound self ⟨ahead, saved⟩
      = .error ⟨.unexpected, spanOf stop ahead⟩ ⟨ahead, saved⟩ := by
    rw [atom_eq_accept, accept_bind_of_none hatomStart]
    exact fail_apply _ _ _
  have hfactor : factor stop bound self ⟨ahead, saved⟩
      = .error ⟨.unexpected, spanOf stop ahead⟩ ⟨ahead, saved⟩ := by
    rw [factor, accept_bind_of_none hsign]
    exact bind_of_error (bind_of_error hatom)
  have hcomparison : comparison stop bound self ⟨ahead, saved⟩
      = .error ⟨.unexpected, spanOf stop ahead⟩ ⟨ahead, saved⟩ := by
    rw [comparison, acceptKeyword_bind_of_ne (hne _ rfl)]
    exact bind_of_error (bind_of_error (bind_of_error hfactor))
  rw [expression, acceptKeyword_bind_of_ne (hne _ rfl)]
  exact bind_of_error (bind_of_error hcomparison)

variable (hself : ∀ goal, Consuming (self goal))

include hself

/-- A power moves at a token that starts an atom. -/
theorem movesAt_power (h : (atomStart? token).isSome) :
    MovesAt (power stop bound self) ⟨⟨token, span⟩ :: rest, saved⟩ := by
  obtain ⟨a, ha⟩ := Option.isSome_iff_exists.mp h
  have hatom : MovesAt (atom stop bound self) ⟨⟨token, span⟩ :: rest, saved⟩ := by
    rw [atom_eq_accept]
    exact movesAt_accept_bind ha (shrinks_atomFrom hself _ _)
  have hcall : MovesAt (call stop bound self) ⟨⟨token, span⟩ :: rest, saved⟩ :=
    hatom.bind fun callee => shrinks_suffixesFrom hself bound callee
  exact hcall.bind fun left => shrinks_chainFrom (hself .factor) exponential? bound left

/-- An operand moves at a token that starts an atom or is a sign. -/
theorem movesAt_factor (h : (atomStart? token).isSome ∨ (sign? token).isSome) :
    MovesAt (factor stop bound self) ⟨⟨token, span⟩ :: rest, saved⟩ := by
  cases hsign : sign? token with
  | none =>
    have hatom : (atomStart? token).isSome := by simpa [hsign] using h
    rw [MovesAt, factor, accept_bind_of_none (by exact hsign)]
    exact movesAt_power hself hatom
  | some op =>
    exact movesAt_accept_bind hsign ((hself .factor).shrinks.map _)

/-- Additions move at a token that starts an operand. -/
theorem movesAt_arithmetic (h : (atomStart? token).isSome ∨ (sign? token).isSome) :
    MovesAt (arithmetic stop bound self) ⟨⟨token, span⟩ :: rest, saved⟩ := by
  have hterm : MovesAt (term stop bound self) ⟨⟨token, span⟩ :: rest, saved⟩ :=
    (movesAt_factor hself h).bind fun left =>
      shrinks_chainFrom (Rule.factor.consuming hself) multiplicative? bound left
  exact hterm.bind fun left => shrinks_chainFrom (Rule.term.consuming hself) additive? bound left

/-- A comparison moves at a token that starts an operand, and at `not`. -/
theorem movesAt_comparison
    (h : (atomStart? token).isSome ∨ (sign? token).isSome ∨ token = .keyword .not) :
    MovesAt (comparison stop bound self) ⟨⟨token, span⟩ :: rest, saved⟩ := by
  by_cases hnot : token = .keyword .not
  · subst hnot
    rw [MovesAt, comparison, acceptKeyword_bind_self]
    exact Nat.lt_succ_of_le ((hself .comparison).shrinks.map _ ⟨rest, saved⟩).length_le
  · have hstart : (atomStart? token).isSome ∨ (sign? token).isSome := by simpa [hnot] using h
    rw [MovesAt, comparison, acceptKeyword_bind_of_ne (by simpa using hnot)]
    exact (movesAt_arithmetic hself hstart).bind fun left =>
      shrinks_chainFrom (Rule.arithmetic.consuming hself) comparison? bound left

/-- If the next token starts an expression, the rule moves past it. -/
theorem movesAt_expression (h : token.startsExpression = true) :
    MovesAt (expression stop bound self) ⟨⟨token, span⟩ :: rest, saved⟩ := by
  have hrel := sequenceRelation_yields_any stop
  have hgoal : ∀ n goal, Yields .any n (Consumed n fun _ _ => True) (self goal) (self goal) :=
    fun n goal => (hself goal).yields n
  -- An assignment moves by its keyword, anything else by the comparison it starts with.
  by_cases hset : token = .keyword .set
  · subst hset
    rw [MovesAt, expression, acceptKeyword_bind_self]
    refine Nat.lt_succ_of_le
      (shrinks_of_yields (Q := fun _ _ _ _ => True) (fun n => ?_) _).length_le
    refine hrel.bind (hrel.expectIdentifier _) fun _ name name' _ _ => ?_
    refine hrel.bind (hrel.require .assign) fun _ _ _ _ _ => ?_
    exact hrel.bind (hgoal _ .expression) fun _ _ _ _ _ => hrel.pure trivial
  · have hstart : (atomStart? token).isSome ∨ (sign? token).isSome ∨ token = .keyword .not := by
      simpa [hset] using (startsExpression_iff token).mp h
    have hcond : MovesAt
        (chain bound (comparison stop bound self) (comparison stop bound self) connective?)
        ⟨⟨token, span⟩ :: rest, saved⟩ :=
      (movesAt_comparison hself hstart).bind fun left =>
        shrinks_chainFrom (Rule.comparison.consuming hself) connective? bound left
    rw [MovesAt, expression, acceptKeyword_bind_of_ne (by simpa using hset)]
    refine hcond.bind fun cond => shrinks_of_yields (Q := fun _ _ _ _ => True) fun n => ?_
    refine hrel.acceptOperator_bind .question (hrel.pure trivial) fun _ _ _ _ _ => ?_
    refine hrel.bind (hgoal _ .expression) fun _ _ _ _ _ => ?_
    refine hrel.bind (hrel.require .colon) fun _ _ _ _ _ => ?_
    exact hrel.bind (hgoal _ .expression) fun _ _ _ _ _ => hrel.pure trivial

end

end Parser

end Script
