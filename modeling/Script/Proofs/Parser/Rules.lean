import Script.Proofs.Parser.Runs
import Script.Proofs.Tree.Alike

/-!
# Relations that the grammar respects

The rules of the grammar are written once, over any cursor, and do nothing with it but what a cursor
can do. So a relation between the rules over one cursor and those over another is respected by every
rule if it is respected by these few primitives. `RuleRelation` collects what is asked of them for
expressions, `SequenceRelation` what is asked on top of that for statements, which may be given up,
and the lemmas below say what comes of it for each rule.

This is the only place where the grammar is gone through rule by rule for facts that hold of all
rules alike. Whatever is to be shown of them is a choice of the relation: that a rule consumes and
where its names come from, with one parser on both sides; that two layouts are read alike; that two
parsers of the same grammar agree; that the lexemes may be a list or be reached by their positions.

## Shape of the relation

`R n post p q` is about runs of `p` and `q` with `n` lexemes ahead, and `post` is what holds of
their results if they have some: of the number of lexemes that are left then, and of the two values.
The values are as a `Matching` says, in particular the nodes, and the lemmas for the rules come down
to its closure under forms.

A rule comes round to a goal only after it moved past a lexeme. So for the rule to be related with
`n` lexemes ahead its goals need to be so with fewer only, and since a goal that succeeds has
consumed a lexeme, so has the rule. The rules that start behind a word of their own, such as
`ifElse`, have passed that point already: their goals have to be related with `n` lexemes ahead too.

The two sides may also have different bounds on the rounds of their loops, as long as these make no
difference (`SameRounds`): every round moves past a lexeme.
-/

namespace Script

universe u v

namespace Parser

/-! ## Bounds -/

/-- The faults that tokens can have. All others are found in the characters of a source. -/
def concernsTokens : SyntaxFault → Bool
  | .unexpected | .expected _ => true
  | _ => false

/-- A goal that fails at the end of the input blames a lexeme. -/
theorem concernsTokens_faultAtEnd (goal : Goal) : concernsTokens goal.faultAtEnd = true := by
  cases goal <;> rfl

/-- Bounds on the rounds of a loop that make no difference with `n` lexemes ahead: they are the
same, or there are enough rounds for all lexemes. -/
def SameRounds (n k k' : Nat) : Prop := k = k' ∨ n ≤ k ∧ n ≤ k'

namespace SameRounds

theorem refl (n k : Nat) : SameRounds n k k := .inl rfl

theorem mono {m n k k' : Nat} (h : SameRounds n k k') (hmn : m ≤ n) : SameRounds m k k' :=
  h.imp_right fun ⟨hk, hk'⟩ => ⟨Nat.le_trans hmn hk, Nat.le_trans hmn hk'⟩

/-- One more round on both sides leaves a lexeme less to read. -/
theorem succ {n k k' : Nat} (h : SameRounds n k k') : SameRounds (n + 1) (k + 1) (k' + 1) :=
  h.imp (congrArg (· + 1)) fun ⟨hk, hk'⟩ => ⟨Nat.succ_le_succ hk, Nat.succ_le_succ hk'⟩

/-- A round was made, and a lexeme was passed in it. -/
theorem pred {m n k k' : Nat} (h : SameRounds n (k + 1) (k' + 1)) (hmn : m < n) :
    SameRounds m k k' :=
  h.imp Nat.succ.inj fun ⟨hk, hk'⟩ =>
    ⟨Nat.le_of_lt_succ (Nat.lt_of_lt_of_le hmn hk), Nat.le_of_lt_succ (Nat.lt_of_lt_of_le hmn hk')⟩

/-- If only one loop has rounds left, there are no lexemes left. -/
theorem eq_zero_of_left {n k : Nat} (h : SameRounds n 0 (k + 1)) : n = 0 := by
  rcases h with h | ⟨h, -⟩
  · cases h
  · exact Nat.le_zero.mp h

/-- A loop without rounds is as good as one that has some only if nothing is left to read. -/
theorem eq_zero_of_right {n k : Nat} (h : SameRounds n (k + 1) 0) : n = 0 := by
  rcases h with h | ⟨-, h⟩
  · cases h
  · exact Nat.le_zero.mp h

end SameRounds

/-! ## What is read -/

/-- How what is read on the two sides corresponds. -/
structure Matching where
  /-- What is known of the names that are ahead. -/
  names : String → Prop
  /-- Which spans correspond. -/
  spans : Span → Span → Prop
  /-- Which nodes do. -/
  nodes : Node → Node → Prop
  /-- Spans that are merged correspond if their parts do. -/
  merge : ∀ {a a' b b' : Span}, spans a a' → spans b b' → spans (a.merge b) (a'.merge b')
  /-- The spans of nodes correspond. -/
  span : ∀ {node node' : Node}, nodes node node' → spans node.span node'.span
  /-- Nodes correspond if they say the same over nodes that do, and name only what is named
  ahead. -/
  node : ∀ {form form' : Form} {span span' : Span}, form.Alike nodes (fun _ => True) form' →
    (∀ name, form.named? = some name → names name) → spans span span' →
    nodes ⟨form, span⟩ ⟨form', span'⟩
  /-- They still do if they are widened by brackets. -/
  widen : ∀ {node node' : Node} {span span' : Span}, nodes node node' → spans span span' →
    nodes ⟨node.form, span⟩ ⟨node'.form, span'⟩

/-- Both sides read the very same. -/
def Matching.same : Matching where
  names _ := True
  spans := Eq
  nodes := Eq
  merge ha hb := by rw [ha, hb]
  span h := by rw [h]
  node hform _ hspan := by rw [hform.eq, hspan]
  widen h hspan := by rw [h, hspan]

/-- The next lexeme of both sides, with the same token. -/
inductive Matching.Next (M : Matching) : Nat → Option Lexeme → Option Lexeme → Prop
  | none : M.Next 0 none none
  | some {n : Nat} {token : Token} {span span' : Span}
      (hname : ∀ name, token = .identifier name → M.names name) (hspan : M.spans span span') :
      M.Next (n + 1) (some ⟨token, span⟩) (some ⟨token, span'⟩)

namespace Matching

variable {M : Matching}

/-- Most forms name nothing. -/
theorem unnamed (M : Matching) {form form' : Form} {span span' : Span}
    (hform : form.Alike M.nodes (fun _ => True) form') (hnamed : form.named? = none)
    (hspan : M.spans span span') : M.nodes ⟨form, span⟩ ⟨form', span'⟩ := by
  refine M.node hform (fun name hname => ?_) hspan
  rw [hnamed] at hname
  cases hname

/-- Only tokens tell whether a sequence ends, so it does on both sides or on none. -/
theorem Next.atSequenceEnd_eq {n : Nat} {next next' : Option Lexeme} (h : M.Next n next next')
    (terminator : Option Operator) :
    atSequenceEnd terminator next.toList = atSequenceEnd terminator next'.toList := by
  cases h with
  | none => rfl
  | @some _ token => cases token <;> rfl

/-- The place that an error at the next lexeme names corresponds, also at the end of the input. -/
theorem Next.spanOf {n : Nat} {next next' : Option Lexeme} (h : M.Next n next next')
    {stop stop' : Span} (hstop : M.spans stop stop') :
    M.spans (Parser.spanOf stop next.toList) (Parser.spanOf stop' next'.toList) := by
  cases h with
  | none => exact hstop
  | some _ hspan => exact hspan

/-- The spans of two programs correspond if their statements do. -/
theorem programSpan (M : Matching) {start start' : Span} (hstart : M.spans start start')
    {body body' : List Node} (hbody : List.Forall₂ M.nodes body body') :
    M.spans (Parser.programSpan start body) (Parser.programSpan start' body') := by
  cases hbody with
  | nil => exact hstart
  | @cons first first' rest rest' hfirst hrest =>
    obtain ⟨last, last', hlast, hlast', hspan⟩ : ∃ last last', (first :: rest).getLast?
        = some last ∧ (first' :: rest').getLast? = some last' ∧ M.spans last.span last'.span := by
      clear hstart
      induction hrest generalizing first first' with
      | nil => exact ⟨first, first', rfl, rfl, M.span hfirst⟩
      | cons hnext _ ih =>
        obtain ⟨last, last', hlast, hlast', hspan⟩ := ih hnext
        exact ⟨last, last', by rw [List.getLast?_cons_cons, hlast],
          by rw [List.getLast?_cons_cons, hlast'], hspan⟩
    simp only [Parser.programSpan, List.head?_cons, hlast, hlast']
    exact M.merge (M.span hfirst) hspan

end Matching

/-- Values that correspond, with fewer than `n` lexemes left. -/
def Consumed {α β : Type} (n : Nat) (values : α → β → Prop) (k : Nat) (a : α) (b : β) : Prop :=
  k < n ∧ values a b

/-- The results of a rule that was tried with `n` lexemes ahead: those that it has, or the same
lexemes still ahead. -/
inductive Tried {α β : Type} (n : Nat) (post : Nat → α → β → Prop) :
    Nat → Option α → Option β → Prop
  | ok {k : Nat} {a : α} {b : β} (h : post k a b) : Tried n post k (some a) (some b)
  | failed : Tried n post n none none

/-! ## The relation -/

section

variable {m : Type → Type u} {m' : Type → Type v} [Monad m] [Monad m'] [Cursor m] [Cursor m']

/-- A relation between rules over two cursors that the primitives respect, as far as expressions
need them. -/
structure RuleRelation (M : Matching) (stop stop' : Span)
    (R : Nat → {α β : Type} → (Nat → α → β → Prop) → m α → m' β → Prop) : Prop where
  /-- The ends of the input correspond. -/
  stops : M.spans stop stop'
  /-- A result that consumes nothing. -/
  pure : ∀ {α β : Type} {n : Nat} {post : Nat → α → β → Prop} {a : α} {b : β},
    post n a b → R n post (pure a) (pure b)
  /-- One rule after another. -/
  bind : ∀ {α β γ δ : Type} {n : Nat} {mid : Nat → α → β → Prop} {post : Nat → γ → δ → Prop}
    {p : m α} {q : m' β} {f : α → m γ} {g : β → m' δ}, R n mid p q →
    (∀ k a b, k ≤ n → mid k a b → R k post (f a) (g b)) → R n post (p >>= f) (q >>= g)
  /-- A look at the next lexeme. -/
  peek : ∀ n : Nat, R n (fun k next next' => k = n ∧ M.Next n next next') Cursor.peek Cursor.peek
  /-- A lexeme is passed. -/
  advance : ∀ n : Nat, R (n + 1) (fun k _ _ => k = n) Cursor.advance Cursor.advance
  /-- The next lexeme is blamed. -/
  fail : ∀ {α β : Type} {n : Nat} {post : Nat → α → β → Prop} {fault : SyntaxFault},
    concernsTokens fault = true → R n post (Parser.fail stop fault) (Parser.fail stop' fault)
  /-- The last lexeme that a rule passes. -/
  trailing : ∀ {α β : Type} {n : Nat} {post : Nat → α → β → Prop} {p : m α} {q : m' β}
    {start start' : Span}, M.spans start start' → R n post p q →
    R n (fun k a b => post k a.1 b.1 ∧ M.spans a.2 b.2) (Cursor.trailing start p)
      (Cursor.trailing start' q)
  /-- At the end of the input a look tells nothing, on whichever side it is taken. -/
  peek_left : ∀ {α β : Type} {post : Nat → α → β → Prop} {f : Option Lexeme → m α} {q : m' β},
    R 0 post (f none) q → R 0 post (Cursor.peek >>= f) q
  peek_right : ∀ {α β : Type} {post : Nat → α → β → Prop} {p : m α} {g : Option Lexeme → m' β},
    R 0 post p (g none) → R 0 post p (Cursor.peek >>= g)

/-- Such a relation that is also respected where statements are given up. -/
structure SequenceRelation (M : Matching) (stop stop' : Span)
    (R : Nat → {α β : Type} → (Nat → α → β → Prop) → m α → m' β → Prop) : Prop
    extends RuleRelation M stop stop' R where
  /-- What fails leaves nothing behind. -/
  attempt : ∀ {α β : Type} {n : Nat} {post : Nat → α → β → Prop} {p : m α} {q : m' β},
    R n post p q → R n (Tried n post) (Parser.attempt p) (Parser.attempt q)
  /-- What fails leaves its failure behind. -/
  giveUp : ∀ {α β : Type} {n : Nat} {post : Nat → α → β → Prop} {p : m α} {q : m' β},
    R n post p q → R n (Tried n post) (Parser.giveUp p) (Parser.giveUp q)
  /-- What was given up is forgotten. -/
  takeAbandoned : ∀ n : Nat, R n (fun k _ _ => k = n) Cursor.takeAbandoned Cursor.takeAbandoned
  /-- What was given up is blamed, or the next lexeme is. -/
  leftover : ∀ {α β : Type} {n : Nat} {post : Nat → α → β → Prop} {fault : SyntaxFault},
    concernsTokens fault = true →
    R n post (Parser.leftover stop fault) (Parser.leftover stop' fault)

/-! ## Atoms by their first token -/

/-- The token an atom starts with. -/
def atomStart? : Token → Option Token
  | .number x => some (.number x)
  | .text s => some (.text s)
  | .identifier name => some (.identifier name)
  | .keyword .null => some (.keyword .null)
  | .keyword .if => some (.keyword .if)
  | .keyword .while => some (.keyword .while)
  | .keyword .for => some (.keyword .for)
  | .keyword .fun => some (.keyword .fun)
  | .operator .openParen => some (.operator .openParen)
  | .operator .openBracket => some (.operator .openBracket)
  | _ => none

section

variable (stop : Span) (bound : Nat) (self : Goal → m Node)

/-- The rest of an atom, behind the token at `span` that it starts with. -/
def atomFrom (span : Span) : Token → m Node
  | .number x => return ⟨.number x, span⟩
  | .text s => return ⟨.text s, span⟩
  | .identifier name => return ⟨.var name, span⟩
  | .keyword .null => return ⟨.null, span⟩
  | .operator .openParen => do
    let inner ← self .expression
    let close ← require stop .closeParen
    return ⟨inner.form, span.merge close⟩
  | .operator .openBracket => do
    let (elements, close) ← items stop bound self .closeBracket
    return ⟨.list elements, span.merge close⟩
  | .keyword .if => ifElse bound self span
  | .keyword .while => whileLoop self span
  | .keyword .for => forLoop stop self span
  | .keyword .fun => function stop bound self span
  | _ => fail stop .unexpected

/-- The rule for a goal, with at most the given number of lexemes ahead. -/
def goalAt : Nat → Goal → m Node
  | 0, goal => fail stop goal.faultAtEnd
  | n + 1, goal => Parser.goal stop (n + 1) (goalAt n) goal

end

end

/-- The goals of the parser are those that are built by hand, with a loop bound for each. -/
theorem parseGoal_eq_goalAt (stop : Span) (n : Nat) : parseGoal stop n = goalAt stop n := by
  induction n with
  | zero => rfl
  | succ n ih =>
    funext goal
    rw [parseGoal_succ, ih, goalAt]

section

variable {m : Type → Type u} {m' : Type → Type v} [Monad m] [LawfulMonad m] [Monad m']
variable [LawfulMonad m'] [Cursor m] [Cursor m']

/-- An atom is a token that can start one and the rest that belongs to it. -/
theorem atom_eq_accept (stop : Span) (bound : Nat) (self : Goal → m Node) :
    atom stop bound self = (do
      match ← accept atomStart? with
      | some (token, span) => atomFrom stop bound self span token
      | none => fail stop .unexpected) := by
  simp only [atom, accept, bind_assoc]
  congr
  funext next
  rcases next with _ | ⟨token, span⟩
  · simp only [pure_bind]
  · cases token with
    | keyword word => cases word <;> simp only [atomStart?, atomFrom, pure_bind, bind_assoc]
    | operator op => cases op <;> simp only [atomStart?, atomFrom, pure_bind, bind_assoc]
    | number | text | identifier | eof =>
      simp only [atomStart?, atomFrom, pure_bind, bind_assoc]

namespace RuleRelation

variable {M : Matching} {stop stop' : Span}
variable {R : Nat → {α β : Type} → (Nat → α → β → Prop) → m α → m' β → Prop}
variable (h : RuleRelation M stop stop' R)
variable {n bound bound' : Nat} {self : Goal → m Node} {self' : Goal → m' Node}

include h

/-! ## The cursor -/

/-- Less may be said of the results. -/
theorem weaken {α β : Type} {post post' : Nat → α → β → Prop} {p : m α} {q : m' β}
    (hp : R n post p q) (himp : ∀ k a b, k ≤ n → post k a b → post' k a b) : R n post' p q := by
  rw [← bind_pure p, ← bind_pure q]
  exact h.bind hp fun k a b hk hpost => h.pure (himp k a b hk hpost)

section

variable {α β γ : Type} {post : Nat → α → β → Prop}

/-- The same token is selected on both sides, or none. Behind it there are fewer lexemes ahead. -/
theorem accept_bind (select : Token → Option γ) {f : Option (γ × Span) → m α}
    {g : Option (γ × Span) → m' β} (hnone : R n post (f none) (g none))
    (hsome : ∀ k, k < n → ∀ token a span span', (∀ name, token = .identifier name → M.names name) →
      select token = some a → M.spans span span' →
      R k post (f (some (a, span))) (g (some (a, span')))) :
    R n post (accept select >>= f) (accept select >>= g) := by
  simp only [accept, bind_assoc]
  refine h.bind (h.peek n) ?_
  rintro _ _ _ - ⟨rfl, hnext⟩
  cases hnext with
  | none =>
    simp only [pure_bind]
    exact hnone
  | @some k token span span' hname hspan =>
    cases hselect : select token with
    | none =>
      simp only [hselect, pure_bind]
      exact hnone
    | some a =>
      simp only [hselect, bind_assoc, pure_bind]
      refine h.bind (h.advance k) ?_
      rintro _ _ _ - rfl
      exact hsome _ (Nat.lt_succ_self _) token a span span' hname hselect hspan

omit [LawfulMonad m'] in
/-- At the end of the input nothing is selected. -/
theorem accept_bind_left (select : Token → Option γ) {f : Option (γ × Span) → m α} {q : m' β}
    (hnone : R 0 post (f none) q) : R 0 post (accept select >>= f) q := by
  simp only [accept, bind_assoc]
  refine h.peek_left ?_
  simp only [pure_bind]
  exact hnone

omit [LawfulMonad m] in
/-- At the end of the input nothing is accepted on the right. -/
theorem accept_bind_right (select : Token → Option γ) {p : m α} {g : Option (γ × Span) → m' β}
    (hnone : R 0 post p (g none)) : R 0 post p (accept select >>= g) := by
  simp only [accept, bind_assoc]
  refine h.peek_right ?_
  simp only [pure_bind]
  exact hnone

/-- Both sides look for an operator, and either find it or both go on without. -/
theorem acceptOperator_bind (op : Operator) {f : Option Span → m α} {g : Option Span → m' β}
    (hnone : R n post (f none) (g none))
    (hsome : ∀ k, k < n → ∀ span span', M.spans span span' →
      R k post (f (some span)) (g (some span'))) :
    R n post (acceptOperator op >>= f) (acceptOperator op >>= g) := by
  simp only [acceptOperator, bind_assoc, pure_bind]
  exact h.accept_bind _ hnone fun k hk _ _ span span' _ _ hspan => hsome k hk span span' hspan

omit [LawfulMonad m'] in
/-- At the end of the input no operator is found on the left. -/
theorem acceptOperator_bind_left (op : Operator) {f : Option Span → m α} {q : m' β}
    (hnone : R 0 post (f none) q) : R 0 post (acceptOperator op >>= f) q := by
  simp only [acceptOperator, bind_assoc, pure_bind]
  exact h.accept_bind_left _ hnone

omit [LawfulMonad m] in
/-- At the end of the input no operator is found on the right. -/
theorem acceptOperator_bind_right (op : Operator) {p : m α} {g : Option Span → m' β}
    (hnone : R 0 post p (g none)) : R 0 post p (acceptOperator op >>= g) := by
  simp only [acceptOperator, bind_assoc, pure_bind]
  exact h.accept_bind_right _ hnone

/-- Both sides look for a keyword, and either find it or both go on without. -/
theorem acceptKeyword_bind (word : Keyword) {f : Option Span → m α} {g : Option Span → m' β}
    (hnone : R n post (f none) (g none))
    (hsome : ∀ k, k < n → ∀ span span', M.spans span span' →
      R k post (f (some span)) (g (some span'))) :
    R n post (acceptKeyword word >>= f) (acceptKeyword word >>= g) := by
  simp only [acceptKeyword, bind_assoc, pure_bind]
  exact h.accept_bind _ hnone fun k hk _ _ span span' _ _ hspan => hsome k hk span span' hspan

omit [LawfulMonad m'] in
/-- At the end of the input no keyword is found on the left. -/
theorem acceptKeyword_bind_left (word : Keyword) {f : Option Span → m α} {q : m' β}
    (hnone : R 0 post (f none) q) : R 0 post (acceptKeyword word >>= f) q := by
  simp only [acceptKeyword, bind_assoc, pure_bind]
  exact h.accept_bind_left _ hnone

omit [LawfulMonad m] in
/-- At the end of the input no keyword is found on the right. -/
theorem acceptKeyword_bind_right (word : Keyword) {p : m α} {g : Option Span → m' β}
    (hnone : R 0 post p (g none)) : R 0 post p (acceptKeyword word >>= g) := by
  simp only [acceptKeyword, bind_assoc, pure_bind]
  exact h.accept_bind_right _ hnone

/-- A name is the same on both sides, and one of those ahead. -/
theorem acceptIdentifier_bind {f : Option String → m α} {g : Option String → m' β}
    (hnone : R n post (f none) (g none))
    (hsome : ∀ k, k < n → ∀ name, M.names name → R k post (f (some name)) (g (some name))) :
    R n post (acceptIdentifier >>= f) (acceptIdentifier >>= g) := by
  simp only [acceptIdentifier, bind_assoc, pure_bind]
  refine h.accept_bind _ hnone fun k hk token name _ _ hname hselect _ => hsome k hk name ?_
  split at hselect
  · cases hselect
    exact hname _ rfl
  · cases hselect

end

/-- Both sides accept the same name or none, and it is one that stands ahead. -/
theorem acceptIdentifier :
    R n (fun _ name name' => name = name' ∧ ∀ x, name = some x → M.names x)
      Parser.acceptIdentifier Parser.acceptIdentifier := by
  rw [← bind_pure (Parser.acceptIdentifier : m _), ← bind_pure (Parser.acceptIdentifier : m' _)]
  refine h.acceptIdentifier_bind (h.pure ⟨rfl, fun _ hx => by cases hx⟩) fun k _ name hname => ?_
  exact h.pure ⟨rfl, fun _ hx => Option.some.inj hx ▸ hname⟩

/-- Both sides get past an operator, or both fail for want of it. -/
theorem expectOperator (op : Operator) (items : List Expectation) :
    R n (Consumed n M.spans) (Parser.expectOperator stop op items)
      (Parser.expectOperator stop' op items) :=
  h.acceptOperator_bind op (h.fail rfl) fun _ hk _ _ hspan => h.pure ⟨hk, hspan⟩

/-- Both sides get past a required operator, or both fail for want of it. -/
theorem require (op : Operator) :
    R n (Consumed n M.spans) (Parser.require stop op) (Parser.require stop' op) :=
  h.expectOperator op _

/-- Both sides get past the same name, or both fail for want of one. -/
theorem expectIdentifier (items : List Expectation) :
    R n (Consumed n fun name name' => name = name' ∧ M.names name)
      (Parser.expectIdentifier stop items) (Parser.expectIdentifier stop' items) :=
  h.acceptIdentifier_bind (h.fail rfl) fun _ hk _ hname => h.pure ⟨hk, rfl, hname⟩

/-- What a keyword announces is related if it is on what follows the keyword. -/
theorem optionally {α β : Type} {values : α → β → Prop} (word : Keyword) {p : m α} {q : m' β}
    (hp : ∀ k, k < n → R k (Consumed k values) p q) :
    R n (fun _ => Option.Rel values) (Parser.optionally word p) (Parser.optionally word q) := by
  refine h.acceptKeyword_bind word (h.pure .none) fun k hk _ _ _ => ?_
  exact h.bind (hp k hk) fun _ _ _ _ hvalue => h.pure (.some hvalue.2)

/-! ## Loops

The loops count down a number of rounds, and every round moves past a lexeme first. -/

/-- A chain of operands goes on alike. Each round takes an operator, so that operands need to be
related on shorter inputs only. -/
theorem chainFrom {operand : m Node} {operand' : m' Node} (select : Token → Option BinaryOp)
    (hoperand : ∀ k, k < n → R k (Consumed k M.nodes) operand operand') {k k' : Nat}
    (hk : SameRounds n k k') {left left' : Node} (hleft : M.nodes left left') :
    R n (fun _ => M.nodes) (Parser.chainFrom operand select k left)
      (Parser.chainFrom operand' select k' left') := by
  induction k generalizing n k' left left' with
  | zero =>
    cases k' with
    | zero => exact h.pure hleft
    | succ k' =>
      obtain rfl := hk.eq_zero_of_left
      exact h.accept_bind_right select (h.pure hleft)
  | succ k ih =>
    cases k' with
    | zero =>
      obtain rfl := hk.eq_zero_of_right
      exact h.accept_bind_left select (h.pure hleft)
    | succ k' =>
      refine h.accept_bind select (h.pure hleft) fun i hi _ op _ _ _ _ _ => ?_
      refine h.bind (hoperand i hi) fun j right right' hj hright => ?_
      have hjn : j < n := Nat.lt_of_le_of_lt hj hi
      refine ih (fun i hi => hoperand i (Nat.lt_trans hi hjn)) (hk.pred hjn) ?_
      exact M.unnamed (.binary op hleft hright.2) rfl (M.merge (M.span hleft) (M.span hright.2))

/-- A chain of operands is related if its first operand is, and the others are on shorter inputs. -/
theorem chain {first operand : m Node} {first' operand' : m' Node}
    (select : Token → Option BinaryOp)
    (hbound : SameRounds n bound bound') (hfirst : R n (Consumed n M.nodes) first first')
    (hoperand : ∀ k, k < n → R k (Consumed k M.nodes) operand operand') :
    R n (Consumed n M.nodes) (Parser.chain bound first operand select)
      (Parser.chain bound' first' operand' select) := by
  refine h.bind hfirst fun k left left' hk hleft => ?_
  refine h.weaken (h.chainFrom select (fun i hi => hoperand i (Nat.lt_of_lt_of_le hi hk))
    (hbound.mono hk) hleft.2) fun j _ _ hj hnode => ?_
  exact ⟨Nat.lt_of_le_of_lt hj hleft.1, hnode⟩

section

variable (hself : ∀ k, k ≤ n → ∀ goal, R k (Consumed k M.nodes) (self goal) (self' goal))

include hself

/-- A list has one item more than it has commas, so there has to be a round more than there are
lexemes. -/
theorem itemsFrom (close : Operator) {k k' : Nat} (hk : SameRounds (n + 1) k k')
    {before before' : List Node} (hbefore : List.Forall₂ M.nodes before before') :
    R n (Consumed n fun items items' => List.Forall₂ M.nodes items.1 items'.1 ∧
        M.spans items.2 items'.2)
      (Parser.itemsFrom stop self close k before)
        (Parser.itemsFrom stop' self' close k' before') := by
  induction k generalizing n k' before before' with
  | zero =>
    cases k' with
    | zero => exact h.fail rfl
    | succ k' => cases hk.eq_zero_of_left
  | succ k ih =>
    cases k' with
    | zero => cases hk.eq_zero_of_right
    | succ k' =>
      refine h.bind (hself n (Nat.le_refl n) .expression) fun i item item' hi hitem => ?_
      have hitems : List.Forall₂ M.nodes (item :: before) (item' :: before') :=
        .cons hitem.2 hbefore
      refine h.acceptOperator_bind .comma ?_ fun j hj _ _ _ => ?_
      · refine h.bind (h.expectOperator close _) fun j last last' hj hlast => h.pure ?_
        exact ⟨Nat.lt_of_le_of_lt hj hitem.1, List.forall₂_reverse_iff.mpr hitems, hlast.2⟩
      -- The item and the comma have been passed, so one round less is enough on both sides.
      · have hjn : j < n := Nat.lt_of_lt_of_le hj hi
        refine h.weaken (ih (fun l hl => hself l (Nat.le_trans hl (Nat.le_of_lt hjn)))
          (hk.pred (Nat.succ_lt_succ hjn)) hitems) fun _ _ _ _ hresult => ?_
        exact ⟨Nat.lt_trans hresult.1 hjn, hresult.2⟩

/-- Items up to a closing bracket are related, and so is the place of the bracket. -/
theorem items (hbound : SameRounds n bound bound') (close : Operator) :
    R n (Consumed n fun items items' => List.Forall₂ M.nodes items.1 items'.1 ∧
        M.spans items.2 items'.2)
      (Parser.items stop bound self close) (Parser.items stop' bound' self' close) :=
  h.acceptOperator_bind close (h.itemsFrom hself close hbound.succ .nil)
    fun _ hk _ _ hspan => h.pure ⟨hk, .nil, hspan⟩

/-- The arms behind `elif` go on alike. -/
theorem armsFrom {k k' : Nat} (hk : SameRounds n k k') {arms arms' : List Arm}
    (harms : List.Forall₂ (Arm.Alike M.nodes) arms arms') :
    R n (fun _ => List.Forall₂ (Arm.Alike M.nodes)) (Parser.armsFrom self k arms)
      (Parser.armsFrom self' k' arms') := by
  have hdone := List.forall₂_reverse_iff.mpr harms
  induction k generalizing n k' arms arms' with
  | zero =>
    cases k' with
    | zero => exact h.pure hdone
    | succ k' =>
      -- Out of rounds on one side: nothing is ahead, so the other side finds no arm either.
      obtain rfl := hk.eq_zero_of_left
      exact h.acceptKeyword_bind_right .elif (h.pure hdone)
  | succ k ih =>
    cases k' with
    | zero =>
      obtain rfl := hk.eq_zero_of_right
      exact h.acceptKeyword_bind_left .elif (h.pure hdone)
    | succ k' =>
      refine h.acceptKeyword_bind .elif (h.pure hdone) fun i hi _ _ _ => ?_
      refine h.bind (hself i (Nat.le_of_lt hi) .expression) fun j cond cond' hj hcond => ?_
      have hjn : j < n := Nat.lt_of_le_of_lt hj hi
      refine h.bind (hself j (Nat.le_of_lt hjn) .block) fun l body body' hl hbody => ?_
      have hln : l < n := Nat.lt_of_le_of_lt hl hjn
      have harms' : List.Forall₂ (Arm.Alike M.nodes) (⟨cond, body⟩ :: arms)
          (⟨cond', body'⟩ :: arms') := .cons ⟨hcond.2, hbody.2⟩ harms
      exact ih (fun i hi => hself i (Nat.le_trans hi (Nat.le_of_lt hln))) (hk.pred hln) harms'
        (List.forall₂_reverse_iff.mpr harms')

/-! ## Forms that start with a word of their own -/

/-- The form of a conditional says the same over related nodes, and names nothing. -/
theorem ifForm (hbound : SameRounds n bound bound') :
    R n (Consumed n fun form form' => form.Alike M.nodes (fun _ => True) form' ∧ form.named? = none)
      (Parser.ifForm bound self) (Parser.ifForm bound' self') := by
  refine h.bind (hself n (Nat.le_refl n) .expression) fun i cond cond' hi hcond => ?_
  refine h.bind (hself i hi .block) fun j body body' hj hbody => ?_
  have hjn : j ≤ n := Nat.le_trans hj hi
  have hfirst : List.Forall₂ (Arm.Alike M.nodes) [⟨cond, body⟩] [⟨cond', body'⟩] :=
    .cons ⟨hcond.2, hbody.2⟩ .nil
  refine h.bind (h.armsFrom (fun k hk => hself k (Nat.le_trans hk hjn)) (hbound.mono hjn) hfirst)
    fun k arms arms' hk harms => ?_
  have hkn : k ≤ n := Nat.le_trans hk hjn
  refine h.bind (h.optionally .else fun l hl =>
    hself l (Nat.le_of_lt (Nat.lt_of_lt_of_le hl hkn)) .block)
    fun l otherwise otherwise' hl hotherwise => h.pure ?_
  have hln : l < n := Nat.lt_of_le_of_lt (Nat.le_trans (Nat.le_trans hl hk) hj) hcond.1
  exact ⟨hln, .ifElse harms hotherwise, rfl⟩

/-- A conditional is related from behind its first word on. -/
theorem ifElse (hbound : SameRounds n bound bound') {start start' : Span}
    (hstart : M.spans start start') :
    R n (Consumed n M.nodes) (Parser.ifElse bound self start) (Parser.ifElse bound' self' start') :=
  h.bind (h.trailing hstart (h.ifForm hself hbound)) fun _ _ _ _ ⟨⟨hlt, hform, hnamed⟩, hlast⟩ =>
    h.pure ⟨hlt, M.unnamed hform hnamed (M.merge hstart hlast)⟩

omit [LawfulMonad m] [LawfulMonad m'] in
/-- A loop with a condition is related from behind its first word on. -/
theorem whileLoop {start start' : Span} (hstart : M.spans start start') :
    R n (Consumed n M.nodes) (Parser.whileLoop self start) (Parser.whileLoop self' start') := by
  refine h.bind (hself n (Nat.le_refl n) .expression) fun i cond cond' hi hcond => ?_
  refine h.bind (hself i hi .block) fun j body body' hj hbody => h.pure ?_
  exact ⟨Nat.lt_of_le_of_lt hj hcond.1,
    M.unnamed (.whileLoop hcond.2 hbody.2) rfl (M.merge hstart (M.span hbody.2))⟩

/-- A counting loop is related from behind its first word on. -/
theorem forLoop {start start' : Span} (hstart : M.spans start start') :
    R n (Consumed n M.nodes) (Parser.forLoop stop self start)
      (Parser.forLoop stop' self' start') := by
  refine h.bind (h.expectIdentifier _) fun i name _ hi ⟨hin, hname, hnamed⟩ => hname ▸ ?_
  refine h.bind (h.require .assign) fun j _ _ hj _ => ?_
  have hjn : j < n := Nat.lt_of_le_of_lt hj hin
  refine h.bind (hself j (Nat.le_of_lt hjn) .expression) fun i first first' hi hfirst => ?_
  have hin : i < n := Nat.lt_of_le_of_lt hi hjn
  refine h.bind (h.require .colon) fun j _ _ hj _ => ?_
  have hjn : j < n := Nat.lt_of_le_of_lt hj hin
  refine h.bind (hself j (Nat.le_of_lt hjn) .expression) fun i last last' hi hlast => ?_
  have hin : i < n := Nat.lt_of_le_of_lt hi hjn
  refine h.bind (h.optionally .by fun k hk =>
    hself k (Nat.le_of_lt (Nat.lt_trans hk hin)) .expression)
    fun j step step' hj hstep => ?_
  have hjn : j < n := Nat.lt_of_le_of_lt hj hin
  refine h.bind (hself j (Nat.le_of_lt hjn) .block) fun i body body' hi hbody => h.pure ?_
  refine ⟨Nat.lt_of_le_of_lt hi hjn, M.node (.forLoop name hfirst.2 hlast.2 hstep hbody.2) ?_
    (M.merge hstart (M.span hbody.2))⟩
  rintro _ ⟨⟩
  exact hnamed

omit hself in
/-- The parameters behind a comma are the same on both sides. -/
theorem paramsFrom {k k' : Nat} (hk : SameRounds n k k') (names : List String) :
    R n (fun _ => Eq) (Parser.paramsFrom stop k names) (Parser.paramsFrom stop' k' names) := by
  induction k generalizing n k' names with
  | zero =>
    cases k' with
    | zero => exact h.pure rfl
    | succ k' =>
      obtain rfl := hk.eq_zero_of_left
      exact h.acceptOperator_bind_right .comma (h.pure rfl)
  | succ k ih =>
    cases k' with
    | zero =>
      obtain rfl := hk.eq_zero_of_right
      exact h.acceptOperator_bind_left .comma (h.pure rfl)
    | succ k' =>
      refine h.acceptOperator_bind .comma (h.pure rfl) fun i hi _ _ _ => ?_
      refine h.bind (h.expectIdentifier _) fun j name _ hj ⟨_, hname, _⟩ => hname ▸ ?_
      exact ih (hk.pred (Nat.lt_of_le_of_lt hj hi)) _

omit hself in
/-- The parameters of a function are the same on both sides. -/
theorem params (hbound : SameRounds n bound bound') :
    R n (Consumed n Eq) (Parser.params stop bound) (Parser.params stop' bound') := by
  refine h.acceptOperator_bind .closeParen ?_ fun _ hk _ _ _ => h.pure ⟨hk, rfl⟩
  refine h.bind (h.expectIdentifier _) fun i first _ hi ⟨hin, hfirst, _⟩ => hfirst ▸ ?_
  refine h.bind (h.paramsFrom (hbound.mono hi) _) fun j names _ hj hnames => hnames ▸ ?_
  refine h.bind (h.expectOperator .closeParen _) fun k _ _ hk _ => h.pure ⟨?_, rfl⟩
  exact Nat.lt_of_le_of_lt (Nat.le_trans hk hj) hin

/-- A function is related from behind its first word on. -/
theorem function (hbound : SameRounds n bound bound') {start start' : Span}
    (hstart : M.spans start start') :
    R n (Consumed n M.nodes) (Parser.function stop bound self start)
      (Parser.function stop' bound' self' start') := by
  refine h.bind h.acceptIdentifier fun i name _ hi ⟨hname, hnamed⟩ => hname ▸ ?_
  refine h.bind (h.expectOperator .openParen _) fun j _ _ hj hopen => ?_
  have hjn : j < n := Nat.lt_of_lt_of_le hopen.1 hi
  refine h.bind (h.params (hbound.mono (Nat.le_of_lt hjn))) fun k names _ hk hnames => hnames.2 ▸ ?_
  have hkn : k < n := Nat.lt_of_le_of_lt hk hjn
  have hnode : ∀ {body body'} isExpression, M.nodes body body' →
      M.nodes ⟨.function ⟨name, names, body, isExpression⟩, start.merge body.span⟩
        ⟨.function ⟨name, names, body', isExpression⟩, start'.merge body'.span⟩ :=
    fun _ hbody => M.node (.function ⟨rfl, rfl, hbody, rfl⟩) hnamed (M.merge hstart (M.span hbody))
  refine h.acceptOperator_bind .assign ?_ fun i hi _ _ _ => ?_
  · refine h.bind (h.peek k) ?_
    rintro _ _ _ - ⟨rfl, hnext⟩
    -- Only an opening brace leads on to a block, and it is next on both sides or on none.
    rcases hnext with _ | @⟨_, token, _, _, _, _⟩
    · exact h.fail rfl
    · by_cases hopen : token = .operator .openBrace
      · subst hopen
        refine h.bind (hself _ (Nat.le_of_lt hkn) .block) fun i body body' hi hbody => h.pure ?_
        exact ⟨Nat.lt_of_le_of_lt hi hkn, hnode false hbody.2⟩
      · split
        · rename_i hcases
          cases hcases
          exact absurd rfl hopen
        · split
          · rename_i hcases
            cases hcases
            exact absurd rfl hopen
          · exact h.fail rfl
  · have hin : i < n := Nat.lt_trans hi hkn
    refine h.bind (hself i (Nat.le_of_lt hin) .expression) fun j body body' hj hbody => h.pure ?_
    exact ⟨Nat.lt_of_le_of_lt hj hin, hnode true hbody.2⟩

/-- What an atom is depends on its first token only, and from there on both sides go alike. -/
theorem atomFrom (hbound : SameRounds n bound bound') {span span' : Span}
    (hspan : M.spans span span') (token : Token) :
    R n (fun _ => M.nodes) (Parser.atomFrom stop bound self span token)
      (Parser.atomFrom stop' bound' self' span' token) := by
  unfold Parser.atomFrom
  split
  · exact h.pure (M.unnamed (.number _) rfl hspan)
  · exact h.pure (M.unnamed (.text _) rfl hspan)
  · exact h.pure (M.unnamed (.var trivial) rfl hspan)
  · exact h.pure (M.unnamed .null rfl hspan)
  · refine h.bind (hself n (Nat.le_refl n) .expression) fun i inner inner' _ hinner => ?_
    exact h.bind (h.require .closeParen) fun j _ _ _ hclose =>
      h.pure (M.widen hinner.2 (M.merge hspan hclose.2))
  · refine h.bind (h.items hself hbound .closeBracket) fun i elements elements' _ helements => ?_
    exact h.pure (M.unnamed (.list helements.2.1) rfl (M.merge hspan helements.2.2))
  · exact h.weaken (h.ifElse hself hbound hspan) fun _ _ _ _ hnode => hnode.2
  · exact h.weaken (h.whileLoop hself hspan) fun _ _ _ _ hnode => hnode.2
  · exact h.weaken (h.forLoop hself hspan) fun _ _ _ _ hnode => hnode.2
  · exact h.weaken (h.function hself hbound hspan) fun _ _ _ _ hnode => hnode.2
  · exact h.fail rfl

end

/-! ## The levels of the grammar -/

section

variable (hself : ∀ k, k < n → ∀ goal, R k (Consumed k M.nodes) (self goal) (self' goal))
variable (hbound : SameRounds n bound bound')

include hself hbound

/-- An atom takes its first token, so that the goals need to be related on shorter inputs only. -/
theorem atom :
    R n (Consumed n M.nodes) (Parser.atom stop bound self) (Parser.atom stop' bound' self') := by
  rw [atom_eq_accept, atom_eq_accept]
  refine h.accept_bind atomStart? (h.fail rfl) fun k hk _ token _ _ _ _ hspan => ?_
  refine h.weaken (h.atomFrom (fun i hi => hself i (Nat.lt_of_le_of_lt hi hk))
    (hbound.mono (Nat.le_of_lt hk)) hspan token) fun i _ _ hi hnode => ?_
  exact ⟨Nat.lt_of_le_of_lt hi hk, hnode⟩

/-- Calls and indices behind an expression go on alike. -/
theorem suffixesFrom {k k' : Nat} (hk : SameRounds n k k') {callee callee' : Node}
    (hcallee : M.nodes callee callee') :
    R n (fun _ => M.nodes) (Parser.suffixesFrom stop bound self k callee)
      (Parser.suffixesFrom stop' bound' self' k' callee') := by
  induction k generalizing n k' callee callee' with
  | zero =>
    cases k' with
    | zero => exact h.pure hcallee
    | succ k' =>
      obtain rfl := hk.eq_zero_of_left
      exact h.acceptOperator_bind_right .openParen
        (h.acceptOperator_bind_right .openBracket (h.pure hcallee))
  | succ k ih =>
    cases k' with
    | zero =>
      obtain rfl := hk.eq_zero_of_right
      exact h.acceptOperator_bind_left .openParen
        (h.acceptOperator_bind_left .openBracket (h.pure hcallee))
    | succ k' =>
      -- Behind a suffix there is a lexeme less, and a round less to go.
      have hrest : ∀ i, i < n → ∀ {callee callee'}, M.nodes callee callee' →
          R i (fun _ => M.nodes) (Parser.suffixesFrom stop bound self k callee)
            (Parser.suffixesFrom stop' bound' self' k' callee') := fun i hi _ _ hcallee =>
        ih (fun j hj => hself j (Nat.lt_trans hj hi)) (hbound.mono (Nat.le_of_lt hi)) (hk.pred hi)
          hcallee
      refine h.acceptOperator_bind .openParen ?_ fun i hi _ _ _ => ?_
      · refine h.acceptOperator_bind .openBracket (h.pure hcallee) fun i hi _ _ _ => ?_
        refine h.bind (hself i hi .expression) fun j place place' hj hplace => ?_
        refine h.bind (h.require .closeBracket) fun l _ _ hl hclose => ?_
        refine hrest l (Nat.lt_of_le_of_lt (Nat.le_trans hl hj) hi) ?_
        exact M.unnamed (.index hcallee hplace.2) rfl (M.merge (M.span hcallee) hclose.2)
      · refine h.bind (h.items (fun j hj => hself j (Nat.lt_of_le_of_lt hj hi))
          (hbound.mono (Nat.le_of_lt hi)) .closeParen) fun j args args' hj hargs => ?_
        refine hrest j (Nat.lt_of_le_of_lt hj hi) ?_
        exact M.unnamed (.call hcallee hargs.2.1) rfl (M.merge (M.span hcallee) hargs.2.2)

/-- An atom with its suffixes is related. -/
theorem call :
    R n (Consumed n M.nodes) (Parser.call stop bound self) (Parser.call stop' bound' self') := by
  refine h.bind (h.atom hself hbound) fun k callee callee' hk hcallee => ?_
  refine h.weaken (h.suffixesFrom (fun i hi => hself i (Nat.lt_of_lt_of_le hi hk)) (hbound.mono hk)
    (hbound.mono hk) hcallee.2) fun i _ _ hi hnode => ?_
  exact ⟨Nat.lt_of_le_of_lt hi hcallee.1, hnode⟩

/-- A power is related. -/
theorem power :
    R n (Consumed n M.nodes) (Parser.power stop bound self) (Parser.power stop' bound' self') :=
  h.chain exponential? hbound (h.call hself hbound) fun k hk => hself k hk .factor

/-- A signed operand is related. -/
theorem factor :
    R n (Consumed n M.nodes) (Parser.factor stop bound self)
      (Parser.factor stop' bound' self') := by
  refine h.accept_bind sign? (h.power hself hbound) fun k hk _ op _ _ _ _ hspan => ?_
  refine h.bind (hself k hk .factor) fun i operand operand' hi hoperand => h.pure ?_
  exact ⟨Nat.lt_of_le_of_lt hi hk,
    M.unnamed (.unary op hoperand.2) rfl (M.merge hspan (M.span hoperand.2))⟩

/-- A chain of multiplications is related. -/
theorem term :
    R n (Consumed n M.nodes) (Parser.term stop bound self) (Parser.term stop' bound' self') :=
  h.chain multiplicative? hbound (h.factor hself hbound) fun _ hk =>
    h.factor (fun i hi => hself i (Nat.lt_trans hi hk)) (hbound.mono (Nat.le_of_lt hk))

/-- A chain of additions is related. -/
theorem arithmetic :
    R n (Consumed n M.nodes) (Parser.arithmetic stop bound self)
      (Parser.arithmetic stop' bound' self') :=
  h.chain additive? hbound (h.term hself hbound) fun _ hk =>
    h.term (fun i hi => hself i (Nat.lt_trans hi hk)) (hbound.mono (Nat.le_of_lt hk))

/-- A comparison or a negation is related. -/
theorem comparison :
    R n (Consumed n M.nodes) (Parser.comparison stop bound self)
      (Parser.comparison stop' bound' self') := by
  refine h.acceptKeyword_bind .not ?_ fun k hk _ _ hspan => ?_
  · exact h.chain comparison? hbound (h.arithmetic hself hbound) fun _ hk =>
      h.arithmetic (fun i hi => hself i (Nat.lt_trans hi hk)) (hbound.mono (Nat.le_of_lt hk))
  · refine h.bind (hself k hk .comparison) fun i operand operand' hi hoperand => h.pure ?_
    exact ⟨Nat.lt_of_le_of_lt hi hk,
      M.unnamed (.unary .not hoperand.2) rfl (M.merge hspan (M.span hoperand.2))⟩

/-- An expression is related, be it an assignment, a ternary or a chain of connectives. -/
theorem expression :
    R n (Consumed n M.nodes) (Parser.expression stop bound self)
      (Parser.expression stop' bound' self') := by
  refine h.acceptKeyword_bind .set ?_ fun i hi _ _ hspan => ?_
  · refine h.bind (h.chain connective? hbound (h.comparison hself hbound) fun _ hk =>
      h.comparison (fun i hi => hself i (Nat.lt_trans hi hk)) (hbound.mono (Nat.le_of_lt hk)))
      fun i cond cond' hi hcond => ?_
    refine h.acceptOperator_bind .question (h.pure hcond) fun j hj _ _ _ => ?_
    have hjn : j < n := Nat.lt_of_lt_of_le hj hi
    refine h.bind (hself j hjn .expression) fun k yes yes' hk hyes => ?_
    refine h.bind (h.require .colon) fun l _ _ hl _ => ?_
    have hln : l < n := Nat.lt_of_le_of_lt (Nat.le_trans hl hk) hjn
    refine h.bind (hself l hln .expression) fun i no no' hi hno => h.pure ?_
    exact ⟨Nat.lt_of_le_of_lt hi hln, M.unnamed (.ternary hcond.2 hyes.2 hno.2) rfl
      (M.merge (M.span hcond.2) (M.span hno.2))⟩
  · refine h.bind (h.expectIdentifier _) fun j name _ hj ⟨_, hname, hnamed⟩ => hname ▸ ?_
    refine h.bind (h.require .assign) fun k _ _ hk _ => ?_
    have hkn : k < n := Nat.lt_of_le_of_lt (Nat.le_trans hk hj) hi
    refine h.bind (hself k hkn .expression) fun l value value' hl hvalue => h.pure ?_
    refine ⟨Nat.lt_of_le_of_lt hl hkn, M.node (.assign name hvalue.2) ?_
      (M.merge hspan (M.span hvalue.2))⟩
    rintro _ ⟨⟩
    exact hnamed

end

end RuleRelation

/-! ## Statements -/

namespace SequenceRelation

variable {M : Matching} {stop stop' : Span}
variable {R : Nat → {α β : Type} → (Nat → α → β → Prop) → m α → m' β → Prop}
variable (h : SequenceRelation M stop stop' R)
variable {n bound bound' : Nat} {self : Goal → m Node} {self' : Goal → m' Node}
variable (hself : ∀ k, k < n → ∀ goal, R k (Consumed k M.nodes) (self goal) (self' goal))
variable (hbound : SameRounds n bound bound')

include h hself hbound

/-- A statement is related. This is where a rule may be given up and tried as another one. -/
theorem statement :
    R n (Consumed n M.nodes) (Parser.statement stop bound self)
      (Parser.statement stop' bound' self') := by
  refine h.acceptKeyword_bind .return ?_ fun k hk start start' hspan => ?_
  · refine h.acceptKeyword_bind .continue ?_ fun k hk _ _ hspan =>
      h.pure ⟨hk, M.unnamed .continuing rfl hspan⟩
    refine h.acceptKeyword_bind .break ?_ fun k hk _ _ hspan =>
      h.pure ⟨hk, M.unnamed .breaking rfl hspan⟩
    exact h.expression hself hbound
  · have hvalue := h.attempt (h.expression (fun i hi => hself i (Nat.lt_trans hi hk))
      (hbound.mono (Nat.le_of_lt hk)))
    refine h.bind hvalue fun i value value' hi hvalue => h.pure ⟨Nat.lt_of_le_of_lt hi hk, ?_⟩
    cases hvalue with
    | failed => exact M.unnamed (.returning .none) rfl hspan
    | ok hvalue =>
      exact M.unnamed (.returning (.some hvalue.2)) rfl (M.merge hspan (M.span hvalue.2))

/-- Statements behind the first one go on alike up to where a sequence ends. -/
theorem statementsFrom (terminator : Option Operator) {k k' : Nat} (hk : SameRounds n k k')
    {before before' : List Node} (hbefore : List.Forall₂ M.nodes before before') :
    R n (fun _ => List.Forall₂ M.nodes)
      (Parser.statementsFrom stop bound self terminator k before)
      (Parser.statementsFrom stop' bound' self' terminator k' before') := by
  have hdone := List.forall₂_reverse_iff.mpr hbefore
  induction k generalizing n k' before before' with
  | zero =>
    cases k' with
    | zero => exact h.pure hdone
    | succ k' =>
      obtain rfl := hk.eq_zero_of_left
      exact h.peek_right (h.pure hdone)
  | succ k ih =>
    cases k' with
    | zero =>
      obtain rfl := hk.eq_zero_of_right
      exact h.peek_left (h.pure hdone)
    | succ k' =>
      refine h.bind (h.peek n) ?_
      rintro _ _ _ - ⟨rfl, hnext⟩
      rw [hnext.atSequenceEnd_eq]
      split
      · exact h.pure hdone
      · refine h.bind (h.giveUp (h.statement hself hbound)) fun i node node' hi hnode => ?_
        -- A statement that is given up ends the sequence on both sides.
        cases hnode with
        | failed => exact h.pure hdone
        | ok hnode =>
          have hbefore' := List.Forall₂.cons hnode.2 hbefore
          exact ih (fun j hj => hself j (Nat.lt_of_lt_of_le hj hi)) (hbound.mono hi)
            (hk.pred hnode.1) hbefore' (List.forall₂_reverse_iff.mpr hbefore')

/-- The statements up to a terminator are related. -/
theorem statements (terminator : Option Operator) :
    R n (fun _ => List.Forall₂ M.nodes) (Parser.statements stop bound self terminator)
      (Parser.statements stop' bound' self' terminator) := by
  refine h.bind (h.peek n) ?_
  rintro _ _ _ - ⟨rfl, hnext⟩
  rw [hnext.atSequenceEnd_eq]
  split
  · exact h.pure .nil
  · refine h.bind (h.statement hself hbound) fun i node node' hi hnode => ?_
    exact h.statementsFrom (fun j hj => hself j (Nat.lt_of_lt_of_le hj hi)) (hbound.mono hi)
      terminator (hbound.mono hi) (.cons hnode.2 .nil)

/-- A block in braces is related. -/
theorem block :
    R n (Consumed n M.nodes) (Parser.block stop bound self) (Parser.block stop' bound' self') := by
  refine h.bind (h.require .openBrace) fun i opening opening' hi hopening => ?_
  refine h.bind (h.takeAbandoned i) fun j _ _ hj _ => ?_
  have hjn : j < n := Nat.lt_of_le_of_lt hj hopening.1
  refine h.bind (h.statements (fun k hk => hself k (Nat.lt_trans hk hjn))
    (hbound.mono (Nat.le_of_lt hjn)) _) fun k body body' hk hbody => ?_
  refine h.acceptOperator_bind .closeBrace (h.leftover rfl) fun l hl _ _ hclosing => h.pure ?_
  exact ⟨Nat.lt_trans hl (Nat.lt_of_le_of_lt hk hjn),
    M.unnamed (.block hbody) rfl (M.merge hopening.2 hclosing)⟩

/-- Every goal is related if the goals are on shorter inputs. -/
theorem goal (goal : Goal) :
    R n (Consumed n M.nodes) (Parser.goal stop bound self goal)
      (Parser.goal stop' bound' self' goal) := by
  cases goal with
  | expression => exact h.expression hself hbound
  | comparison => exact h.comparison hself hbound
  | factor => exact h.factor hself hbound
  | block => exact h.block hself hbound

/-- A whole program is related. -/
theorem program :
    R n (fun _ => M.nodes) (Parser.program stop bound self)
      (Parser.program stop' bound' self') := by
  refine h.bind (h.peek n) ?_
  rintro _ start start' - ⟨rfl, hstart⟩
  refine h.bind (h.statements hself hbound none) fun i body body' hi hbody => ?_
  refine h.bind (h.peek i) ?_
  rintro _ _ _ - ⟨rfl, hnext⟩
  cases hnext with
  | some => exact h.leftover rfl
  | none =>
    exact h.pure (M.unnamed (.block hbody) rfl (M.programSpan (hstart.spanOf h.stops) hbody))

omit hself hbound in
/-- All goals, as far as their depth goes. -/
theorem goalAt (depth : Nat) (goal : Goal) :
    R n (Consumed n M.nodes) (Parser.goalAt stop depth goal) (Parser.goalAt stop' depth goal) := by
  induction depth generalizing n goal with
  | zero => exact h.fail (concernsTokens_faultAtEnd goal)
  | succ depth ih => exact h.goal (fun _ _ => ih) (.refl n _) goal

omit hself hbound in
/-- Programs, as far as the depth of their goals goes. -/
theorem program_goalAt (depth : Nat) :
    R n (fun _ => M.nodes) (Parser.program stop depth (Parser.goalAt stop depth))
      (Parser.program stop' depth (Parser.goalAt stop' depth)) :=
  h.program (fun _ _ => h.goalAt depth) (.refl n depth)

end SequenceRelation

end

end Parser

end Script
