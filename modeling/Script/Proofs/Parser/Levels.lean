import Script.Proofs.Parser.Cursor
import Script.Proofs.Tree.Printer

/-!
# The levels of expressions

Every level of the grammar is made alike: what it reads is an expression of the next tighter level
and then, in a loop, whatever joins it at this level (`ruleAt_eq_bind`). Only a few levels have a
token of their own in front, with which nothing of a tighter level starts.

So it depends on two tokens what a level makes of an input that a tighter level reads: on the first
one, which must not head a looser level, and on the one that follows, which must not join at a
looser level. If both are as they should be the looser level reads the same (`ruleAt_of_tighter`).
-/

namespace Script

namespace Level

/-- The next tighter level. -/
def tighter : Level → Level
  | .expression => .connective
  | .connective => .negation
  | .negation => .comparison
  | .comparison => .additive
  | .additive => .multiplicative
  | .multiplicative => .sign
  | .sign => .power
  | .power => .suffix
  | .suffix | .atom => .atom

/-- The next tighter level ranks one higher. -/
theorem rank_tighter {level : Level} (h : level.rank < Level.atom.rank) :
    level.tighter.rank = level.rank + 1 := by
  cases level with
  | atom => cases Nat.lt_irrefl _ h
  | _ => rfl

theorem eq_of_rank_eq {level level' : Level} (h : level.rank = level'.rank) : level = level' := by
  cases level <;> cases level' <;> simp_all [rank]

theorem rank_le_atom (level : Level) : level.rank ≤ Level.atom.rank := by
  cases level <;> decide

end Level

namespace Token

/-- The level at which a token stands in front of an expression. -/
def heads : Token → Option Level
  | .keyword .set => some .expression
  | .keyword .not => some .negation
  | .operator .plus | .operator .minus => some .sign
  | _ => none

/-- The level at which a token goes on with an expression. The words that go on with an `if` belong
to the atom that it is. -/
def joins : Token → Option Level
  | .keyword .and | .keyword .or => some .connective
  | .keyword .elif | .keyword .else => some .atom
  | .operator op =>
    match op with
    | .question => some .expression
    | .equal | .notEqual | .greater | .greaterEqual | .less | .lessEqual => some .comparison
    | .plus | .minus => some .additive
    | .star | .slash | .percent => some .multiplicative
    | .caret => some .power
    | .openParen | .openBracket => some .suffix
    | _ => none
  | _ => none

/-- No token joins expressions at the level of signs. -/
theorem joins_ne_sign (token : Token) : token.joins ≠ some .sign := by
  unfold joins
  split
  · simp
  · simp
  · simp
  · simp
  · split <;> simp
  · simp

end Token

namespace Parser

/-- The operators between operands of a level. -/
def selectAt : Level → Token → Option BinaryOp
  | .connective => connective?
  | .comparison => comparison?
  | .additive => additive?
  | .multiplicative => multiplicative?
  | .power => exponential?
  | _ => fun _ => none

/-- An operator of a level joins expressions at it. -/
theorem joins_of_selectAt {level : Level} {token : Token} {op : BinaryOp}
    (h : selectAt level token = some op) : token.joins = some level := by
  cases level with
  | expression | negation | sign | suffix | atom => cases h
  | _ =>
    cases token with
    | keyword word =>
      cases word <;> simp_all [selectAt, connective?, comparison?, additive?, multiplicative?,
        exponential?, Token.joins]
    | operator sign =>
      cases sign <;> simp_all [selectAt, connective?, comparison?, additive?, multiplicative?,
        exponential?, Token.joins]
    | number | text | identifier | eof => cases h

/-- A sign heads the level of signs. -/
theorem heads_of_sign? {token : Token} {op : UnaryOp} (h : sign? token = some op) :
    token.heads = some .sign := by
  cases token with
  | operator sign => cases sign <;> simp_all [sign?, Token.heads]
  | number | text | identifier | keyword | eof => cases h

/-- A token that starts an atom heads no other level. -/
theorem heads_of_atomStart? {token first : Token} (h : atomStart? token = some first) :
    token.heads = none := by
  cases token with
  | keyword word => cases word <;> simp_all [atomStart?, Token.heads]
  | operator op => cases op <;> simp_all [atomStart?, Token.heads]
  | number | text | identifier | eof => rfl

theorem selectAt_token (op : BinaryOp) : selectAt op.level op.token = some op := by
  cases op <;> rfl

section

variable (stop : Span) (bound : Nat) (self : Goal → Parser Node)

/-- The rule for expressions of at least a level. -/
def ruleAt : Level → Parser Node
  | .expression => expression stop bound self
  | .connective => chain bound (comparison stop bound self) (comparison stop bound self) connective?
  | .negation => comparison stop bound self
  | .comparison => chain bound (arithmetic stop bound self) (arithmetic stop bound self) comparison?
  | .additive => arithmetic stop bound self
  | .multiplicative => term stop bound self
  | .sign => factor stop bound self
  | .power => power stop bound self
  | .suffix => call stop bound self
  | .atom => atom stop bound self

/-- The rule for what follows an operator of a level. -/
def operandAt : Level → Parser Node
  | .connective => comparison stop bound self
  | .comparison => arithmetic stop bound self
  | .additive => term stop bound self
  | .multiplicative => factor stop bound self
  | _ => self .factor

/-- What is left of a ternary, or of nothing at all, behind its condition. -/
def ternaryFrom (cond : Node) : Parser Node := do
  match ← acceptOperator .question with
  | none => return cond
  | some _ =>
    let yes ← self .expression
    let _ ← require stop .colon
    let no ← self .expression
    return ⟨.ternary cond yes no, cond.span.merge no.span⟩

/-- How a level goes on behind an expression, for at most `k` rounds. -/
def loopAt (level : Level) (k : Nat) (node : Node) : Parser Node :=
  match level with
  | .expression => ternaryFrom stop self node
  | .suffix => suffixesFrom stop bound self k node
  | level => chainFrom (operandAt stop bound self level) (selectAt level) k node

end

section

variable {stop : Span} {bound : Nat} {self : Goal → Parser Node}
variable {ahead rest : List Lexeme} {saved : Option Abandoned} {node : Node}

/-- A chain ends at a token that is no operator of it. -/
theorem chainFrom_of_none {operand : Parser Node} {select : Token → Option BinaryOp} {k : Nat}
    (h : (nextToken? rest).bind select = none) :
    chainFrom operand select k node ⟨rest, saved⟩ = .ok node ⟨rest, saved⟩ := by
  cases k with
  | zero => rfl
  | succ k =>
    rw [chainFrom, accept_bind_of_none h]
    rfl

/-- A chain without operators is no loop at all. -/
theorem chainFrom_empty (operand : Parser Node) (k : Nat) :
    chainFrom operand (fun _ => none) k = pure := by
  funext node s
  refine chainFrom_of_none ?_
  cases nextToken? s.ahead <;> rfl

/-- A level goes no further if the next token does not join there. -/
theorem loopAt_of_not_joins {level : Level} {k : Nat}
    (h : ∀ token, nextToken? rest = some token → token.joins ≠ some level) :
    loopAt stop bound self level k node ⟨rest, saved⟩ = .ok node ⟨rest, saved⟩ := by
  have hne : ∀ token : Token, token.joins = some level → nextToken? rest ≠ some token :=
    fun token hjoins hnext => h token hnext hjoins
  have hselect : (nextToken? rest).bind (selectAt level) = none := by
    rw [Option.bind_eq_none_iff]
    intro token hnext
    cases hsel : selectAt level token with
    | none => rfl
    | some op => exact absurd (joins_of_selectAt hsel) (h token hnext)
  -- The loops of ternaries and of suffixes look for tokens of their own, all others for operators
  -- of their level.
  cases level with
  | expression =>
    rw [loopAt, ternaryFrom, acceptOperator_bind_of_ne (hne _ rfl)]
    rfl
  | suffix =>
    rw [loopAt]
    cases k with
    | zero => rfl
    | succ k =>
      rw [suffixesFrom, acceptOperator_bind_of_ne (hne _ rfl)]
      simp only
      rw [acceptOperator_bind_of_ne (hne _ rfl)]
      rfl
  | _ => exact chainFrom_of_none hselect

/-- A level reads an expression of the next tighter level and goes on from there, unless the first
token heads this very level. -/
theorem ruleAt_eq_bind {level : Level} (hlevel : level.rank < Level.atom.rank)
    (h : ∀ token, nextToken? ahead = some token → token.heads ≠ some level) :
    ruleAt stop bound self level ⟨ahead, saved⟩ =
      (ruleAt stop bound self level.tighter >>= loopAt stop bound self level bound)
        ⟨ahead, saved⟩ := by
  have hne : ∀ token : Token, token.heads = some level → nextToken? ahead ≠ some token :=
    fun token hheads hnext => h token hnext hheads
  cases level with
  | expression =>
    rw [ruleAt, expression, acceptKeyword_bind_of_ne (hne _ rfl)]
    rfl
  | negation =>
    -- Levels with operators in front have none to go on with.
    have hloop : loopAt stop bound self .negation bound = pure := chainFrom_empty _ _
    rw [ruleAt, comparison, acceptKeyword_bind_of_ne (hne _ rfl), hloop, bind_pure]
    rfl
  | sign =>
    have hloop : loopAt stop bound self .sign bound = pure := chainFrom_empty _ _
    have hsign : (nextToken? ahead).bind sign? = none := by
      rw [Option.bind_eq_none_iff]
      intro token hnext
      cases hsel : sign? token with
      | none => rfl
      | some op => exact absurd (heads_of_sign? hsel) (h token hnext)
    rw [ruleAt, factor, accept_bind_of_none hsign, hloop, bind_pure]
    rfl
  | atom => cases Nat.lt_irrefl _ hlevel
  | _ => rfl

/-! ## Where an expression ends -/

/-- The next token joins at looser levels only. An expression of this level ends here. -/
def EndsAt (level : Level) (rest : List Lexeme) : Prop :=
  ∀ token joint, nextToken? rest = some token → token.joins = some joint → joint.rank < level.rank

theorem EndsAt.mono {level level' : Level} (h : EndsAt level rest)
    (hle : level.rank ≤ level'.rank) :
    EndsAt level' rest :=
  fun token joint hnext hjoins => Nat.lt_of_lt_of_le (h token joint hnext hjoins) hle

/-- The loop of a level ends where expressions of the level do. -/
theorem EndsAt.loopAt {level : Level} (h : EndsAt level rest) (k : Nat) :
    loopAt stop bound self level k node ⟨rest, saved⟩ = .ok node ⟨rest, saved⟩ :=
  loopAt_of_not_joins fun token hnext hjoins => Nat.lt_irrefl _ (h token level hnext hjoins)

/-- The first token heads no level that is looser. -/
def HeadsAt (level : Level) (ahead : List Lexeme) : Prop :=
  ∀ token head, nextToken? ahead = some token → token.heads = some head → level.rank ≤ head.rank

/-- One level down: what the tighter level reads, the looser one goes on from. -/
theorem ruleAt_eq_loopAt {level level' : Level} (hlt : level.rank + 1 = level'.rank)
    (hrun : ruleAt stop bound self level' ⟨ahead, saved⟩ = .ok node ⟨rest, saved⟩)
    (hheads : HeadsAt level' ahead) :
    ruleAt stop bound self level ⟨ahead, saved⟩
      = Parser.loopAt stop bound self level bound node ⟨rest, saved⟩ := by
  have hatom : level.rank < Level.atom.rank :=
    Nat.lt_of_lt_of_le (by omega) (Level.rank_le_atom level')
  have htighter : level.tighter = level' :=
    Level.eq_of_rank_eq (by rw [Level.rank_tighter hatom, hlt])
  have hhead : ∀ token, nextToken? ahead = some token → token.heads ≠ some level :=
    fun token hnext hheads' => by
      have hle := hheads token level hnext hheads'
      omega
  rw [ruleAt_eq_bind hatom hhead, htighter, bind_of_ok hrun]

/-- What a tighter level reads, a looser level reads too, if the expression ends there. -/
theorem ruleAt_of_tighter {level level' : Level} (hle : level.rank ≤ level'.rank)
    (hrun : ruleAt stop bound self level' ⟨ahead, saved⟩ = .ok node ⟨rest, saved⟩)
    (hheads : HeadsAt level' ahead) (hends : EndsAt level rest) :
    ruleAt stop bound self level ⟨ahead, saved⟩ = .ok node ⟨rest, saved⟩ := by
  -- The induction goes down from the tighter level, one level at a time.
  obtain ⟨d, hd⟩ := Nat.le.dest hle
  induction d generalizing level with
  | zero =>
    obtain rfl : level = level' := Level.eq_of_rank_eq hd
    exact hrun
  | succ d ih =>
    have hatom : level.rank < Level.atom.rank :=
      Nat.lt_of_lt_of_le (by omega) (Level.rank_le_atom level')
    have hrank : level.tighter.rank = level.rank + 1 := Level.rank_tighter hatom
    have htighter : ruleAt stop bound self level.tighter ⟨ahead, saved⟩ = .ok node ⟨rest, saved⟩ :=
      ih (by omega) (hends.mono (by omega)) (by omega)
    have hheads' : HeadsAt level.tighter ahead := fun token head hnext hhead =>
      Nat.le_trans (by omega) (hheads token head hnext hhead)
    rw [ruleAt_eq_loopAt hrank.symm htighter hheads']
    exact hends.loopAt bound

end

end Parser

end Script
