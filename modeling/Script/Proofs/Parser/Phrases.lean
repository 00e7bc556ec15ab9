import Script.Proofs.Parser.Levels
import Script.Proofs.Parser.Predictive
import Script.Proofs.Tree.Bare

/-!
# Phrases

A `Phrase` of a level is a list of tokens that the rule of that level reads as a certain tree,
whatever stands behind it, provided that this does not go on with the phrase. For each production of
the grammar there is a lemma here that makes a phrase of its parts.

## Shape of a phrase

The levels whose operators group to the left are special. Where the left operand of such an operator
ends the rule of its level has not come to its end: it is in the middle of its loop. So what is said
of a phrase is that the rule comes to be in its loop right behind it (`Phrase.run`), with rounds
left for all that follows. If nothing joins there, the loop ends (`Phrase.closed`).

Trees are compared bare, since tokens do not tell where they stand.
-/

namespace Script

/-- Whether the operators of a level group to the left. -/
def Level.groupsLeft : Level → Bool
  | .connective | .comparison | .additive | .multiplicative | .suffix => true
  | _ => false

namespace BinaryOp

variable {op : BinaryOp}

theorem leftLevel_eq_level (h : op.level ≠ .power) : op.leftLevel = op.level := by
  cases op <;> simp_all [leftLevel, level]

/-- All operators but powers group to the left. -/
theorem groupsLeft_level (h : op.level ≠ .power) : op.level.groupsLeft = true := by
  cases op <;> simp_all [level, Level.groupsLeft]

end BinaryOp

namespace Parser

/-- Lexemes that spell a token and more. -/
theorem eq_cons_of_map {lexemes : List Lexeme} {token : Token} {after : List Token}
    (h : lexemes.map Lexeme.token = token :: after) :
    ∃ place back, lexemes = ⟨token, place⟩ :: back ∧ back.map Lexeme.token = after := by
  obtain ⟨⟨token, place⟩, back, rfl, rfl, hafter⟩ := List.map_eq_cons_iff.mp h
  exact ⟨place, back, rfl, hafter⟩

/-- Lexemes that spell some tokens, one more, and more. -/
theorem eq_append_cons_of_map {lexemes : List Lexeme} {token : Token} {before after : List Token}
    (h : lexemes.map Lexeme.token = before ++ token :: after) :
    ∃ front place back, lexemes = front ++ ⟨token, place⟩ :: back ∧
      front.map Lexeme.token = before ∧ back.map Lexeme.token = after := by
  obtain ⟨front, others, rfl, hbefore, hothers⟩ := List.map_eq_append_iff.mp h
  obtain ⟨place, back, rfl, hafter⟩ := eq_cons_of_map hothers
  exact ⟨front, place, back, rfl, hbefore, hafter⟩

/-- An expression ends in front of a token that joins nowhere. -/
theorem endsAt_cons {level : Level} {token : Token} {place : Span} {rest : List Lexeme}
    (h : token.joins = none) : EndsAt level (⟨token, place⟩ :: rest) := by
  intro _ joint hnext hjoins
  cases hnext
  rw [h] at hjoins
  cases hjoins

/-- An expression ends in front of a token that joins at a looser level. -/
theorem endsAt_cons_of_joins {level joint : Level} {token : Token} {place : Span}
    {rest : List Lexeme} (h : token.joins = some joint) (hlt : joint.rank < level.rank) :
    EndsAt level (⟨token, place⟩ :: rest) := by
  intro _ joint' hnext hjoins
  cases hnext
  rw [h, Option.some.injEq] at hjoins
  exact hjoins ▸ hlt

/-- The next token does not go on with anything inside of an expression of this level. -/
def PausesAt (level : Level) (rest : List Lexeme) : Prop :=
  ∀ token joint, nextToken? rest = some token → token.joins = some joint →
    if level.groupsLeft then joint.rank ≤ level.rank else joint.rank < level.rank

/-- An expression pauses where it ends. -/
theorem EndsAt.pausesAt {level : Level} {rest : List Lexeme} (h : EndsAt level rest) :
    PausesAt level rest := by
  intro token joint hnext hjoins
  have hlt := h token joint hnext hjoins
  split
  · exact Nat.le_of_lt hlt
  · exact hlt

/-- At a level that does not group to the left an expression ends where it pauses. -/
theorem PausesAt.endsAt {level : Level} {rest : List Lexeme} (h : PausesAt level rest)
    (hlevel : level.groupsLeft = false) : EndsAt level rest := by
  intro token joint hnext hjoins
  have hlt := h token joint hnext hjoins
  rw [hlevel] at hlt
  simpa using hlt

/-- Where a looser expression pauses, a tighter one ends. -/
theorem PausesAt.endsAt_of_lt {level level' : Level} {rest : List Lexeme} (h : PausesAt level rest)
    (hlt : level.rank < level'.rank) : EndsAt level' rest := by
  intro token joint hnext hjoins
  have hle := h token joint hnext hjoins
  split at hle <;> omega

/-- A level that groups to the left pauses in front of what joins there. -/
theorem pausesAt_cons {level : Level} {token : Token} {place : Span} {rest : List Lexeme}
    (hlevel : level.groupsLeft = true) (hjoins : token.joins = some level) :
    PausesAt level (⟨token, place⟩ :: rest) := by
  intro _ joint hnext hjoint
  cases hnext
  rw [hjoins, Option.some.injEq] at hjoint
  simp [hlevel, hjoint.symm]

/-- Tokens that the rule of a level reads as a tree. -/
structure Phrase (stop : Span) (level : Level) (tokens : List Token) (node : Node) : Prop where
  /-- There is a first token, it starts an expression, and it heads no looser level. -/
  starts : ∃ first others, tokens = first :: others ∧ first.startsExpression = true ∧
    ∀ head, first.heads = some head → level.rank ≤ head.rank
  /-- The rule comes to be in its loop behind the tokens. -/
  run : ∀ {n bound : Nat} (lexemes rest : List Lexeme) (saved : Option Abandoned), n ≤ bound →
    lexemes.map Lexeme.token = tokens → (lexemes ++ rest).length ≤ n + 1 → PausesAt level rest →
    ∃ node' k, node'.bare = node.bare ∧ rest.length ≤ k ∧
      ruleAt stop bound (predictGoal stop n) level ⟨lexemes ++ rest, saved⟩
        = loopAt stop bound (predictGoal stop n) level k node' ⟨rest, saved⟩

/-- The loop of a level that groups to the left goes on with operands of the level to the right. -/
theorem loopAt_level_eq {op : BinaryOp} (h : op.level ≠ .power) (stop : Span) (bound : Nat)
    (self : Goal → Parser Node) (k : Nat) (node : Node) :
    loopAt stop bound self op.level k node
      = chainFrom (ruleAt stop bound self op.rightLevel) (selectAt op.level) k node := by
  cases op with
  | pow => exact absurd rfl h
  | _ => rfl

namespace Phrase

variable {stop : Span} {level : Level} {tokens : List Token} {node : Node}

theorem length_pos (h : Phrase stop level tokens node) {lexemes : List Lexeme}
    (hmap : lexemes.map Lexeme.token = tokens) : 0 < lexemes.length := by
  obtain ⟨first, others, rfl, -, -⟩ := h.starts
  obtain ⟨place, others, rfl, -⟩ := eq_cons_of_map hmap
  exact Nat.zero_lt_succ _

/-- The first token of a phrase heads no looser level. -/
theorem headsAt (h : Phrase stop level tokens node) {lexemes : List Lexeme}
    (hmap : lexemes.map Lexeme.token = tokens) (rest : List Lexeme) :
    HeadsAt level (lexemes ++ rest) := by
  obtain ⟨first, others, rfl, -, hheads⟩ := h.starts
  obtain ⟨place, others, rfl, -⟩ := eq_cons_of_map hmap
  intro token head hnext hhead
  cases hnext
  exact hheads head hhead

/-- A phrase is read if nothing joins behind it. -/
theorem closed (h : Phrase stop level tokens node) {n bound : Nat} {lexemes : List Lexeme}
    (rest : List Lexeme) (saved : Option Abandoned) (hbound : n ≤ bound)
    (hmap : lexemes.map Lexeme.token = tokens) (hlength : (lexemes ++ rest).length ≤ n + 1)
    (hends : EndsAt level rest) :
    ∃ node', node'.bare = node.bare ∧
      ruleAt stop bound (predictGoal stop n) level ⟨lexemes ++ rest, saved⟩
        = .ok node' ⟨rest, saved⟩ := by
  obtain ⟨node', k, hbare, -, hrun⟩ := h.run lexemes rest saved hbound hmap hlength hends.pausesAt
  exact ⟨node', hbare, hrun.trans (hends.loopAt k)⟩

/-- A phrase of a level that does not group to the left is one that is read. -/
theorem of_closed (hlevel : level.groupsLeft = false)
    (hstarts : ∃ first others, tokens = first :: others ∧ first.startsExpression = true ∧
      ∀ head, first.heads = some head → level.rank ≤ head.rank)
    (hrun : ∀ (n bound : Nat) (lexemes rest : List Lexeme) (saved : Option Abandoned), n ≤ bound →
      lexemes.map Lexeme.token = tokens → (lexemes ++ rest).length ≤ n + 1 → EndsAt level rest →
      ∃ node', node'.bare = node.bare ∧
        ruleAt stop bound (predictGoal stop n) level ⟨lexemes ++ rest, saved⟩
          = .ok node' ⟨rest, saved⟩) : Phrase stop level tokens node where
  starts := hstarts
  run := by
    intro n bound lexemes rest saved hbound hmap hlength hpauses
    have hends := hpauses.endsAt hlevel
    obtain ⟨node', hbare, hread⟩ := hrun n bound lexemes rest saved hbound hmap hlength hends
    exact ⟨node', rest.length, hbare, Nat.le_refl _, hread.trans (hends.loopAt _).symm⟩

/-- A phrase of a tighter level is one of a looser level. -/
theorem lift {level' : Level} (h : Phrase stop level' tokens node)
    (hle : level.rank ≤ level'.rank) :
    Phrase stop level tokens node := by
  rcases Nat.eq_or_lt_of_le hle with heq | hlt
  · exact Level.eq_of_rank_eq heq ▸ h
  obtain ⟨first, others, hcons, hfirst, hheads⟩ := h.starts
  refine ⟨⟨first, others, hcons, hfirst, fun head hhead => Nat.le_trans hle (hheads head hhead)⟩,
    ?_⟩
  intro n bound lexemes rest saved hbound hmap hlength hpauses
  have hatom : level.rank < Level.atom.rank := Nat.lt_of_lt_of_le hlt (Level.rank_le_atom level')
  have hrank : level.tighter.rank = level.rank + 1 := Level.rank_tighter hatom
  obtain ⟨node', hbare, hread⟩ := h.closed rest saved hbound hmap hlength (hpauses.endsAt_of_lt hlt)
  have htighter := ruleAt_of_tighter (by omega) hread (h.headsAt hmap rest)
    (hpauses.endsAt_of_lt (by omega : level.rank < level.tighter.rank))
  have hheads' : HeadsAt level.tighter (lexemes ++ rest) := fun token head hnext hhead =>
    Nat.le_trans (by omega) (h.headsAt hmap rest token head hnext hhead)
  refine ⟨node', bound, hbare, ?_, ruleAt_eq_loopAt hrank.symm htighter hheads'⟩
  -- The phrase has a token at least, so the loop has rounds enough for the rest.
  have hpos := h.length_pos hmap
  simp only [List.length_append] at hlength
  omega

/-- A phrase is read by the goal that stands for its level. -/
theorem goal (goal : Goal) (h : Phrase stop level tokens node)
    (hgoal : ∀ bound self, Predictive.goal stop bound self goal = ruleAt stop bound self level)
    {n : Nat} {lexemes : List Lexeme} (rest : List Lexeme) (saved : Option Abandoned)
    (hmap : lexemes.map Lexeme.token = tokens) (hlength : (lexemes ++ rest).length ≤ n)
    (hends : EndsAt level rest) :
    ∃ node', node'.bare = node.bare ∧
      predictGoal stop n goal ⟨lexemes ++ rest, saved⟩ = .ok node' ⟨rest, saved⟩ := by
  obtain ⟨first, others, rfl, -, -⟩ := h.starts
  obtain ⟨place, others, rfl, -⟩ := eq_cons_of_map hmap
  cases n with
  | zero => simp at hlength
  | succ n =>
    rw [predictGoal, hgoal]
    exact h.closed rest saved (Nat.le_succ n) hmap hlength hends

/-! ## Operators -/

/-- The phrases of an operator that groups to the left. -/
theorem binary {op : BinaryOp} (hop : op.level ≠ .power) {before after : List Token}
    {left right : Node} (hleft : Phrase stop op.leftLevel before left)
    (hright : Phrase stop op.rightLevel after right) (span : Span) :
    Phrase stop op.level (before ++ op.token :: after) ⟨.binary left op right, span⟩ := by
  have hrank : op.level.rank < op.rightLevel.rank := by
    cases op <;> simp_all [BinaryOp.level, BinaryOp.rightLevel, Level.rank]
  rw [BinaryOp.leftLevel_eq_level hop] at hleft
  obtain ⟨first, others, rfl, hfirst, hheads⟩ := hleft.starts
  refine ⟨⟨first, _, List.cons_append, hfirst, hheads⟩, ?_⟩
  intro n bound lexemes rest saved hbound hmap hlength hpauses
  obtain ⟨front, place, back, rfl, hbefore, hafter⟩ := eq_append_cons_of_map hmap
  simp only [List.append_assoc, List.cons_append, List.length_append, List.length_cons] at hlength ⊢
  have hjoin : PausesAt op.level (⟨op.token, place⟩ :: (back ++ rest)) :=
    pausesAt_cons (BinaryOp.groupsLeft_level hop) (joins_of_selectAt (selectAt_token op))
  obtain ⟨left', k, hleft', hk, hrun⟩ :=
    hleft.run (n := n) front _ saved hbound hbefore (by simp; omega) hjoin
  -- The left operand pauses the loop of the level, and the operator takes one more round of it.
  obtain ⟨k, rfl⟩ : ∃ j, k = j + 1 := ⟨k - 1, by simp at hk; omega⟩
  obtain ⟨right', hright', hread⟩ := hright.closed (n := n) _ saved hbound hafter
    (by simp; omega) (hpauses.endsAt_of_lt hrank)
  refine ⟨⟨.binary left' op right', left'.span.merge right'.span⟩, k, ?_, ?_, ?_⟩
  · simp [Node.bare, Form.bare, hleft', hright']
  · simp at hk
    omega
  · rw [hrun, loopAt_level_eq hop, loopAt_level_eq hop, chainFrom,
      accept_bind_of_some (selectAt_token op)]
    exact bind_of_ok hread

/-- A power is read if its base and its exponent are, and nothing goes on with it. -/
theorem ruleAt_power {bound : Nat} {self : Goal → Parser Node} {ahead back rest : List Lexeme}
    {saved : Option Abandoned} {place : Span} {left right : Node} (hbound : 0 < bound)
    (hleft : ruleAt stop bound self .suffix ⟨ahead, saved⟩
      = .ok left ⟨⟨.operator .caret, place⟩ :: back, saved⟩) (hheads : HeadsAt .suffix ahead)
    (hright : self .factor ⟨back, saved⟩ = .ok right ⟨rest, saved⟩) (hends : EndsAt .power rest) :
    ruleAt stop bound self .power ⟨ahead, saved⟩
      = .ok ⟨.binary left .pow right, left.span.merge right.span⟩ ⟨rest, saved⟩ := by
  obtain ⟨bound, rfl⟩ : ∃ j, bound = j + 1 := ⟨bound - 1, by omega⟩
  rw [ruleAt_eq_loopAt rfl hleft hheads]
  show chainFrom (self .factor) exponential? (bound + 1) left _ = _
  rw [chainFrom, accept_bind_of_some (a := .pow) rfl]
  simp only
  rw [bind_of_ok hright]
  show loopAt stop (bound + 1) self .power bound _ _ = _
  exact hends.loopAt bound

/-- The phrases of a power, which groups to the right. -/
theorem power {before after : List Token} {left right : Node}
    (hleft : Phrase stop .suffix before left)
    (hright : Phrase stop .sign after right) (span : Span) :
    Phrase stop .power (before ++ .operator .caret :: after) ⟨.binary left .pow right, span⟩ := by
  obtain ⟨first, others, rfl, hfirst, hheads⟩ := hleft.starts
  refine of_closed rfl ⟨first, _, List.cons_append, hfirst, fun head hhead =>
    Nat.le_trans (by decide) (hheads head hhead)⟩ ?_
  intro n bound lexemes rest saved hbound hmap hlength hends
  obtain ⟨front, place, back, rfl, hbefore, hafter⟩ := eq_append_cons_of_map hmap
  simp only [List.append_assoc, List.cons_append, List.length_append, List.length_cons] at hlength ⊢
  have hcaret : EndsAt .suffix (⟨.operator .caret, place⟩ :: (back ++ rest)) :=
    endsAt_cons_of_joins rfl (by decide)
  -- No token joins at the level of the signs.
  have hsign : EndsAt .sign rest := by
    intro token joint hnext hjoins
    have hlt := hends token joint hnext hjoins
    have hne : joint ≠ .sign := by
      rintro rfl
      exact Token.joins_ne_sign token hjoins
    cases joint <;> simp_all [Level.rank]
  obtain ⟨left', hleft', hread⟩ :=
    hleft.closed (n := n) _ saved hbound hbefore (by simp; omega) hcaret
  obtain ⟨right', hright', hgoal⟩ := hright.goal .factor (fun _ _ => rfl) (n := n) _ saved hafter
    (by simp; omega) hsign
  refine ⟨⟨.binary left' .pow right', left'.span.merge right'.span⟩, ?_, ?_⟩
  · simp [Node.bare, Form.bare, hleft', hright']
  · have hpos := hleft.length_pos hbefore
    exact ruleAt_power (by omega) hread (hleft.headsAt hbefore _) hgoal hends

/-- A sign and its operand. -/
theorem factor_of_sign {op : UnaryOp} {bound : Nat} {self : Goal → Parser Node} {sign : Lexeme}
    {ahead rest : List Lexeme} {saved : Option Abandoned} {operand : Node}
    (hsign : sign? sign.token = some op)
    (hself : self .factor ⟨ahead, saved⟩ = .ok operand ⟨rest, saved⟩) :
    factor stop bound self ⟨sign :: ahead, saved⟩
      = .ok ⟨.unary op operand, sign.span.merge operand.span⟩ ⟨rest, saved⟩ := by
  rw [factor, accept_bind_of_some hsign]
  exact bind_of_ok hself

/-- A `not` and its operand. -/
theorem comparison_of_not {bound : Nat} {self : Goal → Parser Node} {place : Span}
    {ahead rest : List Lexeme} {saved : Option Abandoned} {operand : Node}
    (hself : self .comparison ⟨ahead, saved⟩ = .ok operand ⟨rest, saved⟩) :
    comparison stop bound self ⟨⟨.keyword .not, place⟩ :: ahead, saved⟩
      = .ok ⟨.unary .not operand, place.merge operand.span⟩ ⟨rest, saved⟩ := by
  rw [comparison, acceptKeyword_bind_self]
  exact bind_of_ok hself

/-- The phrases of an operator with one operand. -/
theorem unary {op : UnaryOp} {after : List Token} {operand : Node}
    (h : Phrase stop op.level after operand) (span : Span) :
    Phrase stop op.level (op.token :: after) ⟨.unary op operand, span⟩ := by
  have hlevel : op.level.groupsLeft = false := by cases op <;> rfl
  have hhead : op.token.heads = some op.level := by cases op <;> rfl
  refine of_closed hlevel ⟨op.token, after, rfl, by cases op <;> rfl, ?_⟩ ?_
  · intro head hhead'
    rw [hhead, Option.some.injEq] at hhead'
    exact hhead' ▸ Nat.le_refl _
  intro n bound lexemes rest saved hbound hmap hlength hends
  obtain ⟨place, back, rfl, hafter⟩ := eq_cons_of_map hmap
  simp only [List.cons_append, List.length_append, List.length_cons] at hlength ⊢
  -- Each kind of operator belongs to a rule of its own.
  cases op with
  | not =>
    obtain ⟨operand', hoperand, hgoal⟩ :=
      h.goal .comparison (fun _ _ => rfl) (n := n) _ saved hafter
      (by simp; omega) hends
    refine ⟨_, ?_, comparison_of_not hgoal⟩
    simp [Node.bare, Form.bare, hoperand]
  | neg | plus =>
    obtain ⟨operand', hoperand, hgoal⟩ := h.goal .factor (fun _ _ => rfl) (n := n) _ saved hafter
      (by simp; omega) hends
    refine ⟨_, ?_, factor_of_sign rfl hgoal⟩
    simp [Node.bare, Form.bare, hoperand]

/-- The phrases of a ternary. -/
theorem ternary {before middle after : List Token} {cond yes no : Node}
    (hcond : Phrase stop .connective before cond) (hyes : Phrase stop .expression middle yes)
    (hno : Phrase stop .expression after no) (span : Span) :
    Phrase stop .expression
      (before ++ .operator .question :: (middle ++ .operator .colon :: after))
      ⟨.ternary cond yes no, span⟩ := by
  obtain ⟨first, others, rfl, hfirst, hheads⟩ := hcond.starts
  refine of_closed rfl ⟨first, _, List.cons_append, hfirst, fun _ _ => Nat.zero_le _⟩ ?_
  intro n bound lexemes rest saved hbound hmap hlength hends
  obtain ⟨front, question, others, rfl, hbefore, hothers⟩ := eq_append_cons_of_map hmap
  obtain ⟨between, colon, back, rfl, hmiddle, hafter⟩ := eq_append_cons_of_map hothers
  simp only [List.append_assoc, List.cons_append, List.length_append, List.length_cons] at hlength ⊢
  -- The question mark ends the condition, since it joins at the loosest level only.
  have hquestion : EndsAt .connective
      (⟨.operator .question, question⟩
        :: (between ++ ⟨.operator .colon, colon⟩ :: (back ++ rest))) :=
    endsAt_cons_of_joins rfl (by decide)
  obtain ⟨cond', hcond', hread⟩ :=
    hcond.closed (n := n) _ saved hbound hbefore (by simp; omega) hquestion
  obtain ⟨yes', hyes', hgoal⟩ := hyes.goal .expression (fun _ _ => rfl) (n := n)
    (⟨.operator .colon, colon⟩ :: (back ++ rest)) saved hmiddle (by simp; omega) (endsAt_cons rfl)
  obtain ⟨no', hno', hgoal'⟩ := hno.goal .expression (fun _ _ => rfl) (n := n) _ saved hafter
    (by simp; omega) hends
  refine ⟨⟨.ternary cond' yes' no', cond'.span.merge no'.span⟩, ?_, ?_⟩
  · simp [Node.bare, Form.bare, hcond', hyes', hno']
  · rw [ruleAt_eq_loopAt rfl hread (hcond.headsAt hbefore _)]
    show ternaryFrom stop (predictGoal stop n) cond' _ = _
    rw [ternaryFrom, acceptOperator_bind_self]
    simp only
    rw [bind_of_ok hgoal, require_bind_self, bind_of_ok hgoal']
    rfl

/-- The phrases of an assignment. -/
theorem assign {name : String} {after : List Token} {value : Node}
    (h : Phrase stop .expression after value) (span : Span) :
    Phrase stop .expression (.keyword .set :: .identifier name :: .operator .assign :: after)
      ⟨.assign name value, span⟩ := by
  refine of_closed rfl ⟨_, _, rfl, rfl, fun _ _ => Nat.zero_le _⟩ ?_
  intro n bound lexemes rest saved hbound hmap hlength hends
  obtain ⟨place, _, rfl, hset⟩ := eq_cons_of_map hmap
  obtain ⟨_, _, rfl, hname⟩ := eq_cons_of_map hset
  obtain ⟨_, back, rfl, hafter⟩ := eq_cons_of_map hname
  simp only [List.cons_append, List.length_append, List.length_cons] at hlength ⊢
  obtain ⟨value', hvalue, hgoal⟩ := h.goal .expression (fun _ _ => rfl) (n := n) _ saved hafter
    (by simp; omega) hends
  refine ⟨⟨.assign name value', place.merge value'.span⟩, ?_, ?_⟩
  · simp [Node.bare, Form.bare, hvalue]
  · show expression stop bound (predictGoal stop n) _ = _
    rw [expression, acceptKeyword_bind_self]
    simp only
    rw [expectIdentifier_bind_self, require_bind_self, bind_of_ok hgoal]
    rfl

end Phrase

/-! ## Items in brackets -/

/-- Expressions between commas. -/
inductive Items (stop : Span) : List Token → List Node → Prop
  | nil : Items stop [] []
  | cons {tokens others : List Token} {item : Node} {items : List Node}
      (hitem : Phrase stop .expression tokens item) (hitems : Items stop others items) :
      Items stop (tokens ++ if items.isEmpty then [] else .operator .comma :: others)
        (item :: items)

namespace Items

variable {stop : Span} {n bound : Nat} (close : Operator) (place : Span) (rest : List Lexeme)
variable (saved : Option Abandoned)

/-- The items behind those that were read are read, at least one of them, and so is the bracket. -/
theorem itemsFrom {tokens : List Token} {items : List Node} (h : Items stop tokens items)
    (hclose : close ≠ .comma) (hjoins : (Token.operator close).joins = none)
    {lexemes : List Lexeme} (hmap : lexemes.map Lexeme.token = tokens) (hne : items ≠ [])
    (hlength : (lexemes ++ ⟨.operator close, place⟩ :: rest).length ≤ n) {k : Nat}
    (hk : lexemes.length ≤ k) (before : List Node) :
    ∃ items', bareNodes items' = bareNodes items ∧
      Parser.itemsFrom stop (predictGoal stop n) close k before
          ⟨lexemes ++ ⟨.operator close, place⟩ :: rest, saved⟩
        = .ok (before.reverse ++ items', place) ⟨rest, saved⟩ := by
  -- Every item has a token at least, so there are rounds enough.
  induction h generalizing lexemes k before with
  | nil => exact absurd rfl hne
  | @cons tokens others item items hitem hitems ih =>
    cases items with
    | nil =>
      simp only [List.isEmpty_nil, if_true, List.append_nil] at hmap
      obtain ⟨item', hitem', hgoal⟩ := hitem.goal .expression (fun _ _ => rfl) (n := n) _ saved hmap
        hlength (endsAt_cons hjoins)
      have hpos := hitem.length_pos hmap
      obtain ⟨k, rfl⟩ : ∃ j, k = j + 1 := ⟨k - 1, by omega⟩
      refine ⟨[item'], by simp [bareNodes, hitem'], ?_⟩
      rw [Parser.itemsFrom, bind_of_ok hgoal, acceptOperator_bind_of_ne (by simpa using hclose)]
      simp only
      rw [expectOperator_bind_self, List.reverse_cons]
      rfl
    | cons next items =>
      simp only [List.isEmpty_cons, Bool.false_eq_true, if_false] at hmap
      obtain ⟨front, comma, back, rfl, hbefore, hafter⟩ := eq_append_cons_of_map hmap
      simp only [List.append_assoc, List.cons_append, List.length_append, List.length_cons]
        at hlength hk ⊢
      obtain ⟨item', hitem', hgoal⟩ := hitem.goal .expression (fun _ _ => rfl) (n := n)
        (⟨.operator .comma, comma⟩ :: (back ++ ⟨.operator close, place⟩ :: rest)) saved hbefore
        (by simp; omega) (endsAt_cons rfl)
      obtain ⟨k, rfl⟩ : ∃ j, k = j + 1 := ⟨k - 1, by omega⟩
      obtain ⟨items', hitems', hrun⟩ := ih (k := k) hafter (List.cons_ne_nil _ _) (by simp; omega)
        (by omega) (item' :: before)
      refine ⟨item' :: items', ?_, ?_⟩
      · rw [bareNodes, bareNodes, hitem', hitems']
      · rw [Parser.itemsFrom, bind_of_ok hgoal, acceptOperator_bind_self]
        simp only
        rw [hrun, List.reverse_cons, List.append_assoc, List.singleton_append]

/-- Items and their closing bracket are read. -/
theorem read {tokens : List Token} {items : List Node} (h : Items stop tokens items)
    (hclose : close ≠ .comma) (hjoins : (Token.operator close).joins = none)
    (hstarts : (Token.operator close).startsExpression = false) {lexemes : List Lexeme}
    (hbound : n ≤ bound) (hmap : lexemes.map Lexeme.token = tokens)
    (hlength : (lexemes ++ ⟨.operator close, place⟩ :: rest).length ≤ n) :
    ∃ items', bareNodes items' = bareNodes items ∧
      Parser.items stop bound (predictGoal stop n) close
          ⟨lexemes ++ ⟨.operator close, place⟩ :: rest, saved⟩
        = .ok (items', place) ⟨rest, saved⟩ := by
  cases items with
  | nil =>
    cases h
    rw [List.map_eq_nil_iff] at hmap
    subst hmap
    refine ⟨[], rfl, ?_⟩
    rw [List.nil_append, Parser.items, acceptOperator_bind_self]
    rfl
  | cons item items =>
    obtain ⟨items', hitems', hrun⟩ := h.itemsFrom close place rest saved (k := bound + 1) hclose
      hjoins hmap (List.cons_ne_nil _ _) hlength (by simp at hlength; omega) []
    -- A closing bracket starts no expression, so the first item is not taken for the end.
    refine ⟨items', hitems', ?_⟩
    rw [Parser.items, acceptOperator_bind_of_ne ?_]
    · exact hrun
    · cases h with
      | cons hitem hitems =>
        obtain ⟨first, others, rfl, hfirst, -⟩ := hitem.starts
        obtain ⟨place, back, rfl, -⟩ := eq_cons_of_map hmap
        rintro ⟨⟩
        rw [hstarts] at hfirst
        cases hfirst

end Items

namespace Phrase

variable {stop : Span} {level : Level} {tokens : List Token} {node : Node}

/-- A phrase goes on with a bracket if one more round of the loop reads what belongs to it. -/
theorem of_suffix {before after : List Token} {target : Node} {opening : Token}
    (hopening : opening.joins = some .suffix) (htarget : Phrase stop .suffix before target)
    (hstep : ∀ (n bound k : Nat) (target' : Node) (lexemes rest : List Lexeme)
      (saved : Option Abandoned) (place : Span), n ≤ bound → target'.bare = target.bare →
      lexemes.map Lexeme.token = after → (lexemes ++ rest).length ≤ n →
      ∃ node', node'.bare = node.bare ∧
        suffixesFrom stop bound (predictGoal stop n) (k + 1) target'
            ⟨⟨opening, place⟩ :: (lexemes ++ rest), saved⟩
          = suffixesFrom stop bound (predictGoal stop n) k node' ⟨rest, saved⟩) :
    Phrase stop .suffix (before ++ opening :: after) node := by
  obtain ⟨first, others, rfl, hfirst, hheads⟩ := htarget.starts
  refine ⟨⟨first, _, List.cons_append, hfirst, hheads⟩, ?_⟩
  intro n bound lexemes rest saved hbound hmap hlength hpauses
  obtain ⟨front, place, back, rfl, hbefore, hafter⟩ := eq_append_cons_of_map hmap
  simp only [List.append_assoc, List.cons_append, List.length_append, List.length_cons] at hlength ⊢
  -- The target pauses the loop at the opening bracket, with a round left for what follows.
  obtain ⟨target', k, htarget', hk, hrun⟩ := htarget.run (n := n) front
    (⟨opening, place⟩ :: (back ++ rest)) saved hbound hbefore (by simp; omega)
    (pausesAt_cons rfl hopening)
  simp only [List.length_cons, List.length_append] at hk
  obtain ⟨k, rfl⟩ : ∃ j, k = j + 1 := ⟨k - 1, by omega⟩
  have hlength' : (back ++ rest).length ≤ n := by
    simp only [List.length_append]
    omega
  obtain ⟨node', hnode, hsuffix⟩ := hstep n bound k target' back rest saved place hbound htarget'
    hafter hlength'
  exact ⟨node', k, hnode, by omega, hrun.trans hsuffix⟩

/-- The phrases of an element access. -/
theorem index {before after : List Token} {target place : Node}
    (htarget : Phrase stop .suffix before target) (hplace : Phrase stop .expression after place)
    (span : Span) :
    Phrase stop .suffix (before ++ .operator .openBracket :: (after ++ [.operator .closeBracket]))
      ⟨.index target place, span⟩ := by
  refine htarget.of_suffix rfl ?_
  intro n bound k target' lexemes rest saved opening hbound htarget' hmap hlength
  obtain ⟨inner, closing, last, rfl, hinner, hlast⟩ := eq_append_cons_of_map hmap
  obtain rfl : last = [] := List.map_eq_nil_iff.mp hlast
  simp only [List.append_assoc, List.cons_append, List.nil_append] at hlength ⊢
  obtain ⟨place', hplace', hgoal⟩ := hplace.goal .expression (fun _ _ => rfl) (n := n)
    (⟨.operator .closeBracket, closing⟩ :: rest) saved hinner hlength (endsAt_cons rfl)
  refine ⟨⟨.index target' place', target'.span.merge closing⟩, ?_, ?_⟩
  · simp [Node.bare, Form.bare, htarget', hplace']
  · rw [suffixesFrom, acceptOperator_bind_of_ne (by simp)]
    simp only
    rw [acceptOperator_bind_self]
    simp only
    rw [bind_of_ok hgoal, require_bind_self]

/-- The phrases of a call. -/
theorem call {before after : List Token} {callee : Node} {args : List Node}
    (hcallee : Phrase stop .suffix before callee) (hargs : Items stop after args) (span : Span) :
    Phrase stop .suffix (before ++ .operator .openParen :: (after ++ [.operator .closeParen]))
      ⟨.call callee args, span⟩ := by
  refine hcallee.of_suffix rfl ?_
  intro n bound k callee' lexemes rest saved opening hbound hcallee' hmap hlength
  obtain ⟨inner, closing, last, rfl, hinner, hlast⟩ := eq_append_cons_of_map hmap
  obtain rfl : last = [] := List.map_eq_nil_iff.mp hlast
  simp only [List.append_assoc, List.cons_append, List.nil_append] at hlength ⊢
  obtain ⟨args', hargs', hitems⟩ := hargs.read .closeParen closing rest saved (by decide) rfl rfl
    hbound hinner hlength
  refine ⟨⟨.call callee' args', callee'.span.merge closing⟩, ?_, ?_⟩
  · simp [Node.bare, Form.bare, hcallee', hargs']
  · rw [suffixesFrom, acceptOperator_bind_self]
    simp only
    rw [bind_of_ok hitems]

/-! ## Atoms -/

/-- A phrase whose first token starts an atom, and which is read from there on. -/
theorem of_atomFrom (hlevel : level.groupsLeft = false) {first : Token} {after : List Token}
    (hfirst : atomStart? first = some first)
    (hrun : ∀ (n bound : Nat) (lexemes rest : List Lexeme) (saved : Option Abandoned)
      (place : Span),
      n ≤ bound → lexemes.map Lexeme.token = after → (lexemes ++ rest).length ≤ n →
      EndsAt level rest → ∃ node', node'.bare = node.bare ∧
        atomFrom stop bound (predictGoal stop n) place first ⟨lexemes ++ rest, saved⟩
          = .ok node' ⟨rest, saved⟩) : Phrase stop level (first :: after) node := by
  have hheads := heads_of_atomStart? hfirst
  refine of_closed hlevel
    ⟨first, after, rfl, ?_, fun _ hhead => by rw [hheads] at hhead; cases hhead⟩ ?_
  · exact (startsExpression_iff first).mpr (by simp [hfirst])
  intro n bound lexemes rest saved hbound hmap hlength hends
  obtain ⟨place, back, rfl, hafter⟩ := eq_cons_of_map hmap
  obtain ⟨node', hbare, hread⟩ := hrun n bound back rest saved place hbound hafter
    (by simp at hlength ⊢; omega) hends
  -- What the tightest rule reads, the rule of every looser level reads.
  refine ⟨node', hbare, ruleAt_of_tighter (Level.rank_le_atom level) ?_ ?_ hends⟩
  · show atom stop bound (predictGoal stop n) ⟨⟨first, place⟩ :: (back ++ rest), saved⟩ = _
    rw [atom_eq_accept, accept_bind_of_some hfirst]
    exact hread
  · intro token head hnext hhead
    cases hnext
    rw [hheads] at hhead
    cases hhead

/-- An atom of one token is read as it stands. -/
theorem of_token {token : Token} {form : Form} (hfirst : atomStart? token = some token)
    (hrun : ∀ bound (self : Goal → Parser Node) place,
      atomFrom stop bound self place token = pure ⟨form, place⟩)
    (span : Span) : Phrase stop .atom [token] ⟨form, span⟩ := by
  refine of_atomFrom rfl hfirst ?_
  intro n bound lexemes rest saved place _ hmap _ _
  obtain rfl : lexemes = [] := List.map_eq_nil_iff.mp hmap
  exact ⟨⟨form, place⟩, rfl, by rw [hrun]; rfl⟩

/-- Parentheses make an atom of any expression. -/
theorem paren (h : Phrase stop .expression tokens node) :
    Phrase stop .atom (.operator .openParen :: (tokens ++ [.operator .closeParen])) node := by
  refine of_atomFrom rfl rfl ?_
  intro n bound lexemes rest saved place hbound hmap hlength _
  obtain ⟨inner, closing, last, rfl, hinner, hlast⟩ := eq_append_cons_of_map hmap
  obtain rfl : last = [] := List.map_eq_nil_iff.mp hlast
  simp only [List.append_assoc, List.cons_append, List.nil_append] at hlength ⊢
  obtain ⟨node', hnode, hgoal⟩ := h.goal .expression (fun _ _ => rfl) (n := n)
    (⟨.operator .closeParen, closing⟩ :: rest) saved hinner hlength (endsAt_cons rfl)
  refine ⟨⟨node'.form, place.merge closing⟩, ?_, ?_⟩
  · rw [← hnode]
    exact Node.bare_eq_iff.mpr rfl
  · rw [atomFrom, bind_of_ok hgoal, require_bind_self]
    rfl

/-- A list in brackets is an atom. -/
theorem list {items : List Node} (h : Items stop tokens items) (span : Span) :
    Phrase stop .atom (.operator .openBracket :: (tokens ++ [.operator .closeBracket]))
      ⟨.list items, span⟩ := by
  refine of_atomFrom rfl rfl ?_
  intro n bound lexemes rest saved place hbound hmap hlength _
  obtain ⟨inner, closing, last, rfl, hinner, hlast⟩ := eq_append_cons_of_map hmap
  obtain rfl : last = [] := List.map_eq_nil_iff.mp hlast
  simp only [List.append_assoc, List.cons_append, List.nil_append] at hlength ⊢
  obtain ⟨items', hitems', hread⟩ :=
    h.read .closeBracket closing rest saved (by decide) rfl rfl hbound hinner hlength
  refine ⟨⟨.list items', place.merge closing⟩, ?_, ?_⟩
  · simp [Node.bare, Form.bare, hitems']
  · rw [atomFrom, bind_of_ok hread]
    rfl

end Phrase

end Parser

end Script
