import Script.Proofs.Parser.Blocks

/-!
# Open phrases

A function whose body is an expression reaches as far as that does. It is an atom by the grammar, so
it may stand wherever an atom may, as in `2 * fun(x) = x`; but nothing can stand behind it that
would join at any level, since the body would take that. The same goes for an operator whose right
operand ends with such a function.

`OpenPhrase` is the notion of a phrase for that case. Its tokens are read at the level they belong
to, provided that nothing joins behind them at all. At the loosest level this is what a phrase is
(`OpenPhrase.expression`).
-/

namespace Script

namespace Parser

/-- There is a first token, it starts an expression, and it heads no looser level. -/
def StartsAt (level : Level) (tokens : List Token) : Prop :=
  ∃ first others, tokens = first :: others ∧ first.startsExpression = true ∧
    ∀ head, first.heads = some head → level.rank ≤ head.rank

theorem StartsAt.append {level : Level} {tokens : List Token} (h : StartsAt level tokens)
    (more : List Token) : StartsAt level (tokens ++ more) := by
  obtain ⟨first, others, rfl, hfirst, hheads⟩ := h
  exact ⟨first, others ++ more, rfl, hfirst, hheads⟩

theorem StartsAt.mono {level level' : Level} {tokens : List Token} (h : StartsAt level' tokens)
    (hle : level.rank ≤ level'.rank) : StartsAt level tokens := by
  obtain ⟨first, others, htokens, hfirst, hheads⟩ := h
  exact ⟨first, others, htokens, hfirst, fun head hhead => Nat.le_trans hle (hheads head hhead)⟩

/-- Lexemes that start an expression of a level head no looser one, whatever follows. -/
theorem StartsAt.headsAt {level : Level} {lexemes : List Lexeme}
    (h : StartsAt level (lexemes.map Lexeme.token)) (rest : List Lexeme) :
    HeadsAt level (lexemes ++ rest) := by
  obtain ⟨first, others, hmap, -, hheads⟩ := h
  obtain ⟨place, others, rfl, -⟩ := eq_cons_of_map hmap
  intro token head hnext hhead
  cases hnext
  exact hheads head hhead

/-- Tokens that the rule of a level reads as a tree if nothing joins behind them. -/
structure OpenPhrase (stop : Span) (level : Level) (tokens : List Token) (node : Node) : Prop where
  starts : StartsAt level tokens
  read : ∀ {n bound : Nat} (lexemes rest : List Lexeme) (saved : Option Abandoned), n ≤ bound →
    lexemes.map Lexeme.token = tokens → (lexemes ++ rest).length ≤ n + 1 → EndsAt .expression rest →
    ∃ node', node'.bare = node.bare ∧
      ruleAt stop bound (predictGoal stop n) level ⟨lexemes ++ rest, saved⟩
        = .ok node' ⟨rest, saved⟩

/-- What ends an expression ends whatever is inside of it. -/
theorem EndsAt.of_expression {rest : List Lexeme} (h : EndsAt .expression rest) (level : Level) :
    EndsAt level rest :=
  h.mono (Nat.zero_le _)

/-- Every phrase is an open one. -/
theorem Phrase.opened {stop : Span} {level : Level} {tokens : List Token} {node : Node}
    (h : Phrase stop level tokens node) : OpenPhrase stop level tokens node where
  starts := h.starts
  read := fun _ rest saved hbound hmap hlength hends =>
    h.closed rest saved hbound hmap hlength (hends.of_expression level)

/-- It does not matter where a tree stands. -/
theorem Phrase.of_bare_eq {stop : Span} {level : Level} {tokens : List Token} {node node' : Node}
    (h : Phrase stop level tokens node) (hbare : node.bare = node'.bare) :
    Phrase stop level tokens node' where
  starts := h.starts
  run := by
    intro n bound lexemes rest saved hbound hmap hlength hpauses
    obtain ⟨found, k, hfound, hk, hrun⟩ := h.run lexemes rest saved hbound hmap hlength hpauses
    exact ⟨found, k, hfound.trans hbare, hk, hrun⟩

namespace OpenPhrase

variable {stop : Span} {level : Level} {tokens : List Token} {node : Node}

/-- What is open at a tighter level is open at a looser one. -/
theorem lift {level' : Level} (h : OpenPhrase stop level' tokens node)
    (hle : level.rank ≤ level'.rank) : OpenPhrase stop level tokens node where
  starts := h.starts.mono hle
  read := by
    intro n bound lexemes rest saved hbound hmap hlength hends
    obtain ⟨node', hbare, hread⟩ := h.read lexemes rest saved hbound hmap hlength hends
    have hheads : HeadsAt level' (lexemes ++ rest) := (hmap ▸ h.starts).headsAt rest
    exact ⟨node', hbare, ruleAt_of_tighter hle hread hheads (hends.of_expression level)⟩

/-- What is open at some level is a phrase of the loosest one. -/
theorem expression (h : OpenPhrase stop level tokens node) : Phrase stop .expression tokens node :=
  have hlift : OpenPhrase stop .expression tokens node := h.lift (Nat.zero_le _)
  .of_closed rfl hlift.starts fun _ _ lexemes rest saved hbound hmap hlength hends =>
    hlift.read lexemes rest saved hbound hmap hlength hends

/-- What is open is read by the goal that stands for its level. -/
theorem goal (goal : Goal) (h : OpenPhrase stop level tokens node)
    (hgoal : ∀ bound self, Predictive.goal stop bound self goal = ruleAt stop bound self level)
    {n : Nat} {lexemes : List Lexeme} (rest : List Lexeme) (saved : Option Abandoned)
    (hmap : lexemes.map Lexeme.token = tokens) (hlength : (lexemes ++ rest).length ≤ n)
    (hends : EndsAt .expression rest) :
    ∃ node', node'.bare = node.bare ∧
      predictGoal stop n goal ⟨lexemes ++ rest, saved⟩ = .ok node' ⟨rest, saved⟩ := by
  obtain ⟨first, others, rfl, -, -⟩ := h.starts
  obtain ⟨place, others, rfl, -⟩ := eq_cons_of_map hmap
  cases n with
  | zero => simp at hlength
  | succ n =>
    rw [predictGoal, hgoal]
    exact h.read _ rest saved (Nat.le_succ n) hmap hlength hends

/-- An operator that groups to the left, with an open right operand. -/
theorem binary {op : BinaryOp} (hop : op.level ≠ .power) {before after : List Token}
    {left right : Node} (hleft : Phrase stop op.leftLevel before left)
    (hright : OpenPhrase stop op.rightLevel after right) (span : Span) :
    OpenPhrase stop op.level (before ++ op.token :: after) ⟨.binary left op right, span⟩ := by
  rw [BinaryOp.leftLevel_eq_level hop] at hleft
  refine ⟨StartsAt.append hleft.starts _, ?_⟩
  intro n bound lexemes rest saved hbound hmap hlength hends
  obtain ⟨front, place, back, rfl, hbefore, hafter⟩ := eq_append_cons_of_map hmap
  simp only [List.append_assoc, List.cons_append, List.length_append, List.length_cons] at hlength ⊢
  have hjoin : PausesAt op.level (⟨op.token, place⟩ :: (back ++ rest)) :=
    pausesAt_cons (BinaryOp.groupsLeft_level hop) (joins_of_selectAt (selectAt_token op))
  obtain ⟨left', k, hleft', hk, hrun⟩ :=
    hleft.run (n := n) front _ saved hbound hbefore (by simp; omega) hjoin
  obtain ⟨k, rfl⟩ : ∃ j, k = j + 1 := ⟨k - 1, by simp at hk; omega⟩
  obtain ⟨right', hright', hread⟩ :=
    hright.read (n := n) back rest saved hbound hafter (by simp; omega) hends
  refine ⟨⟨.binary left' op right', left'.span.merge right'.span⟩, ?_, ?_⟩
  · simp [Node.bare, Form.bare, hleft', hright']
  · rw [hrun, loopAt_level_eq hop, chainFrom, accept_bind_of_some (selectAt_token op)]
    simp only
    rw [bind_of_ok hread, ← loopAt_level_eq hop]
    exact (hends.of_expression op.level).loopAt k

/-- A power with an open exponent. -/
theorem power {before after : List Token} {left right : Node}
    (hleft : Phrase stop .suffix before left)
    (hright : OpenPhrase stop .sign after right) (span : Span) :
    OpenPhrase stop .power (before ++ .operator .caret :: after)
      ⟨.binary left .pow right, span⟩ := by
  refine ⟨(StartsAt.append hleft.starts _).mono (by decide), ?_⟩
  intro n bound lexemes rest saved hbound hmap hlength hends
  obtain ⟨front, place, back, rfl, hbefore, hafter⟩ := eq_append_cons_of_map hmap
  simp only [List.append_assoc, List.cons_append, List.length_append, List.length_cons] at hlength ⊢
  have hcaret : EndsAt .suffix (⟨.operator .caret, place⟩ :: (back ++ rest)) :=
    endsAt_cons_of_joins rfl (by decide)
  obtain ⟨left', hleft', hread⟩ :=
    hleft.closed (n := n) _ saved hbound hbefore (by simp; omega) hcaret
  obtain ⟨right', hright', hgoal⟩ := hright.goal .factor (fun _ _ => rfl) (n := n) rest saved hafter
    (by simp; omega) hends
  refine ⟨⟨.binary left' .pow right', left'.span.merge right'.span⟩, ?_, ?_⟩
  · simp [Node.bare, Form.bare, hleft', hright']
  · have hpos := hleft.length_pos hbefore
    exact Phrase.ruleAt_power (by omega) hread (hleft.headsAt hbefore _) hgoal
      (hends.of_expression .power)

/-- An operator with one operand, which is open. -/
theorem unary {op : UnaryOp} {after : List Token} {operand : Node}
    (h : OpenPhrase stop op.level after operand) (span : Span) :
    OpenPhrase stop op.level (op.token :: after) ⟨.unary op operand, span⟩ := by
  have hhead : op.token.heads = some op.level := by cases op <;> rfl
  refine ⟨⟨op.token, after, rfl, by cases op <;> rfl, ?_⟩, ?_⟩
  · intro head hhead'
    rw [hhead, Option.some.injEq] at hhead'
    exact hhead' ▸ Nat.le_refl _
  intro n bound lexemes rest saved hbound hmap hlength hends
  obtain ⟨place, back, rfl, hafter⟩ := eq_cons_of_map hmap
  simp only [List.cons_append, List.length_append, List.length_cons] at hlength ⊢
  cases op with
  | not =>
    obtain ⟨operand', hoperand, hgoal⟩ :=
      h.goal .comparison (fun _ _ => rfl) (n := n) rest saved hafter
      (by simp; omega) hends
    refine ⟨_, ?_, Phrase.comparison_of_not hgoal⟩
    simp [Node.bare, Form.bare, hoperand]
  | neg | plus =>
    obtain ⟨operand', hoperand, hgoal⟩ := h.goal .factor (fun _ _ => rfl) (n := n) rest saved hafter
      (by simp; omega) hends
    refine ⟨_, ?_, Phrase.factor_of_sign rfl hgoal⟩
    simp [Node.bare, Form.bare, hoperand]

/-- A function whose body is an expression is an open atom. -/
theorem functionExpression {name : Option String} {names : List String} {after : List Token}
    {body : Node} (h : Phrase stop .expression after body) (span : Span) :
    OpenPhrase stop .atom
      (.keyword .fun :: ((name.map Token.identifier).toList ++ .operator .openParen ::
        (printNames names ++ .operator .closeParen :: .operator .assign :: after)))
      ⟨.function ⟨name, names, body, true⟩, span⟩ := by
  refine ⟨⟨_, _, rfl, rfl, fun _ hhead => by cases hhead⟩, ?_⟩
  intro n bound lexemes rest saved hbound hmap hlength hends
  obtain ⟨start, others, rfl, hothers⟩ := eq_cons_of_map hmap
  have htokens : (name.map Token.identifier).toList ++ .operator .openParen ::
      (printNames names ++ .operator .closeParen :: .operator .assign :: after)
      = ((name.map Token.identifier).toList ++ .operator .openParen ::
        (printNames names ++ [.operator .closeParen])) ++ .operator .assign :: after := by simp
  rw [htokens] at hothers
  obtain ⟨front, place, back, rfl, hfront, hback⟩ := eq_append_cons_of_map hothers
  simp only [List.append_assoc, List.cons_append, List.length_append, List.length_cons] at hlength ⊢
  obtain ⟨body', hbody', hgoal⟩ := h.goal .expression (fun _ _ => rfl) (n := n) rest saved hback
    (by simp; omega) hends
  refine ⟨⟨.function ⟨name, names, body', true⟩, start.merge body'.span⟩, ?_, ?_⟩
  · simp [Node.bare, Form.bare, Definition.bare, hbody']
  · show atom stop bound (predictGoal stop n) ⟨⟨.keyword .fun, start⟩ :: _, saved⟩ = _
    rw [atom_eq_accept, accept_bind_of_some (a := .keyword .fun) rfl]
    simp only
    rw [atomFrom, function_eq_functionFrom hfront (by omega), functionFrom,
      acceptOperator_bind_self]
    exact bind_of_ok hgoal

end OpenPhrase

end Parser

end Script
