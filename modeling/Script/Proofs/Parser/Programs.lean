import Script.Proofs.Parser.Readings

/-!
# Programs that were read

A level that reads is a tighter level that reads and a loop (`loopAt_reading`), apart from those
that have a token of their own in front (`headed_reading`). So the induction goes down through the
levels (`ruleAt_consumes`) and, for the whole grammar, up with the number of lexemes ahead
(`predictGoal_consumes`).

A program that was read is a sequence of statements, each one laid over its own lexemes
(`exists_statements_of_parse`).
-/

namespace Script

namespace Parser

section

variable {n bound : Nat} {stop : Span} {self : Goal → Parser Node}
variable {ahead rest : List Lexeme} {saved saved' : Option Abandoned} {node : Node}
variable (hself : ∀ goal, Consumes n (self goal) (GoalReading goal))

include hself

/-! ## Loops -/

omit hself in
theorem stopsAt_nil (level : Level) : StopsAt level [] := fun _ _ hnext => by cases hnext

omit hself in
/-- What ends with an operand is closed or open as that is. -/
theorem Reading.of_right {level level' limit : Level} {own own' : List Lexeme} {right : Node}
    (hright : Reading level' limit own' right rest)
    (hphrase : ∀ stop, Phrase stop level' (own'.map Lexeme.token) right →
      Phrase stop level (own.map Lexeme.token) node)
    (hopened : ∀ stop, OpenPhrase stop level' (own'.map Lexeme.token) right →
      OpenPhrase stop level (own.map Lexeme.token) node)
    (hjump : node.form.isJump = false) (hover : node.span.Over own)
    (hchildren : Arranged own node.children) : Reading level limit own node rest := by
  rcases hright.closed with hclosed | hstops
  · exact .of_phrase (fun stop => hphrase stop (hclosed stop)) hjump hover hchildren hright.stops
  · exact .of_opened (fun stop => hopened stop (hright.opened stop)) hjump hover hchildren hstops

omit hself in
/-- The loop of a level that groups to the left. -/
theorem chainFrom_reading {m k : Nat} {level : Level} (hgroups : level.groupsLeft = true)
    (hsuffix : level ≠ .suffix) {operand : Parser Node}
    (hoperand : Consumes m operand (Reading level.tighter level.tighter)) {own : List Lexeme}
    {left : Node} (hleft : Reading level level.tighter own left ahead) (hlength : ahead.length ≤ m)
    (hk : ahead.length ≤ k) (hapart : Apart (own ++ ahead))
    (h : chainFrom operand (selectAt level) k left ⟨ahead, saved⟩ = .ok node ⟨rest, saved'⟩) :
    ∃ own', ahead = own' ++ rest ∧ Reading level level (own ++ own') node rest := by
  induction k generalizing ahead saved own left with
  | zero =>
    obtain rfl : ahead = [] := List.length_eq_zero_iff.mp (Nat.le_zero.mp hk)
    cases h
    exact ⟨[], rfl, by simpa using hleft.settle (stopsAt_nil level)⟩
  | succ k ih =>
    have hatom : level.rank < Level.atom.rank := by
      cases level <;> simp_all [Level.groupsLeft, Level.rank]
    rw [chainFrom] at h
    rcases ok_of_accept_bind h with ⟨⟨token, place⟩, rest₁, op, rfl, hop, h₁⟩ | ⟨hnone, h₁⟩
    -- One round: what has been read so far is the left operand, and the tighter rule reads the
    -- right one.
    · obtain ⟨rfl, rfl⟩ := eq_of_selectAt hop
      have hpower : op.level ≠ .power := fun heq => by rw [heq] at hgroups; cases hgroups
      have hphrase := hleft.phrase_of_joins op.level rfl (joins_of_selectAt hop) hatom
      obtain ⟨right, rest₂, saved₂, hrun, h₂⟩ := ok_of_bind h₁
      simp only [List.length_cons] at hlength hk
      obtain ⟨own', rfl, hright⟩ := hoperand (by omega) hapart.right.tail hrun
      have hapart' : Apart ((own ++ ⟨op.token, place⟩ :: own') ++ rest₂) := by simpa using hapart
      have hread : Reading op.level op.level.tighter (own ++ ⟨op.token, place⟩ :: own')
          ⟨.binary left op right, left.span.merge right.span⟩ rest₂ := by
        rw [← BinaryOp.rightLevel_eq_tighter hpower] at hright ⊢
        rw [← BinaryOp.leftLevel_eq_level hpower] at hphrase
        refine hright.of_right (fun stop hclosed => ?_) (fun stop hopen => ?_) rfl ?_ ?_
        · simpa using Phrase.binary hpower (hphrase stop) hclosed _
        · simpa using OpenPhrase.binary hpower (hphrase stop) hopen _
        · exact hleft.laid.span_over.merge hright.laid.span_over [⟨op.token, place⟩] rfl
            hapart'.left
        · exact .cons [] rfl hleft.laid (.single [_] hright.laid)
      simp only [List.length_append] at hlength hk
      obtain ⟨own₂, rfl, hread₂⟩ := ih hread (by omega) (by omega) hapart' h₂
      exact ⟨⟨op.token, place⟩ :: (own' ++ own₂), by simp, by simpa using hread₂⟩
    -- No operator of the level comes next, so that the loop stops where expressions of the level
    -- do.
    · cases h₁
      have hne :=
        joins_ne_of_selectAt hnone (fun heq => by rw [heq] at hgroups; cases hgroups) hsuffix
        (fun heq => by rw [heq] at hgroups; cases hgroups)
      exact ⟨[], rfl, by simpa using hleft.settle (.of_tighter level hatom hleft.stops hne)⟩

/-- The loop of the powers, which has one round at most: the exponent takes all that follows. -/
theorem powerFrom_reading {k : Nat} {own : List Lexeme} {left : Node}
    (hleft : Reading .suffix .suffix own left ahead) (hlength : ahead.length ≤ n)
    (hk : ahead.length ≤ k) (hapart : Apart (own ++ ahead))
    (h : chainFrom (self .factor) exponential? k left ⟨ahead, saved⟩ = .ok node ⟨rest, saved'⟩) :
    ∃ own', ahead = own' ++ rest ∧ Reading .power .power (own ++ own') node rest := by
  -- No induction is needed: behind the exponent the loop always stops.
  have hlift : Reading .power .suffix own left ahead := hleft.lift (by decide)
  cases k with
  | zero =>
    obtain rfl : ahead = [] := List.length_eq_zero_iff.mp (Nat.le_zero.mp hk)
    cases h
    exact ⟨[], rfl, by simpa using hlift.settle (stopsAt_nil .power)⟩
  | succ k =>
    rw [chainFrom] at h
    rcases ok_of_accept_bind h with ⟨⟨token, place⟩, rest₁, op, rfl, hop, h₁⟩ | ⟨hnone, h₁⟩
    · have hselect : selectAt .power token = some op := hop
      obtain ⟨hlevel, rfl⟩ := eq_of_selectAt hselect
      obtain rfl : op = .pow := by cases op <;> first | rfl | cases hlevel
      have hphrase := hleft.phrase_of_joins .power rfl (joins_of_selectAt hselect) (by decide)
      obtain ⟨right, rest₂, saved₂, hrun, h₂⟩ := ok_of_bind h₁
      simp only [List.length_cons] at hlength
      obtain ⟨own', rfl, hright⟩ := hself .factor (by omega) hapart.right.tail hrun
      have hright : Reading .sign .power own' right rest₂ :=
        Reading.settle hright (hright.stops.mono (by decide))
      have hapart' : Apart ((own ++ ⟨BinaryOp.pow.token, place⟩ :: own') ++ rest₂) := by
        simpa using hapart
      -- Nothing that joins here is left behind the exponent.
      have hends : chainFrom (self .factor) exponential? k
          ⟨.binary left .pow right, left.span.merge right.span⟩ ⟨rest₂, saved₂⟩
          = .ok ⟨.binary left .pow right, left.span.merge right.span⟩ ⟨rest₂, saved₂⟩ := by
        refine chainFrom_of_none (Option.bind_eq_none_iff.mpr fun token hnext => ?_)
        cases hselect : exponential? token with
        | none => rfl
        | some op =>
          have hjoins : token.joins = some .power :=
            joins_of_selectAt (show selectAt .power token = some op from hselect)
          rcases hright.stops token .power hnext hjoins with hlt | hatom
          · exact absurd hlt (Nat.lt_irrefl _)
          · cases hatom
      rw [hends] at h₂
      cases h₂
      refine ⟨⟨BinaryOp.pow.token, place⟩ :: own', by simp, ?_⟩
      refine hright.of_right (fun stop hclosed => ?_) (fun stop hopen => ?_) rfl ?_ ?_
      · simpa [BinaryOp.token] using Phrase.power (hphrase stop) hclosed _
      · simpa [BinaryOp.token] using OpenPhrase.power (hphrase stop) hopen _
      · exact hleft.laid.span_over.merge hright.laid.span_over [⟨BinaryOp.pow.token, place⟩] rfl
          hapart'.left
      · exact .cons [] rfl hleft.laid (.single [_] hright.laid)
    · cases h₁
      have hnone' : (nextToken? ahead).bind (selectAt .power) = none := hnone
      have hne := joins_ne_of_selectAt hnone' (by decide) (by decide) (by decide)
      exact ⟨[], rfl, by simpa using hlift.settle (.of_tighter .power (by decide) hleft.stops hne)⟩

/-- The loop of calls and accesses. -/
theorem suffixesFrom_reading {k : Nat} {own : List Lexeme} {callee : Node}
    (hcallee : Reading .suffix .atom own callee ahead) (hlength : ahead.length ≤ n)
    (hk : ahead.length ≤ k) (hapart : Apart (own ++ ahead))
    (h : suffixesFrom stop bound self k callee ⟨ahead, saved⟩ = .ok node ⟨rest, saved'⟩) :
    ∃ own', ahead = own' ++ rest ∧ Reading .suffix .suffix (own ++ own') node rest := by
  -- Each round wraps what has been read so far in a call or an access, which ends with a bracket
  -- and is closed.
  induction k generalizing ahead saved own callee with
  | zero =>
    obtain rfl : ahead = [] := List.length_eq_zero_iff.mp (Nat.le_zero.mp hk)
    cases h
    exact ⟨[], rfl, by simpa using hcallee.settle (stopsAt_nil .suffix)⟩
  | succ k ih =>
    rw [suffixesFrom] at h
    rcases ok_of_acceptOperator_bind h with ⟨place, rest₁, rfl, h₁⟩ | ⟨hparen, h₁⟩
    · have hphrase := hcallee.phrase_of_joins .suffix rfl rfl (by decide)
      obtain ⟨⟨args, close⟩, rest₂, saved₂, hrun, h₂⟩ := ok_of_bind h₁
      simp only [List.length_cons] at hlength hk
      obtain ⟨own', rfl, harranged, hitems⟩ := items_reading hself (by omega) hapart.right.tail hrun
      have hapart' : Apart ((own ++ ⟨.operator .openParen, place⟩ ::
          (own' ++ [⟨.operator .closeParen, close⟩])) ++ rest₂) := by simpa using hapart
      have hclose : close.Over [⟨.operator .closeParen, close⟩] := .single ⟨_, close⟩
      have hread : Reading .suffix .atom
          (own ++ ⟨.operator .openParen, place⟩ :: (own' ++ [⟨.operator .closeParen, close⟩]))
          ⟨.call callee args, callee.span.merge close⟩ rest₂ := by
        refine .of_phrase (fun stop => ?_) rfl ?_ ?_ (stopsAt_atom _)
        · simpa using Phrase.call (hphrase stop) (hitems stop) _
        · exact hcallee.laid.span_over.merge hclose (⟨.operator .openParen, place⟩ :: own') rfl
            hapart'.left
        · exact .cons [] rfl hcallee.laid ((harranged.extend [_]).weaken [_])
      simp only [List.length_append, List.length_cons] at hlength hk
      obtain ⟨own₂, rfl, hread₂⟩ := ih hread (by omega) (by omega) hapart' h₂
      exact ⟨⟨.operator .openParen, place⟩
        :: (own' ++ ⟨.operator .closeParen, close⟩ :: own₂), by simp, by simpa using hread₂⟩
    · rcases ok_of_acceptOperator_bind h₁ with ⟨place, rest₁, rfl, h₂⟩ | ⟨hbracket, h₂⟩
      · have hphrase := hcallee.phrase_of_joins .suffix rfl rfl (by decide)
        obtain ⟨index, rest₂, saved₂, hrun, h₃⟩ := ok_of_bind h₂
        simp only [List.length_cons] at hlength hk
        obtain ⟨own', rfl, hindex⟩ := hself .expression (by omega) hapart.right.tail hrun
        obtain ⟨close, rest₃, rfl, h₄⟩ := ok_of_require_bind h₃
        have hapart' : Apart ((own ++ ⟨.operator .openBracket, place⟩ ::
            (own' ++ [⟨.operator .closeBracket, close⟩])) ++ rest₃) := by simpa using hapart
        have hclose : close.Over [⟨.operator .closeBracket, close⟩] := .single ⟨_, close⟩
        have hread : Reading .suffix .atom
            (own ++ ⟨.operator .openBracket, place⟩ :: (own' ++ [⟨.operator .closeBracket, close⟩]))
            ⟨.index callee index, callee.span.merge close⟩ rest₃ := by
          refine .of_phrase (fun stop => ?_) rfl ?_ ?_ (stopsAt_atom _)
          · simpa using Phrase.index (hphrase stop) (hindex.phrase stop) _
          · exact hcallee.laid.span_over.merge hclose (⟨.operator .openBracket, place⟩ :: own') rfl
              hapart'.left
          · exact .cons [] rfl hcallee.laid (.cons [_] rfl hindex.laid (.nil [_]))
        simp only [List.length_append, List.length_cons] at hlength hk
        obtain ⟨own₂, rfl, hread₂⟩ := ih hread (by omega) (by omega) hapart' h₄
        exact ⟨⟨.operator .openBracket, place⟩
          :: (own' ++ ⟨.operator .closeBracket, close⟩ :: own₂), by simp, by simpa using hread₂⟩
      · cases h₂
        -- Only the two opening brackets join at this level, and neither comes next.
        have hne : ∀ token, nextToken? rest = some token → token.joins ≠ some .suffix := by
          intro token hnext hjoins
          rcases Token.eq_of_joins hjoins
            with ⟨-, hlevel⟩ | ⟨rfl | rfl, -⟩ | ⟨-, hlevel⟩ | ⟨op, rfl, hlevel⟩
          · cases hlevel
          · exact hparen hnext
          · exact hbracket hnext
          · cases hlevel
          · cases op <;> cases hlevel
        have hsettled := hcallee.settle (.of_tighter .suffix (by decide) hcallee.stops hne)
        exact ⟨[], rfl, by simpa using hsettled⟩

/-- What is left of a ternary behind its condition, if it is one. -/
theorem ternaryFrom_reading {own : List Lexeme} {cond : Node}
    (hcond : Reading .connective .connective own cond ahead) (hlength : ahead.length ≤ n)
    (hapart : Apart (own ++ ahead))
    (h : ternaryFrom stop self cond ⟨ahead, saved⟩ = .ok node ⟨rest, saved'⟩) :
    ∃ own', ahead = own' ++ rest ∧ Reading .expression .expression (own ++ own') node rest := by
  rw [ternaryFrom] at h
  rcases ok_of_acceptOperator_bind h with ⟨question, rest₁, rfl, h₁⟩ | ⟨hquestion, h₁⟩
  · have hphrase := hcond.phrase_of_joins .expression rfl rfl (by decide)
    obtain ⟨yes, rest₂, saved₂, hrun, h₂⟩ := ok_of_bind h₁
    simp only [List.length_cons] at hlength
    obtain ⟨own₁, rfl, hyes⟩ := hself .expression (by omega) hapart.right.tail hrun
    obtain ⟨colon, rest₃, rfl, h₃⟩ := ok_of_require_bind h₂
    obtain ⟨no, rest₄, saved₄, hrun₁, h₄⟩ := ok_of_bind h₃
    simp only [List.length_append, List.length_cons] at hlength
    obtain ⟨own₂, rfl, hno⟩ := hself .expression (by omega) hapart.right.tail.right.tail hrun₁
    cases h₄
    refine ⟨⟨.operator .question, question⟩ :: (own₁ ++ ⟨.operator .colon, colon⟩ :: own₂), by simp,
      .of_phrase (fun stop => ?_) rfl ?_ ?_ hno.stops⟩
    · simpa using Phrase.ternary (hphrase stop) (hyes.phrase stop) (hno.phrase stop) _
    · exact hcond.laid.span_over.merge hno.laid.span_over
        (⟨.operator .question, question⟩ :: (own₁ ++ [⟨.operator .colon, colon⟩])) (by simp)
        (hapart.of_eq rest (by simp))
    · exact .cons [] rfl hcond.laid (.cons [_] rfl hyes.laid (.single [_] hno.laid))
  -- Without a question mark the condition is the whole expression.
  · have hlift : Reading .expression .connective own cond ahead := hcond.lift (by decide)
    cases h₁
    have hne : ∀ token, nextToken? ahead = some token → token.joins ≠ some .expression := by
      intro token hnext hjoins
      rcases Token.eq_of_joins hjoins with ⟨rfl, -⟩ | ⟨-, hlevel⟩ | ⟨-, hlevel⟩ | ⟨op, rfl, hlevel⟩
      · exact hquestion hnext
      · cases hlevel
      · cases hlevel
      · cases op <;> cases hlevel
    have hsettled := hlift.settle (.of_tighter .expression (by decide) hcond.stops hne)
    exact ⟨[], rfl, by simpa using hsettled⟩

/-- How a level goes on behind an expression of the next tighter level. -/
theorem loopAt_reading {level : Level} (hlevel : level.rank < Level.atom.rank) {k : Nat}
    (htighter : Consumes (n + 1) (ruleAt stop bound self level.tighter)
      (Reading level.tighter level.tighter)) {own : List Lexeme} {left : Node}
    (hleft : Reading level.tighter level.tighter own left ahead) (hlength : ahead.length ≤ n)
    (hk : ahead.length ≤ k) (hapart : Apart (own ++ ahead))
    (h : loopAt stop bound self level k left ⟨ahead, saved⟩ = .ok node ⟨rest, saved'⟩) :
    ∃ own', ahead = own' ++ rest ∧ Reading level level (own ++ own') node rest := by
  have hrank := Level.rank_tighter hlevel
  have hlift : Reading level level.tighter own left ahead := hleft.lift (by omega)
  -- A level without operators of its own has no loop.
  have hempty : selectAt level = (fun _ => none) → level ≠ .expression → level ≠ .suffix →
      loopAt stop bound self level k = pure →
      ∃ own', ahead = own' ++ rest ∧ Reading level level (own ++ own') node rest := by
    intro hselect hexpression hsuffix hloop
    rw [hloop] at h
    cases h
    have hnone : (nextToken? ahead).bind (selectAt level) = none := by
      rw [hselect]
      cases nextToken? ahead <;> rfl
    have hne := joins_ne_of_selectAt hnone hexpression hsuffix
      (fun heq => by rw [heq] at hlevel; exact Nat.lt_irrefl _ hlevel)
    exact ⟨[], rfl, by simpa using hlift.settle (.of_tighter level hlevel hleft.stops hne)⟩
  have hsucc : ahead.length ≤ n + 1 := Nat.le_succ_of_le hlength
  cases level with
  | expression => exact ternaryFrom_reading hself hleft hlength hapart h
  | negation | sign => exact hempty rfl (by decide) (by decide) (chainFrom_empty _ _)
  | suffix => exact suffixesFrom_reading hself hlift hlength hk hapart h
  | power => exact powerFrom_reading hself hleft hlength hk hapart h
  | atom => cases Nat.lt_irrefl _ hlevel
  | connective | comparison | additive | multiplicative =>
    exact chainFrom_reading rfl (by decide) htighter hlift hsucc hk hapart h

omit hself in
/-- An operator with one operand is read as its operand is. -/
theorem Reading.unary {op : UnaryOp} {place : Span} {own : List Lexeme} {operand : Node}
    (h : Reading op.level op.level own operand rest) (hapart : Apart (⟨op.token, place⟩ :: own)) :
    Reading op.level op.level (⟨op.token, place⟩ :: own)
      ⟨.unary op operand, place.merge operand.span⟩
      rest :=
  h.of_right (fun _ hclosed => Phrase.unary hclosed _) (fun _ hopen => OpenPhrase.unary hopen _) rfl
    (.merge (.single ⟨op.token, place⟩) h.laid.span_over [] rfl hapart) (.single [_] h.laid)

/-- An expression whose first token heads its level. -/
theorem headed_reading {level : Level} {token : Token} {place : Span}
    (hheads : token.heads = some level)
    (hlength : ahead.length ≤ n) (hapart : Apart (⟨token, place⟩ :: ahead))
    (h : ruleAt stop bound self level ⟨⟨token, place⟩ :: ahead, saved⟩ = .ok node ⟨rest, saved'⟩) :
    ∃ own, ahead = own ++ rest ∧ Reading level level (⟨token, place⟩ :: own) node rest := by
  -- The tokens that head a level are `set` and those of the unary operators.
  rcases Token.eq_of_heads hheads with ⟨rfl, rfl⟩ | ⟨op, rfl, rfl⟩
  · rw [ruleAt, expression, acceptKeyword_bind_self] at h
    obtain ⟨name, place₁, rest₁, rfl, h₁⟩ := ok_of_expectIdentifier_bind h
    obtain ⟨place₂, rest₂, rfl, h₂⟩ := ok_of_require_bind h₁
    obtain ⟨value, rest₃, saved₃, hrun, h₃⟩ := ok_of_bind h₂
    simp only [List.length_cons] at hlength
    obtain ⟨own, rfl, hvalue⟩ := hself .expression (by omega) hapart.tail.tail.tail hrun
    cases h₃
    refine ⟨⟨.identifier name, place₁⟩ :: ⟨.operator .assign, place₂⟩ :: own, rfl,
      .of_phrase (fun stop => ?_) rfl ?_ ?_ hvalue.stops⟩
    · exact Phrase.assign (hvalue.phrase stop) _
    · exact Span.Over.merge (.single ⟨_, place⟩) hvalue.laid.span_over
        [⟨.identifier name, place₁⟩, ⟨.operator .assign, place₂⟩] rfl (hapart.of_eq rest rfl)
    · exact .single [_, _, _] hvalue.laid
  · cases op with
    | not =>
      change comparison stop bound self ⟨⟨.keyword .not, place⟩ :: ahead, saved⟩ = _ at h
      rw [comparison, acceptKeyword_bind_self] at h
      obtain ⟨operand, rest₁, saved₁, hrun, h₁⟩ := ok_of_bind h
      obtain ⟨own, rfl, hread⟩ := hself .comparison hlength hapart.tail hrun
      cases h₁
      have hread : Reading UnaryOp.not.level UnaryOp.not.level own operand rest := hread
      exact ⟨own, rfl, hread.unary (hapart.of_eq rest rfl)⟩
    | neg | plus =>
      change factor stop bound self _ = _ at h
      rw [factor] at h
      rcases ok_of_accept_bind h with ⟨lexeme, others, op, hcons, hop, h₁⟩ | ⟨hnone, -⟩
      · cases hcons
        cases hop
        obtain ⟨operand, rest₁, saved₁, hrun, h₂⟩ := ok_of_bind h₁
        obtain ⟨own, rfl, hread⟩ := hself .factor hlength hapart.tail hrun
        cases h₂
        exact ⟨own, rfl, Reading.unary hread (hapart.of_eq rest rfl)⟩
      · cases hnone

/-! ## The grammar -/

/-- The rule of every level. -/
theorem ruleAt_consumes (hbound : n ≤ bound) (level : Level) :
    Consumes (n + 1) (ruleAt stop bound self level) (Reading level level) := by
  -- The induction goes down from the atoms, one level at a time.
  obtain ⟨d, hd⟩ := Nat.le.dest (Level.rank_le_atom level)
  induction d generalizing level with
  | zero =>
    obtain rfl : level = .atom := Level.eq_of_rank_eq hd
    exact atom_consumes hself
  | succ d ih =>
    have hlevel : level.rank < Level.atom.rank := by omega
    have hrank := Level.rank_tighter hlevel
    have htighter := ih level.tighter (by omega)
    intro ahead rest saved saved' node hlength hapart h
    by_cases hheads : ∃ token, nextToken? ahead = some token ∧ token.heads = some level
    · obtain ⟨token, hnext, hhead⟩ := hheads
      obtain ⟨place, others, rfl⟩ := eq_cons_of_nextToken? hnext
      obtain ⟨own, rfl, hread⟩ :=
        headed_reading hself hhead (Nat.le_of_succ_le_succ hlength) hapart h
      exact ⟨⟨token, place⟩ :: own, rfl, hread⟩
    · have hne : ∀ token, nextToken? ahead = some token → token.heads ≠ some level :=
        fun token hnext hhead => hheads ⟨token, hnext, hhead⟩
      rw [ruleAt_eq_bind hlevel hne] at h
      obtain ⟨left, rest₁, saved₁, hrun, h₁⟩ := ok_of_bind h
      obtain ⟨own, rfl, hleft⟩ := htighter hlength hapart hrun
      have hpos : 0 < own.length := List.length_pos_iff.mpr hleft.laid.span_over.ne_nil
      rw [List.length_append] at hlength
      obtain ⟨own', rfl, hread⟩ :=
        loopAt_reading hself hlevel htighter hleft (by omega) (by omega) hapart h₁
      exact ⟨own ++ own', by simp, hread⟩

/-- The lexemes are those of a statement. -/
structure StatementReading (own : List Lexeme) (node : Node) (rest : List Lexeme) : Prop where
  laid : Laid own node
  statement : ∀ stop, Statement stop (own.map Lexeme.token) node
  /-- Another statement may stand behind it. -/
  mayPrecede : ∀ token, nextToken? rest = some token → token.startsStatement = true →
    node.form.mayPrecede token = true

omit hself in
/-- What starts a statement joins nowhere, if an expression stopped in front of it. -/
theorem StopsAt.joins_eq_none (h : StopsAt .expression rest) {token : Token}
    (hnext : nextToken? rest = some token) (hstarts : token.startsStatement = true) :
    token.joins = none := by
  cases hjoins : token.joins with
  | none => rfl
  | some joint =>
    rcases h token joint hnext hjoins with hlt | rfl
    · exact absurd hlt (Nat.not_lt_zero _)
    · rcases Token.eq_of_joins hjoins
        with ⟨-, hlevel⟩ | ⟨-, hlevel⟩ | ⟨rfl | rfl, -⟩ | ⟨op, -, hlevel⟩
      · cases hlevel
      · cases hlevel
      · cases hstarts
      · cases hstarts
      · cases op <;> cases hlevel

/-- A statement that is read is one, laid over its lexemes, and what follows may follow it. -/
theorem statement_consumes (hbound : n ≤ bound) :
    Consumes (n + 1) (Predictive.statement stop bound self) StatementReading := by
  intro ahead rest saved saved' node hlength hapart h
  have hexpression :
      Consumes (n + 1) (expression stop bound self) (Reading .expression .expression) :=
    ruleAt_consumes hself hbound .expression
  rw [Predictive.statement] at h
  rcases ok_of_acceptKeyword_bind h with ⟨place, rest₁, rfl, h₁⟩ | ⟨-, h₁⟩
  · simp only at h₁
    rw [bind_of_ok (p := peek) rfl] at h₁
    split at h₁
    -- Whether `return` has a value is decided by the next token.
    next hstarts =>
      obtain ⟨value, rest₂, saved₂, hrun, h₂⟩ := ok_of_bind h₁
      obtain ⟨own, rfl, hvalue⟩ := hexpression (Nat.le_of_succ_le hlength) hapart.tail hrun
      cases h₂
      have hstatement : ∀ stop, Statement stop ((⟨.keyword .return, place⟩ :: own).map Lexeme.token)
          ⟨.returning (some value), place.merge value.span⟩ :=
        fun stop => .returnValue (hvalue.phrase stop) _
      refine ⟨⟨.keyword .return, place⟩ :: own, rfl, ?_, hstatement, fun token hnext hstarts => ?_⟩
      · refine .intro ?_ (fun _ => hstatement) (.single [_] hvalue.laid)
        exact .merge (.single ⟨_, place⟩) hvalue.laid.span_over [] rfl (hapart.of_eq rest rfl)
      · simp [Form.mayPrecede, hvalue.stops.joins_eq_none hnext hstarts]
    next hstarts =>
      cases h₁
      refine ⟨[⟨.keyword .return, place⟩], rfl, ?_, fun stop => .returnNothing _,
        fun token hnext _ => ?_⟩
      · exact .intro (.single ⟨_, place⟩) (fun _ stop => .returnNothing _) (.nil _)
      · obtain ⟨span, others, rfl⟩ := eq_cons_of_nextToken? hnext
        simpa [Form.mayPrecede] using hstarts
  · rcases ok_of_acceptKeyword_bind h₁ with ⟨place, rest₁, rfl, h₂⟩ | ⟨-, h₂⟩
    · cases h₂
      exact ⟨[⟨.keyword .continue, place⟩], rfl,
        .intro (.single ⟨_, place⟩) (fun _ stop => .continuing _) (.nil _),
        fun stop => .continuing _, fun _ _ _ => rfl⟩
    · rcases ok_of_acceptKeyword_bind h₂ with ⟨place, rest₁, rfl, h₃⟩ | ⟨-, h₃⟩
      · cases h₃
        exact ⟨[⟨.keyword .break, place⟩], rfl,
          .intro (.single ⟨_, place⟩) (fun _ stop => .breaking _) (.nil _),
          fun stop => .breaking _, fun _ _ _ => rfl⟩
      -- Every other statement is an expression, which is not a jump.
      · obtain ⟨own, rfl, hread⟩ := hexpression hlength hapart h₃
        refine ⟨own, rfl, hread.laid, fun stop => .expression (hread.phrase stop) hread.isJump,
          fun token hnext hstarts => ?_⟩
        have hjoins := hread.stops.joins_eq_none hnext hstarts
        have hjump := hread.isJump
        unfold Form.mayPrecede
        split <;> simp_all [Form.isJump]

omit hself in
/-- The first token of statements starts the first of them. -/
theorem startsStatement_of_statements {tokens : List Token} {nodes : List Node}
    (h : Statements stop tokens nodes) {token : Token} (hhead : tokens.head? = some token) :
    token.startsStatement = true := by
  cases h with
  | nil => cases hhead
  | cons hnode =>
    obtain ⟨first, others, rfl, hfirst⟩ := hnode.starts
    cases hhead
    exact hfirst

omit hself in
/-- A statement in front of others. -/
theorem StatementReading.cons {own own' : List Lexeme} {nodes : List Node}
    (h : StatementReading own node (own' ++ rest))
    (hnodes : Arranged own' nodes ∧ ∀ stop, Statements stop (own'.map Lexeme.token) nodes) :
    Arranged (own ++ own') (node :: nodes) ∧
      ∀ stop, Statements stop ((own ++ own').map Lexeme.token) (node :: nodes) := by
  refine ⟨.cons [] rfl h.laid hnodes.1, fun stop => ?_⟩
  rw [List.map_append]
  refine .cons (h.statement stop) (fun token hhead => ?_) (hnodes.2 stop)
  refine h.mayPrecede token ?_ (startsStatement_of_statements (hnodes.2 stop) hhead)
  cases own' with
  | nil => cases hhead
  | cons first others => exact hhead

/-- Further statements were consumed. -/
theorem statementsFrom_reading (hbound : n ≤ bound) {terminator : Option Operator} {k : Nat}
    {done nodes : List Node} (hlength : ahead.length ≤ n + 1) (hapart : Apart ahead)
    (h : Predictive.statementsFrom stop bound self terminator k done ⟨ahead, saved⟩
      = .ok nodes ⟨rest, saved'⟩) :
    ∃ own more, ahead = own ++ rest ∧ nodes = done.reverse ++ more ∧
      Arranged own more ∧ ∀ stop, Statements stop (own.map Lexeme.token) more := by
  induction k generalizing ahead saved done with
  | zero =>
    cases h
    exact ⟨[], [], rfl, by simp, .nil [], fun _ => .nil⟩
  | succ k ih =>
    -- At the end of a sequence no further statement is read, elsewhere one has to be.
    cases hend : atSequenceEnd terminator ahead with
    | true =>
      rw [Predictive.statementsFrom_of_end hend] at h
      cases h
      exact ⟨[], [], rfl, by simp, .nil [], fun _ => .nil⟩
    | false =>
      cases hrun : Predictive.statement stop bound self ⟨ahead, saved⟩ with
      | error e s =>
        rw [Predictive.statementsFrom_of_error hend hrun] at h
        cases h
      | ok node s =>
        rw [Predictive.statementsFrom_of_ok hend hrun] at h
        obtain ⟨own, rfl, hread⟩ := statement_consumes hself hbound hlength hapart hrun
        rw [List.length_append] at hlength
        obtain ⟨own', more, hown', rfl, hmore⟩ := ih (by omega) hapart.right h
        rw [hown'] at hread ⊢
        exact ⟨own ++ own', node :: more, by simp, by simp, hread.cons hmore⟩

/-- All statements up to the terminator were consumed. -/
theorem statements_reading (hbound : n ≤ bound) {terminator : Option Operator} {nodes : List Node}
    (hlength : ahead.length ≤ n + 1) (hapart : Apart ahead)
    (h : Predictive.statements stop bound self terminator ⟨ahead, saved⟩
      = .ok nodes ⟨rest, saved'⟩) :
    ∃ own, ahead = own ++ rest ∧ Arranged own nodes ∧
      ∀ stop, Statements stop (own.map Lexeme.token) nodes := by
  cases hend : atSequenceEnd terminator ahead with
  | true =>
    rw [Predictive.statements_of_end hend] at h
    cases h
    exact ⟨[], rfl, .nil [], fun _ => .nil⟩
  | false =>
    cases hrun : Predictive.statement stop bound self ⟨ahead, saved⟩ with
    | error e s =>
      rw [Predictive.statements_of_error hend hrun] at h
      cases h
    | ok node s =>
      rw [Predictive.statements_of_ok hend hrun] at h
      obtain ⟨own, rfl, hread⟩ := statement_consumes hself hbound hlength hapart hrun
      rw [List.length_append] at hlength
      obtain ⟨own', more, hown', rfl, hmore⟩ :=
        statementsFrom_reading hself hbound (by omega) hapart.right h
      rw [hown'] at hread ⊢
      exact ⟨own ++ own', by simp, hread.cons hmore⟩

/-- A block that is read stands in braces, laid over its lexemes. -/
theorem block_consumes (hbound : n ≤ bound) :
    Consumes (n + 1) (Predictive.block stop bound self)
      (fun own node _ => BlockReading own node) := by
  intro ahead rest saved saved' node hlength hapart h
  rw [Predictive.block] at h
  obtain ⟨opening, rest₁, rfl, h₁⟩ := ok_of_require_bind h
  obtain ⟨nodes, rest₂, saved₂, hrun, h₂⟩ := ok_of_bind h₁
  obtain ⟨own, rfl, harranged, hnodes⟩ :=
    statements_reading hself hbound (Nat.le_of_succ_le hlength) hapart.tail hrun
  obtain ⟨closing, rest₃, rfl, h₃⟩ := ok_of_require_bind h₂
  cases h₃
  have hclosing : closing.Over [⟨.operator .closeBrace, closing⟩] := .single ⟨_, closing⟩
  refine ⟨⟨.operator .openBrace, opening⟩
    :: (own ++ [⟨.operator .closeBrace, closing⟩]), by simp, ?_, fun stop => ?_⟩
  · refine .intro ?_ (fun hform => absurd rfl (hform nodes)) ((harranged.extend [_]).weaken [_])
    exact hclosing.merge_first (hapart.of_eq rest (by simp))
  · simpa using Braced.block (hnodes stop) (opening.merge closing)

end

/-- The goals of the grammar. -/
theorem predictGoal_consumes (stop : Span) (n : Nat) (goal : Goal) :
    Consumes n (predictGoal stop n goal) (GoalReading goal) := by
  induction n generalizing goal with
  | zero =>
    intro ahead rest saved saved' node _ _ h
    cases h
  | succ n ih =>
    cases goal with
    | expression => exact ruleAt_consumes ih (Nat.le_succ n) .expression
    | comparison => exact ruleAt_consumes ih (Nat.le_succ n) .negation
    | factor => exact ruleAt_consumes ih (Nat.le_succ n) .sign
    | block => exact block_consumes ih (Nat.le_succ n)

end Parser

/-- What is read as a program are its statements, one behind the other. -/
theorem exists_statements_of_parse {lexemes : List Lexeme} {tree : Node}
    (hapart : Apart (lexemes.takeWhile fun l => !l.token.isEof)) (h : parse lexemes = .ok tree) :
    ∃ nodes, tree.form = .block nodes ∧
      Parser.Arranged (lexemes.takeWhile fun l => !l.token.isEof) nodes ∧
      ∀ stop, Parser.Statements stop ((lexemes.takeWhile fun l => !l.token.isEof).map Lexeme.token)
        nodes := by
  rw [parse_eq_predicted, parsePredictively] at h
  generalize lexemes.takeWhile (fun l => !l.token.isEof) = ahead at hapart h ⊢
  split at h
  next node s hrun =>
    cases h
    have hend := Parser.Predictive.ahead_eq_nil_of_program (Nat.le_refl _) hrun
    rw [Parser.Predictive.program, Parser.bind_of_ok (p := get) rfl] at hrun
    obtain ⟨nodes, rest, saved, hstatements, hpure⟩ := Parser.ok_of_bind hrun
    cases hpure
    obtain rfl : rest = [] := hend
    obtain ⟨own, rfl, harranged, hnodes⟩ := Parser.statements_reading
      (Parser.predictGoal_consumes _ _) (Nat.le_refl _) (Nat.le_succ _) hapart hstatements
    rw [List.append_nil]
    exact ⟨nodes, rfl, harranged, hnodes⟩
  next => cases h

/-- Statements one behind the other are read as a program. -/
theorem parse_of_statements {lexemes : List Lexeme} {nodes : List Node}
    (h : ∀ stop, Parser.Statements stop
      ((lexemes.takeWhile fun l => !l.token.isEof).map Lexeme.token) nodes) :
    ∃ tree, parse lexemes = .ok tree ∧ tree.bare = Node.bare ⟨.block nodes, default⟩ := by
  obtain ⟨tree, hbare, hrun⟩ := (h (endSpan lexemes)).program none rfl
  refine ⟨tree, ?_, hbare⟩
  simp only [parse_eq_predicted, parsePredictively, hrun]

end Script
