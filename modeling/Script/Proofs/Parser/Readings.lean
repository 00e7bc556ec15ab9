import Script.Proofs.Parser.Extents
import Script.Proofs.Parser.OpenPhrases
import Script.Proofs.Parser.Success

/-!
# What was read

The converse of what is said of phrases: if a rule of the grammar succeeds, the lexemes that it
consumed are a phrase of the node it gives, and that node is laid over them.

`Reading` is what holds of an expression when the rule of its level is done with it, or is in its
loop. An expression is a phrase of its level, or it is open and nothing joins behind it; then no
loop that it is in goes any further. So a left operand is always a phrase, and only right operands
are open.

The rules here are those of the atoms. All of them come round to the goals of the grammar, of which
it is assumed that they read.
-/

namespace Script.Parser

/-- The next token joins at looser levels only, or it goes on with an `if`. -/
def StopsAt (level : Level) (rest : List Lexeme) : Prop :=
  ∀ token joint, nextToken? rest = some token → token.joins = some joint →
    joint.rank < level.rank ∨ joint = .atom

theorem StopsAt.mono {level level' : Level} {rest : List Lexeme} (h : StopsAt level rest)
    (hle : level.rank ≤ level'.rank) : StopsAt level' rest := fun token joint hnext hjoins =>
  (h token joint hnext hjoins).imp_left fun hlt => Nat.lt_of_lt_of_le hlt hle

/-- Nothing joins within an atom. -/
theorem stopsAt_atom (rest : List Lexeme) : StopsAt .atom rest := by
  intro token joint hnext hjoins
  by_cases hjoint : joint = .atom
  · exact .inr hjoint
  · exact .inl (Level.rank_lt_atom hjoint)

/-- One level down: nothing joins at this level either. -/
theorem StopsAt.of_tighter (level : Level) {rest : List Lexeme}
    (hlevel : level.rank < Level.atom.rank) (h : StopsAt level.tighter rest)
    (hne : ∀ token, nextToken? rest = some token → token.joins ≠ some level) :
    StopsAt level rest := by
  intro token joint hnext hjoins
  refine (h token joint hnext hjoins).imp_left fun hlt => ?_
  have hrank := Level.rank_tighter hlevel
  have hjoint : joint.rank ≠ level.rank := fun heq =>
    hne token hnext (Level.eq_of_rank_eq heq ▸ hjoins)
  omega

/-- Where nothing joins but what goes on with an `if`, no token joins at a level. -/
theorem StopsAt.joins_ne {level : Level} {rest : List Lexeme}
    (hlevel : level.rank < Level.atom.rank)
    (h : StopsAt .expression rest) (token : Token) (hnext : nextToken? rest = some token) :
    token.joins ≠ some level := by
  intro hjoins
  rcases h token level hnext hjoins with hlt | rfl
  · exact Nat.not_lt_zero _ hlt
  · exact Nat.lt_irrefl _ hlevel

/-- The lexemes are those of an expression of a level, behind which nothing joins at levels tighter
than the limit. -/
structure Reading (level limit : Level) (own : List Lexeme) (node : Node) (rest : List Lexeme) :
    Prop where
  isJump : node.form.isJump = false
  laid : Laid own node
  opened : ∀ stop, OpenPhrase stop level (own.map Lexeme.token) node
  stops : StopsAt limit rest
  /-- It can be gone on with, or nothing goes on with it. -/
  closed : (∀ stop, Phrase stop level (own.map Lexeme.token) node) ∨ StopsAt .expression rest

namespace Reading

variable {level limit : Level} {own rest : List Lexeme} {node : Node}

/-- What is read is a phrase, of whatever level. -/
theorem phrase (h : Reading level limit own node rest) (stop : Span) :
    Phrase stop .expression (own.map Lexeme.token) node :=
  (h.opened stop).expression

/-- An open phrase is read. -/
theorem of_opened (hopened : ∀ stop, OpenPhrase stop level (own.map Lexeme.token) node)
    (hjump : node.form.isJump = false) (hover : node.span.Over own)
    (hchildren : Arranged own node.children) (hstops : StopsAt .expression rest) :
    Reading level limit own node rest where
  isJump := hjump
  laid := .intro hover (fun _ stop => .expression (hopened stop).expression hjump) hchildren
  opened := hopened
  stops := hstops.mono (Nat.zero_le _)
  closed := .inr hstops

/-- A phrase is read. -/
theorem of_phrase (hphrase : ∀ stop, Phrase stop level (own.map Lexeme.token) node)
    (hjump : node.form.isJump = false) (hover : node.span.Over own)
    (hchildren : Arranged own node.children) (hstops : StopsAt limit rest) :
    Reading level limit own node rest where
  isJump := hjump
  laid := .intro hover (fun _ stop => .expression (hphrase stop).opened.expression hjump) hchildren
  opened := fun stop => (hphrase stop).opened
  stops := hstops
  closed := .inl hphrase

/-- What is read at a tight level is read at a looser one. -/
theorem lift {level' : Level} (h : Reading level' limit own node rest)
    (hle : level.rank ≤ level'.rank) :
    Reading level limit own node rest where
  isJump := h.isJump
  laid := h.laid
  opened := fun stop => (h.opened stop).lift hle
  stops := h.stops
  closed := h.closed.imp_left fun hphrase stop => (hphrase stop).lift hle

/-- The loop of a level is done if nothing joins there. -/
theorem settle {limit' : Level} (h : Reading level limit' own node rest)
    (hstops : StopsAt limit rest) :
    Reading level limit own node rest :=
  { h with stops := hstops }

/-- What is gone on with is a phrase. -/
theorem phrase_of_joins (h : Reading level limit own node rest) {token : Token} (joint : Level)
    (hnext : nextToken? rest = some token) (hjoins : token.joins = some joint)
    (hjoint : joint.rank < Level.atom.rank) (stop : Span) :
    Phrase stop level (own.map Lexeme.token) node := by
  rcases h.closed with hphrase | hstops
  · exact hphrase stop
  · exact absurd hjoins (hstops.joins_ne hjoint token hnext)

end Reading

/-- The lexemes are those of a block. -/
structure BlockReading (own : List Lexeme) (node : Node) : Prop where
  laid : Laid own node
  braced : ∀ stop, Braced stop (own.map Lexeme.token) node

/-- What holds of the lexemes that a goal consumes. -/
def GoalReading : Goal → List Lexeme → Node → List Lexeme → Prop
  | .expression => Reading .expression .expression
  | .comparison => Reading .negation .negation
  | .factor => Reading .sign .sign
  | .block => fun own node _ => BlockReading own node

/-- On at most `n` lexemes that are apart, a success of the parser tells something of the lexemes it
consumed, its result, and the lexemes left. -/
def Consumes (n : Nat) (p : Parser Node) (post : List Lexeme → Node → List Lexeme → Prop) : Prop :=
  ∀ ⦃ahead rest : List Lexeme⦄ ⦃saved saved' : Option Abandoned⦄ ⦃node : Node⦄, ahead.length ≤ n →
    Apart ahead → p ⟨ahead, saved⟩ = .ok node ⟨rest, saved'⟩ →
    ∃ own, ahead = own ++ rest ∧ post own node rest

section

variable {n bound : Nat} {stop : Span} {self : Goal → Parser Node}
variable {ahead rest : List Lexeme} {saved saved' : Option Abandoned} {node : Node}
variable (hself : ∀ goal, Consumes n (self goal) (GoalReading goal))

include hself

/-! ## Atoms -/

/-- The items up to a closing bracket, and that bracket, were consumed. -/
theorem itemsFrom_reading {close : Operator} {k : Nat} {done items : List Node} {last : Span}
    (hlength : ahead.length ≤ n) (hapart : Apart ahead)
    (h : itemsFrom stop self close k done ⟨ahead, saved⟩ = .ok (items, last) ⟨rest, saved'⟩) :
    ∃ own more, ahead = own ++ ⟨.operator close, last⟩ :: rest ∧ items = done.reverse ++ more ∧
      more ≠ [] ∧ Arranged own more ∧ ∀ stop, Items stop (own.map Lexeme.token) more := by
  -- The induction is on the bound of the loop, which has been passed if it has run out.
  induction k generalizing ahead saved done with
  | zero => cases h
  | succ k ih =>
    rw [itemsFrom] at h
    obtain ⟨item, rest₁, saved₁, hrun, h₁⟩ := ok_of_bind h
    obtain ⟨own, rfl, hitem⟩ := hself .expression hlength hapart hrun
    rcases ok_of_acceptOperator_bind h₁ with ⟨comma, rest₂, rfl, h₂⟩ | ⟨-, h₂⟩
    · obtain ⟨own', more, rfl, rfl, hmore, harranged, hitems⟩ :=
        ih (by simp at hlength; omega) hapart.right.tail h₂
      refine ⟨own ++ ⟨.operator .comma, comma⟩ :: own', item :: more, by simp, by simp,
        List.cons_ne_nil _ _, ?_, fun stop => ?_⟩
      · exact .cons [] rfl hitem.laid (harranged.weaken [_])
      · have hcons := Items.cons (hitem.phrase stop) (hitems stop)
        -- A comma is followed by an item, so it is one that separates.
        have hempty : more.isEmpty = false := List.isEmpty_eq_false_iff.mpr hmore
        simpa [hempty] using hcons
    · obtain ⟨place, rest₂, rfl, h₃⟩ := ok_of_expectOperator_bind h₂
      cases h₃
      refine ⟨own, [item],
        rfl, by simp, List.cons_ne_nil _ _, .single [] hitem.laid, fun stop => ?_⟩
      simpa using Items.cons (hitem.phrase stop) .nil

/-- Items that are read are arranged up to the closing bracket, and are items. -/
theorem items_reading {close : Operator} {items : List Node} {last : Span}
    (hlength : ahead.length ≤ n) (hapart : Apart ahead)
    (h : Parser.items stop bound self close ⟨ahead, saved⟩ = .ok (items, last) ⟨rest, saved'⟩) :
    ∃ own, ahead = own ++ ⟨.operator close, last⟩ :: rest ∧ Arranged own items ∧
      ∀ stop, Items stop (own.map Lexeme.token) items := by
  rw [Parser.items] at h
  rcases ok_of_acceptOperator_bind h with ⟨place, rest₁, rfl, h₁⟩ | ⟨-, h₁⟩
  · cases h₁
    exact ⟨[], rfl, .nil [], fun _ => .nil⟩
  · obtain ⟨own, more, rfl, rfl, -, harranged, hitems⟩ := itemsFrom_reading hself hlength hapart h₁
    exact ⟨own, rfl, harranged, hitems⟩

/-- A condition and its block were consumed. -/
theorem guarded_reading {α : Type} {f : Node → Node → Parser α} {a : α} (hlength : ahead.length ≤ n)
    (hapart : Apart ahead)
    (h : (do
      let cond ← self .expression
      let body ← self .block
      f cond body : Parser α) ⟨ahead, saved⟩ = .ok a ⟨rest, saved'⟩) :
    ∃ cond body own own' rest' saved'', ahead = own ++ (own' ++ rest') ∧
      Reading .expression .expression own cond (own' ++ rest') ∧ BlockReading own' body ∧
      f cond body ⟨rest', saved''⟩ = .ok a ⟨rest, saved'⟩ := by
  obtain ⟨cond, rest₁, saved₁, hrun, h₁⟩ := ok_of_bind h
  obtain ⟨own, rfl, hcond⟩ := hself .expression hlength hapart hrun
  obtain ⟨body, rest₂, saved₂, hrun₁, h₂⟩ := ok_of_bind h₁
  obtain ⟨own', rfl, hbody⟩ := hself .block (by simp at hlength; omega) hapart.right hrun₁
  exact ⟨cond, body, own, own', rest₂, saved₂, rfl, hcond, hbody, h₂⟩

/-- Further arms were consumed. -/
theorem armsFrom_reading {k : Nat} {done arms : List Arm} (hlength : ahead.length ≤ n)
    (hapart : Apart ahead)
    (h : armsFrom self k done ⟨ahead, saved⟩ = .ok arms ⟨rest, saved'⟩) :
    ∃ own more, ahead = own ++ rest ∧ arms = done.reverse ++ more ∧
      Arranged own (more.flatMap fun arm => [arm.cond, arm.body]) ∧
      ∀ stop, Arms stop (own.map Lexeme.token) more := by
  induction k generalizing ahead saved done with
  | zero =>
    cases h
    exact ⟨[], [], rfl, by simp, .nil [], fun _ => .nil⟩
  | succ k ih =>
    rw [armsFrom] at h
    rcases ok_of_acceptKeyword_bind h with ⟨elif, rest₁, rfl, h₁⟩ | ⟨-, h₁⟩
    · obtain ⟨cond, body, own, own', rest', saved'', rfl, hcond, hbody, h₂⟩ :=
        guarded_reading hself (by simp at hlength ⊢; omega) hapart.tail h₁
      obtain ⟨own₂, more, rfl, rfl, harranged, harms⟩ :=
        ih (by simp at hlength; omega) hapart.tail.right.right h₂
      refine ⟨⟨.keyword .elif, elif⟩ :: (own ++ (own' ++ own₂)), ⟨cond, body⟩ :: more, by simp,
        by simp, ?_, fun stop => ?_⟩
      · exact .cons [_] rfl hcond.laid (.cons [] rfl hbody.laid harranged)
      · simpa using Arms.cons (hcond.phrase stop) (hbody.braced stop) (harms stop)
    · cases h₁
      exact ⟨[], [], rfl, by simp, .nil [], fun _ => .nil⟩

/-- A part with a word of its own in front was consumed, if it was there. -/
theorem optionally_reading {word : Keyword} (goal : Goal) (part : Span → List Token → Node → Prop)
    (hpart : ∀ own node rest, GoalReading goal own node rest →
      Laid own node ∧ ∀ stop, part stop (own.map Lexeme.token) node)
    {found : Option Node} (hlength : ahead.length ≤ n) (hapart : Apart ahead)
    (h : optionally word (self goal) ⟨ahead, saved⟩ = .ok found ⟨rest, saved'⟩) :
    ∃ own, ahead = own ++ rest ∧ Arranged own found.toList ∧
      ∀ stop, Marked word (part stop) (own.map Lexeme.token) found := by
  rw [optionally] at h
  rcases ok_of_acceptKeyword_bind h with ⟨place, rest₁, rfl, h₁⟩ | ⟨-, h₁⟩
  · obtain ⟨node, rest₂, saved₂, hrun, h₂⟩ := ok_of_bind h₁
    cases h₂
    obtain ⟨own, rfl, hread⟩ := hself goal (by simp at hlength ⊢; omega) hapart.tail hrun
    obtain ⟨hlaid, hphrase⟩ := hpart own node rest hread
    exact ⟨⟨.keyword word, place⟩ :: own, rfl, .single [_] hlaid,
      fun stop => .present (hphrase stop)⟩
  · cases h₁
    exact ⟨[], rfl, .nil [], fun _ => .absent⟩

/-- The arms of an `if` were consumed. -/
theorem ifForm_reading {form : Form} (hlength : ahead.length ≤ n) (hapart : Apart ahead)
    (h : ifForm bound self ⟨ahead, saved⟩ = .ok form ⟨rest, saved'⟩) :
    ∃ own, ahead = own ++ rest ∧ own ≠ [] ∧ form.isJump = false ∧ Arranged own form.children ∧
      ∀ stop span, Phrase stop .atom (.keyword .if :: own.map Lexeme.token) ⟨form, span⟩ := by
  rw [ifForm] at h
  obtain ⟨cond, body, own, own', rest', saved'', rfl, hcond, hbody, h₁⟩ :=
    guarded_reading hself hlength hapart h
  obtain ⟨arms, rest₂, saved₂, hrun, h₂⟩ := ok_of_bind h₁
  obtain ⟨own₂, more, rfl, rfl, harranged, harms⟩ :=
    armsFrom_reading hself (by simp at hlength; omega) hapart.right.right hrun
  obtain ⟨otherwise, rest₃, saved₃, hrun₁, h₃⟩ := ok_of_bind h₂
  obtain ⟨own₃, rfl, harranged', hmarked⟩ :=
    optionally_reading hself .block Braced (fun _ _ _ hread => ⟨hread.laid, hread.braced⟩)
      (by simp at hlength; omega) hapart.right.right.right hrun₁
  cases h₃
  refine ⟨own ++ (own' ++ (own₂ ++ own₃)), by simp, ?_, rfl, ?_, fun stop span => ?_⟩
  · simp [hcond.laid.span_over.ne_nil]
  · exact .cons [] rfl hcond.laid (.cons [] rfl hbody.laid (harranged.append harranged'))
  · simpa using Phrase.ifElse (hcond.phrase stop) (hbody.braced stop) (harms stop) (hmarked stop) _

/-- A conditional that is read is an atom, laid over its lexemes. -/
theorem ifElse_reading {place : Span} (hlength : ahead.length ≤ n)
    (hapart : Apart (⟨.keyword .if, place⟩ :: ahead))
    (h : ifElse bound self place ⟨ahead, saved⟩ = .ok node ⟨rest, saved'⟩) :
    ∃ own, ahead = own ++ rest ∧ Reading .atom .atom (⟨.keyword .if, place⟩ :: own) node rest := by
  rw [ifElse] at h
  obtain ⟨⟨form, last⟩, rest₁, saved₁, htrailing, h₁⟩ := ok_of_bind h
  cases h₁
  obtain ⟨hrun, rfl⟩ := ok_of_trailing htrailing
  obtain ⟨own, rfl, hne, hjump, harranged, hphrase⟩ :=
    ifForm_reading hself hlength hapart.tail hrun
  refine ⟨own, rfl, .of_phrase (hphrase · _) hjump ?_ (harranged.weaken [_]) (stopsAt_atom _)⟩
  -- The chain ends with the last lexeme of its last block.
  obtain ⟨front, closing, rfl⟩ : ∃ front closing, own = front ++ [closing] :=
    ⟨own.dropLast, own.getLast hne, (List.dropLast_append_getLast hne).symm⟩
  rw [passedLexemes_append, List.getLast?_concat]
  exact (Span.Over.single closing).merge_first (hapart.of_eq rest (by simp))

/-- A loop that is read is an atom, laid over its lexemes. -/
theorem whileLoop_reading {place : Span} (hlength : ahead.length ≤ n)
    (hapart : Apart (⟨.keyword .while, place⟩ :: ahead))
    (h : whileLoop self place ⟨ahead, saved⟩ = .ok node ⟨rest, saved'⟩) :
    ∃ own, ahead = own ++ rest ∧
      Reading .atom .atom (⟨.keyword .while, place⟩ :: own) node rest := by
  rw [whileLoop] at h
  obtain ⟨cond, body, own, own', rest', saved'', rfl, hcond, hbody, h₁⟩ :=
    guarded_reading hself hlength hapart.tail h
  cases h₁
  refine ⟨own ++ own', by simp, .of_phrase (fun stop => ?_) rfl ?_ ?_ (stopsAt_atom _)⟩
  · simpa using Phrase.whileLoop (hcond.phrase stop) (hbody.braced stop) _
  · exact hbody.laid.span_over.merge_first (hapart.of_eq rest (by simp))
  · exact .cons [_] rfl hcond.laid (.single [] hbody.laid)

/-- A counting loop that is read is an atom, laid over its lexemes. -/
theorem forLoop_reading {place : Span} (hlength : ahead.length ≤ n)
    (hapart : Apart (⟨.keyword .for, place⟩ :: ahead))
    (h : forLoop stop self place ⟨ahead, saved⟩ = .ok node ⟨rest, saved'⟩) :
    ∃ own, ahead = own ++ rest ∧ Reading .atom .atom (⟨.keyword .for, place⟩ :: own) node rest := by
  rw [forLoop] at h
  obtain ⟨name, place₁, rest₁, rfl, h₁⟩ := ok_of_expectIdentifier_bind h
  obtain ⟨place₂, rest₂, rfl, h₂⟩ := ok_of_require_bind h₁
  obtain ⟨first, rest₃, saved₃, hrun, h₃⟩ := ok_of_bind h₂
  simp only [List.length_cons] at hlength
  obtain ⟨own, rfl, hfirst⟩ := hself .expression (by omega) hapart.tail.tail.tail hrun
  obtain ⟨colon, rest₄, rfl, h₄⟩ := ok_of_require_bind h₃
  obtain ⟨last, rest₅, saved₅, hrun₁, h₅⟩ := ok_of_bind h₄
  simp only [List.length_append, List.length_cons] at hlength
  obtain ⟨own₁, rfl, hlast⟩ := hself .expression (by omega) hapart.tail.tail.tail.right.tail hrun₁
  simp only [List.length_append] at hlength
  have hapart₁ := hapart.tail.tail.tail.right.tail.right
  obtain ⟨step, rest₆, saved₆, hstep, h₆⟩ := ok_of_bind h₅
  obtain ⟨own₂, rfl, harranged, hmarked⟩ :=
    optionally_reading hself .expression (fun stop => Phrase stop .expression)
      (fun _ _ _ hread => ⟨hread.laid, hread.phrase⟩) (by omega) hapart₁ hstep
  obtain ⟨body, rest₇, saved₇, hrun₂, h₇⟩ := ok_of_bind h₆
  simp only [List.length_append] at hlength
  obtain ⟨own₃, rfl, hbody⟩ := hself .block (by omega) hapart₁.right hrun₂
  cases h₇
  refine ⟨⟨.identifier name, place₁⟩ :: ⟨.operator .assign, place₂⟩ ::
    (own ++ ⟨.operator .colon, colon⟩ :: (own₁ ++ (own₂ ++ own₃))), by simp,
    .of_phrase (fun stop => ?_) rfl ?_ ?_ (stopsAt_atom _)⟩
  · simpa using Phrase.forLoop (hfirst.phrase stop) (hlast.phrase stop) (hmarked stop)
      (hbody.braced stop) _
  -- :: The span ends with the body, so the lexemes are split there.
  · have hown : (⟨.identifier name, place₁⟩ :: ⟨.operator .assign, place₂⟩ ::
        (own ++ ⟨.operator .colon, colon⟩ :: (own₁ ++ (own₂ ++ own₃))) : List Lexeme)
        = (⟨.identifier name, place₁⟩ :: ⟨.operator .assign, place₂⟩ ::
          (own ++ ⟨.operator .colon, colon⟩ :: (own₁ ++ own₂))) ++ own₃ := by simp
    rw [hown]
    exact hbody.laid.span_over.merge_first (hapart.of_eq rest (by simp))
  · refine .cons [_, _, _] rfl hfirst.laid (.cons [_] rfl hlast.laid ?_)
    exact harranged.append (.single [] hbody.laid)

omit hself in
/-- Further parameters were consumed. -/
theorem paramsFrom_reading {k : Nat} {done names : List String}
    (h : (paramsFrom stop k done : Parser _) ⟨ahead, saved⟩ = .ok names ⟨rest, saved'⟩) :
    ∃ own more, ahead = own ++ rest ∧ names = done.reverse ++ more ∧
      own.map Lexeme.token = more.flatMap fun name => [.operator .comma, .identifier name] := by
  induction k generalizing ahead saved done with
  | zero =>
    cases h
    exact ⟨[], [], rfl, by simp, rfl⟩
  | succ k ih =>
    rw [paramsFrom] at h
    rcases ok_of_acceptOperator_bind h with ⟨comma, rest₁, rfl, h₁⟩ | ⟨-, h₁⟩
    · obtain ⟨name, place, rest₂, rfl, h₂⟩ := ok_of_expectIdentifier_bind h₁
      obtain ⟨own, more, rfl, rfl, hown⟩ := ih h₂
      exact ⟨⟨.operator .comma, comma⟩ :: ⟨.identifier name, place⟩ :: own, name :: more,
        rfl, by simp, by simp [hown]⟩
    · cases h₁
      exact ⟨[], [], rfl, by simp, rfl⟩

omit hself in
/-- Parameters that are read are written as they are printed. -/
theorem params_reading {names : List String}
    (h : (params stop bound : Parser _) ⟨ahead, saved⟩ = .ok names ⟨rest, saved'⟩) :
    ∃ own, ahead = own ++ rest ∧
      own.map Lexeme.token = printNames names ++ [.operator .closeParen] := by
  rw [params] at h
  rcases ok_of_acceptOperator_bind h with ⟨place, rest₁, rfl, h₁⟩ | ⟨-, h₁⟩
  · cases h₁
    exact ⟨[⟨.operator .closeParen, place⟩], rfl, rfl⟩
  · obtain ⟨first, place, rest₁, rfl, h₂⟩ := ok_of_expectIdentifier_bind h₁
    obtain ⟨names', rest₂, saved₂, hrun, h₃⟩ := ok_of_bind h₂
    obtain ⟨own, more, rfl, rfl, hown⟩ := paramsFrom_reading hrun
    obtain ⟨close, rest₃, rfl, h₄⟩ := ok_of_expectOperator_bind h₃
    cases h₄
    refine ⟨⟨.identifier first, place⟩ :: (own ++ [⟨.operator .closeParen, close⟩]), by simp, ?_⟩
    simp [printNames_cons, hown]

/-- Behind the parameters, the rest of a function literal was consumed. -/
theorem functionFrom_reading {place : Span} {name : Option String} {names : List String}
    {head : List Lexeme}
    (hhead : head.map Lexeme.token = (name.map Token.identifier).toList ++ .operator .openParen ::
      (printNames names ++ [.operator .closeParen]))
    (hlength : ahead.length ≤ n) (hapart : Apart (⟨.keyword .fun, place⟩ :: (head ++ ahead)))
    (h : functionFrom stop self place name names ⟨ahead, saved⟩ = .ok node ⟨rest, saved'⟩) :
    ∃ own, ahead = own ++ rest ∧
      Reading .atom .atom (⟨.keyword .fun, place⟩ :: (head ++ own)) node rest := by
  have hapart' := hapart.tail.right
  rw [functionFrom] at h
  rcases ok_of_acceptOperator_bind h with ⟨assign, rest₁, rfl, h₁⟩ | ⟨-, h₁⟩
  · obtain ⟨body, rest₂, saved₂, hrun, h₂⟩ := ok_of_bind h₁
    obtain ⟨own, rfl, hbody⟩ := hself .expression (by simp at hlength ⊢; omega) hapart'.tail hrun
    cases h₂
    have hown : head ++ ⟨.operator .assign, assign⟩ :: own
        = (head ++ [⟨.operator .assign, assign⟩]) ++ own := by simp
    refine ⟨⟨.operator .assign, assign⟩ :: own, rfl,
      .of_opened (fun stop => ?_) rfl ?_ ?_ hbody.stops⟩
    · simpa [hhead] using OpenPhrase.functionExpression (hbody.phrase stop) _
    · rw [hown]
      exact hbody.laid.span_over.merge_first (hapart.of_eq rest (by simp))
    · rw [hown]
      exact .single (_ :: _) hbody.laid
  · simp only at h₁
    rw [bind_of_ok (p := peek) rfl] at h₁
    -- Without an equals sign there has to be a block, and that starts with a brace.
    by_cases hnext : nextToken? ahead = some (.operator .openBrace)
    · obtain ⟨brace, others, rfl⟩ := eq_cons_of_nextToken? hnext
      simp only [List.head?_cons] at h₁
      obtain ⟨body, rest₂, saved₂, hrun, h₂⟩ := ok_of_bind h₁
      obtain ⟨own, hown, hbody⟩ := hself .block hlength hapart' hrun
      cases h₂
      rw [hown] at hapart ⊢
      refine ⟨own, rfl, .of_phrase (fun stop => ?_) rfl ?_ ?_ (stopsAt_atom _)⟩
      · simpa [hhead] using Phrase.functionBlock (hbody.braced stop) _
      · exact hbody.laid.span_over.merge_first (hapart.of_eq rest (by simp))
      · exact .single (_ :: _) hbody.laid
    · rcases ahead with _ | ⟨⟨token, place⟩, ahead⟩
      · cases h₁
      cases token with
      | operator op =>
        cases op with
        | openBrace => exact absurd rfl hnext
        | _ => cases h₁
      | _ => cases h₁

/-- A function that is read is an atom, laid over its lexemes. -/
theorem function_reading {place : Span} (hlength : ahead.length ≤ n)
    (hapart : Apart (⟨.keyword .fun, place⟩ :: ahead))
    (h : function stop bound self place ⟨ahead, saved⟩ = .ok node ⟨rest, saved'⟩) :
    ∃ own, ahead = own ++ rest ∧ Reading .atom .atom (⟨.keyword .fun, place⟩ :: own) node rest := by
  rw [function] at h
  obtain ⟨name, own, rest₁, rfl, hname, h₁⟩ := ok_of_acceptIdentifier_bind h
  obtain ⟨opening, rest₂, rfl, h₂⟩ := ok_of_expectOperator_bind h₁
  obtain ⟨names, rest₃, saved₃, hrun, h₃⟩ := ok_of_bind h₂
  obtain ⟨own₁, rfl, hnames⟩ := params_reading hrun
  have hhead : (own ++ ⟨.operator .openParen, opening⟩ :: own₁).map Lexeme.token
      = (name.map Token.identifier).toList ++ .operator .openParen ::
        (printNames names ++ [.operator .closeParen]) := by
    simp [hname, hnames]
  obtain ⟨own₂, rfl, hread⟩ := functionFrom_reading hself hhead (by simp at hlength; omega)
    (by simpa using hapart) h₃
  exact ⟨_, by simp, hread⟩

/-- Behind its first token, the rest of an atom was consumed. -/
theorem atomFrom_reading {token : Token} {place : Span} (hlength : ahead.length ≤ n)
    (hapart : Apart (⟨token, place⟩ :: ahead))
    (h : atomFrom stop bound self place token ⟨ahead, saved⟩ = .ok node ⟨rest, saved'⟩) :
    ∃ own, ahead = own ++ rest ∧ Reading .atom .atom (⟨token, place⟩ :: own) node rest := by
  -- An atom of one token.
  have htoken : ∀ form : Form, atomStart? token = some token → form.children = [] →
      form.isJump = false →
      (∀ stop bound (self : Goal → Parser Node) place,
        atomFrom stop bound self place token = pure ⟨form, place⟩) →
      ∃ own, rest = own ++ rest ∧
        Reading .atom .atom (⟨token, place⟩ :: own) ⟨form, place⟩ rest := by
    intro form hstart hchildren hjump hform
    refine ⟨[], rfl,
      .of_phrase (fun stop => .of_token hstart (hform stop) _) hjump (.single ⟨_, place⟩) ?_
      (stopsAt_atom _)⟩
    show Arranged _ form.children
    rw [hchildren]
    exact .nil _
  unfold atomFrom at h
  split at h
  · cases h
    exact htoken _ rfl rfl rfl fun _ _ _ _ => rfl
  · cases h
    exact htoken _ rfl rfl rfl fun _ _ _ _ => rfl
  · cases h
    exact htoken _ rfl rfl rfl fun _ _ _ _ => rfl
  · cases h
    exact htoken _ rfl rfl rfl fun _ _ _ _ => rfl
  · obtain ⟨inner, rest₁, saved₁, hrun, h₁⟩ := ok_of_bind h
    obtain ⟨own, rfl, hinner⟩ := hself .expression hlength hapart.tail hrun
    obtain ⟨close, rest₂, rfl, h₂⟩ := ok_of_require_bind h₁
    cases h₂
    refine ⟨own ++ [⟨.operator .closeParen, close⟩], by simp,
      .of_phrase (fun stop => ?_) hinner.isJump ?_ ?_ (stopsAt_atom _)⟩
    -- Parentheses only widen the span of what is between them.
    · have hphrase : Phrase stop .atom _ ⟨inner.form, place.merge close⟩ :=
        (Phrase.paren (hinner.phrase stop)).of_bare_eq (Node.bare_eq_iff.mpr rfl)
      simpa using hphrase
    · have hclose : close.Over [⟨.operator .closeParen, close⟩] := .single ⟨_, close⟩
      exact hclose.merge_first (hapart.of_eq rest (by simp))
    · exact (hinner.laid.children.extend [_]).weaken [_]
  · obtain ⟨⟨elements, close⟩, rest₁, saved₁, hrun, h₁⟩ := ok_of_bind h
    obtain ⟨own, rfl, harranged, hitems⟩ := items_reading hself hlength hapart.tail hrun
    cases h₁
    refine ⟨own ++ [⟨.operator .closeBracket, close⟩], by simp,
      .of_phrase (fun stop => ?_) rfl ?_ ?_ (stopsAt_atom _)⟩
    · simpa using Phrase.list (hitems stop) _
    · have hclose : close.Over [⟨.operator .closeBracket, close⟩] := .single ⟨_, close⟩
      exact hclose.merge_first (hapart.of_eq rest (by simp))
    · exact (harranged.extend [_]).weaken [_]
  · exact ifElse_reading hself hlength hapart h
  · exact whileLoop_reading hself hlength hapart h
  · exact forLoop_reading hself hlength hapart h
  · exact function_reading hself hlength hapart h
  · cases h

/-- An atom that is read is one, laid over its lexemes. -/
theorem atom_consumes : Consumes (n + 1) (atom stop bound self) (Reading .atom .atom) := by
  intro ahead rest saved saved' node hlength hapart h
  rw [atom_eq_accept] at h
  rcases ok_of_accept_bind h with ⟨⟨token, place⟩, rest₁, first, rfl, hfirst, h₁⟩ | ⟨-, h₁⟩
  · obtain rfl := eq_of_atomStart? hfirst
    obtain ⟨own, rfl, hread⟩ := atomFrom_reading hself (Nat.le_of_succ_le_succ hlength) hapart h₁
    exact ⟨⟨_, place⟩ :: own, rfl, hread⟩
  · cases h₁

end

end Script.Parser
