import Script.Proofs.Parser.Levels

/-!
# Recognizing programs token by token

A machine that reads tokens one at a time, and keeps on a stack what is still to come. It has no
trees, spans or messages, goes back to nothing and counts no rounds: the token that is next and what
is on top of the stack decide what happens (`Pending.react`). The token is taken and something new
is to come instead, or the top of the stack may be left out, or the token is refused.

The machine says exactly where an input goes wrong. What it took can always be completed to a
program (`verdict_completed`), since everything that can be pending has a completion and the
completions of a stack fit behind each other; and what it refuses is refused whatever comes later
(`verdict_append_of_refused`).

## Levels

An expression of a level is opened by one of its first tokens. What is to come then is what belongs
to that token, and behind it whatever goes on with the expression at all the levels in between
(`loops`), tightest first. So an expression is opened at a level as it is at the next tighter one,
with one more loop behind it, unless the token heads this very level (`opening_eq_before`).
-/

namespace Script.Recognizer

/-! ## What is still to come -/

/-- Brackets around items. -/
inductive Bracket where
  | paren | square
deriving DecidableEq

/-- The operator that closes a bracket. -/
def Bracket.close : Bracket → Operator
  | .paren => .closeParen
  | .square => .closeBracket

/-- Something that is still to come in a program of which a part was read. -/
inductive Pending where
  /-- One particular operator. -/
  | operator (op : Operator)
  /-- A name. -/
  | name
  /-- An expression of at least a level. -/
  | phrase (level : Level)
  /-- What goes on with an expression at a level, if anything does. -/
  | loop (level : Level)
  /-- Statements in braces. -/
  | block
  /-- One statement. -/
  | statement
  /-- More statements and the brace that closes their block. -/
  | statements
  /-- More statements up to the end of the input. -/
  | program
  /-- Items and their closing bracket. -/
  | items (bracket : Bracket)
  /-- More items behind one, and their closing bracket. -/
  | moreItems (bracket : Bracket)
  /-- The step of a counting loop, if it has one. -/
  | step
  /-- The value of a `return`, if it has one. -/
  | value
  /-- A function literal from behind its first word. -/
  | signature
  /-- Parameters and their closing parenthesis. -/
  | params
  /-- More parameters behind one, and their closing parenthesis. -/
  | moreParams
  /-- The body of a function. -/
  | body
deriving DecidableEq

/-- What becomes of the top of the stack when it is known what is next. -/
inductive Reaction where
  /-- The token is taken, and this is to come instead. -/
  | shift (next : List Pending)
  /-- It is left out. -/
  | skip
  /-- The token is refused. -/
  | refuse

/-- The reaction if something more is to come later. -/
def Reaction.before (later : List Pending) : Reaction → Reaction
  | .shift next => .shift (next ++ later)
  | .skip => .skip
  | .refuse => .refuse

/-- With nothing more to come a reaction is as it is. -/
theorem Reaction.before_nil (reaction : Reaction) : reaction.before [] = reaction := by
  cases reaction with
  | shift next => exact congrArg Reaction.shift (List.append_nil next)
  | skip | refuse => rfl

/-! ## Reactions -/

instance (next : Option Token) (op : Operator) : Decidable (next = some (.operator op)) :=
  match next with
  | some (.operator op') => decidable_of_iff (op' = op) (by simp)
  | none | some (.number _) | some (.text _) | some (.identifier _) | some (.keyword _)
      | some .eof =>
    isFalse nofun

instance (next : Option Token) (word : Keyword) : Decidable (next = some (.keyword word)) :=
  match next with
  | some (.keyword word') => decidable_of_iff (word' = word) (by simp)
  | none | some (.number _) | some (.text _) | some (.identifier _) | some (.operator _)
      | some .eof =>
    isFalse nofun

/-- The levels that have a loop, tightest first. -/
def levels : List Level :=
  [.suffix, .power, .sign, .multiplicative, .additive, .comparison, .negation, .connective,
    .expression]

/-- What may go on with an expression of a level that starts at a tighter one. -/
def loops (level head : Level) : List Pending :=
  (levels.filter fun between => level.rank ≤ between.rank ∧ between.rank < head.rank).map .loop

/-- What is to come behind a token that heads a level. -/
def behindHead : Level → List Pending
  | .expression => [.name, .operator .assign, .phrase .expression]
  | level => [.phrase level]

/-- What is to come behind the first token of an atom. -/
def behindAtom? : Token → Option (List Pending)
  | .number _ | .text _ | .identifier _ | .keyword .null => some []
  | .operator .openParen => some [.phrase .expression, .operator .closeParen]
  | .operator .openBracket => some [.items .square]
  | .keyword .if => some [.phrase .expression, .block, .loop .atom]
  | .keyword .while => some [.phrase .expression, .block]
  | .keyword .for =>
    some [.name, .operator .assign, .phrase .expression, .operator .colon,
      .phrase .expression, .step, .block]
  | .keyword .fun => some [.signature]
  | _ => none

/-- How an expression of a level is opened. -/
def opening (level : Level) : Option Token → Reaction
  | none => .refuse
  | some token =>
    match token.heads with
    | some head =>
      if level.rank ≤ head.rank then .shift (behindHead head ++ loops level head) else .refuse
    | none =>
      match behindAtom? token with
      | some rest => .shift (rest ++ loops level .atom)
      | none => .refuse

/-- The level of what follows an operator of a level. -/
def operandLevel : Level → Level
  | .power => .sign
  | level => level.tighter

/-- What is to come behind a token that joins at a level. -/
def behindJoint (level : Level) : Token → List Pending
  | .operator .question => [.phrase .expression, .operator .colon, .phrase .expression]
  | .operator .openParen => [.items .paren, .loop .suffix]
  | .operator .openBracket => [.phrase .expression, .operator .closeBracket, .loop .suffix]
  | .keyword .elif => [.phrase .expression, .block, .loop .atom]
  | .keyword .else => [.block]
  | _ => [.phrase (operandLevel level), .loop level]

/-- How an expression goes on at a level. -/
def joining (level : Level) : Option Token → Reaction
  | none => .skip
  | some token => if token.joins = some level then .shift (behindJoint level token) else .skip

/-- How a statement is opened. -/
def starting (next : Option Token) : Reaction :=
  if next = some (.keyword .return) then .shift [.value]
  else if next = some (.keyword .continue) ∨ next = some (.keyword .break) then .shift []
  else opening .expression next

/-- Whether a name is next. -/
def isName : Option Token → Bool
  | some (.identifier _) => true
  | _ => false

/-- What becomes of something pending when it is known what is next: a token or the end of the
input. -/
def Pending.react (next : Option Token) : Pending → Reaction
  | .operator op => if next = some (.operator op) then .shift [] else .refuse
  | .name => if isName next then .shift [] else .refuse
  | .phrase level => opening level next
  | .loop level => joining level next
  | .block => if next = some (.operator .openBrace) then .shift [.statements] else .refuse
  | .statement => starting next
  | .statements =>
    if next = some (.operator .closeBrace) then .shift []
    else (starting next).before [.statements]
  | .program => if next.isNone then .skip else (starting next).before [.program]
  | .items bracket =>
    if next = some (.operator bracket.close) then .shift []
    else (opening .expression next).before [.moreItems bracket]
  | .moreItems bracket =>
    if next = some (.operator .comma) then .shift [.phrase .expression, .moreItems bracket]
    else if next = some (.operator bracket.close) then .shift []
    else .refuse
  | .step => if next = some (.keyword .by) then .shift [.phrase .expression] else .skip
  | .value => if next.any Token.startsExpression then opening .expression next else .skip
  | .signature =>
    if isName next then .shift [.operator .openParen, .params, .body]
    else if next = some (.operator .openParen) then .shift [.params, .body]
    else .refuse
  | .params =>
    if isName next then .shift [.moreParams]
    else if next = some (.operator .closeParen) then .shift []
    else .refuse
  | .moreParams =>
    if next = some (.operator .comma) then .shift [.name, .moreParams]
    else if next = some (.operator .closeParen) then .shift []
    else .refuse
  | .body =>
    if next = some (.operator .assign) then .shift [.phrase .expression]
    else if next = some (.operator .openBrace) then .shift [.statements]
    else .refuse

/-- The tokens that join at the level of an atom. -/
theorem eq_of_joins_atom {token : Token} (h : token.joins = some .atom) :
    token = .keyword .elif ∨ token = .keyword .else := by
  cases token with
  | keyword word => cases word <;> simp_all [Token.joins]
  | operator op => cases op <;> simp_all [Token.joins]
  | number | text | identifier | eof => cases h

/-- The tokens that join at the level of calls and indexing. -/
theorem eq_of_joins_suffix {token : Token} (h : token.joins = some .suffix) :
    token = .operator .openParen ∨ token = .operator .openBracket := by
  cases token with
  | keyword word => cases word <;> simp_all [Token.joins]
  | operator op => cases op <;> simp_all [Token.joins]
  | number | text | identifier | eof => cases h

/-- The token that joins at the level of all expressions. -/
theorem eq_of_joins_expression {token : Token} (h : token.joins = some .expression) :
    token = .operator .question := by
  cases token with
  | keyword word => cases word <;> simp_all [Token.joins]
  | operator op => cases op <;> simp_all [Token.joins]
  | number | text | identifier | eof => cases h

/-- The loops up to a level are those up to the next tighter one and its own. -/
theorem loops_eq_append {level head : Level} (h : level.rank < head.rank) :
    loops level head = loops level.tighter head ++ [.loop level] := by
  revert h
  cases level <;> cases head <;> decide

/-- A token that heads a level opens this level and all looser ones. -/
theorem opening_of_heads {level head : Level} {token : Token} (h : token.heads = some head) :
    opening level (some token)
      = if level.rank ≤ head.rank then .shift (behindHead head ++ loops level head)
        else .refuse := by
  simp only [opening, h]

/-- A token that heads no level opens an atom, or nothing. -/
theorem opening_of_not_heads {level : Level} {token : Token} (h : token.heads = none) :
    opening level (some token)
      = match behindAtom? token with
        | some rest => .shift (rest ++ loops level .atom)
        | none => .refuse := by
  simp only [opening, h]

/-- An expression is opened as it is at the next tighter level, with one more loop behind it, unless
the token heads this level. -/
theorem opening_eq_before {level : Level} (hlevel : level.rank < Level.atom.rank)
    {next : Option Token} (h : ∀ token, next = some token → token.heads ≠ some level) :
    opening level next = (opening level.tighter next).before [.loop level] := by
  have hrank := Level.rank_tighter hlevel
  cases next with
  | none => rfl
  | some token =>
    cases hheads : token.heads with
    | none =>
      rw [opening_of_not_heads hheads, opening_of_not_heads hheads, loops_eq_append hlevel]
      cases behindAtom? token with
      | none => rfl
      | some rest => simp only [Reaction.before, List.append_assoc]
    | some head =>
      have hne : level.rank ≠ head.rank := by
        intro heq
        rw [← Level.eq_of_rank_eq heq] at hheads
        exact h token rfl hheads
      rw [opening_of_heads hheads, opening_of_heads hheads]
      -- The token heads a tighter level than both, or a looser one than both.
      by_cases hle : level.rank ≤ head.rank
      · have hlt : level.rank < head.rank := Nat.lt_of_le_of_ne hle hne
        have hle' : level.tighter.rank ≤ head.rank := by omega
        rw [if_pos hle, if_pos hle', loops_eq_append hlt]
        simp only [Reaction.before, List.append_assoc]
      · have hle' : ¬ level.tighter.rank ≤ head.rank := by omega
        rw [if_neg hle, if_neg hle']
        rfl

/-- An expression is not left out. -/
theorem opening_ne_skip (level : Level) (next : Option Token) : opening level next ≠ .skip := by
  unfold opening
  split
  · nofun
  · split
    · split <;> nofun
    · split <;> nofun

/-- A statement cannot be left out. -/
theorem starting_ne_skip (next : Option Token) : starting next ≠ .skip := by
  unfold starting
  split
  · nofun
  · split
    · nofun
    · exact opening_ne_skip _ _

/-- An operator cannot be left out. -/
theorem react_operator_ne_skip (next : Option Token) (op : Operator) :
    Pending.react next (.operator op) ≠ .skip := by
  simp only [Pending.react]
  split <;> nofun

/-- A name cannot be left out. -/
theorem react_name_ne_skip (next : Option Token) : Pending.react next .name ≠ .skip := by
  simp only [Pending.react]
  split <;> nofun

/-- A block cannot be left out. -/
theorem react_block_ne_skip (next : Option Token) : Pending.react next .block ≠ .skip := by
  simp only [Pending.react]
  split <;> nofun

/-- A level goes no further if the next token does not join there. -/
theorem joining_of_not_joins {level : Level} {next : Option Token}
    (h : ∀ token, next = some token → token.joins ≠ some level) : joining level next = .skip := by
  cases next with
  | none => rfl
  | some token => exact if_neg (h token rfl)

/-! ## Runs -/

/-- Read one token. -/
def feed : List Pending → Token → Option (List Pending)
  | [], _ => none
  | pending :: stack, token =>
    match pending.react (some token) with
    | .shift next => some (next ++ stack)
    | .skip => feed stack token
    | .refuse => none

/-- Whether something pending may be left out at the end of the input. -/
def Pending.mayEnd (pending : Pending) : Bool :=
  match pending.react none with
  | .skip => true
  | .shift _ | .refuse => false

/-- Read tokens to their end. If something is wrong, the result is how many of them were left, the
refused one included. -/
def verdict : List Pending → List Token → Option Nat
  | stack, [] => if stack.all Pending.mayEnd then none else some 0
  | stack, token :: tokens =>
    match feed stack token with
    | some next => verdict next tokens
    | none => some (tokens.length + 1)

section

variable {pending other : Pending} {stack next later : List Pending} {token : Token}
variable {tokens : List Token}

/-- A token that is taken is gone, and what it makes pending comes first. -/
theorem verdict_of_shift (h : pending.react (some token) = .shift next) :
    verdict (pending :: stack) (token :: tokens) = verdict (next ++ stack) tokens := by
  simp only [verdict, feed, h]

/-- What can be left out is left out. -/
theorem verdict_of_skip (h : pending.react tokens.head? = .skip) :
    verdict (pending :: stack) tokens = verdict stack tokens := by
  cases tokens with
  | nil =>
    rw [List.head?_nil] at h
    have hend : pending.mayEnd = true := by simp only [Pending.mayEnd, h]
    simp only [verdict, List.all_cons, hend, Bool.true_and]
  | cons token tokens =>
    rw [List.head?_cons] at h
    simp only [verdict, feed, h]

/-- The verdict is how many tokens are left where one is refused. -/
theorem verdict_of_refuse (h : pending.react tokens.head? = .refuse) :
    verdict (pending :: stack) tokens = some tokens.length := by
  cases tokens with
  | nil =>
    rw [List.head?_nil] at h
    have hend : pending.mayEnd = false := by simp only [Pending.mayEnd, h]
    simp [verdict, hend]
  | cons token tokens =>
    rw [List.head?_cons] at h
    simp only [verdict, feed, h, List.length_cons]

/-- Something pending is as good as something else with more to come behind it. -/
theorem verdict_of_before (h : pending.react tokens.head? = (other.react tokens.head?).before later)
    (hother : other.react tokens.head? ≠ .skip) :
    verdict (pending :: stack) tokens = verdict (other :: (later ++ stack)) tokens := by
  cases hreact : other.react tokens.head? with
  | skip => exact absurd hreact hother
  | refuse =>
    rw [hreact] at h
    rw [verdict_of_refuse h, verdict_of_refuse hreact]
  | shift next =>
    rw [hreact] at h
    cases tokens with
    | nil =>
      rw [List.head?_nil] at h hreact
      have hend : pending.mayEnd = false := by simp only [Pending.mayEnd, h, Reaction.before]
      have hend' : other.mayEnd = false := by simp only [Pending.mayEnd, hreact]
      simp [verdict, hend, hend']
    | cons token tokens =>
      rw [verdict_of_shift h, verdict_of_shift hreact, List.append_assoc]

/-- Whatever is left out may be taken off the stack. -/
theorem verdict_of_all_skip (h : ∀ pending ∈ next, pending.react tokens.head? = .skip) :
    verdict (next ++ stack) tokens = verdict stack tokens := by
  induction next with
  | nil => rfl
  | cons pending next ih =>
    rw [List.cons_append, verdict_of_skip (h pending List.mem_cons_self)]
    exact ih fun pending hpending => h pending (List.mem_cons_of_mem _ hpending)

end

/-! ## Stacks

The program is at the bottom of the stack for good. What is above it, apart from the very top, has a
completion whose first token does not go on with anything. -/

/-- Whether something may be pending behind something else. -/
def Pending.mayFollow : Pending → Bool
  | .operator op => (Token.operator op).joins.isNone
  | .program => false
  | _ => true

/-- Whether a list can be on the stack, above the program. -/
def isStack : List Pending → Bool
  | [] => true
  | pending :: stack => pending != .program && stack.all Pending.mayFollow

/-- A program is pending only at the bottom of a stack. -/
theorem ne_program_of_mayFollow {pending : Pending} (h : pending.mayFollow = true) :
    pending ≠ .program := by
  rintro rfl
  cases h

/-- What may follow something makes up a stack. -/
theorem isStack_of_all {stack : List Pending} (h : stack.all Pending.mayFollow = true) :
    isStack stack = true := by
  cases stack with
  | nil => rfl
  | cons pending stack =>
    rw [List.all_cons, Bool.and_eq_true] at h
    simp [isStack, ne_program_of_mayFollow h.1, h.2]

/-- What may follow something may stand below a stack. -/
theorem isStack_append {next stack : List Pending} (hnext : isStack next = true)
    (hstack : stack.all Pending.mayFollow = true) : isStack (next ++ stack) = true := by
  cases next with
  | nil => exact isStack_of_all hstack
  | cons pending next =>
    rw [isStack, Bool.and_eq_true] at hnext
    rw [List.cons_append, isStack, List.all_append, hnext.1, hnext.2, hstack]
    rfl

/-- The loops of a level may follow something. -/
theorem all_mayFollow_loops (level head : Level) :
    (loops level head).all Pending.mayFollow = true := by
  simp [loops, Pending.mayFollow]

/-- What an expression makes pending when it is opened is a stack. -/
theorem isStack_of_opening {level : Level} {next : Option Token} {pushed : List Pending}
    (h : opening level next = .shift pushed) : isStack pushed = true := by
  cases next with
  | none => cases h
  | some token =>
    cases hheads : token.heads with
    | none =>
      rw [opening_of_not_heads hheads] at h
      cases hatom : behindAtom? token with
      | none => simp only [hatom] at h; cases h
      | some rest =>
        simp only [hatom] at h
        cases h
        refine isStack_append ?_ (all_mayFollow_loops _ _)
        revert hatom
        unfold behindAtom?
        split <;> rintro ⟨⟩ <;> rfl
    | some head =>
      rw [opening_of_heads hheads] at h
      split at h
      · cases h
        refine isStack_append ?_ (all_mayFollow_loops _ _)
        cases head <;> rfl
      · cases h

/-- What a statement makes pending when it is opened is a stack. -/
theorem isStack_of_starting {next : Option Token} {pushed : List Pending}
    (h : starting next = .shift pushed) : isStack pushed = true := by
  unfold starting at h
  split at h
  · cases h
    rfl
  · split at h
    · cases h
      rfl
    · exact isStack_of_opening h

/-- What is pushed behind something new stays as it is. -/
theorem exists_of_before {reaction : Reaction} {later pushed : List Pending}
    (h : reaction.before later = .shift pushed) :
    ∃ next, reaction = .shift next ∧ pushed = next ++ later := by
  cases reaction with
  | shift next =>
    cases h
    exact ⟨next, rfl, rfl⟩
  | skip | refuse => cases h

/-- Whatever is pushed can be on the stack. -/
theorem isStack_of_react {pending : Pending} (hpending : pending ≠ .program) {token : Token}
    {pushed : List Pending} (h : pending.react (some token) = .shift pushed) :
    isStack pushed = true := by
  cases pending with
  | program => exact absurd rfl hpending
  | phrase level =>
    rw [Pending.react] at h
    exact isStack_of_opening h
  | statement =>
    rw [Pending.react] at h
    exact isStack_of_starting h
  | statements =>
    rw [Pending.react] at h
    split at h
    · cases h
      rfl
    · obtain ⟨next, hnext, rfl⟩ := exists_of_before h
      exact isStack_append (isStack_of_starting hnext) rfl
  | items bracket =>
    rw [Pending.react] at h
    split at h
    · cases h
      rfl
    · obtain ⟨next, hnext, rfl⟩ := exists_of_before h
      exact isStack_append (isStack_of_opening hnext) rfl
  | value =>
    rw [Pending.react] at h
    split at h
    · exact isStack_of_opening h
    · cases h
  | loop level =>
    rw [Pending.react, joining] at h
    split at h
    · cases h
      unfold behindJoint
      split <;> rfl
    · cases h
  -- Here one kind of token is taken, behind which a fixed stack is left.
  | operator | name | block | step =>
    rw [Pending.react] at h
    split at h <;> cases h
    all_goals rfl
  -- And here there are two kinds of tokens.
  | signature | params | moreItems | moreParams | body =>
    rw [Pending.react] at h
    split at h
    · cases h
      rfl
    · split at h <;> cases h
      all_goals rfl

/-- Reading a token leaves the program at the bottom and a stack above it. -/
theorem exists_stack_of_feed {stack stack' : List Pending} {token : Token}
    (hstack : isStack stack = true) (h : feed (stack ++ [.program]) token = some stack') :
    ∃ above, isStack above = true ∧ stack' = above ++ [.program] := by
  induction stack with
  | nil =>
    -- The program itself stays at the bottom whatever it takes.
    have hprogram : Pending.react (some token) .program
        = (starting (some token)).before [.program] := rfl
    rw [List.nil_append, feed, hprogram] at h
    cases hstarting : starting (some token) with
    | shift next =>
      simp only [hstarting, Reaction.before, List.append_nil, Option.some.injEq] at h
      exact ⟨next, isStack_of_starting hstarting, h.symm⟩
    | skip | refuse => simp [hstarting, Reaction.before, feed] at h
  | cons pending stack ih =>
    rw [isStack, Bool.and_eq_true, bne_iff_ne] at hstack
    rw [List.cons_append, feed] at h
    cases hreact : pending.react (some token) with
    | shift next =>
      simp only [hreact, Option.some.injEq] at h
      refine ⟨next ++ stack, isStack_append (isStack_of_react hstack.1 hreact) hstack.2, ?_⟩
      rw [← h, List.append_assoc]
    | skip =>
      simp only [hreact] at h
      exact ih (isStack_of_all hstack.2) h
    | refuse => simp [hreact] at h

/-- The same for any number of tokens. -/
theorem exists_stack_of_foldlM {stack stack' : List Pending} {tokens : List Token}
    (hstack : isStack stack = true) (h : tokens.foldlM feed (stack ++ [.program]) = some stack') :
    ∃ above, isStack above = true ∧ stack' = above ++ [.program] := by
  induction tokens generalizing stack with
  | nil =>
    cases h
    exact ⟨stack, hstack, rfl⟩
  | cons token tokens ih =>
    rw [List.foldlM_cons] at h
    obtain ⟨next, hnext, hrest⟩ := Option.bind_eq_some_iff.mp h
    obtain ⟨above, habove, rfl⟩ := exists_stack_of_feed hstack hnext
    exact ih habove hrest

/-! ## Completions -/

/-- Tokens by which something pending is over and done with. -/
def Pending.completion : Pending → List Token
  | .operator op => [.operator op]
  | .name => [.identifier "x"]
  | .phrase _ | .statement | .value => [.keyword .null]
  | .loop _ | .step | .program => []
  | .block | .body => [.operator .openBrace, .operator .closeBrace]
  | .statements => [.operator .closeBrace]
  | .items bracket | .moreItems bracket => [.operator bracket.close]
  | .signature =>
    [.identifier "x", .operator .openParen, .operator .closeParen, .operator .openBrace,
      .operator .closeBrace]
  | .params | .moreParams => [.operator .closeParen]

/-- The next token, if there is one, goes on with nothing. -/
def StandsApart (tokens : List Token) : Prop :=
  ∀ token, tokens.head? = some token → token.joins = none ∧ token ≠ .keyword .by

/-- A loop is left before tokens that stand apart. -/
theorem StandsApart.loop {tokens : List Token} (h : StandsApart tokens) (level : Level) :
    Pending.react tokens.head? (.loop level) = .skip := by
  refine joining_of_not_joins fun token hnext hjoins => ?_
  rw [(h token hnext).1] at hjoins
  cases hjoins

/-- A literal completes an expression of any level. -/
theorem verdict_null {pending : Pending} {level : Level} {tokens : List Token}
    (hreact : pending.react (some (.keyword .null)) = .shift (loops level .atom))
    (h : StandsApart tokens) (stack : List Pending) :
    verdict (pending :: stack) (.keyword .null :: tokens) = verdict stack tokens := by
  rw [verdict_of_shift hreact]
  refine verdict_of_all_skip fun pending hpending => ?_
  obtain ⟨between, -, rfl⟩ := List.mem_map.mp hpending
  exact h.loop between

/-- The completion of something pending is taken, and what comes next is left to the rest. -/
theorem verdict_completion {pending : Pending} (hpending : pending ≠ .program) {tokens : List Token}
    (h : StandsApart tokens) (stack : List Pending) :
    verdict (pending :: stack) (pending.completion ++ tokens) = verdict stack tokens := by
  cases pending with
  | program => exact absurd rfl hpending
  | operator op =>
    have hreact : Pending.react (some (.operator op)) (.operator op) = .shift [] := if_pos rfl
    exact verdict_of_shift hreact
  | phrase level => exact verdict_null rfl h stack
  | statement | value => exact verdict_null rfl h stack
  | loop level => exact verdict_of_skip (h.loop level)
  | step =>
    refine verdict_of_skip (if_neg fun hnext => ?_)
    exact (h _ hnext).2 rfl
  | items bracket | moreItems bracket => cases bracket <;> rfl
  | name | block | statements | signature | params | moreParams | body => rfl

/-- The least that completes something stands apart, in front of what does. -/
theorem standsApart_completion {pending : Pending} (hpending : pending.mayFollow = true)
    {tokens : List Token} (h : StandsApart tokens) :
    StandsApart (pending.completion ++ tokens) := by
  cases pending with
  | program => cases hpending
  | operator op =>
    intro token hnext
    cases hnext
    exact ⟨Option.isNone_iff_eq_none.mp hpending, nofun⟩
  | loop | step => exact h
  | items bracket | moreItems bracket =>
    intro token hnext
    cases hnext
    cases bracket <;> exact ⟨rfl, nofun⟩
  | _ =>
    intro token hnext
    cases hnext
    exact ⟨rfl, nofun⟩

/-- The least that completes a stack stands apart. -/
theorem standsApart_flatMap {stack : List Pending} (h : stack.all Pending.mayFollow = true) :
    StandsApart (stack.flatMap Pending.completion) := by
  induction stack with
  | nil => nofun
  | cons pending stack ih =>
    rw [List.all_cons, Bool.and_eq_true] at h
    rw [List.flatMap_cons]
    exact standsApart_completion h.1 (ih h.2)

/-- What is on a stack is completed one after the other, and then the program may end. -/
theorem verdict_completed {stack : List Pending} (h : isStack stack = true) :
    verdict (stack ++ [.program]) (stack.flatMap Pending.completion) = none := by
  induction stack with
  | nil => rfl
  | cons pending stack ih =>
    rw [isStack, Bool.and_eq_true, bne_iff_ne] at h
    rw [List.cons_append, List.flatMap_cons, verdict_completion h.1 (standsApart_flatMap h.2)]
    exact ih (isStack_of_all h.2)

/-! ## Where a run is refused -/

section

variable {stack stack' : List Pending} {before rest tokens : List Token} {token : Token}

/-- A run goes on from the stack that the tokens so far have left. -/
theorem verdict_append (h : before.foldlM feed stack = some stack') (rest : List Token) :
    verdict stack (before ++ rest) = verdict stack' rest := by
  induction before generalizing stack with
  | nil =>
    cases h
    rfl
  | cons token before ih =>
    rw [List.foldlM_cons] at h
    obtain ⟨next, hnext, hrest⟩ := Option.bind_eq_some_iff.mp h
    rw [List.cons_append, verdict, hnext]
    exact ih hrest

/-- A token that is refused is refused whatever comes after it. -/
theorem verdict_append_of_refused (h : before.foldlM feed stack = some stack')
    (hrefused : feed stack' token = none) (rest : List Token) :
    verdict stack (before ++ token :: rest) ≠ none := by
  rw [verdict_append h, verdict, hrefused]
  nofun

/-- If something is wrong, all tokens before the refused one were taken. -/
theorem exists_of_verdict {left : Nat} (h : verdict stack tokens = some left) :
    ∃ before rest stack', tokens = before ++ rest ∧ rest.length = left ∧
      before.foldlM feed stack = some stack' ∧
      ∀ token rest', rest = token :: rest' → feed stack' token = none := by
  -- The induction is on the tokens, each of which is fed or refused.
  induction tokens generalizing stack with
  | nil =>
    have hleft : left = 0 := by
      rw [verdict] at h
      split at h
      · cases h
      · cases h
        rfl
    exact ⟨[], [], stack, rfl, hleft.symm, rfl, nofun⟩
  | cons token tokens ih =>
    rw [verdict] at h
    cases hfeed : feed stack token with
    | none =>
      simp only [hfeed, Option.some.injEq] at h
      refine ⟨[], token :: tokens, stack, rfl, h, rfl, fun token' rest' heq => ?_⟩
      cases heq
      exact hfeed
    | some next =>
      simp only [hfeed] at h
      obtain ⟨before, rest, stack', rfl, hleft, hbefore, hrefused⟩ := ih h
      refine ⟨token :: before, rest, stack', rfl, hleft, ?_, hrefused⟩
      rw [List.foldlM_cons, hfeed]
      exact hbefore

end

end Script.Recognizer
