import Script.Proofs.Parser.Predictive
import Script.Proofs.Parser.Recognizer

/-!
# The recognizer follows the parser

What the predictive parser does on an input can be read off from the recognizer. Every rule of the
grammar stands for something pending. If a run of the rule succeeds, the recognizer comes to the
same place with that off its stack, and if the run fails at some lexeme, the recognizer refuses its
token (`Tracks`). So a list of lexemes is a program just in case its tokens are recognized, and the
lexeme that an error blames is the first one that is refused (`tracks_program`).

The rules are taken one by one. A rule comes round to a goal only after it moved past a lexeme, so
the goals need to be tracked on shorter inputs only. Loops have enough rounds, since each of them
moves.
-/

namespace Script.Parser

open Recognizer

/-! ## Tracking -/

/-- The recognizer comes to where a run ended, or refuses the token that the run blames. -/
def Tracked {α : Type} (stop : Span) (pending : List Pending) (ahead : List Lexeme) :
    EStateM.Result SyntaxError ParseState α → Prop
  | .ok _ s => s.ahead <:+ ahead ∧ ∀ stack,
      verdict (pending ++ stack) (ahead.map Lexeme.token) = verdict stack (s.ahead.map Lexeme.token)
  | .error e s => s.ahead <:+ ahead ∧ e.span = spanOf stop s.ahead ∧ ∀ stack,
      verdict (pending ++ stack) (ahead.map Lexeme.token) = some s.ahead.length

/-- On inputs of at most `n` lexemes the recognizer follows a parser, which stands for what is
pending. -/
def Tracks {α : Type} (stop : Span) (n : Nat) (p : Parser α) (pending : List Pending) : Prop :=
  ∀ s : ParseState, s.ahead.length ≤ n → Tracked stop pending s.ahead (p s)

/-- The next token is that of the next lexeme. -/
theorem head?_map_token (ahead : List Lexeme) :
    (ahead.map Lexeme.token).head? = nextToken? ahead := by
  rw [List.head?_map, nextToken?]

section

variable {α : Type} {stop : Span} {x : Pending} {pending : List Pending}
variable {ahead rest : List Lexeme} {r : EStateM.Result SyntaxError ParseState α}

namespace Tracked

/-- A run goes on where another one ended. -/
theorem trans {front : List Pending} (hsuffix : rest <:+ ahead)
    (hverdict : ∀ stack, verdict (front ++ stack) (ahead.map Lexeme.token)
      = verdict stack (rest.map Lexeme.token)) (h : Tracked stop pending rest r) :
    Tracked stop (front ++ pending) ahead r := by
  cases r with
  | ok a s =>
    refine ⟨h.1.trans hsuffix, fun stack => ?_⟩
    rw [List.append_assoc, hverdict, h.2]
  | error e s =>
    refine ⟨h.1.trans hsuffix, h.2.1, fun stack => ?_⟩
    rw [List.append_assoc, hverdict, h.2.2]

/-- Two stacks on which the recognizer decides alike. -/
theorem congr {pending' : List Pending}
    (hverdict : ∀ stack, verdict (pending' ++ stack) (ahead.map Lexeme.token)
      = verdict (pending ++ stack) (ahead.map Lexeme.token)) (h : Tracked stop pending ahead r) :
    Tracked stop pending' ahead r := by
  cases r with
  | ok a s => exact ⟨h.1, fun stack => (hverdict stack).trans (h.2 stack)⟩
  | error e s => exact ⟨h.1, h.2.1, fun stack => (hverdict stack).trans (h.2.2 stack)⟩

/-- What is pending takes the next lexeme, and is replaced by what it waits for then. -/
theorem of_shift {lexeme : Lexeme} {next : List Pending}
    (hreact : x.react (some lexeme.token) = .shift next)
    (h : Tracked stop (next ++ pending) rest r) :
    Tracked stop (x :: pending) (lexeme :: rest) r := by
  have hverdict : ∀ stack, verdict ((x :: pending) ++ stack) ((lexeme :: rest).map Lexeme.token)
      = verdict ((next ++ pending) ++ stack) (rest.map Lexeme.token) := by
    intro stack
    rw [List.cons_append, List.map_cons, verdict_of_shift hreact, List.append_assoc]
  cases r with
  | ok a s =>
    exact ⟨h.1.trans (List.suffix_cons _ _), fun stack => (hverdict stack).trans (h.2 stack)⟩
  | error e s =>
    exact ⟨h.1.trans (List.suffix_cons _ _), h.2.1,
      fun stack => (hverdict stack).trans (h.2.2 stack)⟩

/-- What is pending can be left out before the next token. -/
theorem of_skip (hreact : x.react (nextToken? ahead) = .skip) (h : Tracked stop pending ahead r) :
    Tracked stop (x :: pending) ahead r := by
  refine h.congr fun stack => verdict_of_skip ?_
  rw [head?_map_token, hreact]

/-- What is pending opens as something else does, with more to come behind that. -/
theorem of_before (y : Pending) (later : List Pending)
    (hreact : x.react (nextToken? ahead) = (y.react (nextToken? ahead)).before later)
    (hskip : y.react (nextToken? ahead) ≠ .skip)
    (h : Tracked stop (y :: (later ++ pending)) ahead r) :
    Tracked stop (x :: pending) ahead r := by
  rw [← head?_map_token] at hreact hskip
  refine h.congr fun stack => ?_
  rw [List.cons_append, verdict_of_before hreact hskip, List.cons_append, List.append_assoc]

/-- A rule may fail where what is pending refuses the next token. -/
theorem fail {fault : SyntaxFault} {s : ParseState}
    (hreact : x.react (nextToken? s.ahead) = .refuse) :
    Tracked stop (x :: pending) s.ahead ((Parser.fail stop fault : Parser α) s) := by
  rw [fail_apply]
  refine ⟨List.suffix_refl _, rfl, fun stack => ?_⟩
  rw [← head?_map_token] at hreact
  rw [List.cons_append, verdict_of_refuse hreact, List.length_map]

end Tracked

end

namespace Tracks

section

variable {α β : Type} {stop : Span} {m n : Nat} {x : Pending} {pending next : List Pending}

theorem mono {p : Parser α} (hmn : m ≤ n) (h : Tracks stop n p pending) : Tracks stop m p pending :=
  fun s hs => h s (Nat.le_trans hs hmn)

theorem pure (a : α) : Tracks stop n (pure a) [] :=
  fun _ _ => ⟨List.suffix_refl _, fun _ => rfl⟩

/-- What a sequence waits for is what its parts wait for, one after the other. -/
theorem bind {p : Parser α} {f : α → Parser β} (hp : Tracks stop n p [x])
    (hf : ∀ a, Tracks stop n (f a) pending) : Tracks stop n (p >>= f) (x :: pending) := by
  intro s hs
  have hrun := hp s hs
  rw [bind_apply]
  cases hp' : p s with
  | ok a s' =>
    rw [hp'] at hrun
    exact (hf a s' (Nat.le_trans hrun.1.length_le hs)).trans hrun.1 hrun.2
  | error e s' =>
    rw [hp'] at hrun
    exact ⟨hrun.1, hrun.2.1, fun stack => hrun.2.2 (pending ++ stack)⟩

/-- A first part that reads nothing does not count. -/
theorem pure_bind {f : α → Parser β} {a : α} (h : Tracks stop n (f a) pending) :
    Tracks stop n (Pure.pure a >>= f) pending := by
  rw [LawfulMonad.pure_bind]
  exact h

/-- Whoever watches a rule moves as it does. -/
theorem trailing_bind {start : Span} {p : Parser α} {f : α × Span → Parser β}
    (hp : Tracks stop n p pending) (hf : ∀ a, Tracks stop n (f a) []) :
    Tracks stop n (trailing start p >>= f) pending := by
  intro s hs
  have hrun := hp s hs
  cases hp' : p s with
  | ok a s' =>
    rw [hp'] at hrun
    rw [bind_of_ok (trailing_of_ok hp'), ← List.append_nil pending]
    exact (hf _ s' (Nat.le_trans hrun.1.length_le hs)).trans hrun.1 hrun.2
  | error e s' =>
    rw [hp'] at hrun
    rwa [bind_of_error (trailing_of_error hp')]

end

end Tracks

/-! ## The cursor

Behind a lexeme that was selected there are fewer lexemes ahead. -/

section

variable {α β : Type} {stop : Span} {n : Nat} {s : ParseState} {x : Pending}
variable {pending next : List Pending}

namespace Tracked

/-- A rule that looks for a token is tracked if what is pending takes the tokens that are selected,
and if the rule is tracked without one. -/
theorem accept_bind {select : Token → Option α} {f : Option (α × Span) → Parser β}
    (hs : s.ahead.length ≤ n)
    (hsome : ∀ token a, select token = some a → ∃ next, x.react (some token) = .shift next ∧
      ∀ m, m < n → ∀ span, Tracks stop m (f (some (a, span))) (next ++ pending))
    (hnone : (nextToken? s.ahead).bind select = none →
      Tracked stop (x :: pending) s.ahead (f none s)) :
    Tracked stop (x :: pending) s.ahead ((accept select >>= f) s) := by
  obtain ⟨ahead, saved⟩ := s
  cases hselect : (nextToken? ahead).bind select with
  | none =>
    rw [accept_bind_of_none hselect]
    exact hnone hselect
  | some a =>
    rcases ahead with _ | ⟨lexeme, rest⟩
    · cases hselect
    obtain ⟨next, hreact, hrest⟩ := hsome lexeme.token a hselect
    rw [accept_bind_of_some hselect]
    exact (hrest rest.length hs lexeme.span ⟨rest, saved⟩ (Nat.le_refl _)).of_shift hreact

/-- A rule that looks for an operator is tracked if it is with and without it. -/
theorem acceptOperator_bind (op : Operator) {f : Option Span → Parser β} (hs : s.ahead.length ≤ n)
    (hreact : x.react (some (.operator op)) = .shift next)
    (hsome : ∀ m, m < n → ∀ span, Tracks stop m (f (some span)) (next ++ pending))
    (hnone : nextToken? s.ahead ≠ some (.operator op) →
      Tracked stop (x :: pending) s.ahead (f none s)) :
    Tracked stop (x :: pending) s.ahead ((acceptOperator op >>= f) s) := by
  obtain ⟨ahead, saved⟩ := s
  by_cases hnext : nextToken? ahead = some (.operator op)
  · obtain ⟨span, rest, rfl⟩ := eq_cons_of_nextToken? hnext
    rw [acceptOperator_bind_self]
    exact (hsome rest.length hs span ⟨rest, saved⟩ (Nat.le_refl _)).of_shift hreact
  · rw [acceptOperator_bind_of_ne hnext]
    exact hnone hnext

/-- A rule that looks for a keyword is tracked if it is with and without it. -/
theorem acceptKeyword_bind (word : Keyword) {f : Option Span → Parser β} (hs : s.ahead.length ≤ n)
    (hreact : x.react (some (.keyword word)) = .shift next)
    (hsome : ∀ m, m < n → ∀ span, Tracks stop m (f (some span)) (next ++ pending))
    (hnone : nextToken? s.ahead ≠ some (.keyword word) →
      Tracked stop (x :: pending) s.ahead (f none s)) :
    Tracked stop (x :: pending) s.ahead ((acceptKeyword word >>= f) s) := by
  obtain ⟨ahead, saved⟩ := s
  by_cases hnext : nextToken? ahead = some (.keyword word)
  · obtain ⟨span, rest, rfl⟩ := eq_cons_of_nextToken? hnext
    rw [acceptKeyword_bind_self]
    exact (hsome rest.length hs span ⟨rest, saved⟩ (Nat.le_refl _)).of_shift hreact
  · rw [acceptKeyword_bind_of_ne hnext]
    exact hnone hnext

/-- A rule that looks for a name is tracked if it is with and without one. -/
theorem acceptIdentifier_bind {f : Option String → Parser β} (hs : s.ahead.length ≤ n)
    (hreact : ∀ name, x.react (some (.identifier name)) = .shift next)
    (hsome : ∀ m, m < n → ∀ name, Tracks stop m (f (some name)) (next ++ pending))
    (hnone : isName (nextToken? s.ahead) = false → Tracked stop (x :: pending) s.ahead (f none s)) :
    Tracked stop (x :: pending) s.ahead ((acceptIdentifier >>= f) s) := by
  simp only [acceptIdentifier, bind_assoc, pure_bind]
  refine accept_bind hs (fun token name hselect => ?_) fun hselect => hnone ?_
  · cases token with
    | identifier name' =>
      cases hselect
      exact ⟨next, hreact name, fun m hm _ => hsome m hm name⟩
    | number | text | keyword | operator | eof => cases hselect
  · cases hnext : nextToken? s.ahead with
    | none => rfl
    | some token =>
      rw [hnext] at hselect
      cases token with
      | identifier name => cases hselect
      | number | text | keyword | operator | eof => rfl

end Tracked

/-- An operator that is expected is pending, and nothing else. -/
theorem Tracks.expectOperator (op : Operator) (items : List Expectation) :
    Tracks stop n (Parser.expectOperator stop op items) [.operator op] := fun _ hs =>
  .acceptOperator_bind op hs (if_pos rfl) (fun _ _ span => .pure span) fun hne => .fail (if_neg hne)

theorem Tracks.require (op : Operator) : Tracks stop n (Parser.require stop op) [.operator op] :=
  .expectOperator op _

/-- A name that is expected is pending, and nothing else. -/
theorem Tracks.expectIdentifier (items : List Expectation) :
    Tracks stop n (Parser.expectIdentifier stop items) [.name] := by
  intro s hs
  refine .acceptIdentifier_bind hs (fun _ => rfl) (fun _ _ name => .pure name) fun hname => .fail ?_
  simp only [Pending.react, hname]
  rfl

end

/-- What a goal stands for. -/
def pendingFor : Goal → Pending
  | .expression => .phrase .expression
  | .comparison => .phrase .negation
  | .factor => .phrase .sign
  | .block => .block

section

variable {stop : Span} {n bound : Nat} {self : Goal → Parser Node}

/-! ## Rules behind a word or a bracket -/

section

variable (hself : ∀ goal, Tracks stop n (self goal) [pendingFor goal])

include hself

/-- Behind an opening bracket or a comma an expression is pending, and then the other items. -/
theorem tracks_itemsFrom (bracket : Bracket) (k : Nat) (hk : n < k) (before : List Node) :
    Tracks stop n (itemsFrom stop self bracket.close k before)
      [.phrase .expression, .moreItems bracket] := by
  induction k generalizing n before with
  | zero => exact absurd hk (Nat.not_lt_zero n)
  | succ k ih =>
    refine .bind (hself .expression) fun item s hs => ?_
    refine .acceptOperator_bind .comma hs rfl (fun m hm _ => ?_) fun hne => ?_
    · exact ih (fun goal => (hself goal).mono (Nat.le_of_lt hm)) (by omega) _
    · -- Without a comma only the closing bracket is left.
      refine .of_before (.operator bracket.close) [] ?_ (react_operator_ne_skip _ _) ?_
      · simp only [Pending.react, if_neg hne]
        split <;> rfl
      · exact Tracks.bind (.expectOperator bracket.close _) (fun last => .pure _) s hs

/-- Items may end at once or start with an expression. -/
theorem tracks_items (bracket : Bracket) (hbound : n ≤ bound) :
    Tracks stop n (items stop bound self bracket.close) [.items bracket] := by
  intro s hs
  refine .acceptOperator_bind bracket.close hs (if_pos rfl) (fun m _ last => .pure _) fun hne => ?_
  refine .of_before (.phrase .expression) [.moreItems bracket] ?_ (opening_ne_skip _ _) ?_
  · simp only [Pending.react, if_neg hne]
  · exact tracks_itemsFrom hself bracket (bound + 1) (by omega) [] s hs

/-- The arms of an `if` are followed by whatever goes on behind the last of them. -/
theorem tracks_armsFrom {f : List Arm → Parser Form}
    (hf : ∀ arms (s : ParseState), s.ahead.length ≤ n → nextToken? s.ahead ≠ some (.keyword .elif) →
      Tracked stop [.loop .atom] s.ahead (f arms s))
    (k : Nat) (hk : n ≤ k) (arms : List Arm) :
    Tracks stop n (armsFrom self k arms >>= f) [.loop .atom] := by
  induction k generalizing n arms with
  | zero =>
    intro s hs
    have hnil : s.ahead = [] := List.length_eq_zero_iff.mp (by omega)
    exact hf _ s hs (by simp [hnil])
  | succ k ih =>
    rw [armsFrom, bind_assoc]
    intro s hs
    refine .acceptKeyword_bind .elif hs rfl (fun m hm _ => ?_) fun hne => hf _ s hs hne
    have hbelow : ∀ goal, Tracks stop m (self goal) [pendingFor goal] :=
      fun goal => (hself goal).mono (Nat.le_of_lt hm)
    simp only [bind_assoc]
    refine .bind (hbelow .expression) fun cond => .bind (hbelow .block) fun body => ?_
    exact ih hbelow (fun arms s hs => hf arms s (by omega)) (by omega) _

/-- A conditional waits for its condition, its block, and more arms. -/
theorem tracks_ifForm (hbound : n ≤ bound) :
    Tracks stop n (ifForm bound self) [.phrase .expression, .block, .loop .atom] := by
  refine .bind (hself .expression) fun cond => .bind (hself .block) fun body => ?_
  refine tracks_armsFrom hself (fun arms s hs helif => ?_) bound hbound _
  rw [optionally, bind_assoc]
  refine .acceptKeyword_bind .else hs rfl (fun m hm _ => ?_) fun helse => ?_
  · have hblock := (hself .block).mono (Nat.le_of_lt hm)
    simp only [bind_assoc]
    exact .bind hblock fun body => .pure_bind (.pure _)
  · -- Only these two words go on with an `if`.
    refine .of_skip ?_ (Tracks.pure_bind (.pure _) s hs)
    refine joining_of_not_joins fun token hnext hjoins => ?_
    rcases eq_of_joins_atom hjoins with rfl | rfl
    · exact helif hnext
    · exact helse hnext

/-- A conditional is tracked from behind its first word on. -/
theorem tracks_ifElse (hbound : n ≤ bound) (start : Span) :
    Tracks stop n (ifElse bound self start) [.phrase .expression, .block, .loop .atom] :=
  .trailing_bind (tracks_ifForm hself hbound) fun _ => .pure _

/-- A loop waits for its condition and its block. -/
theorem tracks_whileLoop (start : Span) :
    Tracks stop n (whileLoop self start) [.phrase .expression, .block] :=
  .bind (hself .expression) fun _ => .bind (hself .block) fun _ => .pure _

/-- A counting loop waits for its name, its bounds, maybe a step, and its block. -/
theorem tracks_forLoop (start : Span) :
    Tracks stop n (forLoop stop self start)
      [.name, .operator .assign, .phrase .expression, .operator .colon, .phrase .expression, .step,
        .block] := by
  refine .bind (.expectIdentifier _) fun name => .bind (.require .assign) fun _ => ?_
  refine .bind (hself .expression) fun first => .bind (.require .colon) fun _ => ?_
  refine .bind (hself .expression) fun last s hs => ?_
  rw [optionally, bind_assoc]
  refine .acceptKeyword_bind .by hs rfl (fun m hm _ => ?_) fun hne => ?_
  · have hbelow : ∀ goal, Tracks stop m (self goal) [pendingFor goal] :=
      fun goal => (hself goal).mono (Nat.le_of_lt hm)
    simp only [bind_assoc]
    refine .bind (hbelow .expression) fun step => .pure_bind ?_
    exact .bind (hbelow .block) fun body => .pure _
  · refine .of_skip (if_neg hne) ?_
    exact Tracks.pure_bind (.bind (hself .block) fun body => .pure _) s hs

omit hself in
/-- Parameters are followed by whatever goes on behind the last of them. -/
theorem tracks_paramsFrom {f : List String → Parser (List String)}
    (hf : ∀ names (s : ParseState), s.ahead.length ≤ n →
      nextToken? s.ahead ≠ some (.operator .comma) → Tracked stop [.moreParams] s.ahead (f names s))
    (k : Nat) (hk : n ≤ k) (names : List String) :
    Tracks stop n (paramsFrom stop k names >>= f) [.moreParams] := by
  induction k generalizing n names with
  | zero =>
    intro s hs
    have hnil : s.ahead = [] := List.length_eq_zero_iff.mp (by omega)
    exact hf _ s hs (by simp [hnil])
  | succ k ih =>
    rw [paramsFrom, bind_assoc]
    intro s hs
    refine .acceptOperator_bind .comma hs rfl (fun m hm _ => ?_) fun hne => hf _ s hs hne
    simp only [bind_assoc]
    refine .bind (.expectIdentifier _) fun name => ?_
    exact ih (fun names s hs => hf names s (by omega)) (by omega) _

omit hself in
/-- Parameters may end at once or start with a name. -/
theorem tracks_params (hbound : n ≤ bound) : Tracks stop n (params stop bound) [.params] := by
  intro s hs
  refine .acceptOperator_bind .closeParen hs rfl (fun m _ _ => .pure _) fun hne => ?_
  refine .of_before .name [.moreParams] ?_ (react_name_ne_skip _) ?_
  · simp only [Pending.react, if_neg hne]
    split <;> rfl
  refine Tracks.bind (.expectIdentifier _) (fun first => ?_) s hs
  refine tracks_paramsFrom (fun names s hs hne => ?_) bound hbound _
  refine .of_before (.operator .closeParen) [] ?_ (react_operator_ne_skip _ _) ?_
  · simp only [Pending.react, if_neg hne]
    split <;> rfl
  · exact Tracks.bind (.expectOperator .closeParen _) (fun _ => .pure _) s hs

/-- A function literal from behind its parameters. -/
theorem tracks_body {f g : Node → Node} :
    Tracks stop n (do
      match ← acceptOperator .assign with
      | some _ =>
        let body ← self .expression
        return f body
      | none =>
        match ← peek with
        | some ⟨.operator .openBrace, _⟩ =>
          let body ← self .block
          return g body
        | _ => fail stop (.expected [.operator .openBrace, .operator .assign])) [.body] := by
  intro s hs
  refine .acceptOperator_bind .assign hs rfl (fun m hm _ => ?_) fun hne => ?_
  · exact .bind ((hself .expression).mono (Nat.le_of_lt hm)) fun body => .pure _
  obtain ⟨ahead, saved⟩ := s
  simp only
  rw [bind_of_ok (p := peek) rfl]
  by_cases hbrace : nextToken? ahead = some (.operator .openBrace)
  · obtain ⟨span, rest, rfl⟩ := eq_cons_of_nextToken? hbrace
    refine .of_before .block [] rfl (react_block_ne_skip _) ?_
    exact Tracks.bind (hself .block) (fun body => .pure _) ⟨_, saved⟩ hs
  · have hreact : Pending.react (nextToken? ahead) .body = .refuse := by
      simp only [Pending.react, if_neg hne, if_neg hbrace]
    -- The rule looks at the lexeme itself, so it is the token that decides which of its cases
    -- applies.
    rcases ahead with _ | ⟨⟨token, span⟩, rest⟩
    · exact .fail (s := ⟨[], saved⟩) hreact
    · cases token with
      | operator op =>
        cases op with
        | openBrace => exact absurd rfl hbrace
        | _ => exact .fail (s := ⟨_ :: rest, saved⟩) hreact
      | number | text | identifier | keyword | eof => exact .fail (s := ⟨_ :: rest, saved⟩) hreact

/-- A function waits for its signature. -/
theorem tracks_function (hbound : n ≤ bound) (start : Span) :
    Tracks stop n (function stop bound self start) [.signature] := by
  intro s hs
  refine .acceptIdentifier_bind hs (fun _ => rfl) (fun m hm name => ?_) fun hname => ?_
  · refine .bind (.expectOperator .openParen _) fun _ => ?_
    refine .bind (tracks_params (by omega)) fun names => ?_
    exact tracks_body fun goal => (hself goal).mono (Nat.le_of_lt hm)
  · refine .of_before (.operator .openParen) [.params, .body] ?_ (react_operator_ne_skip _ _) ?_
    · simp only [Pending.react, hname, Bool.false_eq_true, if_false]
      split <;> rfl
    refine Tracks.bind (.expectOperator .openParen _) (fun _ => ?_) s hs
    exact .bind (tracks_params hbound) fun names => tracks_body hself

/-- The rest of an atom. -/
theorem tracks_atomFrom (hbound : n ≤ bound) (span : Span) {token : Token} {rest : List Pending}
    (h : behindAtom? token = some rest) :
    Tracks stop n (atomFrom stop bound self span token) rest := by
  unfold behindAtom? at h
  split at h
  · cases h
    exact .pure _
  · cases h
    exact .pure _
  · cases h
    exact .pure _
  · cases h
    exact .pure _
  · cases h
    exact .bind (hself .expression) fun inner => .bind (.require .closeParen) fun close => .pure _
  · cases h
    exact .bind (tracks_items hself .square hbound) fun last => .pure _
  · cases h
    exact tracks_ifElse hself hbound span
  · cases h
    exact tracks_whileLoop hself span
  · cases h
    exact tracks_forLoop hself span
  · cases h
    exact tracks_function hself hbound span
  · cases h

end

/-! ## Loops of a level -/

section

variable (hself : ∀ m, m < n → ∀ goal, Tracks stop m (self goal) [pendingFor goal])

include hself

/-- Behind an expression there may be the rest of a ternary. -/
theorem tracks_ternaryFrom (cond : Node) :
    Tracks stop n (ternaryFrom stop self cond) [.loop .expression] := by
  intro s hs
  refine .acceptOperator_bind .question hs rfl (fun m hm _ => ?_) fun hne => ?_
  · refine .bind (hself m hm .expression) fun yes => .bind (.require .colon) fun _ => ?_
    exact .bind (hself m hm .expression) fun no => .pure _
  · refine .of_skip ?_ (Tracks.pure cond s hs)
    refine joining_of_not_joins fun token hnext hjoins => hne ?_
    rw [hnext, eq_of_joins_expression hjoins]

/-- Behind an atom there may be calls and indices. -/
theorem tracks_suffixesFrom (hbound : n ≤ bound) (k : Nat) (hk : n ≤ k) (callee : Node) :
    Tracks stop n (suffixesFrom stop bound self k callee) [.loop .suffix] := by
  induction k generalizing n callee with
  | zero =>
    intro s hs
    have hnil : s.ahead = [] := List.length_eq_zero_iff.mp (by omega)
    refine .of_skip ?_ (Tracks.pure callee s hs)
    rw [hnil]
    rfl
  | succ k ih =>
    -- Behind a suffix the loop is pending again.
    have hagain : ∀ m, m < n → ∀ callee,
        Tracks stop m (suffixesFrom stop bound self k callee) [.loop .suffix] :=
      fun m hm callee => ih (fun m' hm' => hself m' (by omega)) (by omega) (by omega) callee
    intro s hs
    refine .acceptOperator_bind .openParen hs rfl (fun m hm _ => ?_) fun hparen => ?_
    · exact .bind (tracks_items (hself m hm) .paren (by omega)) fun last => hagain m hm _
    refine .acceptOperator_bind .openBracket hs rfl (fun m hm _ => ?_) fun hbracket => ?_
    · refine .bind (hself m hm .expression) fun place => ?_
      exact .bind (.require .closeBracket) fun close => hagain m hm _
    · refine .of_skip ?_ (Tracks.pure callee s hs)
      refine joining_of_not_joins fun token hnext hjoins => ?_
      rcases eq_of_joins_suffix hjoins with rfl | rfl
      · exact hparen hnext
      · exact hbracket hnext

end

/-- An operator of a level is followed by an operand. -/
theorem react_loop_of_selectAt {level : Level} {token : Token} {op : BinaryOp}
    (h : selectAt level token = some op) :
    Pending.react (some token) (.loop level)
      = .shift [.phrase (operandLevel level), .loop level] := by
  have hjoint : behindJoint level token = [.phrase (operandLevel level), .loop level] := by
    unfold behindJoint
    -- The tokens that are followed by something else are no operators of any level.
    split <;> first | rfl | (cases level <;> cases h)
  rw [Pending.react, joining, if_pos (joins_of_selectAt h), hjoint]

/-- A level of operators goes no further without one. -/
theorem react_loop_of_not_selectAt {level : Level}
    (hlevel : level ≠ .expression ∧ level ≠ .suffix ∧ level ≠ .atom) {next : Option Token}
    (h : next.bind (selectAt level) = none) : Pending.react next (.loop level) = .skip := by
  refine joining_of_not_joins fun token hnext hjoins => ?_
  subst hnext
  cases token with
  | keyword word => cases word <;> cases hjoins <;> simp_all [selectAt, connective?]
  | operator op =>
    cases op <;> cases hjoins <;>
      simp_all [selectAt, comparison?, additive?, multiplicative?, exponential?]
  | number | text | identifier | eof => cases hjoins

/-- Behind an operand there may be operators of its level, each with an operand. -/
theorem tracks_chainFrom {level : Level}
    (hlevel : level ≠ .expression ∧ level ≠ .suffix ∧ level ≠ .atom) {operand : Parser Node}
    (hoperand : ∀ {token : Token} {op : BinaryOp}, selectAt level token = some op → ∀ m, m < n →
      Tracks stop m operand [.phrase (operandLevel level)]) (k : Nat) (hk : n ≤ k) (left : Node) :
    Tracks stop n (chainFrom operand (selectAt level) k left) [.loop level] := by
  induction k generalizing n left with
  | zero =>
    intro s hs
    have hnil : s.ahead = [] := List.length_eq_zero_iff.mp (by omega)
    refine .of_skip ?_ (Tracks.pure left s hs)
    rw [hnil]
    rfl
  | succ k ih =>
    intro s hs
    refine .accept_bind hs (fun token op hselect => ⟨_, react_loop_of_selectAt hselect, ?_⟩)
      fun hselect => ?_
    · intro m hm span
      refine .bind (hoperand hselect m hm) fun right => ?_
      exact ih (fun hselect m' hm' => hoperand hselect m' (by omega)) (by omega) _
    · exact .of_skip (react_loop_of_not_selectAt hlevel hselect) (Tracks.pure left s hs)

/-! ## Levels -/

/-- The recognizer opens an atom by the tokens that the rule knows. -/
theorem exists_behindAtom? {token first : Token} (h : atomStart? token = some first) :
    first = token ∧ ∃ rest, behindAtom? token = some rest := by
  unfold atomStart? at h
  split at h <;> cases h
  all_goals exact ⟨rfl, _, rfl⟩

/-- Nothing is pending behind a token that starts no atom. -/
theorem behindAtom?_of_not_atomStart? {token : Token} (h : atomStart? token = none) :
    behindAtom? token = none := by
  cases token with
  | keyword word => cases word <;> first | rfl | cases h
  | operator op => cases op <;> first | rfl | cases h
  | eof => rfl
  | number | text | identifier => cases h

/-- The tightest level opens with what starts an atom and nothing else. -/
theorem opening_atom (token : Token) :
    opening .atom (some token) = match behindAtom? token with
      | some rest => .shift rest
      | none => .refuse := by
  cases hheads : token.heads with
  | none =>
    rw [opening_of_not_heads hheads]
    cases behindAtom? token with
    | none => rfl
    | some rest => exact congrArg Reaction.shift (List.append_nil rest)
  | some head =>
    -- A token that heads a level starts no atom.
    unfold Token.heads at hheads
    split at hheads <;> cases hheads
    all_goals rfl

section

variable (hself : ∀ m, m < n → ∀ goal, Tracks stop m (self goal) [pendingFor goal])

include hself

/-- An atom is pending before its first token. -/
theorem tracks_atom (hbound : n ≤ bound) :
    Tracks stop n (atom stop bound self) [.phrase .atom] := by
  rw [atom_eq_accept]
  intro s hs
  refine .accept_bind hs (fun token first hselect => ?_) fun hselect => .fail ?_
  · obtain ⟨rfl, rest, hrest⟩ := exists_behindAtom? hselect
    refine ⟨rest, ?_, fun m hm span => ?_⟩
    · rw [Pending.react, opening_atom, hrest]
    · rw [List.append_nil]
      exact tracks_atomFrom (hself m hm) (by omega) span hrest
  · rw [Pending.react]
    cases hnext : nextToken? s.ahead with
    | none => rfl
    | some token =>
      rw [hnext] at hselect
      rw [opening_atom, behindAtom?_of_not_atomStart? hselect]

/-- A level with a token of its own in front. -/
theorem tracked_ruleAt_of_heads {level : Level} {token : Token} (hheads : token.heads = some level)
    {span : Span} {rest : List Lexeme} {saved : Option Abandoned} (hrest : rest.length < n) :
    Tracked stop [.phrase level] (⟨token, span⟩ :: rest)
      (ruleAt stop bound self level ⟨⟨token, span⟩ :: rest, saved⟩) := by
  have hgoal := hself rest.length hrest
  -- One case for each token that heads a level: `set`, `not` and the two signs.
  unfold Token.heads at hheads
  split at hheads
  · cases hheads
    rw [ruleAt, expression, acceptKeyword_bind_self]
    refine .of_shift rfl
      (Tracks.bind (.expectIdentifier _) (fun name => ?_) ⟨rest, saved⟩ (Nat.le_refl _))
    exact .bind (.require .assign) fun _ => .bind (hgoal .expression) fun value => .pure _
  · cases hheads
    rw [ruleAt, comparison, acceptKeyword_bind_self]
    exact .of_shift rfl
      (Tracks.bind (hgoal .comparison) (fun operand => .pure _) ⟨rest, saved⟩ (Nat.le_refl _))
  · cases hheads
    have hsign : sign? (.operator .plus) = some .plus := rfl
    rw [ruleAt, factor, accept_bind_of_some hsign]
    exact .of_shift rfl
      (Tracks.bind (hgoal .factor) (fun operand => .pure _) ⟨rest, saved⟩ (Nat.le_refl _))
  · cases hheads
    have hsign : sign? (.operator .minus) = some .neg := rfl
    rw [ruleAt, factor, accept_bind_of_some hsign]
    exact .of_shift rfl
      (Tracks.bind (hgoal .factor) (fun operand => .pure _) ⟨rest, saved⟩ (Nat.le_refl _))
  · cases hheads

/-- A level goes on as the recognizer does, if the next tighter level is tracked. -/
theorem tracks_loopAt (hbound : n ≤ bound) {level : Level} (hlevel : level.rank < Level.atom.rank)
    (htighter : Tracks stop n (ruleAt stop bound self level.tighter) [.phrase level.tighter])
    (node : Node) : Tracks stop n (loopAt stop bound self level bound node) [.loop level] := by
  cases level with
  | expression => exact tracks_ternaryFrom hself node
  | suffix => exact tracks_suffixesFrom hself hbound bound hbound node
  | atom => cases Nat.lt_irrefl _ hlevel
  | negation | sign =>
    exact tracks_chainFrom (by decide) (fun hselect => by cases hselect) bound hbound node
  | power => exact tracks_chainFrom (by decide) (fun _ m hm => hself m hm .factor) bound hbound node
  | connective | comparison | additive | multiplicative =>
    exact tracks_chainFrom (by decide) (fun _ m hm => htighter.mono (Nat.le_of_lt hm)) bound
      hbound node

/-- The recognizer follows the rule of every level. -/
theorem tracks_ruleAt (hbound : n ≤ bound) (level : Level) :
    Tracks stop n (ruleAt stop bound self level) [.phrase level] := by
  -- The induction goes down from the tightest level.
  obtain ⟨d, hd⟩ := Nat.le.dest (Level.rank_le_atom level)
  induction d generalizing level with
  | zero =>
    obtain rfl : level = .atom := Level.eq_of_rank_eq hd
    exact tracks_atom hself hbound
  | succ d ih =>
    have hlevel : level.rank < Level.atom.rank := by omega
    have hrank : level.tighter.rank = level.rank + 1 := Level.rank_tighter hlevel
    have htighter := ih level.tighter (by omega)
    rintro ⟨ahead, saved⟩ hs
    -- Either the first token belongs to this very level, or the next tighter one reads it.
    by_cases hheads : ∃ token, nextToken? ahead = some token ∧ token.heads = some level
    · obtain ⟨token, hnext, hheads⟩ := hheads
      obtain ⟨span, rest, rfl⟩ := eq_cons_of_nextToken? hnext
      exact tracked_ruleAt_of_heads hself hheads hs
    · have hne : ∀ token, nextToken? ahead = some token → token.heads ≠ some level :=
        fun token hnext hhead => hheads ⟨token, hnext, hhead⟩
      rw [ruleAt_eq_bind hlevel hne]
      refine .of_before (.phrase level.tighter) [.loop level] (opening_eq_before hlevel hne)
        (opening_ne_skip _ _) ?_
      exact Tracks.bind htighter (tracks_loopAt hself hbound hlevel htighter) ⟨ahead, saved⟩ hs

end

/-! ## Statements -/

/-- A statement is a jump or an expression. -/
theorem tracks_statement
    (hexpression : Tracks stop n (expression stop bound self) [.phrase .expression]) :
    Tracks stop n (Predictive.statement stop bound self) [.statement] := by
  rintro ⟨ahead, saved⟩ hs
  by_cases hreturn : nextToken? ahead = some (.keyword .return)
  · obtain ⟨start, rest, rfl⟩ := eq_cons_of_nextToken? hreturn
    have hrest : rest.length ≤ n := Nat.le_of_succ_le hs
    -- Behind `return` a value is pending, which is skipped unless the next token starts one.
    by_cases hnot : ∀ token, nextToken? rest = some token → token.startsExpression = false
    · rw [Predictive.statement_return_of_not_starts hnot]
      have hskip : Pending.react (nextToken? rest) .value = .skip := by
        refine if_neg fun hany => ?_
        cases hnext : nextToken? rest with
        | none => simp [hnext] at hany
        | some token => simp [hnext, hnot token hnext] at hany
      exact .of_shift rfl (.of_skip hskip ⟨List.suffix_refl _, fun _ => rfl⟩)
    · rcases rest with _ | ⟨lexeme, rest⟩
      · exact absurd (fun token h => by cases h) hnot
      have hstart : lexeme.token.startsExpression = true := by simpa using hnot
      rw [Predictive.statement_return_of_starts hstart]
      refine .of_shift rfl (.of_before (.phrase .expression) [] ?_
        (opening_ne_skip .expression (some lexeme.token)) ?_)
      · rw [Reaction.before_nil]
        exact if_pos hstart
      · exact Tracks.bind hexpression (fun value => .pure _) ⟨lexeme :: rest, saved⟩ hrest
  by_cases hcontinue : nextToken? ahead = some (.keyword .continue)
  · obtain ⟨span, rest, rfl⟩ := eq_cons_of_nextToken? hcontinue
    exact .of_shift rfl ⟨List.suffix_refl _, fun _ => rfl⟩
  by_cases hbreak : nextToken? ahead = some (.keyword .break)
  · obtain ⟨span, rest, rfl⟩ := eq_cons_of_nextToken? hbreak
    exact .of_shift rfl ⟨List.suffix_refl _, fun _ => rfl⟩
  rw [Predictive.statement_of_jump_ne hreturn hcontinue hbreak]
  refine .of_before (.phrase .expression) [] ?_ (opening_ne_skip _ _)
    (hexpression ⟨ahead, saved⟩ hs)
  rw [Reaction.before_nil]
  simp only [Pending.react, starting, if_neg hreturn, hcontinue, hbreak, or_self, if_false]

/-- What the statements up to a terminator stand for. -/
def pendingUpTo : Option Operator → Pending
  | none => .program
  | some _ => .statements

variable {terminator : Option Operator}

/-- A sequence that is not at its end goes on with a statement. -/
theorem react_pendingUpTo (hterminator : terminator = none ∨ terminator = some .closeBrace)
    {ahead : List Lexeme} (h : atSequenceEnd terminator ahead = false) :
    Pending.react (nextToken? ahead) (pendingUpTo terminator)
      = (Pending.react (nextToken? ahead) .statement).before [pendingUpTo terminator] := by
  rcases hterminator with rfl | rfl
  · rcases ahead with _ | ⟨lexeme, rest⟩
    · cases h
    · rfl
  · refine if_neg fun hnext => ?_
    rw [(atSequenceEnd_some_iff _ _).mpr (.inr hnext)] at h
    cases h

/-- The error of a sequence blames the lexeme that its last statement does. -/
theorem span_laterError {start reached : List Lexeme} {e : SyntaxError}
    (hsuffix : reached <:+ start) (he : e.span = spanOf stop reached) :
    (Predictive.laterError stop terminator start reached e).span = spanOf stop reached := by
  cases terminator with
  | none => exact he
  | some close =>
    rw [Predictive.laterError]
    split
    · exact he
    · have hle := hsuffix.length_le
      rw [hsuffix.eq_of_length (by omega)]

section

variable (hterminator : terminator = none ∨ terminator = some .closeBrace)
variable (hstatement : Tracks stop n (Predictive.statement stop bound self) [.statement])

include hterminator hstatement

/-- A sequence that goes on behind a statement, and fails if the statement does. -/
theorem tracked_of_statement {s : ParseState} (hs : s.ahead.length ≤ n)
    (hend : atSequenceEnd terminator s.ahead = false)
    {r : EStateM.Result SyntaxError ParseState Node}
    (hok : ∀ node s', Predictive.statement stop bound self s = .ok node s' →
      Tracked stop [pendingUpTo terminator] s'.ahead r)
    (herror : ∀ e s', Predictive.statement stop bound self s = .error e s' →
      r = .error e s' ∨ r = .error (Predictive.laterError stop terminator s.ahead s'.ahead e) s') :
    Tracked stop [pendingUpTo terminator] s.ahead r := by
  have hrun := hstatement s hs
  refine .of_before .statement [pendingUpTo terminator] (react_pendingUpTo hterminator hend)
    (starting_ne_skip _) ?_
  cases hs' : Predictive.statement stop bound self s with
  | ok node s' =>
    rw [hs'] at hrun
    exact (hok node s' hs').trans hrun.1 hrun.2
  | error e s' =>
    rw [hs'] at hrun
    rcases herror e s' hs' with rfl | rfl
    · exact ⟨hrun.1, hrun.2.1, fun stack => hrun.2.2 (pendingUpTo terminator :: stack)⟩
    · exact ⟨hrun.1, span_laterError hrun.1 hrun.2.1,
        fun stack => hrun.2.2 (pendingUpTo terminator :: stack)⟩

variable (hconsuming : ∀ goal, Consuming (self goal)) {f : List Node → Parser Node}
variable (hf : ∀ body (s : ParseState), s.ahead.length ≤ n →
  atSequenceEnd terminator s.ahead = true →
  Tracked stop [pendingUpTo terminator] s.ahead (f body s))

include hconsuming hf

/-- Statements are followed by whatever goes on behind the last of them. -/
theorem tracks_statementsFrom (k : Nat) (hk : n ≤ k) (before : List Node) :
    Tracks stop n (Predictive.statementsFrom stop bound self terminator k before >>= f)
      [pendingUpTo terminator] := by
  induction k generalizing n before with
  | zero =>
    intro s hs
    have hnil : s.ahead = [] := List.length_eq_zero_iff.mp (by omega)
    exact hf _ s hs (by rw [hnil]; rfl)
  | succ k ih =>
    intro s hs
    cases hend : atSequenceEnd terminator s.ahead with
    | true =>
      rw [bind_of_ok (Predictive.statementsFrom_of_end hend)]
      exact hf _ s hs hend
    | false =>
      refine tracked_of_statement hterminator hstatement hs hend (fun node s' hrun => ?_)
        fun e s' hrun => .inr (bind_of_error (Predictive.statementsFrom_of_error hend hrun))
      -- The statement moved, so one round less is enough for what is left.
      have hlt : s'.ahead.length < s.ahead.length := 
        (Predictive.consuming_statement hconsuming).progresses _ _ _ hrun
      rw [bind_apply, Predictive.statementsFrom_of_ok hend hrun, ← bind_apply]
      exact ih (hstatement.mono (by omega)) (fun body s'' hs'' => hf body s'' (by omega))
        (by omega) (node :: before) s' (Nat.le_refl _)

/-- Statements are pending up to their terminator, and then what is read behind them. -/
theorem tracks_statements (hbound : n ≤ bound) :
    Tracks stop n (Predictive.statements stop bound self terminator >>= f)
      [pendingUpTo terminator] := by
  intro s hs
  cases hend : atSequenceEnd terminator s.ahead with
  | true =>
    rw [bind_of_ok (Predictive.statements_of_end hend)]
    exact hf [] s hs hend
  | false =>
    refine tracked_of_statement hterminator hstatement hs hend (fun node s' hrun => ?_)
      fun e s' hrun => .inl (bind_of_error (Predictive.statements_of_error hend hrun))
    have hlt : s'.ahead.length < s.ahead.length := 
        (Predictive.consuming_statement hconsuming).progresses _ _ _ hrun
    rw [bind_apply, Predictive.statements_of_ok hend hrun, ← bind_apply]
    exact tracks_statementsFrom hterminator hstatement hconsuming hf bound hbound [node]
      s' (by omega)

end

/-! ## Blocks and goals -/

/-- A block waits for its opening brace, its statements and its closing brace. -/
theorem tracks_block (hbound : n ≤ bound) (hconsuming : ∀ goal, Consuming (self goal))
    (hexpression : Tracks stop n (expression stop bound self) [.phrase .expression]) :
    Tracks stop n (Predictive.block stop bound self) [.block] := by
  intro s hs
  refine .of_before (.operator .openBrace) [.statements] ?_ (react_operator_ne_skip _ _) ?_
  · simp only [Pending.react]
    split <;> rfl
  refine Tracks.bind (.require .openBrace) (fun opening => ?_) s hs
  refine tracks_statements (.inr rfl) (tracks_statement hexpression) hconsuming
    (fun body s hs hend => ?_)
    hbound
  -- Where the sequence may end there is its closing brace, or nothing at all.
  refine .of_before (.operator .closeBrace) [] ?_ (react_operator_ne_skip _ _) ?_
  · rcases (atSequenceEnd_some_iff _ _).mp hend with hnil | hnext
    · rw [hnil]
      rfl
    · rw [hnext]
      rfl
  · exact Tracks.bind (.require .closeBrace) (fun closing => .pure _) s hs

end

/-- The recognizer follows the parser of every goal. -/
theorem tracks_predictGoal (stop : Span) (n : Nat) (goal : Goal) :
    Tracks stop n (predictGoal stop n goal) [pendingFor goal] := by
  induction n generalizing goal with
  | zero =>
    intro s hs
    have hnil : s.ahead = [] := List.length_eq_zero_iff.mp (by omega)
    -- At the end of the input no goal can start.
    refine .fail ?_
    rw [hnil]
    cases goal <;> rfl
  | succ n ih =>
    have hself :
        ∀ m, m < n + 1 → ∀ goal, Tracks stop m (predictGoal stop n goal) [pendingFor goal] :=
      fun m hm goal => (ih goal).mono (Nat.le_of_lt_succ hm)
    have hrule := tracks_ruleAt hself (Nat.le_refl (n + 1))
    cases goal with
    | expression => exact hrule .expression
    | comparison => exact hrule .negation
    | factor => exact hrule .sign
    | block => exact tracks_block (Nat.le_refl _) (consuming_predictGoal stop n) (hrule .expression)

/-- The recognizer follows the parser of programs, and both come to the end of the input. -/
theorem tracks_program (stop : Span) (n : Nat) :
    Tracks stop n (Predictive.program stop n (predictGoal stop n)) [.program] := by
  have hself : ∀ m, m < n → ∀ goal, Tracks stop m (predictGoal stop n goal) [pendingFor goal] :=
    fun m hm goal => (tracks_predictGoal stop n goal).mono (Nat.le_of_lt hm)
  have hexpression := tracks_ruleAt hself (Nat.le_refl n) .expression
  intro s hs
  rw [Predictive.program, bind_of_ok (p := get) rfl]
  refine tracks_statements (.inl rfl) (tracks_statement hexpression) (consuming_predictGoal stop n)
    (fun body s hs hend => ?_) (Nat.le_refl n) s hs
  have hnil : s.ahead = [] := (atSequenceEnd_none_iff _).mp hend
  refine .of_skip ?_ (Tracks.pure _ s hs)
  rw [hnil]
  rfl

end Script.Parser
