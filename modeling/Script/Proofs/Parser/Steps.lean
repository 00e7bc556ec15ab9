import Script.Proofs.Parser.Rules

/-!
# What rules do with the cursor

`Steps` is the syntax of what can be done with a cursor, and it is a cursor itself: over it, a rule
of the grammar is its own text. `Steps.run` follows a text with some other cursor. So what holds of
all texts, by induction on them, holds of whatever the grammar does, and which lexemes are looked at
is settled by the text of a rule.

A parser that follows the text of the grammar is the parser of the grammar (`follows_program`). This
is so for all bounds on the rounds of loops and on the depth of the recursion that are as large as
the number of lexemes ahead, and the only faults that come up are those that tokens can have.
-/

namespace Script

universe u

/-- What is done with a cursor, one step after another. -/
inductive Steps : Type → Type 1
  /-- Nothing more, with a result. -/
  | done {α : Type} (a : α) : Steps α
  /-- A look at the next lexeme. -/
  | look {α : Type} (next : Option Lexeme → Steps α) : Steps α
  /-- The next lexeme is passed. -/
  | move {α : Type} (next : Steps α) : Steps α
  /-- A failure. -/
  | throw {α : Type} (error : SyntaxError) : Steps α
  /-- A rule, with the span of the lexeme that it moves past last. -/
  | trailing {α β : Type} (start : Span) (rule : Steps β) (next : β × Span → Steps α) : Steps α
  /-- What was given up last is forgotten. -/
  | take {α : Type} (next : Option Abandoned → Steps α) : Steps α
  /-- A rule that may fail. -/
  | recover {α β : Type} (rule : Steps β) (note : Abandoned → Option Abandoned → Option Abandoned)
      (next : Option β → Steps α) : Steps α

namespace Steps

/-- First some steps, then others. -/
def bind {α β : Type} : Steps α → (α → Steps β) → Steps β
  | done a, f => f a
  | look next, f => look fun lexeme => (next lexeme).bind f
  | move next, f => move (next.bind f)
  | throw error, _ => throw error
  | trailing start rule next, f => trailing start rule fun a => (next a).bind f
  | take next, f => take fun abandoned => (next abandoned).bind f
  | recover rule note next, f => recover rule note fun a => (next a).bind f

instance : Monad Steps where
  pure := done
  bind := bind

/-- To do nothing after some steps changes nothing. -/
theorem bind_done {α : Type} (p : Steps α) : p.bind done = p := by
  induction p with
  | done | throw => rfl
  | move _ ih => rw [bind, ih]
  | look _ ih | take _ ih | trailing _ _ _ _ ih | recover _ _ _ _ ih => rw [bind, funext ih]

/-- Steps in sequence may be grouped either way. -/
theorem bind_assoc {α β γ : Type} (p : Steps α) (f : α → Steps β) (g : β → Steps γ) :
    (p.bind f).bind g = p.bind fun a => (f a).bind g := by
  induction p with
  | done | throw => rfl
  | move _ ih => rw [bind, bind, bind, ih]
  | look _ ih | take _ ih | trailing _ _ _ _ ih | recover _ _ _ _ ih =>
    rw [bind, bind, bind, funext fun x => ih x f]

instance : LawfulMonad Steps :=
  LawfulMonad.mk' Steps bind_done (fun _ _ => rfl) bind_assoc

/-- The cursor of a text writes down what it is asked to do. -/
instance : Cursor Steps where
  peek := look done
  advance := move (done ())
  throw := throw
  trailing start rule := trailing start rule done
  takeAbandoned := take done
  recover rule note := recover rule note done

/-- Follow a text with a cursor. -/
def run {m : Type → Type u} [Monad m] [Cursor m] : {α : Type} → Steps α → m α
  | _, done a => pure a
  | _, look next => do
    let lexeme ← Cursor.peek
    (next lexeme).run
  | _, move next => do
    Cursor.advance
    next.run
  | _, throw error => Cursor.throw error
  | _, trailing start rule next => do
    let a ← Cursor.trailing start rule.run
    (next a).run
  | _, take next => do
    let abandoned ← Cursor.takeAbandoned
    (next abandoned).run
  | _, recover rule note next => do
    let a ← Cursor.recover rule.run note
    (next a).run

end Steps

namespace Parser

/-! ## Parsers that follow a text -/

/-- A failure that was given up is one that tokens can have. -/
def Proper (saved : Option Abandoned) : Prop :=
  ∀ abandoned, saved = some abandoned → concernsTokens abandoned.error.fault = true

theorem proper_none : Proper none := fun _ h => by cases h

/-- Two runs that end alike, with at most `n` lexemes left if they succeed, and with no other faults
than tokens can have. -/
inductive EndsAlike {α β : Type} (n : Nat) (post : Nat → α → β → Prop) :
    EStateM.Result SyntaxError ParseState α → EStateM.Result SyntaxError ParseState β → Prop
  | ok {a : α} {b : β} {s : ParseState} (hle : s.ahead.length ≤ n) (hsaved : Proper s.abandoned)
      (h : post s.ahead.length a b) : EndsAlike n post (.ok a s) (.ok b s)
  | error {e : SyntaxError} {s : ParseState} (hsaved : Proper s.abandoned)
      (hfault : concernsTokens e.fault = true) : EndsAlike n post (.error e s) (.error e s)

/-- A text that a parser follows, with `n` lexemes ahead. -/
def Follows (n : Nat) {α β : Type} (post : Nat → α → β → Prop) (p : Steps α) (q : Parser β) :
    Prop :=
  ∀ s : ParseState, s.ahead.length = n → Proper s.abandoned →
    EndsAlike n post ((p.run : Parser α) s) (q s)

/-- A parser follows one text after the other. -/
theorem run_bind {α β : Type} (p : Steps α) (f : α → Steps β) :
    ((p >>= f).run : Parser β) = p.run >>= fun a => (f a).run := by
  show (p.bind f).run = _
  induction p with
  | done | throw => rfl
  | move _ ih | look _ ih | take _ ih | trailing _ _ _ _ ih | recover _ _ _ _ ih =>
    simp only [Steps.bind, Steps.run, ih, bind_assoc]

namespace Follows

variable {α β γ δ : Type} {n : Nat} {post : Nat → α → β → Prop} {p : Steps α} {q : Parser β}

/-- A parser that follows a text goes on to follow the next one. -/
theorem bind {mid : Nat → α → β → Prop} {post : Nat → γ → δ → Prop} {f : α → Steps γ}
    {g : β → Parser δ} (h : Follows n mid p q)
    (hf : ∀ k a b, k ≤ n → mid k a b → Follows k post (f a) (g b)) :
    Follows n post (p >>= f) (q >>= g) := by
  intro s hlength hsaved
  rw [run_bind, bind_apply, bind_apply]
  have hends := h s hlength hsaved
  generalize (p.run : Parser α) s = r at hends ⊢
  generalize q s = r' at hends ⊢
  cases hends with
  | error hsaved' hfault => exact .error hsaved' hfault
  | @ok a b s' hle hsaved' hvalue =>
    have hrest := hf _ _ _ hle hvalue s' rfl hsaved'
    simp only
    generalize ((f a).run : Parser γ) s' = r at hrest ⊢
    generalize g b s' = r' at hrest ⊢
    cases hrest with
    | error hsaved hfault => exact .error hsaved hfault
    | ok hle' hsaved hvalue => exact .ok (Nat.le_trans hle' hle) hsaved hvalue

/-- To fail is to follow a text that does, if the fault is one that concerns tokens. -/
theorem fail {stop : Span} {fault : SyntaxFault} (hfault : concernsTokens fault = true) :
    Follows n post (Parser.fail stop fault) (Parser.fail stop fault) := by
  intro s _ hsaved
  rw [fail_apply]
  show EndsAlike _ _ (.error ⟨fault, spanOf stop s.ahead.head?.toList⟩ s) _
  rw [spanOf_head]
  exact .error hsaved hfault

/-- A parser that follows a text passes the same last span. -/
theorem trailing {start : Span} (h : Follows n post p q) :
    Follows n (fun k a b => post k a.1 b.1 ∧ a.2 = b.2) (trailing start p) (trailing start q) := by
  intro s hlength hsaved
  have hends := h s hlength hsaved
  generalize hp : (p.run : Parser α) s = r at hends
  generalize hq : q s = r' at hends
  show EndsAlike _ _ ((Parser.trailing start p.run >>= Pure.pure : Parser _) s) _
  rw [bind_pure]
  cases hends with
  | error hsaved' hfault =>
    rw [trailing_of_error hp, trailing_of_error hq]
    exact .error hsaved' hfault
  | ok hle hsaved' hvalue =>
    rw [trailing_of_ok hp, trailing_of_ok hq]
    exact .ok hle hsaved' ⟨hvalue, rfl⟩

/-- An attempt follows an attempt, if what is tried does and nothing improper is noted. -/
theorem recover {note : Abandoned → Option Abandoned → Option Abandoned} (h : Follows n post p q)
    (hnote : ∀ {a kept}, concernsTokens a.error.fault = true → Proper kept → Proper (note a kept)) :
    Follows n (Tried n post) (recover p note) (recover q note) := by
  intro s hlength hsaved
  have hends := h s hlength hsaved
  generalize hp : (p.run : Parser α) s = r at hends
  generalize hq : q s = r' at hends
  show EndsAlike _ _ ((Parser.recover p.run note >>= Pure.pure : Parser _) s) _
  rw [bind_pure]
  cases hends with
  | ok hle hsaved' hvalue =>
    rw [recover_of_ok hp, recover_of_ok hq]
    exact .ok hle hsaved' (.ok hvalue)
  | error hsaved' hfault =>
    rw [recover_of_error hp, recover_of_error hq]
    refine .ok (Nat.le_of_eq hlength) (hnote hfault hsaved') ?_
    show Tried n post s.ahead.length none none
    rw [hlength]
    exact .failed

end Follows

/-- Parsers that follow texts are related to them as the grammar needs it. -/
theorem sequenceRelation_follows (stop : Span) : SequenceRelation .same stop stop Follows where
  stops := rfl
  pure h s hlength hsaved := .ok (Nat.le_of_eq hlength) hsaved (hlength ▸ h)
  bind := Follows.bind
  peek n := by
    rintro ⟨ahead, saved⟩ rfl hsaved
    refine .ok (Nat.le_refl _) hsaved ⟨rfl, ?_⟩
    cases ahead with
    | nil => exact .none
    | cons lexeme rest => exact .some (fun _ _ => trivial) rfl
  advance n := by
    rintro ⟨_ | ⟨lexeme, rest⟩, saved⟩ hlength hsaved
    · cases hlength
    · have hrest : rest.length = n := Nat.succ.inj hlength
      exact .ok (hrest ▸ Nat.le_succ _) hsaved hrest
  fail hfault := .fail hfault
  trailing hstart h := hstart ▸ h.trailing
  peek_left {_ _ _ f _} h := by
    rintro ⟨ahead, saved⟩ hlength hsaved
    obtain rfl := List.length_eq_zero_iff.mp hlength
    rw [run_bind]
    exact h _ hlength hsaved
  peek_right h := by
    rintro ⟨ahead, saved⟩ hlength hsaved
    obtain rfl := List.length_eq_zero_iff.mp hlength
    exact h _ hlength hsaved
  attempt h := h.recover fun _ hkept => hkept
  giveUp h := h.recover fun hfault _ => by
    rintro _ ⟨⟩
    exact hfault
  takeAbandoned n s hlength _ := .ok (Nat.le_of_eq hlength) proper_none hlength
  leftover {_ _ _ _ fault} hfault := by
    rintro ⟨ahead, saved⟩ hlength hsaved
    -- What was given up has a fault that tokens can have, like the one that is blamed else.
    rcases saved with _ | ⟨error, _ | _⟩
    · exact Follows.fail hfault ⟨ahead, none⟩ hlength proper_none
    · exact Follows.fail hfault ⟨ahead, none⟩ hlength proper_none
    · exact .error proper_none (hsaved _ rfl)

/-! ## Bounds -/

/-- At the end of the input a goal fails in the same way with any depth as with none. -/
theorem goalAt_of_nil (stop : Span) (depth : Nat) (goal : Goal) (saved : Option Abandoned) :
    (goalAt stop depth goal : Parser Node) ⟨[], saved⟩
      = .error ⟨goal.faultAtEnd, stop⟩ ⟨[], saved⟩ := by
  cases depth with
  | zero => rfl
  | succ depth => cases goal <;> rfl

/-- With nothing ahead the bound does not matter. -/
theorem follows_goalAt_zero (stop : Span) (a b : Nat) (goal : Goal) :
    Follows 0 (Consumed 0 Eq) (goalAt stop a goal) (goalAt stop b goal) := by
  rintro ⟨ahead, saved⟩ hlength hsaved
  obtain rfl := List.length_eq_zero_iff.mp hlength
  have hends := (sequenceRelation_follows stop).goalAt a goal ⟨[], saved⟩ rfl hsaved
  rw [goalAt_of_nil] at hends ⊢
  exact hends

/-- How deep the recursion may go makes no difference if it may go as deep as there are lexemes. -/
theorem follows_goalAt (stop : Span) {n a b : Nat} (h : SameRounds n a b) (goal : Goal) :
    Follows n (Consumed n Eq) (goalAt stop a goal) (goalAt stop b goal) := by
  induction a generalizing n b goal with
  | zero =>
    cases b with
    | zero => exact .fail (concernsTokens_faultAtEnd goal)
    | succ b =>
      obtain rfl := h.eq_zero_of_left
      exact follows_goalAt_zero stop 0 (b + 1) goal
  | succ a ih =>
    cases b with
    | zero =>
      obtain rfl := h.eq_zero_of_right
      exact follows_goalAt_zero stop (a + 1) 0 goal
    | succ b =>
      exact (sequenceRelation_follows stop).goal (fun k hk goal => ih (h.pred hk) goal) h goal

/-- A parser that follows the text of the grammar is the parser of the grammar, with any bounds that
are large enough. -/
theorem follows_program (stop : Span) {n a b : Nat} (h : SameRounds n a b) :
    Follows n (fun _ => Eq) (program stop a (goalAt stop a)) (program stop b (goalAt stop b)) :=
  (sequenceRelation_follows stop).program
    (fun _ hk goal => follows_goalAt stop (h.mono (Nat.le_of_lt hk)) goal) h

end Parser

end Script
