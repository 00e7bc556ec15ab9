import Script.Proofs.Parser.Steps

/-!
# Where the cursor has been

Here the cursor is the position of a lexeme in the list that is parsed (`Walker`). It keeps a record
of all positions that it comes by, and to read at a position outside of the list is an ending of its
own.

A list that has an end marker is safe to walk on (`Walks.run`). Whatever the text that is followed,
from a position not behind the first marker the walker comes to no position behind it, let alone out
of the list, and it ends like the parser that follows the text on the lexemes from there up to the
marker.
-/

namespace Script

/-- How a walk ends. -/
inductive TrailEnd (α : Type) where
  /-- With a result. -/
  | ok (a : α) (position : Nat) (saved : Option Abandoned)
  /-- With an error. -/
  | error (e : SyntaxError) (position : Nat) (saved : Option Abandoned)
  /-- At a position where there is no lexeme. -/
  | outside

/-- The positions that a walk comes by, and how it ends. -/
structure Trail (α : Type) where
  path : List Nat
  ending : TrailEnd α

/-- What a walk ends with, if it does not end outside. -/
def TrailEnd.answer? {α : Type} : TrailEnd α → Option (Except SyntaxError α)
  | .ok a _ _ => some (.ok a)
  | .error e _ _ => some (.error e)
  | .outside => none

/-- What is seen of a lexeme: nothing of an end marker. -/
def visible (lexeme : Lexeme) : Option Lexeme := if lexeme.token.isEof then none else some lexeme

/-- The position after that of a lexeme. An end marker is never passed. -/
def positionAfter (lexeme : Lexeme) (i : Nat) : Nat := if lexeme.token.isEof then i else i + 1

namespace Trail

variable {α β : Type}

/-- A trail with some positions before it. -/
def behind (path : List Nat) (trail : Trail α) : Trail α := ⟨path ++ trail.path, trail.ending⟩

/-- Read the lexeme at a position, if there is one. -/
def read (lexemes : List Lexeme) (i : Nat) (next : Lexeme → Trail α) : Trail α :=
  match lexemes[i]? with
  | some lexeme => (next lexeme).behind [i]
  | none => ⟨[i], .outside⟩

/-- Go on where a trail ends with a result. -/
def andThen (trail : Trail α) (next : α → Nat → Option Abandoned → Trail β) : Trail β :=
  match trail.ending with
  | .ok a i saved => (next a i saved).behind trail.path
  | .error e i saved => ⟨trail.path, .error e i saved⟩
  | .outside => ⟨trail.path, .outside⟩

/-- Go back to position `i` where a trail from there ends with an error. -/
def backTo (i : Nat) (note : Abandoned → Option Abandoned → Option Abandoned) (trail : Trail α) :
    Trail (Option α) :=
  match trail.ending with
  | .ok a j saved => ⟨trail.path, .ok (some a) j saved⟩
  | .error e j saved => ⟨trail.path ++ [i], .ok none i (note ⟨e, decide (i < j)⟩ saved)⟩
  | .outside => ⟨trail.path, .outside⟩

end Trail

/-- A cursor that is a position in a list. -/
structure Walker (lexemes : List Lexeme) (α : Type) where
  /-- The trail from a position on. -/
  walk : Nat → Option Abandoned → Trail α

instance {lexemes : List Lexeme} : Monad (Walker lexemes) where
  pure a := ⟨fun i saved => ⟨[], .ok a i saved⟩⟩
  bind w next := ⟨fun i saved => (w.walk i saved).andThen fun a => (next a).walk⟩

instance {lexemes : List Lexeme} : Cursor (Walker lexemes) where
  peek := ⟨fun i saved => .read lexemes i fun lexeme => ⟨[], .ok (visible lexeme) i saved⟩⟩
  advance := ⟨fun i saved => .read lexemes i fun lexeme =>
    ⟨[positionAfter lexeme i], .ok () (positionAfter lexeme i) saved⟩⟩
  throw error := ⟨fun i saved => ⟨[], .error error i saved⟩⟩
  trailing start rule := ⟨fun i saved => (rule.walk i saved).andThen fun a j saved =>
    -- The lexeme passed last is the one before the cursor, if that has moved.
    if i < j then .read lexemes (j - 1) fun lexeme => ⟨[], .ok (a, lexeme.span) j saved⟩
    else ⟨[], .ok (a, start) j saved⟩⟩
  takeAbandoned := ⟨fun i saved => ⟨[], .ok saved i none⟩⟩
  recover rule note := ⟨fun i saved => (rule.walk i saved).backTo i note⟩

/-- The trail of a text from a position of a list on. -/
def Steps.trail {α : Type} (lexemes : List Lexeme) (p : Steps α) (i : Nat)
    (saved : Option Abandoned) :
    Trail α :=
  (p.run : Walker lexemes α).walk i saved

namespace Parser

/-! ## Lists with an end marker -/

/-- Lexemes that start with some that are no end marker and go on with one. -/
structure Delimited (lexemes ahead : List Lexeme) : Prop where
  exists_eq : ∃ marker rest, lexemes = ahead ++ marker :: rest ∧ marker.token.isEof = true
  unmarked : ∀ lexeme ∈ ahead, lexeme.token.isEof = false

namespace Delimited

variable {lexemes ahead : List Lexeme}

/-- Before the marker there are the lexemes ahead. -/
theorem getElem?_eq (h : Delimited lexemes ahead) {i : Nat} (hi : i < ahead.length) :
    lexemes[i]? = ahead[i]? := by
  obtain ⟨marker, rest, rfl, -⟩ := h.exists_eq
  exact List.getElem?_append_left hi

/-- What there is at a position up to the marker. -/
theorem exists_getElem? (h : Delimited lexemes ahead) {i : Nat} (hi : i ≤ ahead.length) :
    ∃ lexeme, lexemes[i]? = some lexeme ∧ visible lexeme = (ahead.drop i).head? ∧
      i ≤ positionAfter lexeme i ∧ positionAfter lexeme i ≤ ahead.length ∧
      ahead.drop (positionAfter lexeme i) = (ahead.drop i).tail := by
  rcases Nat.lt_or_ge i ahead.length with hlt | hge
  · have hunmarked := h.unmarked ahead[i] (List.getElem_mem hlt)
    refine ⟨ahead[i], ?_, ?_⟩
    · rw [h.getElem?_eq hlt, List.getElem?_eq_getElem hlt]
    · rw [visible, positionAfter, hunmarked, List.drop_eq_getElem_cons hlt]
      exact ⟨rfl, Nat.le_succ i, hlt, rfl⟩
  · obtain rfl : i = ahead.length := Nat.le_antisymm hi hge
    obtain ⟨marker, rest, rfl, hmarker⟩ := h.exists_eq
    refine ⟨marker, by simp, ?_⟩
    rw [visible, positionAfter, hmarker, List.drop_length]
    exact ⟨rfl, Nat.le_refl _, Nat.le_refl _, List.drop_length⟩

end Delimited

/-- The lexeme passed last is the one before the cursor. -/
theorem getLast?_passedLexemes {ahead : List Lexeme} {i j : Nat} (hij : i < j)
    (hj : j ≤ ahead.length) :
    (passedLexemes (ahead.drop i) (ahead.drop j)).getLast? = ahead[j - 1]? := by
  have hlength : (ahead.drop i).length - (ahead.drop j).length = j - i := by
    rw [List.length_drop, List.length_drop]
    omega
  have hrest : j - i ≤ (ahead.drop i).length := by
    rw [List.length_drop]
    omega
  rw [passedLexemes, hlength, List.getLast?_eq_getElem?, List.length_take, Nat.min_eq_left hrest,
    List.getElem?_take, if_pos (by omega), List.getElem?_drop]
  congr 1
  omega

theorem passedLexemes_self (ahead : List Lexeme) : passedLexemes ahead ahead = [] := by
  rw [passedLexemes, Nat.sub_self, List.take_zero]

/-! ## Walks along a parser -/

/-- A walk ends like a run. The position only goes forward, and not behind the lexemes ahead. -/
inductive EndsLike (ahead : List Lexeme) (i : Nat) {α : Type} :
    TrailEnd α → EStateM.Result SyntaxError ParseState α → Prop where
  | ok {a : α} {j : Nat} {saved : Option Abandoned} (hij : i ≤ j) (hj : j ≤ ahead.length) :
      EndsLike ahead i (.ok a j saved) (.ok a ⟨ahead.drop j, saved⟩)
  | error {e : SyntaxError} {j : Nat} {saved : Option Abandoned} (hij : i ≤ j)
      (hj : j ≤ ahead.length) : EndsLike ahead i (.error e j saved) (.error e ⟨ahead.drop j, saved⟩)

/-- The trail of a run: it keeps to the lexemes ahead and the marker behind them, and ends like the
run. -/
structure TrailOf (ahead : List Lexeme) (i : Nat) {α : Type} (trail : Trail α)
    (r : EStateM.Result SyntaxError ParseState α) : Prop where
  path : ∀ k ∈ trail.path, k ≤ ahead.length
  ending : EndsLike ahead i trail.ending r

/-- A walker that goes along with a parser, from every position up to the marker. -/
def Walks {lexemes : List Lexeme} (ahead : List Lexeme) {α : Type} (w : Walker lexemes α)
    (p : Parser α) : Prop :=
  ∀ i saved, i ≤ ahead.length → TrailOf ahead i (w.walk i saved) (p ⟨ahead.drop i, saved⟩)

namespace TrailOf

variable {ahead : List Lexeme} {i j : Nat} {α β : Type}

/-- Positions in between do no harm. -/
theorem behind {trail : Trail α} {r : EStateM.Result SyntaxError ParseState α} {path : List Nat}
    (hpath : ∀ k ∈ path, k ≤ ahead.length) (hij : i ≤ j) (h : TrailOf ahead j trail r) :
    TrailOf ahead i (trail.behind path) r where
  path k hk := (List.mem_append.mp hk).elim (hpath k) (h.path k)
  ending := by
    obtain ⟨_, ending⟩ := trail
    cases h.ending with
    | ok hjk hk => exact .ok (Nat.le_trans hij hjk) hk
    | error hjk hk => exact .error (Nat.le_trans hij hjk) hk

/-- A trail goes on where the run does. -/
theorem andThen {trail : Trail α} {next : α → Nat → Option Abandoned → Trail β} {p : Parser α}
    {f : α → Parser β} {saved : Option Abandoned}
    (h : TrailOf ahead i trail (p ⟨ahead.drop i, saved⟩))
    (hnext : ∀ a j saved', i ≤ j → j ≤ ahead.length →
      p ⟨ahead.drop i, saved⟩ = .ok a ⟨ahead.drop j, saved'⟩ →
      TrailOf ahead j (next a j saved') (f a ⟨ahead.drop j, saved'⟩)) :
    TrailOf ahead i (trail.andThen next) ((p >>= f) ⟨ahead.drop i, saved⟩) := by
  obtain ⟨path, ending⟩ := trail
  obtain ⟨hpath, hending⟩ := h
  generalize hp : p ⟨ahead.drop i, saved⟩ = r at hending
  cases hending with
  | ok hij hj =>
    rw [bind_of_ok hp]
    exact (hnext _ _ _ hij hj hp).behind hpath hij
  | error hij hj =>
    rw [bind_of_error hp]
    exact ⟨hpath, .error hij hj⟩

end TrailOf

namespace Walks

variable {lexemes ahead : List Lexeme} {α β : Type}

theorem pure (a : α) : Walks ahead (Pure.pure a : Walker lexemes α) (Pure.pure a) :=
  fun _ _ hi => ⟨List.forall_mem_nil _, .ok (Nat.le_refl _) hi⟩

theorem throw (error : SyntaxError) :
    Walks ahead (Cursor.throw error : Walker lexemes α) (Cursor.throw error) :=
  fun _ _ hi => ⟨List.forall_mem_nil _, .error (Nat.le_refl _) hi⟩

/-- To take what has been abandoned takes no step. -/
theorem takeAbandoned :
    Walks ahead (Cursor.takeAbandoned : Walker lexemes _) Cursor.takeAbandoned :=
  fun _ _ hi => ⟨List.forall_mem_nil _, .ok (Nat.le_refl _) hi⟩

theorem bind {w : Walker lexemes α} {next : α → Walker lexemes β} {p : Parser α} {f : α → Parser β}
    (h : Walks ahead w p) (hnext : ∀ a, Walks ahead (next a) (f a)) :
    Walks ahead (w >>= next) (p >>= f) :=
  fun i saved hi => (h i saved hi).andThen fun a j saved' _ hj _ => hnext a j saved' hj

/-- A rule that fails leaves both where they started. -/
theorem recover {w : Walker lexemes α} {p : Parser α} (h : Walks ahead w p)
    (note : Abandoned → Option Abandoned → Option Abandoned) :
    Walks ahead (Cursor.recover w note) (Cursor.recover p note) := by
  intro i saved hi
  show TrailOf ahead i ((w.walk i saved).backTo i note) _
  have htrail := h i saved hi
  generalize w.walk i saved = trail at htrail ⊢
  obtain ⟨path, ending⟩ := trail
  obtain ⟨hpath, hending⟩ := htrail
  generalize hp : p ⟨ahead.drop i, saved⟩ = r at hending
  cases hending with
  | ok hij hj =>
    rw [recover_of_ok hp]
    exact ⟨hpath, .ok hij hj⟩
  | @error e j saved' hij hj =>
    -- The cursor has moved exactly if fewer lexemes are ahead.
    have hmoved : (ahead.drop j).length < (ahead.drop i).length ↔ i < j := by
      rw [List.length_drop, List.length_drop]
      omega
    rw [recover_of_error hp]
    simp only [hmoved]
    refine ⟨fun k hk => ?_, .ok (Nat.le_refl _) hi⟩
    rcases List.mem_append.mp hk with hk | hk
    · exact hpath k hk
    · exact List.mem_singleton.mp hk ▸ hi

section

variable (hdelimited : Delimited lexemes ahead)

include hdelimited

/-- To look ahead is to stay on the same lexeme. -/
theorem peek : Walks ahead (Cursor.peek : Walker lexemes _) Cursor.peek := by
  intro i saved hi
  obtain ⟨lexeme, hlexeme, hvisible, -⟩ := hdelimited.exists_getElem? hi
  show TrailOf ahead i (.read lexemes i _) (.ok (ahead.drop i).head? _)
  rw [Trail.read, hlexeme, ← hvisible]
  exact ⟨fun k hk => List.mem_singleton.mp hk ▸ hi, .ok (Nat.le_refl _) hi⟩

/-- To advance is to go on to the next lexeme. -/
theorem advance : Walks ahead (Cursor.advance : Walker lexemes _) Cursor.advance := by
  intro i saved hi
  obtain ⟨lexeme, hlexeme, -, hle, hlast, hdrop⟩ := hdelimited.exists_getElem? hi
  show TrailOf ahead i (.read lexemes i _) (.ok () ⟨(ahead.drop i).tail, saved⟩)
  rw [Trail.read, hlexeme, ← hdrop]
  exact ⟨by simpa [Trail.behind] using ⟨hi, hlast⟩, .ok hle hlast⟩

/-- The lexeme that a rule moved past last is behind the cursor. -/
theorem trailing {w : Walker lexemes α} {p : Parser α} (h : Walks ahead w p) (start : Span) :
    Walks ahead (Cursor.trailing start w) (Cursor.trailing start p) := by
  intro i saved hi
  have htrail := h i saved hi
  show TrailOf ahead i ((w.walk i saved).andThen _) _
  generalize w.walk i saved = trail at htrail ⊢
  obtain ⟨path, ending⟩ := trail
  obtain ⟨hpath, hending⟩ := htrail
  generalize hp : p ⟨ahead.drop i, saved⟩ = r at hending
  cases hending with
  | error hij hj =>
    rw [trailing_of_error hp]
    exact ⟨hpath, .error hij hj⟩
  | @ok a j saved' hij hj =>
    rw [trailing_of_ok hp]
    refine TrailOf.behind hpath hij ?_
    simp only
    rcases Nat.lt_or_eq_of_le hij with hlt | rfl
    · have hlast : j - 1 < ahead.length := by omega
      rw [if_pos hlt, Trail.read, hdelimited.getElem?_eq hlast, getLast?_passedLexemes hlt hj,
        List.getElem?_eq_getElem hlast]
      exact ⟨fun k hk => List.mem_singleton.mp hk ▸ Nat.le_of_lt hlast, .ok (Nat.le_refl _) hj⟩
    · rw [if_neg (Nat.lt_irrefl i), passedLexemes_self]
      exact ⟨List.forall_mem_nil _, .ok (Nat.le_refl _) hj⟩

/-- Whatever the text, a walker and a parser follow it alike. -/
theorem run (p : Steps α) : Walks ahead (p.run : Walker lexemes α) p.run := by
  induction p with
  | done a => exact pure a
  | throw error => exact throw error
  | move next ih => exact (advance hdelimited).bind fun _ => ih
  | look next ih => exact (peek hdelimited).bind ih
  | take next ih => exact takeAbandoned.bind ih
  | trailing start rule next ihrule ih => exact (trailing hdelimited ihrule start).bind ih
  | recover rule note next ihrule ih => exact (ihrule.recover note).bind ih

end

end Walks

end Parser

end Script
