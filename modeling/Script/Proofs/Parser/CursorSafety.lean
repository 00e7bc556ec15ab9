import Mathlib.Data.List.TakeWhile
import Script.Proofs.Parser.Cursor
import Script.Proofs.Parser.Trails

/-!
# The cursor is safe

Whatever lexemes are given, also none, or some without an end marker or with several, the cursor of
the parser never leaves them and never passes the first end marker (`cursor_is_safe`).

The grammar is followed as a text with a cursor that is a position in the list. No text at all leads
such a cursor astray, and this one is followed as it is by the parser.
-/

namespace Script

namespace Parser

/-! ## End markers -/

/-- Positions that have a lexeme, and no end marker before it. -/
def InReach (lexemes : List Lexeme) (i : Nat) : Prop :=
  i < lexemes.length ∧ ∀ lexeme ∈ lexemes.take i, lexeme.token.isEof = false

/-- The positions up to the first end marker are in reach. -/
theorem Delimited.inReach_iff {lexemes ahead : List Lexeme} (h : Delimited lexemes ahead)
    {i : Nat} :
    InReach lexemes i ↔ i ≤ ahead.length := by
  obtain ⟨marker, rest, rfl, hmarker⟩ := h.exists_eq
  constructor
  · rintro ⟨-, hunmarked⟩
    refine Nat.le_of_not_lt fun hlt => ?_
    have hmem : marker ∈ (ahead ++ marker :: rest).take i := by
      rw [List.take_append, List.mem_append]
      obtain ⟨k, hk⟩ := Nat.exists_eq_add_of_lt hlt
      rw [show i - ahead.length = k + 1 by omega]
      exact .inr List.mem_cons_self
    rw [hunmarked marker hmem] at hmarker
    cases hmarker
  · intro hi
    refine ⟨?_, fun lexeme hlexeme => h.unmarked lexeme ?_⟩
    · rw [List.length_append, List.length_cons]
      omega
    · rw [List.take_append_of_le_length hi] at hlexeme
      exact List.mem_of_mem_take hlexeme

/-- The end marker that is missing after some lexemes, at the end of the last one. -/
def missingMarker (lexemes : List Lexeme) : Lexeme :=
  ⟨.eof, Span.empty ((lexemes.getLast?.map fun l => l.span.stop).getD .start)⟩

/-- Lexemes with an end marker behind them, if there is none. -/
def terminated (lexemes : List Lexeme) : List Lexeme :=
  if lexemes.getLast?.any fun l => l.token.isEof then lexemes
    else lexemes ++ [missingMarker lexemes]

/-- Lexemes have a first end marker, or none. -/
theorem marker_cases (lexemes : List Lexeme) :
    (∃ before marker after, lexemes = before ++ marker :: after ∧ marker.token.isEof = true ∧
      ∀ lexeme ∈ before, lexeme.token.isEof = false) ∨
        ∀ lexeme ∈ lexemes, lexeme.token.isEof = false := by
  cases hfind : lexemes.find? fun l => l.token.isEof with
  | some marker =>
    obtain ⟨hmarker, before, after, heq, hbefore⟩ := List.find?_eq_some_iff_append.mp hfind
    exact .inl ⟨before, marker, after, heq, hmarker, fun l hl => by simpa using hbefore l hl⟩
  | none => exact .inr fun l hl => by simpa using List.find?_eq_none.mp hfind l hl

section

variable {before : List Lexeme} (hbefore : ∀ lexeme ∈ before, lexeme.token.isEof = false)

include hbefore

theorem takeWhile_of_unmarked : before.takeWhile (fun l => !l.token.isEof) = before :=
  List.takeWhile_eq_self_iff.mpr fun l hl => by simp [hbefore l hl]

theorem find?_of_unmarked : before.find? (fun l => l.token.isEof) = none :=
  List.find?_eq_none.mpr fun l hl => by simp [hbefore l hl]

/-- Without an end marker the end is that of the marker that is missing. -/
theorem endSpan_of_unmarked : endSpan before = (missingMarker before).span := by
  rw [endSpan, find?_of_unmarked hbefore]
  rfl

variable {marker : Lexeme} (hmarker : marker.token.isEof = true) (after : List Lexeme)

include hmarker

/-- In front of an end marker stands what does. -/
theorem takeWhile_of_marker :
    (before ++ marker :: after).takeWhile (fun l => !l.token.isEof) = before := by
  rw [List.takeWhile_append_of_pos (fun l hl => by simp [hbefore l hl]),
    List.takeWhile_cons_of_neg (by simp [hmarker]), List.append_nil]

/-- The first end marker is found. -/
theorem find?_of_marker :
    (before ++ marker :: after).find? (fun l => l.token.isEof) = some marker := by
  have hfirst : (marker :: after).find? (fun l => l.token.isEof) = some marker :=
    List.find?_cons_of_pos hmarker
  rw [List.find?_append, find?_of_unmarked hbefore, hfirst]
  rfl

theorem endSpan_of_marker : endSpan (before ++ marker :: after) = marker.span := by
  rw [endSpan, find?_of_marker hbefore hmarker]

omit hbefore in
/-- An end marker is nothing but its place. -/
theorem eq_of_isEof : marker = ⟨.eof, marker.span⟩ := by
  obtain ⟨token, span⟩ := marker
  cases token with
  | eof => rfl
  | number | text | identifier | keyword | operator => cases hmarker

end

/-- A tree depends only on what stands in front of the first end marker, and on its place. -/
theorem parse_congr {lexemes lexemes' : List Lexeme}
    (hahead : lexemes.takeWhile (fun l => !l.token.isEof)
      = lexemes'.takeWhile fun l => !l.token.isEof)
    (hstop : endSpan lexemes = endSpan lexemes') : parse lexemes = parse lexemes' := by
  rw [parse, parse, hahead, hstop]

/-- What stands behind an end marker does not matter. -/
theorem parse_of_marker {marker : Lexeme} (hmarker : marker.token.isEof = true)
    (before after : List Lexeme) :
    parse (before ++ marker :: after) = parse (before ++ [marker]) := by
  rcases marker_cases before with ⟨first, marker', rest, rfl, hmarker', hfirst⟩ | hbefore
  · rw [List.append_assoc, List.append_assoc, List.cons_append, List.cons_append]
    refine parse_congr ?_ ?_
    · rw [takeWhile_of_marker hfirst hmarker', takeWhile_of_marker hfirst hmarker']
    · rw [endSpan_of_marker hfirst hmarker', endSpan_of_marker hfirst hmarker']
  · refine parse_congr ?_ ?_
    · rw [takeWhile_of_marker hbefore hmarker, takeWhile_of_marker hbefore hmarker]
    · rw [endSpan_of_marker hbefore hmarker, endSpan_of_marker hbefore hmarker]

/-- A missing end marker is the same as one at the end of the last lexeme. -/
theorem parse_of_unmarked {lexemes : List Lexeme}
    (h : ∀ lexeme ∈ lexemes, lexeme.token.isEof = false) :
    parse lexemes = parse (lexemes ++ [missingMarker lexemes]) := by
  refine parse_congr ?_ ?_
  · rw [takeWhile_of_unmarked h, takeWhile_of_marker h rfl]
  · rw [endSpan_of_unmarked h, endSpan_of_marker h rfl]

/-- Lexemes that are terminated have a marker where the parser stops. -/
theorem exists_terminated_eq (lexemes : List Lexeme) :
    ∃ marker after, terminated lexemes
      = lexemes.takeWhile (fun l => !l.token.isEof) ++ marker :: after ∧
      marker = ⟨.eof, endSpan lexemes⟩ := by
  rcases marker_cases lexemes with ⟨before, marker, after, rfl, hmarker, hbefore⟩ | hunmarked
  · rw [takeWhile_of_marker hbefore hmarker, endSpan_of_marker hbefore hmarker, terminated]
    split
    · exact ⟨marker, after, rfl, eq_of_isEof hmarker⟩
    · exact ⟨marker, _, List.append_assoc _ _ _, eq_of_isEof hmarker⟩
  · have hlast : ¬ (lexemes.getLast?.any fun l => l.token.isEof) = true := by
      cases hlast : lexemes.getLast? with
      | none => simp
      | some last => simp [hunmarked last (List.mem_of_getLast? hlast)]
    rw [takeWhile_of_unmarked hunmarked, endSpan_of_unmarked hunmarked, terminated, if_neg hlast]
    exact ⟨_, [], rfl, rfl⟩

/-- A list that is terminated is delimited by its first end marker. -/
theorem delimited_terminated (lexemes : List Lexeme) :
    Delimited (terminated lexemes) (lexemes.takeWhile fun l => !l.token.isEof) := by
  obtain ⟨marker, after, heq, rfl⟩ := exists_terminated_eq lexemes
  refine ⟨⟨_, after, heq, rfl⟩, fun lexeme hlexeme => ?_⟩
  simpa using List.mem_takeWhile_imp hlexeme

/-! ## Whole programs -/

/-- The text of the grammar for programs. -/
def programText (stop : Span) (bound : Nat) : Steps Node :=
  program stop bound (goalAt stop bound)

/-- What a run ends with. -/
def answer {α : Type} : EStateM.Result SyntaxError ParseState α → Except SyntaxError α
  | .ok a _ => .ok a
  | .error e _ => .error e

/-- A trail that ends like a parser has its answer. -/
theorem answer?_of_endsLike {ahead : List Lexeme} {i : Nat} {α : Type} {ending : TrailEnd α}
    {r : EStateM.Result SyntaxError ParseState α} (h : EndsLike ahead i ending r) :
    ending.answer? = some (answer r) := by
  cases h <;> rfl

/-- A tree is the answer of the rule for programs, on what stands in front of the first end
marker. -/
theorem parse_eq_answer (lexemes : List Lexeme) :
    parse lexemes = answer ((program (endSpan lexemes)
      (lexemes.takeWhile fun l => !l.token.isEof).length
      (goalAt (endSpan lexemes) (lexemes.takeWhile fun l => !l.token.isEof).length) : Parser Node)
      ⟨lexemes.takeWhile fun l => !l.token.isEof, none⟩) := by
  rw [parse, parseGoal_eq_goalAt]
  generalize (program _ _ (goalAt _ _) : Parser Node) _ = r
  cases r <;> rfl

/-- A parser follows the text of the grammar as if it were the grammar. -/
theorem run_programText (stop : Span) (bound : Nat) (ahead : List Lexeme) :
    ((programText stop bound).run : Parser Node) ⟨ahead, none⟩
      = program stop bound (parseGoal stop bound) ⟨ahead, none⟩ := by
  rw [parseGoal_eq_goalAt]
  have hends := follows_program stop (.refl ahead.length bound) ⟨ahead, none⟩ rfl proper_none
  rw [programText]
  generalize ((program stop bound (goalAt stop bound) : Steps Node).run : Parser Node) _ = r
    at hends ⊢
  generalize (program stop bound (goalAt stop bound) : Parser Node) _ = r' at hends ⊢
  cases hends with
  | ok _ _ h => rw [h]
  | error => rfl

/-- With bounds that are large enough, following the text of the grammar is parsing, and the faults
are those that tokens can have. -/
theorem answer_run_programText (lexemes : List Lexeme) {bound : Nat}
    (hbound : lexemes.length ≤ bound) :
    answer (((programText (endSpan lexemes) bound).run : Parser Node)
        ⟨lexemes.takeWhile fun l => !l.token.isEof, none⟩) = parse lexemes ∧
      ∀ e, parse lexemes = .error e → concernsTokens e.fault = true := by
  have hlength : (lexemes.takeWhile fun l => !l.token.isEof).length ≤ bound :=
    Nat.le_trans (List.takeWhile_sublist _).length_le hbound
  have hends := follows_program (endSpan lexemes) (.inr ⟨hlength, Nat.le_refl _⟩)
    ⟨lexemes.takeWhile fun l => !l.token.isEof, none⟩ rfl proper_none
  rw [parse_eq_answer, programText]
  generalize ((program _ bound (goalAt _ bound) : Steps Node).run : Parser Node) _ = r at hends ⊢
  generalize (program _ _ (goalAt _ _) : Parser Node) _ = r' at hends ⊢
  cases hends with
  | ok _ _ h => exact ⟨by rw [h], fun e he => by cases he⟩
  | error _ hfault => exact ⟨rfl, fun e he => by cases he; exact hfault⟩

/-- An error that concerns tokens is one in the form. -/
theorem title_of_concernsTokens {fault : SyntaxFault} (h : concernsTokens fault = true) :
    fault.title = "Invalid Syntax" := by
  cases fault with
  | unexpected | expected => rfl
  | illegalCharacter | loneBang | unclosedText | badEscape => cases h

end Parser

open Script.Parser

/-- Parsing ends with a tree or with an error of syntax, whatever the lexemes are. A parser follows
the text of the grammar as if it were the grammar; with a position for its cursor, on the lexemes
with an end marker behind them if there is none, the text leads to what parsing ends with, and
larger bounds on its loops and its recursion make no difference. No text at all that is followed
from a position in reach leads out of reach: it reads no lexeme behind the first end marker, nor
where there is none, and moves to no such position when it advances or goes back; and it leads to
what it leads a parser to that has the lexemes in reach ahead. Every rule of the grammar that
succeeds has consumed a lexeme. Lexemes behind an end marker do not matter, and a missing one is the
same as one at the end of the last lexeme. -/
theorem cursor_is_safe (lexemes : List Lexeme) :
    ((∃ tree, parse lexemes = .ok tree) ∨
      ∃ e, parse lexemes = .error e ∧ e.title = "Invalid Syntax") ∧
    (terminated lexemes).find? (fun l => l.token.isEof) = some ⟨.eof, endSpan lexemes⟩ ∧
    (∀ bound ahead, ((programText (endSpan lexemes) bound).run : Parser Node) ⟨ahead, none⟩
      = program (endSpan lexemes) bound (parseGoal (endSpan lexemes) bound) ⟨ahead, none⟩) ∧
    (∀ bound, lexemes.length ≤ bound →
      ((programText (endSpan lexemes) bound).trail (terminated lexemes) 0 none).ending.answer?
        = some (parse lexemes)) ∧
    (∀ (α : Type) (text : Steps α) i saved, InReach (terminated lexemes) i →
      (text.trail (terminated lexemes) i saved).ending ≠ .outside ∧
      (∀ k ∈ (text.trail (terminated lexemes) i saved).path, InReach (terminated lexemes) k) ∧
      (text.trail (terminated lexemes) i saved).ending.answer?
        = some (answer ((text.run : Parser α)
          ⟨(lexemes.takeWhile fun l => !l.token.isEof).drop i, saved⟩))) ∧
    (∀ (bound depth : Nat) (α : Type) (p : Parser α),
      Rule (endSpan lexemes) bound (parseGoal (endSpan lexemes) depth) p → Progresses p) ∧
    (∀ before marker after, marker.token.isEof = true →
      parse (before ++ marker :: after) = parse (before ++ [marker])) ∧
    ((∀ lexeme ∈ lexemes, lexeme.token.isEof = false) →
      parse lexemes = parse (lexemes ++ [missingMarker lexemes])) := by
  have hdelimited := delimited_terminated lexemes
  refine ⟨?ends, ?marker, run_programText _, ?trail, ?safe, ?progress,
    fun before marker after hmarker => parse_of_marker hmarker _ _, parse_of_unmarked⟩
  case ends =>
    cases hparse : parse lexemes with
    | ok tree => exact .inl ⟨tree, rfl⟩
    | error e =>
      -- The parser raises no other faults than those that tokens can have.
      have hfault := (answer_run_programText lexemes (Nat.le_refl _)).2 e hparse
      exact .inr ⟨e, rfl, title_of_concernsTokens hfault⟩
  case marker =>
    obtain ⟨marker, after, heq, rfl⟩ := exists_terminated_eq lexemes
    rw [heq]
    exact find?_of_marker hdelimited.unmarked rfl after
  case trail =>
    intro bound hbound
    have htrail := Walks.run hdelimited (programText (endSpan lexemes) bound) 0 none (Nat.zero_le _)
    rw [← (answer_run_programText lexemes hbound).1]
    exact answer?_of_endsLike htrail.ending
  case safe =>
    intro α text i saved hi
    have htrail := Walks.run hdelimited text i saved (hdelimited.inReach_iff.mp hi)
    have hanswer := answer?_of_endsLike htrail.ending
    refine ⟨fun hout => ?_, fun k hk => hdelimited.inReach_iff.mpr (htrail.path k hk), hanswer⟩
    -- A trail out of reach has no answer, and this one has.
    change (text.trail (terminated lexemes) i saved).ending.answer? = _ at hanswer
    rw [hout] at hanswer
    cases hanswer
  case progress =>
    intro bound depth α p hrule
    exact (hrule.consuming (consuming_parseGoal _ depth)).progresses

end Script
