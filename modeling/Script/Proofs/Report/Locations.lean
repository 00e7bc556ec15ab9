import Script.Proofs.Machine.Blame
import Script.Proofs.Number.Positional
import Script.Proofs.Parser.EarliestError
import Script.Proofs.Parser.Nesting
import Script.Proofs.Report.LineStarts

/-!
# What reports say about places

An error says in which line and column it is, and so does the first line of the frame in its report.
The two need not agree, as a report takes the bytes before the error for characters
(`report_is_off_behind_two_bytes`).

They do agree whenever the difference cannot be seen, and only then (`reports_agree_iff`): if what
stands before the error has one byte for every character and ends its lines in line feeds, if the
error is not behind the last of them, and if the report shows the source at all.
-/

namespace Script

namespace Report

/-! ## The first line of the frame -/

/-- The report of the error names this place, in the words of `Position.display`. -/
def Shows (name source : String) (error : ScriptError) (place : Position) : Prop :=
  ∃ margin rest, (render name source error).toList =
    ("Error: " ++ error.title).toList ++ '\n' :: (blanks margin ++
      ("╭─[ " ++ name ++ ":" ++ place.display ++ " ]").toList ++ '\n' :: rest)

/-- A position is shown as its line, a colon, and its column counted from one. -/
theorem toList_display (p : Position) : p.display.toList =
    Number.Decimal.digits p.line ++ ':' :: Number.Decimal.digits (p.column + 1) := by
  rw [Position.display, String.toList_append, String.toList_append, Number.Decimal.toList_repr,
    Number.Decimal.toList_repr, List.append_assoc]
  rfl

/-- Digits can be told from what follows them. -/
theorem digits_append_inj {m n : Nat} {c d : Char} {cs ds : List Char} (hc : c.isDigit = false)
    (hd : d.isDigit = false)
    (h : Number.Decimal.digits m ++ c :: cs = Number.Decimal.digits n ++ d :: ds) :
    m = n ∧ cs = ds := by
  have htake : ∀ {k : Nat} {b : Char} {bs : List Char}, b.isDigit = false →
      (Number.Decimal.digits k ++ b :: bs).takeWhile Char.isDigit = Number.Decimal.digits k := by
    intro k b bs hb
    rw [List.takeWhile_append_of_pos fun _ => Number.Decimal.isDigit_of_mem_digits,
      List.takeWhile_cons_of_neg (by simp [hb]), List.append_nil]
  have hdigits : Number.Decimal.digits m = Number.Decimal.digits n := by
    rw [← htake hc, h, htake hd]
  rw [hdigits] at h
  exact ⟨Number.Decimal.digits_injective hdigits, (List.cons.inj (List.append_cancel_left h)).2⟩

/-- The frame starts behind its blanks. -/
theorem dropWhile_blanks (n : Nat) (cs : List Char) :
    (blanks n ++ '╭' :: cs).dropWhile (· = ' ') = '╭' :: cs := by
  rw [List.dropWhile_append_of_pos fun c hc => decide_eq_true (List.eq_of_mem_replicate hc)]
  exact List.dropWhile_cons_of_neg (by decide)

/-- The first line of the frame shows the name of the source and a position. -/
theorem header_eq (width : Nat) (name : String) (place : Position) :
    header width name (place.line, place.column + 1) =
      blanks (width + 2) ++ ("╭─[ " ++ name ++ ":" ++ place.display ++ " ]").toList := by
  simp [header, toList_display]

/-- The line that opens the frame can be read in one way only. -/
theorem header_inj {width margin : Nat} {name : String} {found : Nat × Nat} {place : Position}
    {rest rest' : List Char}
    (h : header width name found ++ rest =
      blanks margin ++ ("╭─[ " ++ name ++ ":" ++ place.display ++ " ]").toList ++ rest') :
    found = (place.line, place.column + 1) := by
  obtain ⟨line, column⟩ := found
  -- Margins may differ, but they end at the corner of the frame; from there on the name is shared.
  have hplace :
      Number.Decimal.digits line ++ ':' :: (Number.Decimal.digits column ++ ' ' :: ']' :: rest) =
      Number.Decimal.digits place.line ++
        ':' :: (Number.Decimal.digits (place.column + 1) ++ ' ' :: ']' :: rest') := by
    simpa [header, toList_display, dropWhile_blanks] using congrArg (List.dropWhile (· = ' ')) h
  obtain ⟨rfl, hcolumn⟩ := digits_append_inj rfl rfl hplace
  obtain ⟨rfl, -⟩ := digits_append_inj rfl rfl hcolumn
  rfl

/-- The frame starts with a header, whatever the width of its line numbers. -/
theorem exists_sourceLines_eq (name : String) (source : List Char) (culprit : Culprit)
    (message : List Char) :
    ∃ width more, sourceLines name source culprit message =
      header width name (location source culprit) :: more :=
  ⟨_, _, rfl⟩

/-- A report names a place if it shows the source and finds that place in it. -/
theorem shows_iff {name source : String} {error : ScriptError} {span : Span}
    (hspan : error.span = some span) (place : Position) :
    Shows name source error place ↔ (Culprit.ofSpan source span).isWithin source.toList.length ∧
      location source.toList (Culprit.ofSpan source span) = (place.line, place.column + 1) := by
  unfold Shows render lines
  rw [hspan]
  by_cases hwithin : (Culprit.ofSpan source span).isWithin source.toList.length
  · obtain ⟨width, more, hlines⟩ :=
      exists_sourceLines_eq name source.toList (Culprit.ofSpan source span)
      error.message.toList
    simp only [hwithin, if_true, true_and, hlines, String.toList_ofList, List.flatMap_cons,
      List.append_assoc,
      List.cons_append, List.nil_append, List.append_cancel_left_eq, List.cons.injEq]
    constructor
    · rintro ⟨margin, rest, h⟩
      rw [← List.append_assoc] at h
      exact header_inj h
    · intro h
      rw [h, header_eq, List.append_assoc]
      exact ⟨_, _, rfl⟩
  · -- Then the title is all there is, and no line follows it.
    simp [hwithin]

end Report

/-! ## Where errors are -/

/-- The error is one that the source has, be it in its tokens, in its form or when it is run on its
own. -/
inductive Raised (source : String) : ScriptError → Prop
  | tokenize {e : SyntaxError} (h : tokenize source = .error e) : Raised source (.refused e)
  | parse {lexemes : List Lexeme} {e : SyntaxError} (htokenize : tokenize source = .ok lexemes)
      (h : parse lexemes = .error e) : Raised source (.refused e)
  | run {settings : Settings} {console : Console} {units fuel : Nat} {e : ScriptError}
      (h : ((Session.new settings console units).run fuel source).1 = .error e) : Raised source e

/-- The position is one of the source: that behind some of its characters. -/
def Position.In (p : Position) (source : List Char) : Prop :=
  ∃ before after, source = before ++ after ∧ p = Position.start.advanceAll before

/-- A lexical error starts where some of the source has been read. -/
theorem exists_start_of_tokenizeFrom {before : List Lexeme} {p : Position} {cs : List Char}
    {e : SyntaxError} (h : tokenizeFrom before p cs = .error e) :
    ∃ front back, cs = front ++ back ∧ e.span.start = p.advanceAll front := by
  fun_induction tokenizeFrom before p cs with
  | case1 => cases h
  | case2 before p c cs hblank ih =>
    obtain ⟨front, back, rfl, hstart⟩ := ih h
    exact ⟨c :: front, back, rfl, hstart⟩
  | case3 before p c cs hblank token more hfound stop ih =>
    obtain ⟨front, back, hcs, hstart⟩ := ih h
    refine ⟨c :: cs.take more ++ front, back, ?_, ?_⟩
    · rw [List.append_assoc, ← hcs, List.cons_append, List.take_append_drop]
    · rw [hstart, Position.advanceAll_append, Position.advanceAll_cons]
  | case4 before p c cs hblank fault more hfound =>
    cases h
    exact ⟨[], c :: cs, rfl, rfl⟩

/-- A lexeme starts in the source. -/
theorem Tiles.start_in {source : List Char} {lexemes : List Lexeme}
    (h : Tiles .start source lexemes) {l : Lexeme} (hl : l ∈ lexemes) : l.span.start.In source := by
  obtain ⟨before, text, after, hsource, hspan, -⟩ := h.exists_of_mem hl
  exact ⟨before, text ++ after, hsource, by rw [hspan]⟩

/-- An error in the form starts in the source. -/
theorem start_in_of_parse {source : String} {lexemes : List Lexeme} {e : SyntaxError}
    (htokenize : tokenize source = .ok lexemes) (h : parse lexemes = .error e) :
    e.span.start.In source.toList := by
  obtain ⟨found, htiles, rfl⟩ := tokenizeFrom_eq_ok_iff.mp htokenize
  have heof : Token.eof ∉ found.map Lexeme.token := by
    intro hmem
    obtain ⟨l, hl, htoken⟩ := List.mem_map.mp hmem
    exact htiles.ne_eof hl htoken
  obtain ⟨before, rest, -, rfl, hspan, -, -⟩ := exists_refused_of_parse_error heof h
  cases rest with
  | nil => exact ⟨source.toList, [], (List.append_nil _).symm, by rw [hspan]; rfl⟩
  | cons blamed rest =>
    rw [hspan]
    exact htiles.start_in (List.mem_append_right before List.mem_cons_self)

/-- A source that is refused is so for a place in it. -/
theorem start_in_of_parseSource {source : String} {e : SyntaxError}
    (h : parseSource source = .error e) :
    e.span.start.In source.toList := by
  unfold parseSource at h
  cases htokenize : tokenize source with
  | error e' =>
    rw [htokenize] at h
    cases h
    exact exists_start_of_tokenizeFrom htokenize
  | ok lexemes =>
    rw [htokenize] at h
    exact start_in_of_parse htokenize h

/-- A node of the tree starts in the source. -/
theorem start_in_of_within {source : String} {tree node : Node} (h : parseSource source = .ok tree)
    (hnode : node.Within tree) : node.span.start.In source.toList := by
  obtain ⟨lexemes, htiles, -, hempty, hlaid⟩ := exists_laid_of_parseSource h
  by_cases hchildren : tree.children = []
  · -- Only a program without statements stands at the end of its source.
    obtain rfl : node = tree := by
      cases hnode with
      | refl => rfl
      | child hchild =>
        rw [hchildren] at hchild
        cases hchild
    exact ⟨source.toList, [], (List.append_nil _).symm, by rw [hempty hchildren]; rfl⟩
  · obtain ⟨before, own, after, rfl, hown⟩ := hlaid hchildren
    obtain ⟨before', part, after', rfl, hpart⟩ := hown.exists_of_within hnode
    obtain ⟨first, hfirst, hstart⟩ := hpart.span_over.exists_start
    rw [← hstart]
    exact htiles.start_in (by simp [hfirst])

/-- A program that was read fails only when it is run. -/
theorem Session.exists_failed_of_runProgram {session : Session} {fuel : Nat} {program : Program}
    {e : ScriptError} (h : (session.runProgram fuel program).1 = .error e) :
    ∃ e', e = .failed e' := by
  simp only [Session.runProgram] at h
  split at h
  · cases h
  · split at h
    · cases h
      exact ⟨_, rfl⟩
    · cases h

/-- Errors are somewhere in their source. -/
theorem Raised.start_in {source : String} {e : ScriptError} (h : Raised source e) {span : Span}
    (hspan : e.span = some span) : span.start.In source.toList := by
  cases h with
  | tokenize h =>
    obtain rfl := Option.some.inj hspan
    exact exists_start_of_tokenizeFrom h
  | parse htokenize h =>
    obtain rfl := Option.some.inj hspan
    exact start_in_of_parse htokenize h
  | @run settings console units fuel _ h =>
    cases hsource : parseSource source with
    | error e =>
      rw [Session.run_of_error hsource] at h
      cases h
      obtain rfl := Option.some.inj hspan
      exact start_in_of_parseSource hsource
    | ok tree =>
      rw [Session.run_of_ok hsource] at h
      obtain ⟨e, rfl⟩ := Session.exists_failed_of_runProgram h
      have hholds : ((Session.new settings console units).load tree).2.Holds [] :=
        Session.holds_new settings console units
      obtain ⟨⟨node, hnode, hblamed⟩, -⟩ := hholds.blames h
      obtain rfl := Option.some.inj (hspan.symm.trans hblamed)
      -- A new session holds no functions, so the node to blame is in this very source.
      obtain hwithin | ⟨_, hnone, -⟩ := hnode
      · exact start_in_of_within hsource hwithin
      · cases hnone

/-- An error with a place shows it between its title and its message. -/
theorem ScriptError.exists_display_eq {e : ScriptError} {span : Span} (h : e.span = some span) :
    ∃ word, e.display = word ++ " at " ++ span.start.display ++ ": " ++ e.message := by
  cases e with
  | refused e =>
    obtain rfl := Option.some.inj h
    exact ⟨e.title, rfl⟩
  | failed e =>
    obtain ⟨fault, _⟩ := e
    obtain rfl : _ = some span := h
    exact ⟨"Runtime error", rfl⟩

/-- What is marked starts at the byte at which the error does. -/
theorem Report.start_ofSpan {source : String} {before after : List Char} {span : Span}
    (hsource : source.toList = before ++ after)
    (hstart : span.start = Position.start.advanceAll before) :
    (Culprit.ofSpan source span).start = span.start.index := by
  have hsize : span.start.index ≤ source.utf8ByteSize := by
    rw [← String.ofList_toList (s := source), hsource, ← index_advanceAll_start,
      Position.advanceAll_append, ← hstart]
    exact Position.index_le_advanceAll _ after
  exact Nat.min_eq_left hsize

/-- Reports and errors agree if they count alike, and only then. Every error that has a place is
behind some characters of its source. The error names that place, and its report does so too if and
only if the report shows the source and lines and columns are counted alike up to there. -/
theorem reports_agree_iff {source : String} {e : ScriptError} {span : Span} (name : String)
    (h : Raised source e) (hspan : e.span = some span) :
    (∃ word, e.display = word ++ " at " ++ span.start.display ++ ": " ++ e.message) ∧
      ∃ before after, source.toList = before ++ after ∧
        span.start = Position.start.advanceAll before ∧
        (Report.Shows name source e span.start ↔ Report.CountedAlike before after ∧
          (Report.Culprit.ofSpan source span).isWithin source.toList.length) := by
  obtain ⟨before, after, hsource, hstart⟩ := h.start_in hspan
  refine ⟨ScriptError.exists_display_eq hspan, before, after, hsource, hstart, ?_⟩
  rw [Report.shows_iff hspan, and_comm]
  apply and_congr_left
  intro hwithin
  have hfits : (Report.Culprit.ofSpan source span).start ≤ (before ++ after).length := by
    rw [← hsource]
    exact of_decide_eq_true (Bool.and_eq_true_iff.mp hwithin).1
  rw [hsource]
  exact Report.location_eq_iff _ hstart (Report.start_ofSpan hsource hstart) hfits

/-- A call of `null` on the second line. -/
theorem reports_agree_iff_on_second_line :
    let source := "\n  null()"
    let span : Span := ⟨⟨3, 2, 2⟩, ⟨9, 2, 8⟩⟩
    let e : ScriptError := .failed ⟨.notCallable .null, some span⟩
    Raised source e ∧ e.span = some span ∧
      e.display = "Runtime error at 2:3: Can't call a null value" ∧
      Report.Shows "test.lum" source e span.start := by
  intro source span e
  have htokens : tokenize "\n  null()" = .ok
      [⟨.keyword .null, ⟨⟨3, 2, 2⟩, ⟨7, 2, 6⟩⟩⟩, ⟨.operator .openParen, ⟨⟨7, 2, 6⟩, ⟨8, 2, 7⟩⟩⟩,
        ⟨.operator .closeParen, ⟨⟨8, 2, 7⟩, ⟨9, 2, 8⟩⟩⟩, ⟨.eof, ⟨⟨9, 2, 8⟩, ⟨10, 2, 9⟩⟩⟩] := by
    with_unfolding_all rfl
  have hparse : parseSource source
      = .ok ⟨.block [⟨.call ⟨.null, ⟨⟨3, 2, 2⟩, ⟨7, 2, 6⟩⟩⟩ [], span⟩], span⟩ := by
    rw [parseSource, htokens]
    rfl
  have hrun : ((Session.new .default (.new [] none) 0).run 20 source).1 = .error e := by
    rw [Session.run_of_ok hparse]
    with_unfolding_all rfl
  obtain ⟨-, before, after, hsource, -, hiff⟩ := reports_agree_iff "test.lum" (.run hrun) rfl
  have hplain : ∀ c ∈ before ++ after, c.utf8Size = 1 ∧ (Report.isLineEnd c → c = '\n') := by
    rw [← hsource, ← List.all_iff_forall_prop]
    decide
  refine ⟨.run hrun, rfl, by decide, hiff.mpr ⟨⟨?_, ?_, ?_⟩, by decide⟩⟩
  · intro c hc
    exact (hplain c (List.mem_append_left after hc)).1
  · rintro front c back rfl hbreaks
    exact (hplain c (by simp)).2 (Bool.and_eq_true_iff.mp (Bool.and_eq_true_iff.mp hbreaks).1).1
  · rintro rfl
    rw [List.append_nil] at hsource
    rw [← hsource]
    decide

/-- A report can name another place than its error: a letter of two bytes moves it to the right. -/
theorem report_is_off_behind_two_bytes :
    let source := "\"é\" @"
    let e : SyntaxError := ⟨.illegalCharacter '@', ⟨⟨5, 1, 4⟩, ⟨6, 1, 5⟩⟩⟩
    Raised source (.refused e) ∧ e.display = "Illegal Character at 1:5: '@'" ∧
      Report.Shows "test.lum" source (.refused e) ⟨6, 1, 5⟩ ∧
      ¬ Report.Shows "test.lum" source (.refused e) e.span.start := by
  intro source e
  have htokenize : tokenize source = .error e := by
    simp only [source, e]
    with_unfolding_all rfl
  refine ⟨.tokenize htokenize, by decide, ?_, ?_⟩
  · rw [Report.shows_iff rfl]
    decide
  · rw [Report.shows_iff rfl]
    decide

end Script
