import Mathlib.Data.String.Basic
import Script.Proofs.Token.Denotation

/-!
# Lexemes tile their source

A source that can be split into lexemes is laid out in lexemes and blanks, and nothing else. `Tiles`
says this along the source, from any point of it: at each step there is a blank, or the longest
lexeme that starts there. `tokenizeFrom_eq_ok_iff` shows that the reader finds just such layouts, so
everything about the places of lexemes is proved by induction on `Tiles`.

* `Tiles.exists_of_mem` finds the text that a lexeme was read from and what stands around it.
* `Tiles.ordered` puts the lexemes in order, and `Tiles.covers` leaves only blanks between them.
* `tokenize_tiles_source` gathers this for a whole source, with all places counted from its start.
-/

namespace Script

/-! ## Places -/

namespace Position

/-- A character moves the position by its bytes. -/
theorem index_advance (p : Position) (c : Char) : (p.advance c).index = p.index + c.utf8Size := by
  unfold advance
  split <;> rfl

/-- A position counts the bytes it was moved over. -/
theorem index_advanceAll (p : Position) (cs : List Char) :
    (p.advanceAll cs).index = p.index + (String.ofList cs).utf8ByteSize := by
  induction cs generalizing p with
  | nil => simp
  | cons c cs ih =>
    rw [advanceAll_cons, ih, index_advance, String.utf8ByteSize_ofList, String.utf8ByteSize_ofList,
      String.utf8Len_cons]
    omega

/-- Characters never move the position back. -/
theorem index_le_advanceAll (p : Position) (cs : List Char) :
    p.index ≤ (p.advanceAll cs).index := by
  rw [index_advanceAll]
  exact Nat.le_add_right _ _

/-- Some characters move the position on. -/
theorem index_lt_advanceAll (p : Position) {cs : List Char} (hne : cs ≠ []) :
    p.index < (p.advanceAll cs).index := by
  obtain ⟨c, cs, rfl⟩ := List.exists_cons_of_ne_nil hne
  have hpos : 0 < c.utf8Size := c.utf8Size_pos
  calc p.index < (p.advance c).index := by rw [index_advance]; omega
    _ ≤ ((p.advance c).advanceAll cs).index := index_le_advanceAll _ _

end Position

/-- No token is written as nothing. -/
theorem Denotes.ne_nil {text : List Char} {token : Token} (h : Denotes text token) : text ≠ [] := by
  obtain ⟨c, cs, rfl⟩ := h.exists_cons
  exact List.cons_ne_nil c cs

/-- No text denotes the end of the input. -/
theorem Denotes.ne_eof {text : List Char} {token : Token} (h : Denotes text token) :
    token ≠ .eof := by
  rintro rfl
  cases h

/-! ## Layouts -/

/-- From position `p` on, `cs` consists of blanks and of these lexemes, each the longest at its
place. -/
inductive Tiles : Position → List Char → List Lexeme → Prop
  | nil (p : Position) : Tiles p [] []
  | blank {p : Position} {c : Char} {cs : List Char} {lexemes : List Lexeme} (hblank : isBlank c)
      (h : Tiles (p.advance c) cs lexemes) : Tiles p (c :: cs) lexemes
  | lexeme {p : Position} {text rest : List Char} {token : Token} {lexemes : List Lexeme}
      (hlongest : Longest text rest token) (h : Tiles (p.advanceAll text) rest lexemes) :
    Tiles p (text ++ rest) (⟨token, ⟨p, p.advanceAll text⟩⟩ :: lexemes)

/-- What is read is a layout. -/
theorem tiles_of_tokenizeFrom {before lexemes : List Lexeme} {p : Position} {cs : List Char}
    (h : tokenizeFrom before p cs = .ok lexemes) :
    ∃ found, Tiles p cs found ∧
      lexemes = before.reverse ++ found ++ [Lexeme.atEnd (p.advanceAll cs)] := by
  fun_induction tokenizeFrom before p cs with
  | case1 before p =>
    cases h
    exact ⟨[], .nil p, by simp⟩
  | case2 before p c cs hblank ih =>
    obtain ⟨found, hfound, rfl⟩ := ih h
    exact ⟨found, .blank hblank hfound, rfl⟩
  | case3 before p c cs hblank token more hfirst stop ih =>
    obtain ⟨found, hfound, rfl⟩ := ih h
    have htext : c :: cs = (c :: cs.take more) ++ cs.drop more := by
      rw [List.cons_append, List.take_append_drop]
    refine ⟨⟨token, ⟨p, stop⟩⟩ :: found, ?_, ?_⟩
    · rw [htext]
      exact .lexeme (atFirst_eq_token_iff.1 hfirst).2 hfound
    · rw [htext, Position.advanceAll_append, Position.advanceAll_cons]
      simp [stop]
  | case4 => cases h

/-- The longest lexeme is read in one step. -/
theorem tokenizeFrom_of_longest {text rest : List Char} {token : Token}
    (h : Longest text rest token) (before : List Lexeme) (p : Position) :
    tokenizeFrom before p (text ++ rest) =
      tokenizeFrom (⟨token, ⟨p, p.advanceAll text⟩⟩ :: before) (p.advanceAll text) rest := by
  obtain ⟨c, cs, rfl⟩ := h.denotes.exists_cons
  have hfirst : Found.atFirst c (cs ++ rest) = .token token cs.length := by
    rw [atFirst_eq_token_iff, List.take_left, List.drop_left]
    exact ⟨by simp, h⟩
  have hblank : ¬ isBlank c := by simp [h.denotes.not_blank]
  rw [List.cons_append, tokenizeFrom, if_neg hblank, hfirst]
  simp only [List.take_left, List.drop_left]
  rw [← Position.advanceAll_cons]

/-- Every layout is read. -/
theorem tokenizeFrom_of_tiles {p : Position} {cs : List Char} {found : List Lexeme}
    (h : Tiles p cs found) (before : List Lexeme) :
    tokenizeFrom before p cs
      = .ok (before.reverse ++ found ++ [Lexeme.atEnd (p.advanceAll cs)]) := by
  induction h generalizing before with
  | nil p => simp [tokenizeFrom]
  | blank hblank h ih => rw [tokenizeFrom, if_pos hblank, ih, Position.advanceAll_cons]
  | lexeme hlongest h ih =>
    rw [tokenizeFrom_of_longest hlongest, ih, Position.advanceAll_append]
    simp

/-- The lexer succeeds if the rest of the text is tiled, and adds the end marker to the tiles. -/
theorem tokenizeFrom_eq_ok_iff {before lexemes : List Lexeme} {p : Position} {cs : List Char} :
    tokenizeFrom before p cs = .ok lexemes ↔
      ∃ found, Tiles p cs found ∧
        lexemes = before.reverse ++ found ++ [Lexeme.atEnd (p.advanceAll cs)] := by
  constructor
  · exact tiles_of_tokenizeFrom
  · rintro ⟨found, hfound, rfl⟩
    exact tokenizeFrom_of_tiles hfound before

namespace Tiles

/-- A lexeme of a layout is the longest one at its place, and its span are the ends of its text. -/
theorem exists_of_mem {p : Position} {cs : List Char} {lexemes : List Lexeme}
    (h : Tiles p cs lexemes) {l : Lexeme} (hl : l ∈ lexemes) :
    ∃ before text after, cs = before ++ (text ++ after) ∧
      l.span = ⟨p.advanceAll before, p.advanceAll (before ++ text)⟩ ∧
        Longest text after l.token := by
  induction h with
  | nil p => cases hl
  | @blank p c cs lexemes hblank h ih =>
    obtain ⟨before, text, after, rfl, hspan, hlongest⟩ := ih hl
    exact ⟨c :: before, text, after, rfl, hspan, hlongest⟩
  | @lexeme p text rest token lexemes hlongest h ih =>
    rcases List.mem_cons.1 hl with rfl | hl
    · exact ⟨[], text, rest, rfl, rfl, hlongest⟩
    · obtain ⟨before, text', after, rfl, hspan, hlongest'⟩ := ih hl
      refine ⟨text ++ before, text', after, by rw [List.append_assoc], ?_, hlongest'⟩
      rw [hspan, List.append_assoc, Position.advanceAll_append p text,
        Position.advanceAll_append p text]

/-- The end of the input is no lexeme of a layout. -/
theorem ne_eof {p : Position} {cs : List Char} {lexemes : List Lexeme} (h : Tiles p cs lexemes)
    {l : Lexeme} (hl : l ∈ lexemes) : l.token ≠ .eof := by
  obtain ⟨_, _, _, -, -, hlongest⟩ := h.exists_of_mem hl
  exact hlongest.denotes.ne_eof

/-- Lexemes take up room. -/
theorem start_lt_stop {p : Position} {cs : List Char} {lexemes : List Lexeme}
    (h : Tiles p cs lexemes) {l : Lexeme} (hl : l ∈ lexemes) :
    p.index ≤ l.span.start.index ∧ l.span.start.index < l.span.stop.index := by
  obtain ⟨before, text, after, -, hspan, hlongest⟩ := h.exists_of_mem hl
  rw [hspan]
  refine ⟨Position.index_le_advanceAll p before, ?_⟩
  rw [Position.advanceAll_append]
  exact Position.index_lt_advanceAll _ hlongest.denotes.ne_nil

/-- Lexemes stand in order and do not overlap. -/
theorem ordered {p : Position} {cs : List Char} {lexemes : List Lexeme} (h : Tiles p cs lexemes) :
    lexemes.Pairwise fun l m => l.span.stop.index ≤ m.span.start.index := by
  induction h with
  | nil p => exact .nil
  | blank hblank h ih => exact ih
  | lexeme hlongest h ih => exact .cons (fun m hm => (h.start_lt_stop hm).1) ih

/-- A character of the source is a blank, or it belongs to a lexeme. -/
theorem covers {p : Position} {cs : List Char} {lexemes : List Lexeme} (h : Tiles p cs lexemes)
    {before after : List Char} {c : Char} (hcs : cs = before ++ c :: after) :
    isBlank c ∨ ∃ l ∈ lexemes, l.span.start.index ≤ (p.advanceAll before).index ∧
      (p.advanceAll before).index < l.span.stop.index := by
  induction h generalizing before with
  | nil p => simp at hcs
  | @blank p d cs lexemes hblank h ih =>
    cases before with
    | nil =>
      obtain ⟨rfl, rfl⟩ := List.cons.inj hcs
      exact .inl hblank
    | cons b before =>
      obtain ⟨rfl, rfl⟩ := List.cons.inj hcs
      exact ih rfl
  | @lexeme p text rest token lexemes hlongest h ih =>
    rcases List.append_eq_append_iff.1 hcs with ⟨inner, rfl, hrest⟩ | ⟨inner, rfl, hinner⟩
    · -- The character stands behind this lexeme.
      rcases ih hrest with hblank | ⟨l, hl, hstart, hstop⟩
      · exact .inl hblank
      · rw [← Position.advanceAll_append] at hstart hstop
        exact .inr ⟨l, List.mem_cons_of_mem _ hl, hstart, hstop⟩
    · cases inner with
      | nil =>
        have hrest : rest = [] ++ c :: after := hinner.symm
        rcases ih hrest with hblank | ⟨l, hl, hstart, hstop⟩
        · exact .inl hblank
        · rw [← Position.advanceAll_append, List.append_nil, List.append_nil] at hstart hstop
          exact .inr ⟨l, List.mem_cons_of_mem _ hl, hstart, hstop⟩
      -- The character stands in this lexeme, which goes on at least up to behind it.
      | cons d inner =>
        refine .inr ⟨_, List.mem_cons_self, Position.index_le_advanceAll p before, ?_⟩
        rw [Position.advanceAll_append]
        exact Position.index_lt_advanceAll _ (List.cons_ne_nil d inner)

end Tiles

/-! ## Whole sources -/

/-- The lexeme was read from `text`, which stands between `before` and `after`: it starts and ends
where the source does when `before`, and then `text`, are passed over. It is the longest one there,
and `text` denotes its token and no other. -/
structure Lexeme.ReadFrom (l : Lexeme) (before text after : List Char) : Prop where
  nonempty : l.span.start.index < l.span.stop.index
  start : l.span.start = Position.start.advanceAll before
  stop : l.span.stop = Position.start.advanceAll (before ++ text)
  start_index : l.span.start.index = (String.ofList before).utf8ByteSize
  stop_index : l.span.stop.index = (String.ofList (before ++ text)).utf8ByteSize
  longest : Longest text after l.token
  denotes_iff : ∀ token, Denotes text token ↔ token = l.token

/-- The lexemes in `front`, and then `last` for the end of the input, tile the source. -/
structure TilesSource (source : String) (front : List Lexeme) (last : Lexeme) : Prop where
  readFrom : ∀ l ∈ front, ∃ before text after, source.toList = before ++ (text ++ after) ∧
    l.ReadFrom before text after
  ordered : front.Pairwise fun l m => l.span.stop.index ≤ m.span.start.index
  /-- What no lexeme was read from is blank. -/
  blank : ∀ before c after, source.toList = before ++ c :: after →
    (∀ l ∈ front, ¬ (l.span.start.index ≤ (String.ofList before).utf8ByteSize ∧
      (String.ofList before).utf8ByteSize < l.span.stop.index)) →
    c ∈ [' ', '\t', '\r', '\n']
  only_last : last.token = .eof ∧ ∀ l ∈ front, l.token ≠ .eof
  last_start : last.span.start = Position.start.advanceAll source.toList ∧
    last.span.start.index = source.utf8ByteSize
  last_stop : last.span.stop =
    ⟨source.utf8ByteSize + 1, last.span.start.line, last.span.start.column + 1⟩

/-- Behind a text the index is the number of its bytes. -/
theorem index_advanceAll_start (cs : List Char) :
    (Position.start.advanceAll cs).index = (String.ofList cs).utf8ByteSize := by
  rw [Position.index_advanceAll]
  exact Nat.zero_add _

/-- Every lexeme of a tiling is read from a part of the text. -/
theorem readFrom_of_mem {cs : List Char} {lexemes : List Lexeme} (h : Tiles .start cs lexemes)
    {l : Lexeme} (hl : l ∈ lexemes) :
    ∃ before text after, cs = before ++ (text ++ after) ∧ l.ReadFrom before text after := by
  obtain ⟨before, text, after, hcs, hspan, hlongest⟩ := h.exists_of_mem hl
  refine ⟨before, text, after, hcs, ?_⟩
  have hindex := index_advanceAll_start
  constructor
  · exact (h.start_lt_stop hl).2
  · rw [hspan]
  · rw [hspan]
  · rw [hspan, hindex]
  · rw [hspan, hindex]
  · exact hlongest
  · intro token
    constructor
    · exact hlongest.denotes.unique
    · rintro rfl
      exact hlongest.denotes

/-- The lexemes of a source tile it: they stand in order and apart, at the places that counting
characters gives, with nothing but blanks around them; each is the longest one that starts at its
place, and denotes just its token; the end of the input comes last and only there. -/
theorem tokenize_tiles_source {source : String} {lexemes : List Lexeme}
    (h : tokenize source = .ok lexemes) :
    ∃ front last, lexemes = front ++ [last] ∧ TilesSource source front last := by
  obtain ⟨front, htiles, rfl⟩ := tokenizeFrom_eq_ok_iff.1 h
  have hsize : (Position.start.advanceAll source.toList).index = source.utf8ByteSize := by
    rw [index_advanceAll_start, String.ofList_toList]
  refine ⟨front, Lexeme.atEnd (Position.start.advanceAll source.toList), rfl, ?_⟩
  constructor
  · exact fun l hl => readFrom_of_mem htiles hl
  · exact htiles.ordered
  · intro before c after hsource hapart
    rcases htiles.covers hsource with hblank | ⟨l, hl, hinside⟩
    · simpa [isBlank, or_assoc] using hblank
    · rw [index_advanceAll_start] at hinside
      exact absurd hinside (hapart l hl)
  · refine ⟨rfl, fun l hl => ?_⟩
    obtain ⟨_, _, _, -, -, hlongest⟩ := htiles.exists_of_mem hl
    exact hlongest.denotes.ne_eof
  · exact ⟨rfl, hsize⟩
  · rw [← hsize]
    rfl

/-- A text literal over two lines, with an escaped quote and a letter of two bytes, and then an
operator that a name could not take in. -/
theorem tokenize_tiles_source_of_two_lines :
    let lexemes : List Lexeme :=
      [⟨.identifier "ifs", ⟨⟨0, 1, 0⟩, ⟨3, 1, 3⟩⟩⟩, ⟨.operator .equal, ⟨⟨3, 1, 3⟩, ⟨5, 1, 5⟩⟩⟩,
        ⟨.text "é\"\n", ⟨⟨6, 1, 6⟩, ⟨13, 2, 1⟩⟩⟩, ⟨.keyword .if, ⟨⟨13, 2, 1⟩, ⟨15, 2, 3⟩⟩⟩,
        ⟨.eof, ⟨⟨16, 3, 0⟩, ⟨17, 3, 1⟩⟩⟩]
    tokenize "ifs== \"é\\\"\n\"if\n" = .ok lexemes ∧
      ∃ front last, lexemes = front ++ [last] ∧ TilesSource "ifs== \"é\\\"\n\"if\n" front last := by
  intro lexemes
  have htokenize : tokenize "ifs== \"é\\\"\n\"if\n" = .ok lexemes := by with_unfolding_all rfl
  exact ⟨htokenize, tokenize_tiles_source htokenize⟩

end Script
