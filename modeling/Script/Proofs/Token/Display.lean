import Script.Proofs.Number.Positional
import Script.Proofs.Token.Tiling

/-!
# Displayed tokens are read back

A token is displayed as it could stand in a source. So tokens that are displayed one behind the
other, with blanks between them, are a source of just these tokens (`tokenize_undoes_display`).

Every token is displayed as a text that denotes it (`denotes_display`): escaping and resolving
escapes are inverse to each other, and numbers are written in the digits of a numeral. The blanks
keep the lexemes apart, whatever they are.
-/

namespace Script

/-- A letter, and after it letters, digits and underscores. -/
def isWord : List Char → Bool
  | [] => false
  | c :: cs => c.isAlpha && cs.all continuesName

/-- Whether a token can stand in a source: a name is made of the right characters and not reserved,
and a number is finite and has no sign. -/
def Token.canStand : Token → Bool
  | .number x => x.isFinite && !Number.isNegative x
  | .identifier name => isWord name.toList && (Keyword.ofWord? name).isNone
  | .text _ | .keyword _ | .operator _ => true
  | .eof => false

/-- Tokens as they are displayed, each with the blanks that stand behind it. -/
def displayed (parts : List (Token × List Char)) : List Char :=
  parts.flatMap fun part => part.1.display.toList ++ part.2

/-! ## Single tokens -/

/-- Escaping a character is undone when escapes are resolved. -/
theorem Resolves.escape (c : Char) {cs ds : List Char} (h : Resolves cs ds) :
    Resolves (Token.escape c ++ cs) (c :: ds) := by
  unfold Token.escape
  split
  · exact .escaped (by decide) h
  · exact .escaped (by decide) h
  · exact .escaped (by decide) h
  · exact .escaped (by decide) h
  next hquote hslash => exact .plain hquote hslash h

/-- Escaped characters resolve to themselves. -/
theorem resolves_flatMap_escape (cs : List Char) : Resolves (cs.flatMap Token.escape) cs := by
  induction cs with
  | nil => exact .nil
  | cons c cs ih => exact ih.escape c

/-- A token that can stand in a source is displayed as a text that denotes it, if it is not a
number, or a number that is read back from its text. -/
theorem denotes_display {token : Token} (h : token.canStand)
    (hnumber : ∀ x, token = .number x → Number.read? (Number.text x) = some x) :
    Denotes token.display.toList token := by
  cases token with
  | number x =>
    simp only [Token.canStand, Bool.and_eq_true, Bool.not_eq_true'] at h
    -- A finite number that is not negative is written with digits and a point only.
    obtain ⟨whole, fraction, hpositional⟩ := Number.positional_text h.1 h.2
    have hread := hnumber x rfl
    rw [← String.ofList_toList (s := Number.text x), hpositional.read?_eq] at hread
    have hdenotes := hpositional.denotes
    rwa [Option.some.inj hread] at hdenotes
  | text s =>
    show Denotes (String.ofList ('"' :: s.toList.flatMap Token.escape ++ ['"'])).toList _
    have hdenotes := Denotes.text (resolves_flatMap_escape s.toList)
    rw [String.ofList_toList] at hdenotes
    rwa [String.toList_ofList]
  | identifier name =>
    simp only [Token.canStand, Bool.and_eq_true, Option.isNone_iff_eq_none] at h
    obtain ⟨hname, hfree⟩ := h
    show Denotes name.toList _
    cases hchars : name.toList with
    | nil => simp [hchars, isWord] at hname
    | cons c cs =>
      rw [hchars, isWord, Bool.and_eq_true, List.all_eq_true] at hname
      have hdenotes := denotes_ofWord hname.1 hname.2
      rwa [← hchars, String.ofList_toList, Found.ofWord, hfree, hchars] at hdenotes
  | keyword k => exact .keyword k
  | operator op => exact .operator op
  | eof => cases h

/-! ## Tokens and blanks -/

/-- A lexeme with nothing behind it is the longest one. -/
theorem Denotes.longest {text : List Char} {token : Token} (h : Denotes text token) :
    Longest text [] token :=
  ⟨h, fun _ hmore hne => absurd (List.prefix_nil.mp hmore) hne⟩

/-- Blanks go unnoticed. -/
theorem Tiles.blanks {gap cs : List Char} {lexemes : List Lexeme} (hgap : ∀ c ∈ gap, isBlank c)
    {p : Position} (h : Tiles (p.advanceAll gap) cs lexemes) : Tiles p (gap ++ cs) lexemes := by
  induction gap generalizing p with
  | nil => exact h
  | cons c gap ih =>
    obtain ⟨hc, hgap⟩ := List.forall_mem_cons.mp hgap
    exact .blank hc (ih hgap h)

/-- Texts that denote tokens, with blanks behind each of them but the last, tile what they make
up. -/
theorem exists_tiles_displayed {parts : List (Token × List Char)}
    (hdenotes : ∀ part ∈ parts, Denotes part.1.display.toList part.1)
    (hblank : ∀ part ∈ parts, ∀ c ∈ part.2, isBlank c)
    (hapart : ∀ part ∈ parts.dropLast, part.2 ≠ []) (p : Position) :
    ∃ lexemes, Tiles p (displayed parts) lexemes ∧
      lexemes.map Lexeme.token = parts.map Prod.fst := by
  induction parts generalizing p with
  | nil => exact ⟨[], .nil p, rfl⟩
  | cons part parts ih =>
    obtain ⟨token, gap⟩ := part
    obtain ⟨hfirst, hdenotes⟩ := List.forall_mem_cons.mp hdenotes
    obtain ⟨hgap, hblank⟩ := List.forall_mem_cons.mp hblank
    have hlater : ∀ part ∈ parts.dropLast, part.2 ≠ [] := by
      intro part hpart
      cases parts with
      | nil => cases hpart
      | cons next parts => exact hapart part (List.mem_cons_of_mem _ hpart)
    obtain ⟨lexemes, htiles, htokens⟩ := ih hdenotes hblank hlater
      ((p.advanceAll token.display.toList).advanceAll gap)
    have hlongest : Longest token.display.toList (gap ++ displayed parts) token := by
      cases gap with
      | cons blank gap =>
        exact hfirst.longest.before_blank (hgap blank List.mem_cons_self) (gap ++ displayed parts)
      | nil =>
        -- Only behind the last token there may be no blanks, and then there is nothing at all.
        cases parts with
        | nil => exact hfirst.longest
        | cons next parts => exact absurd rfl (hapart (token, []) List.mem_cons_self)
    refine ⟨⟨token, ⟨p, p.advanceAll token.display.toList⟩⟩ :: lexemes, ?_,
      congrArg (token :: ·) htokens⟩
    rw [displayed, List.flatMap_cons, List.append_assoc]
    exact .lexeme hlongest (.blanks hgap htiles)

/-- Tokens that can stand in a source are read back from what is displayed of them, in their order
and with the end of the input behind them, whatever blanks keep them apart and stand around them.
What is assumed of numbers is that each of them alone is read back from its text. -/
theorem tokenize_undoes_display {lead : List Char} {parts : List (Token × List Char)}
    (hstand : ∀ part ∈ parts, part.1.canStand)
    (hnumber : ∀ x, .number x ∈ parts.map Prod.fst → Number.read? (Number.text x) = some x)
    (hlead : ∀ c ∈ lead, isBlank c) (hblank : ∀ part ∈ parts, ∀ c ∈ part.2, isBlank c)
    (hapart : ∀ part ∈ parts.dropLast, part.2 ≠ []) :
    ∃ lexemes, tokenize (String.ofList (lead ++ displayed parts)) = .ok lexemes ∧
      lexemes.map Lexeme.token = parts.map Prod.fst ++ [.eof] := by
  have hdenotes : ∀ part ∈ parts, Denotes part.1.display.toList part.1 := by
    intro part hpart
    refine denotes_display (hstand part hpart) fun x hx => hnumber x ?_
    rw [← hx]
    exact List.mem_map_of_mem hpart
  obtain ⟨lexemes, htiles, htokens⟩ :=
    exists_tiles_displayed hdenotes hblank hapart (Position.start.advanceAll lead)
  have htokenize := tokenizeFrom_of_tiles (.blanks hlead htiles) []
  rw [tokenize, String.toList_ofList, htokenize]
  exact ⟨_, rfl, by simp [htokens, Lexeme.atEnd]⟩

/-- Two operators that would be one without the blank, a literal with everything that is escaped and
a letter of two bytes, a name that starts like a reserved word, and a number. -/
theorem tokenize_undoes_display_of_escapes :
    let lead := ['\n']
    let parts : List (Token × List Char) :=
      [(.operator .less, ['\t']), (.operator .assign, [' ', '\r', '\n']),
        (.text "é\"\\\n\t", [' ']),
        (.identifier "if_1", [' ']), (.keyword .if, ['\n']), (.number 12.5, [])]
    Number.read? (Number.text 12.5) = some 12.5 ∧
      ∃ lexemes, tokenize (String.ofList (lead ++ displayed parts)) = .ok lexemes ∧
        lexemes.map Lexeme.token = parts.map Prod.fst ++ [.eof] := by
  intro lead parts
  have hread : Number.read? (Number.text 12.5) = some 12.5 := by decide +kernel
  refine ⟨hread, tokenize_undoes_display ?_ ?_ ?_ ?_ ?_⟩
  · decide
  · intro x hx
    obtain rfl : x = 12.5 := by simpa [parts] using hx
    exact hread
  · exact List.forall_mem_singleton.mpr rfl
  · simp [parts, isBlank]
  · simp [parts]

end Script
