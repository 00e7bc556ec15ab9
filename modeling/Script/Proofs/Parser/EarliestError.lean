import Script.Proofs.Parser.RoundTrip
import Script.Proofs.Parser.Tracking
import Script.Token.Lexer

/-!
# Syntax errors come as early as they can

A syntax error blames the first lexeme with which the input stops being the start of a program. What
stands before it can be completed to a program, and with it no program starts; if it is the end of
the input, all of the input is the start of a program (`syntaxError_at_first_wrong_token`).

The recognizer decides this. It takes the tokens that programs are made of (`exists_tree_iff`), and
an error is at the token that it refuses (`verdict_of_parse_error`). So tokens start a program just
in case the recognizer takes all of them.
-/

namespace Script

open Recognizer

/-! ## Programs are what is recognized -/

/-- The tokens of a program: those before the end of the input. -/
def spelled (lexemes : List Lexeme) : List Token :=
  (lexemes.takeWhile fun l => !l.token.isEof).map Lexeme.token

/-- What is read as a program is recognized. -/
theorem verdict_of_parse_ok {lexemes : List Lexeme} {tree : Node} (h : parse lexemes = .ok tree) :
    verdict [.program] (spelled lexemes) = none := by
  rw [parse_eq_predicted, parsePredictively] at h
  have htracked := Parser.tracks_program (endSpan lexemes) _
    ⟨lexemes.takeWhile fun l => !l.token.isEof, none⟩ (Nat.le_refl _)
  split at h
  · rename_i node s hrun
    rw [hrun] at htracked
    have hnil : s.ahead = [] := Parser.Predictive.ahead_eq_nil_of_program (Nat.le_refl _) hrun
    rw [spelled, ← List.append_nil [Pending.program], htracked.2 [], hnil]
    rfl
  · cases h

/-- If lexemes are not read as a program, the error is at the token that is refused. -/
theorem verdict_of_parse_error {lexemes : List Lexeme} {e : SyntaxError}
    (h : parse lexemes = .error e) :
    ∃ rest, rest <:+ lexemes.takeWhile (fun l => !l.token.isEof) ∧
      e.span = Parser.spanOf (endSpan lexemes) rest ∧
      verdict [.program] (spelled lexemes) = some rest.length := by
  rw [parse_eq_predicted, parsePredictively] at h
  have htracked := Parser.tracks_program (endSpan lexemes) _
    ⟨lexemes.takeWhile fun l => !l.token.isEof, none⟩ (Nat.le_refl _)
  split at h
  · cases h
  · rename_i e' s hrun
    cases h
    rw [hrun] at htracked
    exact ⟨s.ahead, htracked.1, htracked.2.1, htracked.2.2 []⟩

/-- Lexemes are read as a program just in case their tokens are recognized. -/
theorem exists_tree_iff (lexemes : List Lexeme) :
    (∃ tree, parse lexemes = .ok tree) ↔ verdict [.program] (spelled lexemes) = none := by
  constructor
  · rintro ⟨tree, h⟩
    exact verdict_of_parse_ok h
  · intro h
    cases hparse : parse lexemes with
    | ok tree => exact ⟨tree, rfl⟩
    | error e =>
      obtain ⟨rest, -, -, hrest⟩ := verdict_of_parse_error hparse
      rw [h] at hrest
      cases hrest

/-! ## Starts of programs -/

/-- Lexemes with which a program starts: there are more that can follow, and then the input may
end. -/
def StartsProgram (lexemes : List Lexeme) : Prop :=
  ∃ more marker tree, Token.eof ∉ more.map Lexeme.token ∧
    parse (lexemes ++ more ++ [⟨.eof, marker⟩]) = .ok tree

/-- Tokens other than the end of the input count if they stand in front. -/
theorem spelled_of_append {lexemes : List Lexeme} {tokens rest : List Token}
    (h : lexemes.map Lexeme.token = tokens ++ rest) (heof : Token.eof ∉ tokens) :
    spelled lexemes = tokens ++ rest.takeWhile fun token => !token.isEof := by
  have hall : ∀ token ∈ tokens, (!token.isEof) = true := by
    intro token hmem
    cases token with
    | eof => exact absurd hmem heof
    | number | text | identifier | keyword | operator => rfl
  rw [spelled, ← List.takeWhile_append_of_pos hall, ← h, List.takeWhile_map]
  rfl

/-- No completion has an end marker in it. -/
theorem eof_not_mem_completion (pending : Pending) : Token.eof ∉ pending.completion := by
  cases pending <;> simp [Pending.completion]

/-- What the recognizer takes starts a program. -/
theorem startsProgram_of_foldlM {lexemes : List Lexeme}
    (heof : Token.eof ∉ lexemes.map Lexeme.token)
    {stack : List Pending} (h : (lexemes.map Lexeme.token).foldlM feed [.program] = some stack) :
    StartsProgram lexemes := by
  have hempty : isStack [] = true := rfl
  obtain ⟨above, habove, rfl⟩ := exists_stack_of_foldlM hempty h
  have hcompleted : Token.eof ∉ above.flatMap Pending.completion := by
    intro hmem
    obtain ⟨pending, -, hpending⟩ := List.mem_flatMap.mp hmem
    exact eof_not_mem_completion pending hpending
  -- What is pending can be completed one by one, and that makes the lexemes a program.
  let more : List Lexeme := (above.flatMap Pending.completion).map fun token => ⟨token, default⟩
  have hmore : more.map Lexeme.token = above.flatMap Pending.completion := by
    simp [more, Function.comp_def]
  have hspelled : spelled (lexemes ++ more ++ [⟨.eof, default⟩])
      = lexemes.map Lexeme.token ++ above.flatMap Pending.completion := by
    have htokens : (lexemes ++ more ++ [Lexeme.mk .eof default]).map Lexeme.token
        = (lexemes.map Lexeme.token ++ above.flatMap Pending.completion) ++ [.eof] := by
      simp [hmore]
    rw [spelled_of_append htokens (by simp [heof, hcompleted])]
    simp [Token.isEof]
  have hverdict : verdict [.program] (spelled (lexemes ++ more ++ [⟨.eof, default⟩])) = none := by
    rw [hspelled, verdict_append h, verdict_completed habove]
  obtain ⟨tree, htree⟩ := (exists_tree_iff _).mpr hverdict
  exact ⟨more, default, tree, hmore ▸ hcompleted, htree⟩

/-- With a token that the recognizer refuses no program starts. -/
theorem not_prefix_of_refused {before : List Token} {token : Token} {stack : List Pending}
    (heof : Token.eof ∉ before ++ [token]) (hbefore : before.foldlM feed [.program] = some stack)
    (hrefused : feed stack token = none) {lexemes : List Lexeme} {tree : Node}
    (h : parse lexemes = .ok tree) : ¬ before ++ [token] <+: lexemes.map Lexeme.token := by
  rintro ⟨rest, hrest⟩
  have hverdict := verdict_of_parse_ok h
  rw [spelled_of_append hrest.symm heof, List.append_assoc] at hverdict
  exact verdict_append_of_refused hbefore hrefused _ hverdict

/-! ## Where an error is -/

/-- The end of the input is at the end marker behind the lexemes. -/
theorem endSpan_append {lexemes : List Lexeme} (heof : Token.eof ∉ lexemes.map Lexeme.token)
    (marker : Span) : endSpan (lexemes ++ [⟨.eof, marker⟩]) = marker := by
  have hnone : lexemes.find? (fun l => l.token.isEof) = none := by
    rw [List.find?_eq_none]
    intro lexeme hmem hend
    refine heof (List.mem_map.mpr ⟨lexeme, hmem, ?_⟩)
    cases htoken : lexeme.token <;> simp_all [Token.isEof]
  rw [endSpan, List.find?_append, hnone]
  rfl

/-- The lexemes before an error are taken, and the one that it blames, if it is not the end of the
input, is refused. -/
theorem exists_refused_of_parse_error {lexemes : List Lexeme}
    (heof : Token.eof ∉ lexemes.map Lexeme.token) {marker : Span} {e : SyntaxError}
    (h : parse (lexemes ++ [⟨.eof, marker⟩]) = .error e) :
    ∃ before rest stack, lexemes = before ++ rest ∧ e.span = Parser.spanOf marker rest ∧
      (before.map Lexeme.token).foldlM feed [.program] = some stack ∧
      ∀ blamed after, rest = blamed :: after → feed stack blamed.token = none := by
  obtain ⟨rest, hsuffix, hspan, hverdict⟩ := verdict_of_parse_error h
  rw [takeWhile_of_eof_not_mem rfl heof] at hsuffix
  rw [endSpan_append heof] at hspan
  rw [spelled, takeWhile_of_eof_not_mem rfl heof] at hverdict
  obtain ⟨before, rfl⟩ := hsuffix
  obtain ⟨taken, left, stack, hsplit, hleft, htaken, hrefused⟩ := exists_of_verdict hverdict
  rw [List.map_append] at hsplit
  -- Both ways to split the tokens leave as many of them, so they are the same.
  have hparts := List.append_inj' hsplit (by rw [List.length_map, hleft])
  refine ⟨before, rest, stack, rfl, hspan, by rw [hparts.1, htaken], ?_⟩
  rintro blamed after rfl
  exact hrefused blamed.token (after.map Lexeme.token) hparts.2.symm

/-! ## The end of a source -/

theorem ofWord_ne_eof (word : String) : Found.ofWord word ≠ .eof := by
  rw [Found.ofWord]
  split <;> nofun

theorem symbol_ne_eof (c : Char) (more : Nat) : Found.symbol c ≠ .token .eof more := by
  rw [Found.symbol]
  split
  · nofun
  · split <;> nofun

/-- Nothing in a source is read as its end. -/
theorem atFirst_ne_eof (c : Char) (cs : List Char) (more : Nat) :
    Found.atFirst c cs ≠ .token .eof more := by
  intro h
  unfold Found.atFirst at h
  split at h
  · rw [Found.word, Found.token.injEq] at h
    exact ofWord_ne_eof _ h.1
  split at h
  · rw [Found.numeral] at h
    split at h <;> cases h
  split at h
  · rw [Found.literal] at h
    split at h <;> cases h
  · unfold Found.operator at h
    split at h
    · split at h
      · cases h
      · exact symbol_ne_eof _ _ h
    · exact symbol_ne_eof _ _ h

/-- The lexemes of a source end with the end of the input, which is nowhere else among them. -/
theorem exists_of_tokenizeFrom {before : List Lexeme} {p : Position} {cs : List Char}
    {lexemes : List Lexeme} (hbefore : Token.eof ∉ before.map Lexeme.token)
    (h : tokenizeFrom before p cs = .ok lexemes) :
    ∃ front marker, lexemes = front ++ [⟨.eof, marker⟩] ∧ Token.eof ∉ front.map Lexeme.token := by
  fun_induction tokenizeFrom before p cs with
  | case1 before p =>
    cases h
    exact ⟨before.reverse, _, List.reverse_cons, by simpa using hbefore⟩
  | case2 before p c cs hblank ih => exact ih hbefore h
  | case3 before p c cs hblank token more hfound stop ih =>
    refine ih ?_ h
    rw [List.map_cons, List.mem_cons]
    rintro (heq | hmem)
    · obtain rfl : token = .eof := heq.symm
      exact atFirst_ne_eof c cs more hfound
    · exact hbefore hmem
  | case4 => cases h

/-- A syntax error blames the first lexeme with which a source stops being the start of a program. A
program starts with the lexemes before it. No program starts with these and it, if it is in the
source; and it is the end of the input just in case a program starts with all of the source. -/
theorem syntaxError_at_first_wrong_token {source : String} {lexemes : List Lexeme} {e : SyntaxError}
    (htokenize : tokenize source = .ok lexemes) (hparse : parse lexemes = .error e) :
    ∃ before blamed after, lexemes = before ++ blamed :: after ∧ e.span = blamed.span ∧
      StartsProgram before ∧
      (blamed.token ≠ .eof → ∀ other tree, parse other = .ok tree →
        ¬ (before ++ [blamed]).map Lexeme.token <+: other.map Lexeme.token) ∧
      (blamed.token = .eof ↔ StartsProgram lexemes.dropLast) := by
  obtain ⟨front, marker, rfl, heof⟩ := exists_of_tokenizeFrom List.not_mem_nil htokenize
  obtain ⟨before, rest, stack, rfl, hspan, hbefore, hrefused⟩ :=
    exists_refused_of_parse_error heof hparse
  have hfront : (before ++ rest ++ [Lexeme.mk .eof marker]).dropLast = before ++ rest :=
    List.dropLast_concat
  have hbeforeEof : Token.eof ∉ before.map Lexeme.token := by
    rw [List.map_append] at heof
    exact fun hmem => heof (List.mem_append_left _ hmem)
  have hstarts : StartsProgram before := startsProgram_of_foldlM hbeforeEof hbefore
  rw [hfront]
  cases rest with
  | nil =>
    -- Nothing in the source is refused: what is missing is missing at its end.
    refine ⟨before, ⟨.eof, marker⟩,
      [], by rw [List.append_nil], hspan, hstarts, fun hne => absurd rfl hne, ?_⟩
    rw [List.append_nil]
    exact ⟨fun _ => hstarts, fun _ => rfl⟩
  | cons blamed after =>
    have hblamed : Token.eof ∉ before.map Lexeme.token ++ [blamed.token] := by
      rw [List.append_cons, List.map_append, List.map_append] at heof
      exact fun hmem => heof (List.mem_append_left _ hmem)
    have hnot : ∀ other tree, parse other = .ok tree →
        ¬ (before ++ [blamed]).map Lexeme.token <+: other.map Lexeme.token := by
      intro other tree hother
      rw [List.map_append]
      exact not_prefix_of_refused hblamed hbefore (hrefused blamed after rfl) hother
    refine ⟨before, blamed, after ++ [⟨.eof, marker⟩], by simp, hspan, hstarts, fun _ => hnot, ?_⟩
    constructor
    · intro hend
      simp [hend] at hblamed
    · -- A program that starts with the whole source starts with the blamed lexeme, too.
      rintro ⟨more, marker', tree, -, htree⟩
      refine absurd ?_ (hnot _ tree htree)
      exact ⟨after.map Lexeme.token ++ (more.map Lexeme.token ++ [.eof]), by simp⟩

/-- The value of a `return` fails at the parenthesis behind a comma, is read once more as a
statement of its own, and fails there again. -/
theorem syntaxError_at_first_wrong_token_of_return :
    let place : Nat → Position := fun k => ⟨k, 1, k⟩
    let lexeme : Token → Nat → Nat → Lexeme :=
      fun token start stop => ⟨token, ⟨place start, place stop⟩⟩
    let lexemes := [lexeme (.keyword .return) 0 6, lexeme (.identifier "f") 7 8,
      lexeme (.operator .openParen) 8 9, lexeme (.identifier "x") 9 10,
      lexeme (.operator .comma) 10 11, lexeme (.operator .closeParen) 12 13, lexeme .eof 13 14]
    tokenize "return f(x, )" = .ok lexemes ∧
      parse lexemes = .error ⟨.unexpected, ⟨place 12, place 13⟩⟩ ∧
      ∃ before blamed after, lexemes = before ++ blamed :: after ∧
        ⟨place 12, place 13⟩ = blamed.span ∧ StartsProgram before ∧
        (blamed.token ≠ .eof → ∀ other tree, parse other = .ok tree →
          ¬ (before ++ [blamed]).map Lexeme.token <+: other.map Lexeme.token) ∧
        (blamed.token = .eof ↔ StartsProgram lexemes.dropLast) := by
  intro place lexeme lexemes
  have htokenize : tokenize "return f(x, )" = .ok lexemes := by with_unfolding_all rfl
  have hparse : parse lexemes = .error ⟨.unexpected, ⟨place 12, place 13⟩⟩ := by rfl
  exact ⟨htokenize, hparse, syntaxError_at_first_wrong_token htokenize hparse⟩

end Script
