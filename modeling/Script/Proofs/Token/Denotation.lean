import Mathlib.Data.List.TakeWhile
import Script.Token.Lexer

/-!
# What a piece of text denotes

`Denotes text token` says which texts are lexemes and what each one means, without reading anything:
reserved words and names, numerals, text literals with their escapes resolved, and operators. A
lexeme is `Longest` in front of some text if no part of that text makes a longer lexeme with it.

The reader of one token finds just the longest lexeme (`atFirst_eq_token_iff`). Two facts give this.
What it takes is a lexeme (`denotes_of_atFirst`), and it takes at least as much as any lexeme that
stands there (`atFirst_of_denotes`). The second also shows that a text denotes at most one token
(`Denotes.unique`).

Blanks end lexemes: only text literals have blanks in them, and a literal that is closed does not
get longer (`Longest.before_blank`).
-/

namespace Script

/-- The characters that can follow a backslash in a text literal, and what they then stand for. -/
def escapes : List (Char × Char) :=
  [('n', '\n'), ('t', '\t'), ('"', '"'), ('\\', '\\')]

/-- What the characters between the quotes of a text literal stand for. -/
inductive Resolves : List Char → List Char → Prop
  | nil : Resolves [] []
  | plain {c : Char} {cs ds : List Char} (hquote : c ≠ '"') (hslash : c ≠ '\\')
      (h : Resolves cs ds) :
    Resolves (c :: cs) (c :: ds)
  | escaped {c d : Char} {cs ds : List Char} (hmem : (c, d) ∈ escapes) (h : Resolves cs ds) :
    Resolves ('\\' :: c :: cs) (d :: ds)

/-- The lexemes of the language and the tokens they denote. -/
inductive Denotes : List Char → Token → Prop
  | keyword (k : Keyword) : Denotes k.display.toList (.keyword k)
  | name {c : Char} {cs : List Char} (hc : c.isAlpha) (hcs : ∀ d ∈ cs, continuesName d)
      (hfree : ∀ k : Keyword, k.display.toList ≠ c :: cs) :
    Denotes (c :: cs) (.identifier (String.ofList (c :: cs)))
  | whole {c : Char} {cs : List Char} (hdigits : ∀ d ∈ c :: cs, d.isDigit) :
    Denotes (c :: cs) (.number (Number.ofParts (c :: cs) []))
  | decimal {c : Char} {cs ds : List Char} (hdigits : ∀ d ∈ c :: cs, d.isDigit)
      (hfraction : ∀ d ∈ ds, d.isDigit) :
    Denotes (c :: cs ++ '.' :: ds) (.number (Number.ofParts (c :: cs) ds))
  | text {cs ds : List Char} (h : Resolves cs ds) :
    Denotes ('"' :: cs ++ ['"']) (.text (String.ofList ds))
  | operator (op : Operator) : Denotes op.display.toList (.operator op)

/-- `text` denotes `token`, and with characters of `rest` it does not make a longer lexeme. -/
structure Longest (text rest : List Char) (token : Token) : Prop where
  denotes : Denotes text token
  maximal : ∀ more, more <+: rest → more ≠ [] → ∀ other, ¬ Denotes (text ++ more) other

/-- A lexeme that is the longest is so also if less follows. -/
theorem Longest.of_prefix {text rest part : List Char} {token : Token} (h : Longest text rest token)
    (hpart : part <+: rest) : Longest text part token :=
  ⟨h.denotes, fun more hmore => h.maximal more (hmore.trans hpart)⟩

/-- A token is found that takes at least `n` characters after the first, and if it takes just as
many then it is `token`. -/
def Found.Reaches (found : Found) (n : Nat) (token : Token) : Prop :=
  ∃ other more, found = .token other more ∧ n ≤ more ∧ (more = n → other = token)

/-! ## Characters -/

/-- No digit is a letter. -/
theorem isAlpha_eq_false_of_isDigit {c : Char} (h : c.isDigit) : c.isAlpha = false := by
  have hdigit : (decide (c.val ≥ 48) && decide (c.val ≤ 57)) = true := h
  show (decide (c.val ≥ 65 ∧ c.val ≤ 90) || (decide (c.val ≥ 97) && decide (c.val ≤ 122))) = false
  simp only [Bool.and_eq_true, decide_eq_true_eq, Bool.or_eq_false_iff, Bool.and_eq_false_imp,
    decide_eq_false_iff_not, UInt32.le_iff_toNat_le, UInt32.reduceToNat, ge_iff_le] at hdigit ⊢
  omega

/-! ## Words -/

theorem Keyword.ofWord?_display (k : Keyword) : Keyword.ofWord? k.display = some k := by
  cases k <;> decide

/-- The word of a keyword is the one it was found by. -/
theorem Keyword.display_of_ofWord? {word : String} {k : Keyword}
    (h : Keyword.ofWord? word = some k) :
    k.display = word := by
  simpa using List.find?_some h

/-- The words of keywords look like names. -/
theorem Keyword.exists_display (k : Keyword) :
    ∃ c cs, k.display.toList = c :: cs ∧ c.isAlpha ∧ ∀ d ∈ cs, continuesName d := by
  cases k <;> exact ⟨_, _, rfl, by decide, List.all_eq_true.mp rfl⟩

/-- A word of the right characters denotes what the reader makes of it. -/
theorem denotes_ofWord {c : Char} {cs : List Char} (hc : c.isAlpha)
    (hcs : ∀ d ∈ cs, continuesName d) :
    Denotes (c :: cs) (Found.ofWord (String.ofList (c :: cs))) := by
  unfold Found.ofWord
  cases hword : Keyword.ofWord? (String.ofList (c :: cs)) with
  | some k =>
    have hspelled : k.display.toList = c :: cs := by
      rw [Keyword.display_of_ofWord? hword, String.toList_ofList]
    rw [← hspelled]
    exact .keyword k
  | none =>
    refine .name hc hcs fun k hk => ?_
    rw [← hk, String.ofList_toList, Keyword.ofWord?_display] at hword
    cases hword

/-- A word that is no keyword is a name. -/
theorem ofWord_of_free {word : String} (hfree : ∀ k : Keyword, k.display ≠ word) :
    Found.ofWord word = .identifier word := by
  unfold Found.ofWord
  cases hword : Keyword.ofWord? word with
  | some k => exact absurd (Keyword.display_of_ofWord? hword) (hfree k)
  | none => rfl

/-- A word is read up to its end at least. -/
theorem reaches_word {c : Char} {cs : List Char} (hcs : ∀ d ∈ cs, continuesName d)
    (rest : List Char) :
    (Found.word c (cs ++ rest)).Reaches cs.length (Found.ofWord (String.ofList (c :: cs))) := by
  unfold Found.word
  rw [List.takeWhile_append_of_pos hcs]
  refine ⟨_, _, rfl, by simp, fun hmore => ?_⟩
  have hnil : rest.takeWhile continuesName = [] := by simpa using hmore
  rw [hnil, List.append_nil]

/-- What is read from a letter on is a word. -/
theorem denotes_of_word {c : Char} {cs : List Char} {token : Token} {more : Nat} (hc : c.isAlpha)
    (h : Found.word c cs = .token token more) :
    more ≤ cs.length ∧ Denotes (c :: cs.take more) token := by
  cases h
  have hpre := List.takeWhile_prefix (l := cs) continuesName
  rw [← List.prefix_iff_eq_take.1 hpre]
  exact ⟨hpre.length_le, denotes_ofWord hc fun d hd => List.mem_takeWhile_imp hd⟩

/-! ## Text literals -/

/-- The characters behind a backslash are those in the table. -/
theorem unescape?_eq_some_iff {c d : Char} : Token.unescape? c = some d ↔ (c, d) ∈ escapes := by
  simp only [escapes, List.mem_cons, Prod.mk.injEq, List.not_mem_nil, or_false]
  unfold Token.unescape?
  split <;> simp_all [eq_comm]

/-- Characters that resolve are read, whatever follows them. -/
theorem read_append_of_resolves {cs ds : List Char} (h : Resolves cs ds) (content : List Char)
    (used : Nat) (rest : List Char) :
    Literal.read content used (cs ++ rest)
      = Literal.read (ds.reverse ++ content) (used + cs.length) rest := by
  induction h generalizing content used with
  | nil => rfl
  | @plain c cs ds hquote hslash h ih =>
    rw [List.cons_append, Literal.read]
    · rw [ih, List.reverse_cons, List.append_assoc, List.length_cons, Nat.add_right_comm,
        Nat.add_assoc]
      rfl
    all_goals simp_all
  | @escaped c d cs ds hmem h ih =>
    rw [List.cons_append, List.cons_append, Literal.read, unescape?_eq_some_iff.2 hmem]
    simp only [ih, List.reverse_cons, List.append_assoc, List.cons_append, List.nil_append,
      List.length_cons]
    congr 1
    omega

/-- A literal is read up to its closing quote. -/
theorem read_of_resolves {cs ds : List Char} (h : Resolves cs ds) (content : List Char) (used : Nat)
    (rest : List Char) :
    Literal.read content used (cs ++ '"' :: rest) =
      .closed (content.reverse ++ ds) (used + cs.length + 1) := by
  rw [read_append_of_resolves h, Literal.read, List.reverse_append, List.reverse_reverse]

/-- What is read as a literal up to its closing quote resolves to the content that was found. -/
theorem resolves_of_read {content found : List Char} {used used' : Nat} {cs : List Char}
    (h : Literal.read content used cs = .closed found used') :
    ∃ body ds rest, cs = body ++ '"' :: rest ∧ Resolves body ds ∧ found = content.reverse ++ ds ∧
      used' = used + body.length + 1 := by
  fun_induction Literal.read content used cs with
  | case1 => cases h
  | case2 => cases h
  -- An escape stands for one character, and takes up two.
  | case3 content used c cs resolved hresolved ih =>
    obtain ⟨body, ds, rest, rfl, hbody, rfl, rfl⟩ := ih h
    refine ⟨'\\' :: c :: body, resolved :: ds, rest, rfl, ?_, by simp, ?_⟩
    · exact .escaped (unescape?_eq_some_iff.1 hresolved) hbody
    · simp only [List.length_cons]
      omega
  | case4 => cases h
  | case5 content used rest =>
    cases h
    exact ⟨[], [], rest, rfl, .nil, by simp, rfl⟩
  | case6 content used c cs hlast hslash hquote ih =>
    obtain ⟨body, ds, rest, rfl, hbody, rfl, rfl⟩ := ih h
    refine ⟨c :: body, c :: ds, rest, rfl, ?_, by simp, ?_⟩
    -- A backslash would have been read with the character behind it.
    · refine .plain hquote (fun hc => ?_) hbody
      cases body with
      | nil => exact hslash _ _ hc rfl
      | cons d body => exact hslash _ _ hc rfl
    · simp only [List.length_cons]
      omega

/-- A literal is read up to its closing quote. -/
theorem reaches_literal {cs ds : List Char} (h : Resolves cs ds) (rest : List Char) :
    (Found.literal (cs ++ ['"'] ++ rest)).Reaches (cs ++ ['"']).length
      (.text (String.ofList ds)) := by
  have hread : Literal.read [] 0 (cs ++ ['"'] ++ rest) = .closed ds (cs.length + 1) := by
    rw [List.append_assoc, List.cons_append, List.nil_append, read_of_resolves h]
    simp
  rw [Found.literal, hread]
  exact ⟨_, _, rfl, by simp, fun _ => rfl⟩

/-- What is read from a quote on is a literal. -/
theorem denotes_of_literal {cs : List Char} {token : Token} {more : Nat}
    (h : Found.literal cs = .token token more) :
    more ≤ cs.length ∧ Denotes ('"' :: cs.take more) token := by
  unfold Found.literal at h
  cases hread : Literal.read [] 0 cs with
  | closed content used =>
    rw [hread] at h
    cases h
    obtain ⟨body, ds, rest, rfl, hbody, rfl, rfl⟩ := resolves_of_read hread
    have htake : (body ++ '"' :: rest).take (0 + body.length + 1) = body ++ ['"'] := by
      rw [Nat.zero_add, List.take_length_add_append, List.take_succ_cons, List.take_zero]
    rw [htake]
    exact ⟨by simp, .text hbody⟩
  | badEscape used => rw [hread] at h; cases h
  | unclosed => rw [hread] at h; cases h

/-! ## Numerals -/

/-- Digits are read up to the last of them at least. -/
theorem reaches_numeral_of_whole {c : Char} {cs : List Char} (hcs : ∀ d ∈ cs, d.isDigit)
    (rest : List Char) :
    (Found.numeral c (cs ++ rest)).Reaches cs.length (.number (Number.ofParts (c :: cs) [])) := by
  unfold Found.numeral
  rw [List.takeWhile_append_of_pos hcs, List.dropWhile_append_of_pos hcs]
  split
  · refine ⟨_, _, rfl, by simp only [List.length_append]; omega, fun hmore => ?_⟩
    simp only [List.length_append] at hmore
    omega
  · refine ⟨_, _, rfl, by simp, fun hmore => ?_⟩
    have hnil : rest.takeWhile Char.isDigit = [] := by simpa using hmore
    rw [hnil, List.append_nil]

/-- A point is read with the digits behind it. -/
theorem reaches_numeral_of_decimal {c : Char} {cs ds : List Char} (hcs : ∀ d ∈ cs, d.isDigit)
    (hds : ∀ d ∈ ds, d.isDigit) (rest : List Char) :
    (Found.numeral c (cs ++ '.' :: ds ++ rest)).Reaches (cs ++ '.' :: ds).length
      (.number (Number.ofParts (c :: cs) ds)) := by
  unfold Found.numeral
  rw [List.append_assoc, List.takeWhile_append_of_pos hcs, List.dropWhile_append_of_pos hcs]
  have hdot : Char.isDigit '.' = false := by decide
  simp only [List.cons_append, List.takeWhile_cons, List.dropWhile_cons, hdot, Bool.false_eq_true,
    if_false, List.append_nil, List.takeWhile_append_of_pos hds]
  refine ⟨_, _, rfl, by simp only [List.length_append, List.length_cons]; omega, fun hmore => ?_⟩
  have hnil : rest.takeWhile Char.isDigit = [] := by
    apply List.eq_nil_of_length_eq_zero
    simp only [List.length_append, List.length_cons] at hmore
    omega
  rw [hnil, List.append_nil]

/-- What is read from a digit on is a numeral. -/
theorem denotes_of_numeral {c : Char} {cs : List Char} {token : Token} {more : Nat} (hc : c.isDigit)
    (h : Found.numeral c cs = .token token more) :
    more ≤ cs.length ∧ Denotes (c :: cs.take more) token := by
  have hcs : cs = cs.takeWhile Char.isDigit ++ cs.dropWhile Char.isDigit :=
    List.takeWhile_append_dropWhile.symm
  have hdigits : ∀ d ∈ c :: cs.takeWhile Char.isDigit, d.isDigit := by
    intro d hd
    rcases List.mem_cons.1 hd with rfl | hd
    · exact hc
    · exact List.mem_takeWhile_imp hd
  unfold Found.numeral at h
  split at h
  -- With a point behind the first digits, those behind the point belong to the numeral.
  · rename_i ds hafter
    cases h
    have hds := List.takeWhile_prefix (l := ds) Char.isDigit
    rw [hafter] at hcs
    generalize cs.takeWhile Char.isDigit = whole at hcs hdigits ⊢
    have htake : cs.take (whole.length + 1 + (ds.takeWhile Char.isDigit).length) =
        whole ++ '.' :: ds.takeWhile Char.isDigit := by
      rw [hcs, Nat.add_assoc, List.take_length_add_append, Nat.add_comm 1, List.take_succ_cons,
        ← List.prefix_iff_eq_take.1 hds]
    constructor
    · have hle := hds.length_le
      rw [hcs, List.length_append, List.length_cons]
      omega
    · rw [htake]
      exact .decimal hdigits fun d hd => List.mem_takeWhile_imp hd
  · cases h
    have hpre := List.takeWhile_prefix (l := cs) Char.isDigit
    rw [← List.prefix_iff_eq_take.1 hpre]
    exact ⟨hpre.length_le, .whole hdigits⟩

/-! ## Operators -/

/-- An operator is one character, or a character and `=`, and starts nothing else. -/
theorem Operator.exists_display (op : Operator) :
    ∃ c cs, op.display.toList = c :: cs ∧ c.isAlpha = false ∧ c.isDigit = false ∧ c ≠ '"' ∧
      (cs = [] ∧ Operator.ofChar? c = some op ∨ cs = ['='] ∧ Operator.withEquals? c = some op) := by
  cases op <;> exact ⟨_, _, rfl, by decide, by decide, by decide, by decide⟩

/-- An operator of one character is written as that character. -/
theorem Operator.display_of_ofChar? {c : Char} {op : Operator} (h : Operator.ofChar? c = some op) :
    op.display.toList = [c] := by
  unfold Operator.ofChar? at h
  split at h <;> cases h <;> decide

/-- An operator of two characters is written with `=`. -/
theorem Operator.display_of_withEquals? {c : Char} {op : Operator}
    (h : Operator.withEquals? c = some op) :
    op.display.toList = [c, '='] := by
  unfold Operator.withEquals? at h
  split at h <;> cases h <;> decide

/-- A character that is an operator is read as one. -/
theorem symbol_of_ofChar? {c : Char} {op : Operator} (h : Operator.ofChar? c = some op) :
    Found.symbol c = .token (.operator op) 0 := by
  rw [Found.symbol, h]

/-- What is read as one character is an operator. -/
theorem denotes_of_symbol {c : Char} {token : Token} {more : Nat}
    (h : Found.symbol c = .token token more) :
    more = 0 ∧ Denotes [c] token := by
  unfold Found.symbol at h
  cases hop : Operator.ofChar? c with
  | some op =>
    rw [hop] at h
    cases h
    rw [← Operator.display_of_ofChar? hop]
    exact ⟨rfl, .operator op⟩
  | none =>
    rw [hop] at h
    by_cases hbang : c = '!' <;> simp [hbang] at h

/-- An operator of one character is read, or a longer one that starts with it. -/
theorem reaches_operator_of_ofChar? {c : Char} {op : Operator} (h : Operator.ofChar? c = some op)
    (rest : List Char) : (Found.operator c rest).Reaches 0 (.operator op) := by
  unfold Found.operator
  split
  · split
    · exact ⟨_, _, rfl, Nat.zero_le _, nofun⟩
    · exact ⟨_, _, symbol_of_ofChar? h, Nat.zero_le _, fun _ => rfl⟩
  · exact ⟨_, _, symbol_of_ofChar? h, Nat.zero_le _, fun _ => rfl⟩

/-- An operator of two characters is read as a whole. -/
theorem reaches_operator_of_withEquals? {c : Char} {op : Operator}
    (h : Operator.withEquals? c = some op) (rest : List Char) :
    (Found.operator c ('=' :: rest)).Reaches 1 (.operator op) := by
  rw [Found.operator, h]
  exact ⟨_, _, rfl, Nat.le_refl _, fun _ => rfl⟩

/-- What is read from another character on is an operator. -/
theorem denotes_of_operator {c : Char} {cs : List Char} {token : Token} {more : Nat}
    (h : Found.operator c cs = .token token more) :
    more ≤ cs.length ∧ Denotes (c :: cs.take more) token := by
  unfold Found.operator at h
  split at h
  · split at h
    · rename_i op hop
      cases h
      rw [List.take_succ_cons, List.take_zero, ← Operator.display_of_withEquals? hop]
      exact ⟨by simp, .operator op⟩
    · obtain ⟨rfl, hdenotes⟩ := denotes_of_symbol h
      exact ⟨Nat.zero_le _, hdenotes⟩
  · obtain ⟨rfl, hdenotes⟩ := denotes_of_symbol h
    exact ⟨Nat.zero_le _, hdenotes⟩

/-! ## The longest lexeme -/

/-- What is read as a token is a lexeme that denotes it. -/
theorem denotes_of_atFirst {c : Char} {cs : List Char} {token : Token} {more : Nat}
    (h : Found.atFirst c cs = .token token more) :
    more ≤ cs.length ∧ Denotes (c :: cs.take more) token := by
  unfold Found.atFirst at h
  split at h
  · exact denotes_of_word ‹_› h
  · split at h
    · exact denotes_of_numeral ‹_› h
    · split at h
      · rename_i hquote
        subst hquote
        exact denotes_of_literal h
      · exact denotes_of_operator h

/-- Where a lexeme stands, no less than it is read. -/
theorem reaches_atFirst {c : Char} {cs : List Char} {token : Token} (h : Denotes (c :: cs) token)
    (rest : List Char) : (Found.atFirst c (cs ++ rest)).Reaches cs.length token := by
  generalize htext : c :: cs = text at h
  unfold Found.atFirst
  cases h with
  -- The reader decides by the first character, which the kind of the lexeme tells.
  | keyword k =>
    obtain ⟨d, ds, hdisplay, hd, hds⟩ := k.exists_display
    obtain ⟨rfl, rfl⟩ := List.cons.inj (htext.trans hdisplay)
    have hword : Found.ofWord (String.ofList (c :: cs)) = .keyword k := by
      rw [← hdisplay, String.ofList_toList, Found.ofWord, Keyword.ofWord?_display]
    rw [if_pos hd, ← hword]
    exact reaches_word hds rest
  | name hc hcs hfree =>
    obtain ⟨rfl, rfl⟩ := List.cons.inj htext
    rw [if_pos hc, ← ofWord_of_free fun k hk => hfree k (by rw [hk, String.toList_ofList])]
    exact reaches_word hcs rest
  | whole hdigits =>
    obtain ⟨rfl, rfl⟩ := List.cons.inj htext
    have hc : c.isDigit := hdigits c List.mem_cons_self
    rw [isAlpha_eq_false_of_isDigit hc, if_neg Bool.false_ne_true, if_pos hc]
    exact reaches_numeral_of_whole (fun d hd => hdigits d (List.mem_cons_of_mem _ hd)) rest
  | decimal hdigits hfraction =>
    obtain ⟨rfl, rfl⟩ := List.cons.inj htext
    have hc : c.isDigit := hdigits c List.mem_cons_self
    rw [isAlpha_eq_false_of_isDigit hc, if_neg Bool.false_ne_true, if_pos hc]
    exact reaches_numeral_of_decimal (fun d hd => hdigits d (List.mem_cons_of_mem _ hd))
      hfraction rest
  | text hresolves =>
    obtain ⟨rfl, rfl⟩ := List.cons.inj htext
    rw [if_neg (by decide), if_neg (by decide), if_pos rfl]
    exact reaches_literal hresolves rest
  | operator op =>
    obtain ⟨d, ds, hdisplay, halpha, hdigit, hquote, hop⟩ := op.exists_display
    obtain ⟨rfl, rfl⟩ := List.cons.inj (htext.trans hdisplay)
    rw [halpha, if_neg Bool.false_ne_true, hdigit, if_neg Bool.false_ne_true, if_neg hquote]
    rcases hop with ⟨rfl, hop⟩ | ⟨rfl, hop⟩
    · exact reaches_operator_of_ofChar? hop rest
    · exact reaches_operator_of_withEquals? hop rest

/-- A lexeme is not empty. -/
theorem Denotes.exists_cons {text : List Char} {token : Token} (h : Denotes text token) :
    ∃ c cs, text = c :: cs := by
  cases h with
  | keyword k =>
    obtain ⟨c, cs, hdisplay, -⟩ := k.exists_display
    exact ⟨c, cs, hdisplay⟩
  | operator op =>
    obtain ⟨c, cs, hdisplay, -⟩ := op.exists_display
    exact ⟨c, cs, hdisplay⟩
  | _ => exact ⟨_, _, rfl⟩

/-- A lexeme that stands alone is read as a whole. -/
theorem atFirst_of_denotes {c : Char} {cs : List Char} {token : Token}
    (h : Denotes (c :: cs) token) :
    Found.atFirst c cs = .token token cs.length := by
  obtain ⟨other, more, hfound, hle, hsame⟩ := reaches_atFirst h []
  rw [List.append_nil] at hfound
  have hmore : more = cs.length := Nat.le_antisymm (denotes_of_atFirst hfound).1 hle
  rw [hfound, hsame hmore, hmore]

/-- A text denotes at most one token. -/
theorem Denotes.unique {text : List Char} {token other : Token} (h : Denotes text token)
    (hother : Denotes text other) : other = token := by
  obtain ⟨c, cs, rfl⟩ := h.exists_cons
  have heq := (atFirst_of_denotes h).symm.trans (atFirst_of_denotes hother)
  exact (Found.token.inj heq).1.symm

/-- The reader of one token finds the longest lexeme. -/
theorem atFirst_eq_token_iff {c : Char} {cs : List Char} {token : Token} {more : Nat} :
    Found.atFirst c cs = .token token more ↔
      more ≤ cs.length ∧ Longest (c :: cs.take more) (cs.drop more) token := by
  constructor
  · intro h
    -- Where a longer lexeme stands, the reader would have reached its end.
    obtain ⟨hle, hdenotes⟩ := denotes_of_atFirst h
    refine ⟨hle, hdenotes, ?_⟩
    rintro longer ⟨rest, hrest⟩ hne other hother
    have hcs : cs = cs.take more ++ longer ++ rest := by
      rw [List.append_assoc, hrest, List.take_append_drop]
    rw [List.cons_append] at hother
    obtain ⟨_, reached, hfound, hreached, -⟩ := reaches_atFirst hother rest
    rw [← hcs, h] at hfound
    cases hfound
    have hpos : 0 < longer.length := List.length_pos_iff.2 hne
    rw [List.length_append, List.length_take, Nat.min_eq_left hle] at hreached
    omega
  · rintro ⟨hle, hdenotes, hmaximal⟩
    obtain ⟨other, reached, hfound, hreached, hsame⟩ := reaches_atFirst hdenotes (cs.drop more)
    rw [List.take_append_drop] at hfound
    rw [List.length_take, Nat.min_eq_left hle] at hreached hsame
    obtain ⟨hbound, hlonger⟩ := denotes_of_atFirst hfound
    -- A longer lexeme is excluded, so the reader stops where the given one ends.
    have hmore : reached = more := by
      by_contra hne
      refine hmaximal ((cs.drop more).take (reached - more)) (List.take_prefix _ _) ?_ other ?_
      · intro hnil
        have hzero := congrArg List.length hnil
        simp only [List.length_take, List.length_drop, List.length_nil] at hzero
        omega
      · rw [List.cons_append, ← List.take_add, Nat.add_sub_cancel' hreached]
        exact hlonger
    rw [hfound, hsame hmore, hmore]

/-! ## Blanks -/

/-- There are four blank characters. -/
theorem isBlank_iff {c : Char} : isBlank c ↔ c = ' ' ∨ c = '\t' ∨ c = '\r' ∨ c = '\n' := by
  simp [isBlank, or_assoc]

/-- Blanks start no lexeme. -/
theorem Denotes.not_blank {c : Char} {cs : List Char} {token : Token}
    (h : Denotes (c :: cs) token) :
    isBlank c = false := by
  have hfound := atFirst_of_denotes h
  rw [← Bool.not_eq_true]
  intro hblank
  rcases isBlank_iff.mp hblank with rfl | rfl | rfl | rfl <;>
    · unfold Found.atFirst Found.operator at hfound
      rw [if_neg (by decide), if_neg (by decide), if_neg (by decide)] at hfound
      split at hfound <;> cases hfound

/-- A lexeme is a text literal, or it has neither quotes nor blanks in it. -/
theorem Denotes.literal_or_plain {text : List Char} {token : Token} (h : Denotes text token) :
    (∃ cs ds, Resolves cs ds ∧ text = '"' :: cs ++ ['"']) ∨ ∀ c ∈ text, c ≠ '"' ∧ ¬ isBlank c := by
  -- No character of a name is a quote or a blank, and letters and digits may be in one.
  have hname : ∀ c, continuesName c → c ≠ '"' ∧ ¬ isBlank c := by
    intro c hc
    constructor
    · rintro rfl
      exact absurd hc (by decide)
    · rw [isBlank_iff]
      rintro (rfl | rfl | rfl | rfl) <;> exact absurd hc (by decide)
  have halpha : ∀ {c : Char}, c.isAlpha → continuesName c := fun {c} hc => by
    simp [continuesName, Char.isAlphanum, hc]
  have hdigit : ∀ {c : Char}, c.isDigit → c ≠ '"' ∧ ¬ isBlank c := fun {c} hc =>
    hname c (by simp [continuesName, Char.isAlphanum, hc])
  cases h with
  | text hresolves => exact .inl ⟨_, _, hresolves, rfl⟩
  | keyword k =>
    obtain ⟨c, cs, hdisplay, hc, hcs⟩ := k.exists_display
    rw [hdisplay]
    exact .inr (List.forall_mem_cons.mpr ⟨hname c (halpha hc), fun d hd => hname d (hcs d hd)⟩)
  | name hc hcs =>
    exact .inr (List.forall_mem_cons.mpr ⟨hname _ (halpha hc), fun d hd => hname d (hcs d hd)⟩)
  | whole hdigits => exact .inr fun d hd => hdigit (hdigits d hd)
  | decimal hdigits hfraction =>
    refine .inr (List.forall_mem_append.mpr ⟨fun d hd => hdigit (hdigits d hd), ?_⟩)
    exact List.forall_mem_cons.mpr ⟨by decide, fun d hd => hdigit (hfraction d hd)⟩
  | operator op =>
    obtain ⟨c, cs, hdisplay, -, -, hquote, hop⟩ := op.exists_display
    rw [hdisplay]
    refine .inr (List.forall_mem_cons.mpr ⟨⟨hquote, ?_⟩, ?_⟩)
    · rw [isBlank_iff]
      rintro (rfl | rfl | rfl | rfl) <;> rcases hop with ⟨-, hop⟩ | ⟨-, hop⟩ <;> cases hop
    · rcases hop with ⟨rfl, -⟩ | ⟨rfl, -⟩ <;> simp [isBlank]

/-- A literal ends at its closing quote. -/
theorem Resolves.eq_nil_of_append {cs ds cs' ds' more : List Char} (h : Resolves cs ds)
    (h' : Resolves cs' ds') (heq : cs' ++ ['"'] = cs ++ '"' :: more) : more = [] := by
  have hread := read_of_resolves h [] 0 more
  have hread' := read_of_resolves h' [] 0 []
  rw [heq, hread] at hread'
  have hused : cs.length = cs'.length := by
    have hclosed := (Literal.closed.inj hread').2
    omega
  have hlength := congrArg List.length heq
  simp only [List.length_append, List.length_cons, List.length_nil] at hlength
  exact List.length_eq_zero_iff.mp (by omega)

/-- A lexeme does not get longer because there is a blank somewhere behind it. -/
theorem Longest.before_blank {text rest : List Char} {token : Token} (h : Longest text rest token)
    {blank : Char} (hblank : isBlank blank) (after : List Char) :
    Longest text (rest ++ blank :: after) token := by
  refine ⟨h.denotes, fun more hmore hne other hother => ?_⟩
  by_cases hinside : more <+: rest
  · exact h.maximal more hinside hne other hother
  -- A longer lexeme would reach over the blank, so it would be a literal, and the lexeme in it too.
  · have hmem : blank ∈ more := by
      obtain ⟨tail, htail⟩ := hmore
      rcases List.append_eq_append_iff.mp htail with ⟨inner, rfl, -⟩ | ⟨inner, rfl, hinner⟩
      · exact absurd (List.prefix_append more inner) hinside
      · cases inner with
        | nil => exact absurd (by simp) hinside
        | cons c inner =>
          obtain ⟨rfl, -⟩ := List.cons.inj hinner
          simp
    rcases hother.literal_or_plain with ⟨cs', ds', hresolves', htext'⟩ | hplain
    · rcases h.denotes.literal_or_plain with ⟨cs, ds, hresolves, rfl⟩ | hplain
      · refine hne (hresolves.eq_nil_of_append hresolves' ?_)
        have htail : cs ++ ['"'] ++ more = cs' ++ ['"'] := (List.cons.inj htext').2
        rw [← htail, List.append_assoc, List.singleton_append]
      · obtain ⟨c, cs, rfl⟩ := h.denotes.exists_cons
        obtain ⟨rfl, -⟩ := List.cons.inj htext'
        exact (hplain '"' List.mem_cons_self).1 rfl
    · exact (hplain blank (List.mem_append_right text hmem)).2 hblank

end Script
