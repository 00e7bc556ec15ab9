import Script.Proofs.Token.Tiling

/-!
# Errors in the tokens of a source

A source that cannot be split into lexemes is refused for one stretch of its text. `Blamed` says
which stretches these are and what is wrong with each of them, by the characters in it and behind
it: a character that starts no lexeme, an exclamation mark without an equals sign, a text literal
with a backslash that escapes nothing, or one that is not closed. The reader of one token blames
just these (`atFirst_eq_fault_iff`).

In front of the stretch there are blanks and lexemes only (`TilesBefore`), so what stands in front
of it is without error. And the end of a lexeme shows in the character behind it
(`Longest.of_next`). This is why most errors are there whatever follows the stretch that is blamed.
-/

namespace Script

/-! ## One character ahead -/

/-- If a lexeme can be continued to a longer one, then by one character too. -/
theorem Denotes.exists_next {text more : List Char} {d : Char} {token other : Token}
    (h : Denotes text token)
    (hother : Denotes (text ++ d :: more) other) : ∃ next, Denotes (text ++ [d]) next := by
  obtain ⟨c, cs, rfl⟩ := h.exists_cons
  -- A part of a word that starts where the word does is a word.
  have hword : ∀ {first : Char} {rest : List Char}, c :: cs ++ d :: more = first :: rest →
      first.isAlpha → (∀ x ∈ rest, continuesName x) → ∃ next, Denotes (c :: cs ++ [d]) next := by
    intro first rest heq hfirst hrest
    obtain ⟨rfl, rfl⟩ := List.cons.inj heq
    exact ⟨_, denotes_ofWord hfirst fun x hx => hrest x (by simp at hx ⊢; tauto)⟩
  generalize htext : c :: cs ++ d :: more = text at hother
  cases hother with
  | keyword k =>
    obtain ⟨first, rest, hdisplay, hfirst, hrest⟩ := k.exists_display
    exact hword (htext.trans hdisplay) hfirst hrest
  | name hfirst hrest => exact hword htext hfirst hrest
  | whole hdigits =>
    rw [← htext] at hdigits
    exact ⟨_, .whole fun x hx => hdigits x (by simp at hx ⊢; tauto)⟩
  | @decimal first ds fs hdigits hfraction =>
    rw [List.append_cons] at htext
    -- The character may belong to the digits before the point, be the point, or stand behind it.
    rcases List.append_eq_append_iff.mp htext with ⟨tail, hwhole, -⟩ | ⟨tail, hfront, htail⟩
    · rw [hwhole] at hdigits
      exact ⟨_, .whole fun x hx => hdigits x (List.mem_append_left tail hx)⟩
    · rw [hfront]
      cases tail with
      | nil =>
        rw [List.append_nil]
        exact ⟨_, .whole hdigits⟩
      | cons point tail =>
        obtain ⟨rfl, rfl⟩ := List.cons.inj htail
        exact ⟨_, .decimal hdigits fun x hx => hfraction x (List.mem_append_left more hx)⟩
  | @text body ds hresolves =>
    -- A literal ends at its closing quote, so a lexeme that it continues is no literal.
    obtain ⟨rfl, -⟩ := List.cons.inj htext
    have htail : cs ++ d :: more = body ++ ['"'] := (List.cons.inj htext).2
    rcases h.literal_or_plain with ⟨body', ds', hresolves', hliteral⟩ | hplain
    · have hcs : cs = body' ++ ['"'] := (List.cons.inj hliteral).2
      rw [hcs, List.append_assoc, List.singleton_append] at htail
      exact absurd (hresolves'.eq_nil_of_append hresolves htail.symm) (List.cons_ne_nil d more)
    · exact absurd rfl (hplain _ List.mem_cons_self).1
  | operator op =>
    obtain ⟨first, rest, hdisplay, -, -, -, ⟨rfl, -⟩ | ⟨rfl, -⟩⟩ := op.exists_display
    · rw [hdisplay] at htext
      simp at htext
    · have hmore : more = [] := by
        have hlength := congrArg List.length (htext.trans hdisplay)
        simp only [List.length_append, List.length_cons, List.length_nil] at hlength
        exact List.length_eq_zero_iff.mp (by omega)
      rw [hmore] at htext
      rw [htext]
      exact ⟨_, .operator op⟩

/-- Whether a lexeme ends is decided by the next character. -/
theorem Longest.of_next {text rest : List Char} {d : Char} {token : Token}
    (h : Longest text (d :: rest) token) (other : List Char) : Longest text (d :: other) token := by
  refine ⟨h.denotes, ?_⟩
  rintro more ⟨tail, hmore⟩ hne longer hlonger
  obtain ⟨c, more, rfl⟩ := List.exists_cons_of_ne_nil hne
  obtain ⟨rfl, -⟩ := List.cons.inj hmore
  obtain ⟨next, hnext⟩ := h.denotes.exists_next hlonger
  exact h.maximal [c] (by simp) (List.cons_ne_nil c []) next hnext

/-! ## What is blamed -/

/-- The stretch `text` in front of `rest` is to be blamed for a fault. -/
inductive Blamed : SyntaxFault → List Char → List Char → Prop
  /-- A character that is no blank and starts no lexeme. -/
  | illegal {c : Char} {rest : List Char} (hblank : ¬ isBlank c) (hbang : c ≠ '!')
      (hquote : c ≠ '"')
      (hstart : ∀ cs token, ¬ Denotes (c :: cs) token) : Blamed (.illegalCharacter c) [c] rest
  /-- An exclamation mark that no equals sign follows. -/
  | bang {rest : List Char} (hrest : ∀ cs, rest ≠ '=' :: cs) : Blamed .loneBang ['!'] rest
  /-- A text literal up to a character that a backslash does not escape. -/
  | escape {body ds rest : List Char} {c : Char} (hbody : Resolves body ds)
      (hc : ∀ d, (c, d) ∉ escapes) : Blamed .badEscape ('"' :: body ++ ['\\', c]) rest
  /-- A text literal that the source ends before, be it behind a backslash. -/
  | unclosed {body ds slash : List Char} (hbody : Resolves body ds)
      (hslash : slash = [] ∨ slash = ['\\']) :
    Blamed .unclosedText ('"' :: body ++ slash) []

theorem unescape?_eq_none_iff {c : Char} : Token.unescape? c = none ↔ ∀ d, (c, d) ∉ escapes := by
  simp only [Option.eq_none_iff_forall_ne_some, ne_eq, unescape?_eq_some_iff]

/-- Every text starts with characters that resolve. They end at a quote, at a backslash that escapes
nothing, or with the text. -/
theorem exists_resolves : (cs : List Char) →
    ∃ body ds rest, cs = body ++ rest ∧ Resolves body ds ∧
      ((∃ more, rest = '"' :: more) ∨ (∃ c more, rest = '\\' :: c :: more ∧ ∀ d, (c, d) ∉ escapes) ∨
        rest = [] ∨ rest = ['\\'])
  | [] => ⟨[], [], [], rfl, .nil, .inr (.inr (.inl rfl))⟩
  | c :: cs => by
    by_cases hquote : c = '"'
    · exact ⟨[], [], c :: cs, rfl, .nil, .inl ⟨cs, by rw [hquote]⟩⟩
    by_cases hslash : c = '\\'
    · subst hslash
      match cs with
      | [] => exact ⟨[], [], ['\\'], rfl, .nil, .inr (.inr (.inr rfl))⟩
      | d :: cs =>
        cases hd : Token.unescape? d with
        | none =>
          exact ⟨[], [], _, rfl, .nil, .inr (.inl ⟨d, cs, rfl, unescape?_eq_none_iff.mp hd⟩)⟩
        | some resolved =>
          obtain ⟨body, ds, rest, rfl, hbody, hrest⟩ := exists_resolves cs
          exact ⟨'\\' :: d :: body, resolved :: ds, rest, rfl,
            .escaped (unescape?_eq_some_iff.mp hd) hbody, hrest⟩
    · obtain ⟨body, ds, rest, rfl, hbody, hrest⟩ := exists_resolves cs
      exact ⟨c :: body, c :: ds, rest, rfl, .plain hquote hslash hbody, hrest⟩

/-- What is read as a text literal that is not in order is to be blamed. -/
theorem blamed_of_literal {cs : List Char} {fault : SyntaxFault} {more : Nat}
    (h : Found.literal cs = .fault fault more) :
    more ≤ cs.length ∧ Blamed fault ('"' :: cs.take more) (cs.drop more) := by
  obtain ⟨body, ds, rest, rfl, hbody, hrest⟩ := exists_resolves cs
  rw [Found.literal, read_append_of_resolves hbody] at h
  rcases hrest with ⟨more, rfl⟩ | ⟨c, more, rfl, hnone⟩ | rfl | rfl
  · cases h
  · rw [Literal.read, unescape?_eq_none_iff.mpr hnone] at h
    cases h
    have htake : (body ++ '\\' :: c :: more).take (0 + body.length + 2) = body ++ ['\\', c] := by
      rw [Nat.zero_add, List.take_length_add_append]
      rfl
    rw [htake]
    exact ⟨by simp, .escape hbody hnone⟩
  · cases h
    rw [List.take_length, List.drop_length]
    exact ⟨Nat.le_refl _, .unclosed hbody (.inl rfl)⟩
  · cases h
    rw [List.take_length, List.drop_length]
    exact ⟨Nat.le_refl _, .unclosed hbody (.inr rfl)⟩

/-- No operator starts with a character that is not one itself, the exclamation mark apart. -/
theorem withEquals?_eq_none {c : Char} (hop : Operator.ofChar? c = none) (hbang : c ≠ '!') :
    Operator.withEquals? c = none := by
  unfold Operator.withEquals?
  split
  · cases hop
  · exact absurd rfl hbang
  · cases hop
  · cases hop
  · rfl

/-- Without an equals sign to join, a character is a symbol by itself. -/
theorem operator_eq_symbol {c : Char} {cs : List Char}
    (h : Operator.withEquals? c = none ∨ ∀ ds, cs ≠ '=' :: ds) :
    Found.operator c cs = Found.symbol c := by
  unfold Found.operator
  split
  · rename_i ds
    rw [h.resolve_right fun hds => hds ds rfl]
  · rfl

/-- A character that the reader does not know is refused, whatever follows it. -/
theorem atFirst_of_unknown {c : Char} (halpha : ¬ c.isAlpha) (hdigit : ¬ c.isDigit)
    (hquote : c ≠ '"') (hbang : c ≠ '!') (hop : Operator.ofChar? c = none) (cs : List Char) :
    Found.atFirst c cs = .fault (.illegalCharacter c) 0 := by
  rw [Found.atFirst, if_neg halpha, if_neg hdigit, if_neg hquote,
    operator_eq_symbol (.inl (withEquals?_eq_none hop hbang)), Found.symbol, hop, if_neg hbang]

/-- What is read as an operator that does not exist is to be blamed. -/
theorem blamed_of_operator {c : Char} {cs : List Char} {fault : SyntaxFault} {more : Nat}
    (hblank : ¬ isBlank c) (halpha : ¬ c.isAlpha) (hdigit : ¬ c.isDigit) (hquote : c ≠ '"')
    (h : Found.operator c cs = .fault fault more) :
    more ≤ cs.length ∧ Blamed fault (c :: cs.take more) (cs.drop more) := by
  by_cases hbang : c = '!'
  · subst hbang
    by_cases hequals : ∃ ds, cs = '=' :: ds
    · obtain ⟨ds, rfl⟩ := hequals
      cases h
    · rw [operator_eq_symbol (.inr fun ds hds => hequals ⟨ds, hds⟩)] at h
      cases h
      exact ⟨Nat.zero_le _, .bang fun ds hds => hequals ⟨ds, hds⟩⟩
  · cases hop : Operator.ofChar? c with
    | some op =>
      obtain ⟨_, _, hfound, -⟩ := reaches_operator_of_ofChar? hop cs
      rw [hfound] at h
      cases h
    | none =>
      -- Nothing that the character starts is a lexeme, or else it would have been read.
      have hunknown := atFirst_of_unknown halpha hdigit hquote hbang hop
      rw [operator_eq_symbol (.inl (withEquals?_eq_none hop hbang)), Found.symbol, hop,
        if_neg hbang] at h
      cases h
      refine ⟨Nat.zero_le _, .illegal hblank hbang hquote fun ds token hdenotes => ?_⟩
      cases (hunknown ds).symm.trans (atFirst_of_denotes hdenotes)

/-- What is blamed is never nothing. -/
theorem Blamed.exists_cons {fault : SyntaxFault} {text rest : List Char}
    (h : Blamed fault text rest) :
    ∃ c cs, text = c :: cs := by
  cases h <;> exact ⟨_, _, rfl⟩

/-- What is blamed does not start with a blank. -/
theorem Blamed.not_blank {fault : SyntaxFault} {c : Char} {text rest : List Char}
    (h : Blamed fault (c :: text) rest) : ¬ isBlank c := by
  generalize hblamed : c :: text = blamed at h
  cases h with
  | illegal hblank =>
    obtain ⟨rfl, -⟩ := List.cons.inj hblamed
    exact hblank
  | bang | escape | unclosed =>
    obtain ⟨rfl, -⟩ := List.cons.inj hblamed
    decide

/-- What is to be blamed is blamed by the reader of one token. -/
theorem atFirst_of_blamed {c : Char} {text rest : List Char} {fault : SyntaxFault}
    (h : Blamed fault (c :: text) rest) :
    Found.atFirst c (text ++ rest) = .fault fault text.length := by
  have hquote : ∀ cs, Found.atFirst '"' cs = Found.literal cs := fun _ => rfl
  generalize hblamed : c :: text = blamed at h
  cases h with
  -- If the character had a part in some lexeme, it would be one already by itself.
  | @illegal d rest hblank hbang hquote hstart =>
    obtain ⟨rfl, rfl⟩ := List.cons.inj hblamed
    refine atFirst_of_unknown (fun hc => ?_) (fun hc => ?_) hquote hbang ?_ rest
    · exact hstart [] _ (denotes_ofWord hc (List.forall_mem_nil _))
    · exact hstart [] _ (.whole (List.forall_mem_singleton.mpr hc))
    · refine Option.eq_none_iff_forall_ne_some.mpr fun op hop => hstart [] (.operator op) ?_
      rw [← Operator.display_of_ofChar? hop]
      exact .operator op
  | bang hrest =>
    obtain ⟨rfl, rfl⟩ := List.cons.inj hblamed
    rw [Found.atFirst, if_neg (by decide), if_neg (by decide), if_neg (by decide), List.nil_append,
      operator_eq_symbol (.inr hrest)]
    rfl
  | @escape body ds rest d hbody hc =>
    obtain ⟨rfl, -⟩ := List.cons.inj hblamed
    have htext : text = body ++ ['\\', d] := (List.cons.inj hblamed).2
    rw [hquote, htext, Found.literal, List.append_assoc, read_append_of_resolves hbody,
      List.cons_append,
      List.cons_append, List.nil_append, Literal.read, unescape?_eq_none_iff.mpr hc]
    simp
  | @unclosed body ds slash hbody hslash =>
    obtain ⟨rfl, -⟩ := List.cons.inj hblamed
    have htext : text = body ++ slash := (List.cons.inj hblamed).2
    rw [hquote, List.append_nil, htext, Found.literal, read_append_of_resolves hbody]
    rcases hslash with rfl | rfl <;> rfl

/-- Where something is to be blamed, nothing else is. -/
theorem Blamed.unique {fault fault' : SyntaxFault} {text text' rest rest' : List Char}
    (h : Blamed fault text rest) (h' : Blamed fault' text' rest')
    (heq : text' ++ rest' = text ++ rest) :
    fault' = fault ∧ text' = text := by
  obtain ⟨c, cs, rfl⟩ := h.exists_cons
  obtain ⟨c', cs', rfl⟩ := h'.exists_cons
  rw [List.cons_append, List.cons_append] at heq
  obtain ⟨rfl, htail⟩ := List.cons.inj heq
  have hfound' := atFirst_of_blamed h'
  rw [htail, atFirst_of_blamed h] at hfound'
  obtain ⟨rfl, hlength⟩ := Found.fault.inj hfound'
  exact ⟨rfl, congrArg _ (List.append_inj_left htail hlength.symm)⟩

/-- The reader of one token blames just what is to be blamed. -/
theorem atFirst_eq_fault_iff {c : Char} {cs : List Char} {fault : SyntaxFault} {more : Nat}
    (hblank : ¬ isBlank c) :
    Found.atFirst c cs = .fault fault more ↔
      more ≤ cs.length ∧ Blamed fault (c :: cs.take more) (cs.drop more) := by
  constructor
  · intro h
    unfold Found.atFirst at h
    split at h
    · cases h
    split at h
    · unfold Found.numeral at h
      split at h <;> cases h
    split at h
    · rename_i hquote
      subst hquote
      exact blamed_of_literal h
    · exact blamed_of_operator hblank ‹_› ‹_› ‹_› h
  · rintro ⟨hle, hblamed⟩
    have hfound := atFirst_of_blamed hblamed
    rwa [List.take_append_drop, List.length_take, Nat.min_eq_left hle] at hfound

/-! ## What stands in front of an error -/

/-- From position `p` on, `cs` consists of blanks and of these lexemes. Each is the longest at its
place, also with `rest` behind `cs`. -/
inductive TilesBefore (rest : List Char) : Position → List Char → List Lexeme → Prop
  | nil (p : Position) : TilesBefore rest p [] []
  | blank {p : Position} {c : Char} {cs : List Char} {lexemes : List Lexeme} (hblank : isBlank c)
      (h : TilesBefore rest (p.advance c) cs lexemes) : TilesBefore rest p (c :: cs) lexemes
  | lexeme {p : Position} {text after : List Char} {token : Token} {lexemes : List Lexeme}
      (hlongest : Longest text (after ++ rest) token)
      (h : TilesBefore rest (p.advanceAll text) after lexemes) :
    TilesBefore rest p (text ++ after) (⟨token, ⟨p, p.advanceAll text⟩⟩ :: lexemes)

namespace TilesBefore

variable {p : Position} {cs rest : List Char} {lexemes : List Lexeme}

/-- What stands in front of a point is a layout of its own. -/
theorem tiles (h : TilesBefore rest p cs lexemes) : Tiles p cs lexemes := by
  induction h with
  | nil p => exact .nil p
  | blank hblank h ih => exact .blank hblank ih
  | lexeme hlongest h ih => exact .lexeme (hlongest.of_prefix (List.prefix_append _ rest)) ih

/-- Only the first character of what follows matters. -/
theorem of_next {d : Char} (h : TilesBefore (d :: rest) p cs lexemes) (other : List Char) :
    TilesBefore (d :: other) p cs lexemes := by
  induction h with
  | nil p => exact .nil p
  | blank hblank h ih => exact .blank hblank ih
  | @lexeme p text after token lexemes hlongest h ih =>
    refine .lexeme ?_ ih
    cases after with
    | nil => exact hlongest.of_next other
    | cons c after => exact hlongest.of_next _

/-- Behind a layout the reader goes on with what follows. -/
theorem tokenizeFrom_append (h : TilesBefore rest p cs lexemes) (before : List Lexeme) :
    tokenizeFrom before p (cs ++ rest)
      = tokenizeFrom (lexemes.reverse ++ before) (p.advanceAll cs) rest := by
  induction h generalizing before with
  | nil p => rfl
  | blank hblank h ih =>
    rw [List.cons_append, tokenizeFrom, if_pos hblank, ih, Position.advanceAll_cons]
  | lexeme hlongest h ih =>
    rw [List.append_assoc, tokenizeFrom_of_longest hlongest, ih, Position.advanceAll_append,
      List.reverse_cons, List.append_assoc]
    rfl

/-- The reader stops where what follows is to be blamed. -/
theorem tokenizeFrom_of_blamed {text after : List Char} {fault : SyntaxFault}
    (h : TilesBefore (text ++ after) p cs lexemes) (hblamed : Blamed fault text after)
    (before : List Lexeme) :
    tokenizeFrom before p (cs ++ (text ++ after)) =
      .error ⟨fault, ⟨p.advanceAll cs, p.advanceAll (cs ++ text)⟩⟩ := by
  obtain ⟨c, text, rfl⟩ := hblamed.exists_cons
  rw [h.tokenizeFrom_append, List.cons_append, tokenizeFrom, if_neg hblamed.not_blank,
    atFirst_of_blamed hblamed]
  simp only [List.take_left]
  rw [Position.advanceAll_append, Position.advanceAll_cons]

/-- The reader stops only where what follows is to be blamed, and has read what stands in front of
it. -/
theorem exists_of_tokenizeFrom {before : List Lexeme} {e : SyntaxError}
    (h : tokenizeFrom before p cs = .error e) :
    ∃ front text after lexemes, cs = front ++ (text ++ after) ∧
      TilesBefore (text ++ after) p front lexemes ∧
      Blamed e.fault text after ∧ e.span = ⟨p.advanceAll front, p.advanceAll (front ++ text)⟩ := by
  fun_induction tokenizeFrom before p cs with
  | case1 => cases h
  | case2 before p c cs hblank ih =>
    obtain ⟨front, text, after, lexemes, rfl, htiles, hblamed, hspan⟩ := ih h
    exact ⟨c :: front, text, after, lexemes, rfl, .blank hblank htiles, hblamed, hspan⟩
  | case3 before p c cs hblank token more hfirst stop ih =>
    obtain ⟨front, text, after, lexemes, hcs, htiles, hblamed, hspan⟩ := ih h
    have hlongest := (atFirst_eq_token_iff.mp hfirst).2
    rw [hcs] at hlongest
    refine ⟨c :: cs.take more ++ front, text, after, _, ?_, .lexeme hlongest htiles, hblamed, ?_⟩
    · rw [List.append_assoc, ← hcs, List.cons_append, List.take_append_drop]
    · rw [hspan, List.append_assoc, Position.advanceAll_append p, Position.advanceAll_append p,
        Position.advanceAll_cons]
  | case4 before p c cs hblank fault more hfirst =>
    cases h
    obtain ⟨-, hblamed⟩ := (atFirst_eq_fault_iff hblank).mp hfirst
    refine ⟨[], c :: cs.take more, cs.drop more, [], ?_, .nil p, hblamed, rfl⟩
    rw [List.nil_append, List.cons_append, List.take_append_drop]

end TilesBefore

/-! ## Whole sources -/

/-- The first bytes of a joined text are those of its first part. -/
theorem extract_toByteArray_append (s t : String) :
    (s ++ t).toByteArray.extract 0 s.utf8ByteSize = s.toByteArray := by
  rw [String.toByteArray_append, ← String.size_toByteArray]
  exact ByteArray.extract_append_eq_left rfl

/-- A text whose first bytes are those of another one starts with the characters of that one. -/
theorem exists_append_of_extract_eq {front other : String}
    (h : other.toByteArray.extract 0 front.utf8ByteSize = front.toByteArray) :
    ∃ back, other = front ++ back := by
  have hvalid : String.Pos.Raw.IsValid other front.rawEndPos := by
    rw [String.Pos.Raw.isValid_iff_isValidUTF8_extract_zero, show front.rawEndPos.byteIdx
      = front.utf8ByteSize from rfl, h]
    refine ⟨?_, front.isValidUTF8⟩
    have hsize := congrArg ByteArray.size h
    rw [ByteArray.size_extract, String.size_toByteArray, String.size_toByteArray] at hsize
    show front.utf8ByteSize ≤ other.utf8ByteSize
    omega
  obtain ⟨front', back, rfl, hend⟩ := String.Pos.Raw.isValid_iff_exists_append.mp hvalid
  have hsize : front.utf8ByteSize = front'.utf8ByteSize := congrArg String.Pos.Raw.byteIdx hend
  rw [hsize, extract_toByteArray_append, String.toByteArray_inj] at h
  exact ⟨back, by rw [h]⟩

/-- The source is refused for `text`, which stands between `before` and `after`. What stands before
it is in order, and `lexemes` were read from it. -/
structure RefusedAt (source : String) (e : SyntaxError) (before text after : List Char)
    (lexemes : List Lexeme) : Prop where
  source_eq : source.toList = before ++ (text ++ after)
  start : e.span.start = Position.start.advanceAll before
  stop : e.span.stop = Position.start.advanceAll (before ++ text)
  start_lt_stop : e.span.start.index < e.span.stop.index
  stop_le : e.span.stop.index ≤ source.utf8ByteSize
  start_isValid : String.Pos.Raw.IsValid source ⟨e.span.start.index⟩
  stop_isValid : String.Pos.Raw.IsValid source ⟨e.span.stop.index⟩
  /-- The lexemes are the longest ones in the source. -/
  tiles : TilesBefore (text ++ after) .start before lexemes
  /-- They are the lexemes of what stands before the error, too. -/
  tokenize_before : tokenize (String.ofList before) = .ok (lexemes ++ [Lexeme.atEnd e.span.start])
  blamed : Blamed e.fault text after

/-- A source that is refused is refused at some place of it. -/
theorem exists_refusedAt {source : String} {e : SyntaxError} (h : tokenize source = .error e) :
    ∃ before text after lexemes, RefusedAt source e before text after lexemes := by
  obtain ⟨before, text, after, lexemes, hsource, htiles, hblamed, hspan⟩ :=
    TilesBefore.exists_of_tokenizeFrom h
  have hsplit : source = String.ofList before ++ String.ofList text ++ String.ofList after := by
    rw [← String.ofList_append, ← String.ofList_append, List.append_assoc, ← hsource,
      String.ofList_toList]
  -- Both ends of the span are at the end of a part of the source, so between two characters.
  have hstart : e.span.start.index = (String.ofList before).utf8ByteSize := by
    rw [hspan, index_advanceAll_start]
  have hstop : e.span.stop.index = (String.ofList before ++ String.ofList text).utf8ByteSize := by
    rw [hspan, index_advanceAll_start, String.ofList_append]
  refine ⟨before, text, after, lexemes, hsource, ?_, ?_, ?_, ?_, ?_, ?_, htiles, ?_, hblamed⟩
  · rw [hspan]
  · rw [hspan]
  · obtain ⟨c, cs, rfl⟩ := hblamed.exists_cons
    rw [hspan, Position.advanceAll_append]
    exact Position.index_lt_advanceAll _ (List.cons_ne_nil c cs)
  · rw [hstop, hsplit, String.utf8ByteSize_append (t := String.ofList after)]
    exact Nat.le_add_right _ _
  · have hbehind := hsplit.trans (String.append_assoc ..)
    exact String.Pos.Raw.isValid_iff_exists_append.mpr
      ⟨_, _, hbehind, congrArg String.Pos.Raw.mk hstart⟩
  · exact String.Pos.Raw.isValid_iff_exists_append.mpr
      ⟨_, _, hsplit, congrArg String.Pos.Raw.mk hstop⟩
  · have htokenize := tokenizeFrom_of_tiles htiles.tiles []
    rw [tokenize, String.toList_ofList, htokenize, hspan]
    rfl

/-- The title speaks of an illegal character if that is the fault. -/
theorem Blamed.title_iff {fault : SyntaxFault} {text rest : List Char}
    (h : Blamed fault text rest) :
    fault.title = "Illegal Character" ↔ ∃ c, fault = .illegalCharacter c := by
  cases h <;> simp [SyntaxFault.title]

/-- The message speaks of a missing equals sign if that is the fault. -/
theorem Blamed.message_iff {fault : SyntaxFault} {text rest : List Char}
    (h : Blamed fault text rest) :
    fault.message = "Expected '=' after '!'" ↔ fault = .loneBang := by
  cases h with
  | illegal =>
    have hquote : ∀ c, SyntaxFault.message (.illegalCharacter c) ≠ "Expected '=' after '!'" := by
      intro c heq
      simpa [SyntaxFault.message] using congrArg String.toList heq
    simp [hquote]
  | bang | escape | unclosed => simp [SyntaxFault.message]

/-- An illegal character and a bad escape are to be blamed whatever follows them. -/
theorem Blamed.of_final {fault : SyntaxFault} {text rest : List Char} (h : Blamed fault text rest)
    (hfinal : (∃ c, fault = .illegalCharacter c) ∨ fault = .badEscape) (other : List Char) :
    Blamed fault text other := by
  cases h with
  | illegal hblank hbang hquote hstart => exact .illegal hblank hbang hquote hstart
  | escape hbody hc => exact .escape hbody hc
  | bang | unclosed => simp at hfinal

namespace RefusedAt

variable {source : String} {e : SyntaxError} {before text after : List Char} {lexemes : List Lexeme}

/-- The source up to the end of what is blamed. -/
theorem extract_eq (h : RefusedAt source e before text after lexemes) :
    e.span.stop.index = (String.ofList (before ++ text)).utf8ByteSize ∧
      source.toByteArray.extract 0 e.span.stop.index
        = (String.ofList (before ++ text)).toByteArray := by
  have hstop : e.span.stop.index = (String.ofList (before ++ text)).utf8ByteSize := by
    rw [h.stop, index_advanceAll_start]
  have hsource : source = String.ofList (before ++ text) ++ String.ofList after := by
    rw [← String.ofList_append, List.append_assoc, ← h.source_eq, String.ofList_toList]
  refine ⟨hstop, ?_⟩
  rw [hstop, hsource, extract_toByteArray_append]

/-- Such a fault is there in every source that is the same up to the end of what is blamed. -/
theorem tokenize_eq (h : RefusedAt source e before text after lexemes)
    (hfinal : (∃ c, e.fault = .illegalCharacter c) ∨ e.fault = .badEscape) {other : String}
    (hother : other.toByteArray.extract 0 e.span.stop.index =
      source.toByteArray.extract 0 e.span.stop.index) : tokenize other = .error e := by
  obtain ⟨hstop, hsource⟩ := h.extract_eq
  rw [hsource, hstop] at hother
  obtain ⟨back, rfl⟩ := exists_append_of_extract_eq hother
  obtain ⟨c, cs, rfl⟩ := h.blamed.exists_cons
  have htiles : TilesBefore (c :: cs ++ back.toList) .start before lexemes := h.tiles.of_next _
  have hread := htiles.tokenizeFrom_of_blamed (h.blamed.of_final hfinal back.toList) []
  rw [tokenize, String.toList_append, String.toList_ofList, List.append_assoc, hread,
    ← h.start, ← h.stop]

end RefusedAt

/-- Errors in the tokens of a source are exact, and as early as possible. The stretch that is blamed
lies within the source, from one character to the start of another, and what stands before it is
split into just the lexemes that were read. What is wrong is what the characters from there on show
to be wrong, and nothing else is. An illegal character and a bad escape are found in every text that
has the same bytes up to the end of the stretch. -/
theorem lexical_errors_are_exact {source : String} {e : SyntaxError}
    (h : tokenize source = .error e) :
    ∃ before text after lexemes, RefusedAt source e before text after lexemes ∧
      (∀ fault text' after', text' ++ after' = text ++ after →
        (Blamed fault text' after' ↔ fault = e.fault ∧ text' = text)) ∧
      (e.title = "Illegal Character" ↔ ∃ c, e.fault = .illegalCharacter c) ∧
      (e.message = "Expected '=' after '!'" ↔ e.fault = .loneBang) ∧
      ((∃ c, e.fault = .illegalCharacter c) ∨ e.fault = .badEscape → ∀ other : String,
        other.toByteArray.extract 0 e.span.stop.index
          = source.toByteArray.extract 0 e.span.stop.index → tokenize other = .error e) := by
  obtain ⟨before, text, after, lexemes, hrefused⟩ := exists_refusedAt h
  refine ⟨before, text, after, lexemes, hrefused, ?_, ?_, ?_, ?_⟩
  · intro fault text' after' heq
    constructor
    · exact fun hblamed => hrefused.blamed.unique hblamed heq
    · rintro ⟨rfl, rfl⟩
      rw [List.append_cancel_left heq]
      exact hrefused.blamed
  · exact hrefused.blamed.title_iff
  · exact hrefused.blamed.message_iff
  · exact fun hfinal other => hrefused.tokenize_eq hfinal

/-- A literal with a letter of two bytes and a bad escape, behind a name and an operator. The error
is the same one when the literal is not closed, and when there is an illegal character behind it. -/
theorem lexical_errors_are_exact_at_bad_escape :
    let source := "a== \"é\\q\""
    let e : SyntaxError := ⟨.badEscape, ⟨⟨4, 1, 4⟩, ⟨9, 1, 8⟩⟩⟩
    tokenize source = .error e ∧
      (∃ before text after lexemes, RefusedAt source e before text after lexemes) ∧
      tokenize "a== \"é\\q @" = .error e := by
  intro source e
  have htokenize : tokenize source = .error e := by
    simp only [source, e]
    with_unfolding_all rfl
  obtain ⟨before, text, after, lexemes, hrefused, -, -, -, hfinal⟩ :=
    lexical_errors_are_exact htokenize
  exact ⟨htokenize, ⟨before, text, after, lexemes, hrefused⟩, hfinal (.inr rfl) _ (by decide)⟩

end Script
