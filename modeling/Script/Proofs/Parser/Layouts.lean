import Script.Proofs.Parser.EarliestError

/-!
# Layouts

The parser looks at tokens and never at where they stand. So on two layouts of the same tokens it
goes the same way: at every moment it has come to the same token of both. In the end it has read
trees that are the same when bare, or blames the same token for the same fault
(`sameParse_of_tokens`).

`InStep L n post p q` says this of two parsers `p` and `q`, one for each of the two layouts of `L`,
when there are `n` lexemes ahead of both. The primitives of the cursor respect it
(`sequenceRelation_inStep`), so every rule of the grammar is in step with itself.
-/

namespace Script.Parser

/-- Two layouts of the same tokens, each with the span of its end. -/
structure Layouts where
  /-- The lexemes of the one layout. -/
  left : List Lexeme
  /-- The lexemes of the other one. -/
  right : List Lexeme
  /-- Where the one layout ends. -/
  leftStop : Span
  /-- Where the other one does. -/
  rightStop : Span
  /-- The tokens are the same. -/
  tokens_eq : left.map Lexeme.token = right.map Lexeme.token

namespace Layouts

/-- What is left of both layouts from some token on. -/
def Ahead (L : Layouts) (ahead ahead' : List Lexeme) : Prop :=
  ∃ k, ahead = L.left.drop k ∧ ahead' = L.right.drop k

/-- The same token of both layouts is blamed for the same fault. -/
structure Blames (L : Layouts) (e e' : SyntaxError) : Prop where
  fault : e.fault = e'.fault
  span : ∃ ahead ahead', L.Ahead ahead ahead' ∧ e.span = spanOf L.leftStop ahead ∧
    e'.span = spanOf L.rightStop ahead'

/-- The same statement of both layouts was given up for the same reason. -/
structure Abandons (L : Layouts) (a a' : Abandoned) : Prop where
  error : L.Blames a.error a'.error
  progressed : a.progressed = a'.progressed

/-- Two parsers that have come to the same token. -/
structure States (L : Layouts) (s s' : ParseState) : Prop where
  ahead : L.Ahead s.ahead s'.ahead
  abandoned : Option.Rel L.Abandons s.abandoned s'.abandoned

/-- Two parsers that ended alike, with at most `n` lexemes left if they succeeded. -/
inductive Results {α β : Type} (L : Layouts) (n : Nat) (post : Nat → α → β → Prop) :
    EStateM.Result SyntaxError ParseState α → EStateM.Result SyntaxError ParseState β → Prop
  | ok {a : α} {b : β} {s s' : ParseState} (hs : L.States s s') (hle : s.ahead.length ≤ n)
      (h : post s.ahead.length a b) : Results L n post (.ok a s) (.ok b s')
  | error {e e' : SyntaxError} {s s' : ParseState} (hs : L.States s s') (h : L.Blames e e') :
      Results L n post (.error e s) (.error e' s')

section

variable {L : Layouts} {ahead ahead' : List Lexeme}

/-- Both layouts have ended, or go on with the same token. -/
theorem Ahead.nil_or_cons (h : L.Ahead ahead ahead') :
    (ahead = [] ∧ ahead' = []) ∨
      ∃ token place place' rest rest', ahead = ⟨token, place⟩ :: rest ∧
        ahead' = ⟨token, place'⟩ :: rest' ∧ L.Ahead rest rest' := by
  obtain ⟨k, rfl, rfl⟩ := h
  have htokens : (L.left.drop k).map Lexeme.token = (L.right.drop k).map Lexeme.token := by
    rw [List.map_drop, List.map_drop, L.tokens_eq]
  -- What is behind the first lexeme is what is left from the next one on.
  have hnext : ∀ {lexemes rest : List Lexeme} {lexeme : Lexeme}, lexemes.drop k = lexeme :: rest →
      rest = lexemes.drop (k + 1) := by
    intro lexemes rest lexeme h
    rw [← List.tail_drop, h, List.tail_cons]
  rcases hleft : L.left.drop k with _ | ⟨⟨token, place⟩, rest⟩
  · rw [hleft, List.map_nil] at htokens
    exact .inl ⟨rfl, List.map_eq_nil_iff.mp htokens.symm⟩
  rcases hright : L.right.drop k with _ | ⟨⟨token', place'⟩, rest'⟩
  · rw [hleft, hright] at htokens
    cases htokens
  · rw [hleft, hright, List.map_cons, List.map_cons, List.cons.injEq] at htokens
    obtain rfl : token = token' := htokens.1
    exact .inr ⟨token, place, place', rest, rest', rfl, rfl, k + 1, hnext hleft, hnext hright⟩

theorem Ahead.length_eq (h : L.Ahead ahead ahead') : ahead.length = ahead'.length := by
  obtain ⟨k, rfl, rfl⟩ := h
  have hlength := congrArg List.length L.tokens_eq
  rw [List.length_map, List.length_map] at hlength
  rw [List.length_drop, List.length_drop, hlength]

end

end Layouts

/-- Two parsers, one for each of two layouts, that end alike whenever they start alike. -/
def InStep (L : Layouts) (n : Nat) {α β : Type} (post : Nat → α → β → Prop) (p : Parser α)
    (q : Parser β) : Prop :=
  ∀ ⦃s s' : ParseState⦄, L.States s s' → s.ahead.length = n → L.Results n post (p s) (q s')

/-- Nodes are the same when bare, wherever they stand. -/
def Matching.bare : Matching where
  names _ := True
  spans _ _ := True
  nodes node node' := node.bare = node'.bare
  merge _ _ := trivial
  span _ := trivial
  node hform _ _ := Node.bare_eq_iff.mpr hform.bare_eq
  widen {node node' _ _} h _ := by
    obtain ⟨form, _⟩ := node
    obtain ⟨form', _⟩ := node'
    exact Node.bare_eq_iff.mpr (Node.bare_eq_iff.mp h)

namespace InStep

variable {α β γ δ : Type} {L : Layouts} {n : Nat} {post : Nat → α → β → Prop}
variable {p : Parser α} {q : Parser β}

/-- Two sequences are in step if their parts are. -/
theorem bind {mid : Nat → α → β → Prop} {post : Nat → γ → δ → Prop} {f : α → Parser γ}
    {g : β → Parser δ} (h : InStep L n mid p q)
    (hf : ∀ k a b, k ≤ n → mid k a b → InStep L k post (f a) (g b)) :
    InStep L n post (p >>= f) (q >>= g) := by
  intro s s' hs hlength
  rw [bind_apply, bind_apply]
  have hresults := h hs hlength
  generalize p s = r at hresults ⊢
  generalize q s' = r' at hresults ⊢
  cases hresults with
  | error hs herror => exact .error hs herror
  | ok hs hle hvalue =>
    have hrest := hf _ _ _ hle hvalue hs rfl
    simp only
    generalize f _ _ = r at hrest ⊢
    generalize g _ _ = r' at hrest ⊢
    cases hrest with
    | error hs herror => exact .error hs herror
    | ok hs hle' hvalue => exact .ok hs (Nat.le_trans hle' hle) hvalue

theorem trailing {start start' : Span} (h : InStep L n post p q) :
    InStep L n (fun k a b => post k a.1 b.1 ∧ True) (trailing start p) (trailing start' q) := by
  intro s s' hs hlength
  have hresults := h hs hlength
  generalize hp : p s = r at hresults
  generalize hq : q s' = r' at hresults
  cases hresults with
  | error hs herror =>
    rw [trailing_of_error hp, trailing_of_error hq]
    exact .error hs herror
  | ok hs hle hvalue =>
    rw [trailing_of_ok hp, trailing_of_ok hq]
    exact .ok hs hle ⟨hvalue, trivial⟩

/-- What fails leaves both parsers where they started, and the same kept of the failure. -/
theorem recover {note : Abandoned → Option Abandoned → Option Abandoned} (h : InStep L n post p q)
    (hnote : ∀ {a a' kept kept'}, L.Abandons a a' → Option.Rel L.Abandons kept kept' →
      Option.Rel L.Abandons (note a kept) (note a' kept')) :
    InStep L n (Tried n post) (recover p note) (recover q note) := by
  intro s s' hs hlength
  have hresults := h hs hlength
  generalize hp : p s = r at hresults
  generalize hq : q s' = r' at hresults
  cases hresults with
  | ok hs hle hvalue =>
    rw [recover_of_ok hp, recover_of_ok hq]
    exact .ok hs hle (.ok hvalue)
  | error hs' herror =>
    rw [recover_of_error hp, recover_of_error hq, hs.ahead.length_eq, hs'.ahead.length_eq]
    refine .ok ⟨hs.ahead, hnote ⟨herror, rfl⟩ hs'.abandoned⟩ (Nat.le_of_eq hlength) ?_
    show Tried n post s.ahead.length none none
    rw [hlength]
    exact .failed

end InStep

/-- Parsers of two layouts that are in step are related as the grammar needs it. -/
theorem sequenceRelation_inStep (L : Layouts) :
    SequenceRelation .bare L.leftStop L.rightStop (InStep L) where
  stops := trivial
  pure h s s' hs hlength := .ok hs (Nat.le_of_eq hlength) (hlength ▸ h)
  bind := InStep.bind
  peek n s s' hs hlength := by
    refine .ok hs (Nat.le_of_eq hlength) ⟨hlength, ?_⟩
    -- Both layouts have run out, or both have the same token ahead.
    rcases hs.ahead.nil_or_cons with
      ⟨hnil, hnil'⟩ | ⟨token, place, place', rest, rest', hcons, hcons', -⟩
    · rw [hnil, List.length_nil] at hlength
      rw [hnil, hnil', ← hlength]
      exact .none
    · rw [hcons, List.length_cons] at hlength
      rw [hcons, hcons', ← hlength]
      exact .some (fun _ _ => trivial) trivial
  advance n := by
    rintro ⟨ahead, saved⟩ ⟨ahead', saved'⟩ hs hlength
    rcases hs.ahead.nil_or_cons
      with ⟨rfl, rfl⟩ | ⟨token, place, place', rest, rest', rfl, rfl, hrest⟩
    · cases hlength
    · have hrest' : rest.length = n := Nat.succ.inj hlength
      exact .ok ⟨hrest, hs.abandoned⟩ (hrest' ▸ Nat.le_succ _) hrest'
  fail _ s s' hs hlength := by
    rw [fail_apply, fail_apply]
    exact .error hs ⟨rfl, _, _, hs.ahead, rfl, rfl⟩
  trailing _ h := h.trailing
  peek_left h s s' hs hlength := by
    rw [peek_bind, List.length_eq_zero_iff.mp hlength]
    exact h hs hlength
  peek_right h s s' hs hlength := by
    rw [peek_bind, List.length_eq_zero_iff.mp (hs.ahead.length_eq.symm.trans hlength)]
    exact h hs hlength
  attempt h := h.recover fun _ hkept => hkept
  giveUp h := h.recover fun hfailure _ => .some hfailure
  takeAbandoned n s s' hs hlength := .ok ⟨hs.ahead, .none⟩ (Nat.le_of_eq hlength) hlength
  leftover {_ _ _ _ fault} _ := by
    rintro ⟨ahead, saved⟩ ⟨ahead', saved'⟩ hs hlength
    rw [leftover_apply, leftover_apply]
    have hcleared : L.States ⟨ahead, none⟩ ⟨ahead', none⟩ := ⟨hs.ahead, .none⟩
    have hblames : L.Blames ⟨fault, spanOf L.leftStop ahead⟩ ⟨fault, spanOf L.rightStop ahead'⟩ :=
      ⟨rfl, _, _, hs.ahead, rfl, rfl⟩
    -- What was given up counts only if it got past its first token, in both layouts or in none.
    cases hs.abandoned with
    | none => exact .error hcleared hblames
    | @some a a' habandoned =>
      obtain ⟨error, progressed⟩ := a
      obtain ⟨error', progressed'⟩ := a'
      obtain rfl : progressed = progressed' := habandoned.progressed
      cases progressed with
      | true => exact .error hcleared habandoned.error
      | false => exact .error hcleared hblames

/-- The span of the next lexeme is that of a lexeme, the end of the input being one. -/
theorem exists_of_spanOf_drop (front : List Lexeme) (marker : Span) (k : Nat) :
    ∃ lexeme, (front ++ [⟨.eof, marker⟩])[min k front.length]? = some lexeme ∧
      spanOf marker (front.drop k) = lexeme.span := by
  rcases Nat.lt_or_ge k front.length with hlt | hge
  · refine ⟨front[k], ?_, ?_⟩
    · rw [Nat.min_eq_left (Nat.le_of_lt hlt), List.getElem?_append_left hlt,
        List.getElem?_eq_getElem hlt]
    · rw [List.drop_eq_getElem_cons hlt, spanOf]
  · refine ⟨⟨.eof, marker⟩, ?_, ?_⟩
    · rw [Nat.min_eq_right hge, List.getElem?_concat_length]
    · rw [List.drop_eq_nil_of_le hge, spanOf]

end Script.Parser

namespace Script

/-- The same program was read from two layouts, or the same one of their lexemes is blamed for the
same fault. -/
inductive SameParse (lexemes lexemes' : List Lexeme) :
    Except SyntaxError Node → Except SyntaxError Node → Prop
  | ok {tree tree' : Node} (h : tree.bare = tree'.bare) :
      SameParse lexemes lexemes' (.ok tree) (.ok tree')
  | error (fault : SyntaxFault) {i : Nat} {lexeme lexeme' : Lexeme} (h : lexemes[i]? = some lexeme)
      (h' : lexemes'[i]? = some lexeme') :
      SameParse lexemes lexemes' (.error ⟨fault, lexeme.span⟩) (.error ⟨fault, lexeme'.span⟩)

/-- Layouts of the same tokens, with the end of the input behind them, are read alike. -/
theorem sameParse_of_layouts (L : Parser.Layouts) (heof : Token.eof ∉ L.left.map Lexeme.token) :
    SameParse (L.left ++ [⟨.eof, L.leftStop⟩]) (L.right ++ [⟨.eof, L.rightStop⟩])
      (parse (L.left ++ [⟨.eof, L.leftStop⟩])) (parse (L.right ++ [⟨.eof, L.rightStop⟩])) := by
  have heof' : Token.eof ∉ L.right.map Lexeme.token := L.tokens_eq ▸ heof
  have hlength : L.left.length = L.right.length := by
    simpa only [List.length_map] using congrArg List.length L.tokens_eq
  have hstart : L.States ⟨L.left, none⟩ ⟨L.right, none⟩ := ⟨⟨0, rfl, rfl⟩, .none⟩
  have hresults := (Parser.sequenceRelation_inStep L).program_goalAt L.left.length hstart rfl
  simp only [parse, takeWhile_of_eof_not_mem rfl heof, takeWhile_of_eof_not_mem rfl heof',
    endSpan_append heof, endSpan_append heof', ← hlength, Parser.parseGoal_eq_goalAt]
  generalize (Parser.program L.leftStop _ _ : Parser Node) _ = r at hresults ⊢
  generalize (Parser.program L.rightStop _ _ : Parser Node) _ = r' at hresults ⊢
  cases hresults with
  | ok _ _ hnode => exact .ok hnode
  | @error e e' _ _ _ herror =>
    obtain ⟨fault, span⟩ := e
    obtain ⟨fault', span'⟩ := e'
    -- The span of an error is that of the lexeme ahead, or of the marker, at the same place of
    -- both.
    obtain ⟨hfault, _, _, ⟨k, rfl, rfl⟩, hspan, hspan'⟩ := herror
    obtain ⟨lexeme, hlexeme, hplace⟩ := Parser.exists_of_spanOf_drop L.left L.leftStop k
    obtain ⟨lexeme', hlexeme', hplace'⟩ := Parser.exists_of_spanOf_drop L.right L.rightStop k
    obtain rfl : fault = fault' := hfault
    obtain rfl : span = lexeme.span := hspan.trans hplace
    obtain rfl : span' = lexeme'.span := hspan'.trans hplace'
    rw [← hlength] at hlexeme'
    exact .error fault hlexeme hlexeme'

/-- Sources that consist of the same tokens are read alike. -/
theorem sameParse_of_tokens {source source' : String} {lexemes lexemes' : List Lexeme}
    (h : tokenize source = .ok lexemes) (h' : tokenize source' = .ok lexemes')
    (htokens : lexemes.map Lexeme.token = lexemes'.map Lexeme.token) :
    SameParse lexemes lexemes' (parseSource source) (parseSource source') := by
  have hparse : parseSource source = parse lexemes := by
    rw [parseSource, h]
    rfl
  have hparse' : parseSource source' = parse lexemes' := by
    rw [parseSource, h']
    rfl
  obtain ⟨front, marker, rfl, heof⟩ := exists_of_tokenizeFrom List.not_mem_nil h
  obtain ⟨front', marker', rfl, -⟩ := exists_of_tokenizeFrom List.not_mem_nil h'
  rw [List.map_append, List.map_append] at htokens
  have hfront := (List.append_inj' htokens rfl).1
  rw [hparse, hparse']
  exact sameParse_of_layouts ⟨front, front', marker, marker', hfront⟩ heof

end Script
