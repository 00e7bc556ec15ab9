import Script.Proofs.Parser.SourceText

/-!
# Spans nest

The spans of a tree nest like its nodes: what stands below a node stands inside of its span, and the
nodes directly below one and the same node stand apart from each other, in the order of
`Node.children` (`spans_nest`).

This is read off the lexemes. Every node is laid over some of them (`Laid`), and lexemes take up
room and stand in order (`Apart`). So a span that is over some lexemes covers each of them
(`Span.Over.start_le`, `Span.Over.le_stop`), and nodes that are laid over different ones are as far
apart as these are. All that is left are programs as a whole: their spans reach from the first
statement to the last (`Arranged.exists_laid_block`), unless there is none.
-/

namespace Script

/-! ## Lexemes under a span -/

namespace Apart

variable {lexemes : List Lexeme} {l : Lexeme}

/-- Nothing starts before the first lexeme. -/
theorem first_start_le {first : Lexeme} {others : List Lexeme} (h : Apart (first :: others))
    (hl : l ∈ first :: others) : first.span.start.index ≤ l.span.start.index := by
  rcases List.mem_cons.mp hl with rfl | hl
  · exact Nat.le_refl _
  · have hroom := h.nonempty first List.mem_cons_self
    have hle := List.rel_of_pairwise_cons h.ordered hl
    omega

/-- Nothing ends behind the last lexeme. -/
theorem stop_le_last {last : Lexeme} {others : List Lexeme} (h : Apart (others ++ [last]))
    (hl : l ∈ others ++ [last]) : l.span.stop.index ≤ last.span.stop.index := by
  rcases List.mem_append.mp hl with hl | hl
  · have hroom := h.nonempty last (List.mem_append_right others (List.mem_singleton_self last))
    have hle := h.stop_le_start hl (List.mem_singleton_self last)
    omega
  · rw [List.mem_singleton.mp hl]

end Apart

namespace Span.Over

variable {span inner : Span} {own part before after : List Lexeme} {l : Lexeme}

/-- A span over lexemes starts before all of them. -/
theorem start_le (h : span.Over own) (hapart : Apart own) (hl : l ∈ own) :
    span.start.index ≤ l.span.start.index := by
  obtain ⟨first, others, rfl, hstart⟩ := h.start
  rw [← hstart]
  exact hapart.first_start_le hl

/-- A span over lexemes stops behind all of them. -/
theorem le_stop (h : span.Over own) (hapart : Apart own) (hl : l ∈ own) :
    l.span.stop.index ≤ span.stop.index := by
  obtain ⟨others, last, rfl, hstop⟩ := h.stop
  rw [← hstop]
  exact hapart.stop_le_last hl

/-- A span starts where some lexeme under it does. -/
theorem exists_start (h : span.Over own) : ∃ l ∈ own, l.span.start = span.start := by
  obtain ⟨first, others, rfl, hstart⟩ := h.start
  exact ⟨first, List.mem_cons_self, hstart⟩

/-- A span ends where some lexeme under it does. -/
theorem exists_stop (h : span.Over own) : ∃ l ∈ own, l.span.stop = span.stop := by
  obtain ⟨others, last, rfl, hstop⟩ := h.stop
  exact ⟨last, List.mem_append_right others (List.mem_singleton_self last), hstop⟩

/-- A span over lexemes is not empty. -/
theorem start_lt_stop (h : span.Over own) (hapart : Apart own) :
    span.start.index < span.stop.index := by
  obtain ⟨l, hl, hstart⟩ := h.exists_start
  calc span.start.index = l.span.start.index := by rw [hstart]
    _ < l.span.stop.index := hapart.nonempty l hl
    _ ≤ span.stop.index := h.le_stop hapart hl

/-- A span over some of the lexemes lies inside of the span over all of them. -/
theorem inside (h : span.Over own) (hinner : inner.Over part)
    (hown : own = before ++ (part ++ after)) (hapart : Apart own) :
    span.start.index ≤ inner.start.index ∧ inner.stop.index ≤ span.stop.index := by
  have hmem : ∀ l ∈ part, l ∈ own := fun l hl => by
    rw [hown]
    exact List.mem_append_right before (List.mem_append_left after hl)
  obtain ⟨first, hfirst, hstart⟩ := hinner.exists_start
  obtain ⟨last, hlast, hstop⟩ := hinner.exists_stop
  rw [← hstart, ← hstop]
  exact ⟨h.start_le hapart (hmem first hfirst), h.le_stop hapart (hmem last hlast)⟩

end Span.Over

namespace Parser

/-! ## Nodes that are laid over lexemes -/

namespace Arranged

variable {own : List Lexeme} {nodes : List Node}

/-- Nodes that were read one behind the other stand apart and in order. -/
theorem ordered (h : Arranged own nodes) (hapart : Apart own) :
    nodes.Pairwise fun node node' => node.span.stop.index ≤ node'.span.start.index := by
  induction nodes generalizing own with
  | nil => exact .nil
  | cons node nodes ih =>
    cases h with
    | @cons gap _ part rest _ _ hown hnode hnodes =>
      subst hown
      refine .cons (fun later hlater => ?_) (ih hnodes hapart.right.right)
      obtain ⟨before, part', after, rfl, hlater⟩ := hnodes.exists_of_mem hlater
      obtain ⟨last, hlast, hstop⟩ := hnode.span_over.exists_stop
      obtain ⟨first, hfirst, hstart⟩ := hlater.span_over.exists_start
      rw [← hstop, ← hstart]
      refine hapart.right.stop_le_start hlast ?_
      exact List.mem_append_right before (List.mem_append_left after hfirst)

/-- The lexemes from the start up to those of the last node. -/
theorem exists_last (h : Arranged own nodes) (hne : nodes ≠ []) :
    ∃ front part after last, own = front ++ (part ++ after) ∧ nodes.getLast? = some last ∧
      Laid part last ∧ Arranged (front ++ part) nodes := by
  induction nodes generalizing own with
  | nil => exact absurd rfl hne
  | cons node nodes ih =>
    cases h with
    | @cons gap _ part rest _ _ hown hnode hnodes =>
      subst hown
      cases nodes with
      | nil => exact ⟨gap, part, rest, node, rfl, rfl, hnode, .single gap hnode⟩
      | cons next nodes =>
        obtain ⟨front, part', after, last, rfl, hlast, hlaid, harranged⟩ :=
          ih hnodes (List.cons_ne_nil next nodes)
        refine ⟨gap ++ (part ++ front), part', after, last, by simp, hlast, hlaid, ?_⟩
        exact .cons gap (by simp) hnode harranged

/-- Statements are laid, as a program, over the lexemes from those of the first to those of the
last. -/
theorem exists_laid_block (h : Arranged own nodes) (hne : nodes ≠ []) (hapart : Apart own)
    (start : Span) :
    ∃ before part after, own = before ++ (part ++ after) ∧
      Laid part ⟨.block nodes, programSpan start nodes⟩ := by
  cases h with
  | nil => exact absurd rfl hne
  | @cons gap _ part rest node nodes hown hnode hnodes =>
    subst hown
    cases nodes with
    | nil =>
      refine ⟨gap, part, rest, rfl,
        .intro ?_ (fun hform => absurd rfl (hform [node])) (.single [] hnode)⟩
      -- The only statement is the first and the last one.
      show (node.span.merge node.span).Over part
      rw [Span.merge_self]
      exact hnode.span_over
    | cons next nodes =>
      obtain ⟨front, part', after, last, rfl, hlast, hlaid, harranged⟩ :=
        hnodes.exists_last (List.cons_ne_nil next nodes)
      have hspan : programSpan start (node :: next :: nodes) = node.span.merge last.span := by
        simp only [programSpan, List.head?_cons, List.getLast?_cons_cons, hlast]
      have hinner : Apart (part ++ (front ++ part')) :=
        hapart.right.of_eq after (by simp)
      refine ⟨gap, part ++ (front ++ part'), after, by simp, .intro ?_ ?_ ?_⟩
      · rw [hspan]
        exact hnode.span_over.merge hlaid.span_over front rfl hinner
      · exact fun hform => absurd rfl (hform (node :: next :: nodes))
      · exact .cons [] rfl hnode harranged

end Arranged

end Parser

/-! ## Programs -/

/-- The span of a program is that of its statements. -/
theorem span_of_parse {lexemes : List Lexeme} {tree : Node} {nodes : List Node}
    (h : parse lexemes = .ok tree) (hform : tree.form = .block nodes) :
    tree.span = Parser.programSpan
      (Parser.spanOf (endSpan lexemes) (lexemes.takeWhile fun l => !l.token.isEof)) nodes := by
  rw [parse_eq_predicted, parsePredictively] at h
  split at h
  next node s hrun =>
    cases h
    rw [Parser.Predictive.program, Parser.bind_of_ok (p := get) rfl] at hrun
    obtain ⟨nodes', rest, saved, -, hpure⟩ := Parser.ok_of_bind hrun
    cases hpure
    cases hform
    rfl
  next => cases h

/-- A program that is read is laid over lexemes of its source. If it has no statements, there are no
lexemes, and its span is that of the end. -/
theorem exists_laid_of_parseSource {source : String} {tree : Node}
    (h : parseSource source = .ok tree) :
    ∃ lexemes, Tiles .start source.toList lexemes ∧
      tokenize source = .ok (lexemes ++ [Lexeme.atEnd (Position.start.advanceAll source.toList)]) ∧
      (tree.children = [] →
        tree.span = (Lexeme.atEnd (Position.start.advanceAll source.toList)).span) ∧
      (tree.children ≠ [] → ∃ before part after, lexemes = before ++ (part ++ after) ∧
        Parser.Laid part tree) := by
  obtain ⟨lexemes, nodes, htiles, hform, harranged, hstatements, hparse⟩ :=
    exists_statements_of_parseSource h
  have hspan := span_of_parse hparse hform
  rw [htiles.takeWhile_eq] at hspan
  have hchildren : tree.children = nodes := by rw [Node.children, hform, Form.children]
  refine ⟨lexemes, htiles, tokenizeFrom_of_tiles htiles [], fun hnone => ?_, fun hsome => ?_⟩
  · rw [hchildren] at hnone
    subst hnone
    -- No statements have no tokens.
    generalize htokens : lexemes.map Lexeme.token = tokens at hstatements
    cases hstatements default
    obtain rfl : lexemes = [] := List.map_eq_nil_iff.mp htokens
    exact hspan
  · rw [hchildren] at hsome
    obtain ⟨form, span⟩ := tree
    obtain rfl : form = .block nodes := hform
    obtain rfl : span = _ := hspan
    exact harranged.exists_laid_block hsome htiles.apart _

/-- How the span of a node stands to the lexemes of its source and to the spans of its children. -/
structure Node.SpanNests (source : String) (lexemes : List Lexeme) (node : Node) : Prop where
  /-- The span starts where a token does, -/
  starts : ∃ first ∈ lexemes, first.token ≠ .eof ∧ first.span.start = node.span.start
  /-- and ends where one does. -/
  stops : ∃ last ∈ lexemes, last.token ≠ .eof ∧ last.span.stop = node.span.stop
  nonempty : node.span.start.index < node.span.stop.index
  within_source : node.span.stop.index ≤ source.utf8ByteSize
  /-- No child reaches out of it. -/
  within : ∀ child ∈ node.children, node.span.start.index ≤ child.span.start.index ∧
    child.span.stop.index ≤ node.span.stop.index
  /-- Each child ends before the next one starts. -/
  ordered : node.children.Pairwise fun child next => child.span.stop.index ≤ next.span.start.index

/-- Lexemes do not reach out of their source. -/
theorem Tiles.stop_le {source : String} {lexemes : List Lexeme}
    (h : Tiles .start source.toList lexemes)
    {l : Lexeme} (hl : l ∈ lexemes) : l.span.stop.index ≤ source.utf8ByteSize := by
  obtain ⟨before, text, after, hsource, hspan, -⟩ := h.exists_of_mem hl
  have hsize : (Position.start.advanceAll source.toList).index = source.utf8ByteSize := by
    rw [index_advanceAll_start, String.ofList_toList]
  rw [hspan, ← hsize, hsource, ← List.append_assoc, Position.advanceAll_append _ (before ++ text)]
  exact Position.index_le_advanceAll _ after

/-- The span of a node that is laid over lexemes of a source. -/
theorem Parser.Laid.spanNests {source : String} {before part after lexemes : List Lexeme}
    {node : Node} (h : Laid part node) (htiles : Tiles .start source.toList lexemes)
    (hlexemes : lexemes = before ++ (part ++ after)) (more : List Lexeme) :
    node.SpanNests source (lexemes ++ more) := by
  have hmem : ∀ l ∈ part, l ∈ lexemes := fun l hl => by
    rw [hlexemes]
    exact List.mem_append_right before (List.mem_append_left after hl)
  have hreal : ∀ l ∈ lexemes, l.token ≠ .eof := fun l hl => htiles.ne_eof hl
  have hapart : Apart part := by
    have hall := htiles.apart
    rw [hlexemes] at hall
    exact hall.right.left
  obtain ⟨first, hfirst, hstart⟩ := h.span_over.exists_start
  obtain ⟨last, hlast, hstop⟩ := h.span_over.exists_stop
  refine ⟨⟨first, List.mem_append_left more (hmem first hfirst),
    hreal first (hmem first hfirst), hstart⟩,
    ⟨last, List.mem_append_left more (hmem last hlast), hreal last (hmem last hlast), hstop⟩,
    h.span_over.start_lt_stop hapart, ?_, fun child hchild => ?_, h.children.ordered hapart⟩
  · rw [← hstop]
    exact htiles.stop_le (hmem last hlast)
  · obtain ⟨front, inner, back, rfl, hinner⟩ := h.children.exists_of_mem hchild
    exact h.span_over.inside hinner.span_over rfl hapart

/-- The spans of a tree nest. The span of every node starts at the start of a token and ends at the
end of one, takes up room and lies in the source; the spans of its children lie in it, one behind
the other. The only exception is a program without statements, whose span is that of the end of the
input. -/
theorem spans_nest {source : String} {tree : Node} (h : parseSource source = .ok tree) :
    ∃ front marker, tokenize source = .ok (front ++ [marker]) ∧ marker.token = .eof ∧
      (tree.children = [] → tree.span = marker.span) ∧
      ∀ node, node.Within tree → (node = tree → tree.children ≠ []) →
        node.SpanNests source (front ++ [marker]) := by
  obtain ⟨lexemes, htiles, htokens, hempty, hlaid⟩ := exists_laid_of_parseSource h
  refine ⟨lexemes, _, htokens, rfl, hempty, fun node hnode hroot => ?_⟩
  have hchildren : tree.children ≠ [] := by
    cases hnode with
    | refl => exact hroot rfl
    | child hchild => exact List.ne_nil_of_mem hchild
  obtain ⟨before, own, after, hlexemes, hown⟩ := hlaid hchildren
  obtain ⟨before', part, after', rfl, hpart⟩ := hown.exists_of_within hnode
  have hsplit : lexemes = (before ++ before') ++ (part ++ (after' ++ after)) := by
    rw [hlexemes]
    simp
  exact hpart.spanNests htiles hsplit _

/-- A power in parentheses over two lines, behind a letter of two bytes. The parentheses belong to
its span, so that it and `x` have all of the difference between them but the sign. -/
theorem spans_nest_with_parentheses :
    let source := "( \"é\"\n^ y ) - x"
    let power : Node := ⟨.binary ⟨.text "é", ⟨⟨2, 1, 2⟩, ⟨6, 1, 5⟩⟩⟩ .pow
      ⟨.var "y", ⟨⟨9, 2, 2⟩, ⟨10, 2, 3⟩⟩⟩, ⟨⟨0, 1, 0⟩, ⟨12, 2, 5⟩⟩⟩
    let whole : Span := ⟨⟨0, 1, 0⟩, ⟨16, 2, 9⟩⟩
    let tree : Node :=
      ⟨.block [⟨.binary power .sub ⟨.var "x", ⟨⟨15, 2, 8⟩, ⟨16, 2, 9⟩⟩⟩, whole⟩], whole⟩
    parseSource source = .ok tree ∧ power.Within tree ∧
      ∃ front marker, tokenize source = .ok (front ++ [marker]) ∧ marker.token = .eof ∧
        (tree.children = [] → tree.span = marker.span) ∧
        ∀ node, node.Within tree → (node = tree → tree.children ≠ []) →
          node.SpanNests source (front ++ [marker]) := by
  intro source power whole tree
  have htokens : tokenize "( \"é\"\n^ y ) - x" = .ok
      [⟨.operator .openParen, ⟨⟨0, 1, 0⟩, ⟨1, 1, 1⟩⟩⟩, ⟨.text "é", ⟨⟨2, 1, 2⟩, ⟨6, 1, 5⟩⟩⟩,
        ⟨.operator .caret, ⟨⟨7, 2, 0⟩, ⟨8, 2, 1⟩⟩⟩, ⟨.identifier "y", ⟨⟨9, 2, 2⟩, ⟨10, 2, 3⟩⟩⟩,
        ⟨.operator .closeParen, ⟨⟨11, 2, 4⟩, ⟨12, 2, 5⟩⟩⟩,
        ⟨.operator .minus, ⟨⟨13, 2, 6⟩, ⟨14, 2, 7⟩⟩⟩,
        ⟨.identifier "x", ⟨⟨15, 2, 8⟩, ⟨16, 2, 9⟩⟩⟩, ⟨.eof, ⟨⟨16, 2, 9⟩, ⟨17, 2, 10⟩⟩⟩] := by
    with_unfolding_all rfl
  have htree : parseSource source = .ok tree := by
    rw [parseSource, htokens]
    rfl
  exact ⟨htree, .child (.head _) (.child (.head _) .refl), spans_nest htree⟩

end Script
