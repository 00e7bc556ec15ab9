import Mathlib
import Script.Proofs.Parser.Programs
import Script.Proofs.Token.Tiling

/-!
# The text of a node means that node

The span of a node is a stretch of the source. Cut out of it and read on its own, it is the node
again (`text_of_node_reads_back`). This holds for every node but blocks, which are no statements,
and the text of an expression in parentheses has these in it.

It takes two things. A stretch of lexemes is laid out alike if what stands around it is taken away
(`Tiles.restrict`): nothing that was the longest lexeme before can become longer then. And what a
node was read from can be read by itself (`Laid.statement`).
-/

namespace Script

namespace Tiles

variable {p : Position} {cs : List Char}

/-- A layout goes on behind some of its lexemes. -/
theorem drop {front back : List Lexeme} (h : Tiles p cs (front ++ back)) :
    ∃ x y, cs = x ++ y ∧ Tiles (p.advanceAll x) y back := by
  generalize hall : front ++ back = lexemes at h
  induction h generalizing front with
  | nil p =>
    obtain ⟨-, rfl⟩ := List.append_eq_nil_iff.1 hall
    exact ⟨[], [], rfl, .nil p⟩
  | @blank p c cs lexemes hblank h ih =>
    obtain ⟨x, y, rfl, hback⟩ := ih hall
    exact ⟨c :: x, y, rfl, hback⟩
  | @lexeme p text rest token lexemes hlongest h ih =>
    cases front with
    | nil =>
      rw [List.nil_append] at hall
      exact ⟨[], text ++ rest, rfl, hall ▸ .lexeme hlongest h⟩
    | cons first front =>
      obtain ⟨x, y, rfl, hback⟩ := ih (List.cons.inj hall).2
      refine ⟨text ++ x, y, by rw [List.append_assoc], ?_⟩
      rw [Position.advanceAll_append]
      exact hback

/-- A layout goes up to the end of some lexeme. -/
theorem take {front back others : List Lexeme} {last : Lexeme} (h : Tiles p cs (front ++ back))
    (hlast : front = others ++ [last]) :
    ∃ x y, cs = x ++ y ∧ last.span.stop = p.advanceAll x ∧ Tiles p x front := by
  generalize hall : front ++ back = lexemes at h
  induction h generalizing front others with
  | nil p =>
    obtain ⟨rfl, -⟩ := List.append_eq_nil_iff.1 hall
    simp at hlast
  | @blank p c cs lexemes hblank h ih =>
    obtain ⟨x, y, rfl, hstop, hfront⟩ := ih hlast hall
    exact ⟨c :: x, y, rfl, hstop, .blank hblank hfront⟩
  | @lexeme p text rest token lexemes hlongest h ih =>
    cases front with
    | nil => simp at hlast
    | cons first front =>
      obtain ⟨rfl, hrest⟩ := List.cons.inj hall
      cases others with
      | nil =>
        obtain ⟨rfl, rfl⟩ := List.cons.inj hlast
        -- A lexeme is the longest one also where less follows it.
        have hsingle := Tiles.lexeme (p := p) (hlongest.of_prefix List.nil_prefix) (.nil _)
        rw [List.append_nil] at hsingle
        exact ⟨text, rest, rfl, rfl, hsingle⟩
      | cons other others =>
        obtain ⟨x, y, rfl, hstop, hfront⟩ := ih (List.cons.inj hlast).2 hrest
        refine ⟨text ++ x, y, by rw [List.append_assoc], ?_, ?_⟩
        · rw [hstop, Position.advanceAll_append]
        · exact .lexeme (hlongest.of_prefix (List.prefix_append x y)) hfront

/-- There may be blanks in front of the first lexeme. -/
theorem skip {first : Lexeme} {lexemes : List Lexeme} (h : Tiles p cs (first :: lexemes)) :
    ∃ x y, cs = x ++ y ∧ first.span.start = p.advanceAll x ∧
      Tiles (p.advanceAll x) y (first :: lexemes) := by
  generalize hall : first :: lexemes = all at h
  induction h with
  | nil => cases hall
  | @blank p c cs lexemes hblank h ih =>
    obtain ⟨x, y, rfl, hstart, hall'⟩ := ih hall
    exact ⟨c :: x, y, rfl, hstart, hall'⟩
  | @lexeme p text rest token lexemes hlongest h ih =>
    obtain ⟨rfl, -⟩ := List.cons.inj hall
    exact ⟨[], text ++ rest, rfl, rfl, .lexeme hlongest h⟩

/-- It does not matter to a layout where the source starts. -/
theorem move {lexemes : List Lexeme} (h : Tiles p cs lexemes) (q : Position) :
    ∃ lexemes', Tiles q cs lexemes' ∧ lexemes'.map Lexeme.token = lexemes.map Lexeme.token := by
  induction h generalizing q with
  | nil => exact ⟨[], .nil q, rfl⟩
  | @blank p c cs lexemes hblank h ih =>
    obtain ⟨lexemes', htiles, hmap⟩ := ih (q.advance c)
    exact ⟨lexemes', .blank hblank htiles, hmap⟩
  | @lexeme p text rest token lexemes hlongest h ih =>
    obtain ⟨lexemes', htiles, hmap⟩ := ih (q.advanceAll text)
    exact ⟨_, .lexeme hlongest htiles, by simp [hmap]⟩

/-- The stretch that a span is over is laid out alike on its own. -/
theorem restrict {before part after : List Lexeme} {span : Span}
    (h : Tiles p cs (before ++ (part ++ after))) (hover : span.Over part) (q : Position) :
    ∃ x text y part', cs = x ++ (text ++ y) ∧ span.start = p.advanceAll x ∧
      span.stop = p.advanceAll (x ++ text) ∧ Tiles q text part' ∧
      part'.map Lexeme.token = part.map Lexeme.token := by
  obtain ⟨x, y, rfl, hpart⟩ := h.drop
  obtain ⟨first, others, hfirst, hstart⟩ := hover.start
  obtain ⟨front, last, hlast, hstop⟩ := hover.stop
  rw [hfirst, List.cons_append] at hpart
  obtain ⟨x', y', rfl, hskip, hpart'⟩ := hpart.skip
  rw [← List.cons_append, ← hfirst] at hpart'
  obtain ⟨text, z, rfl, htake, htext⟩ := hpart'.take hlast
  obtain ⟨part', htiles, hmap⟩ := htext.move q
  refine ⟨x ++ x', text, z, part', by rw [List.append_assoc], ?_, ?_, htiles, hmap⟩
  · rw [← hstart, hskip, Position.advanceAll_append]
  · rw [← hstop, htake, Position.advanceAll_append, Position.advanceAll_append]

/-- Lexemes that tile a text stand apart. -/
theorem apart {lexemes : List Lexeme} (h : Tiles p cs lexemes) : Apart lexemes where
  nonempty := fun _ hl => (h.start_lt_stop hl).2
  ordered := h.ordered

/-- Only the end of the input ends the lexemes of a source. -/
theorem takeWhile_eq {lexemes : List Lexeme} (h : Tiles p cs lexemes) (q : Position) :
    (lexemes ++ [Lexeme.atEnd q]).takeWhile (fun l => !l.token.isEof) = lexemes := by
  have hall : ∀ l ∈ lexemes, (!l.token.isEof) = true := by
    intro l hl
    have hne := h.ne_eof hl
    cases htoken : l.token <;> simp_all [Token.isEof]
  rw [List.takeWhile_append_of_pos hall]
  simp [Lexeme.atEnd, Token.isEof]

end Tiles

/-- The text of a source at a span: the bytes from its start up to its end. -/
def Span.textIn (span : Span) (source : String) : String :=
  String.Pos.Raw.extract source ⟨span.start.index⟩ ⟨span.stop.index⟩

/-- The text of a span is what stands between its ends. -/
theorem Span.textIn_eq {span : Span} {source : String} {x text y : List Char}
    (hsource : source.toList = x ++ (text ++ y)) (hstart : span.start = Position.start.advanceAll x)
    (hstop : span.stop = Position.start.advanceAll (x ++ text)) :
    span.textIn source = String.ofList text := by
  have hlength : ∀ cs, (Position.start.advanceAll cs).index = String.utf8Len cs := fun cs => by
    rw [index_advanceAll_start, String.utf8ByteSize_ofList]
  rw [textIn, hstart, hstop, hlength, hlength, String.utf8Len_append,
    ← String.ofList_toList (s := source), hsource, ← List.append_assoc]
  exact String.extract_of_valid x text y

/-- A source that is read is laid out in lexemes, which are read as the statements of its tree. -/
theorem exists_statements_of_parseSource {source : String} {tree : Node}
    (h : parseSource source = .ok tree) :
    ∃ lexemes nodes, Tiles .start source.toList lexemes ∧ tree.form = .block nodes ∧
      Parser.Arranged lexemes nodes ∧
      (∀ stop, Parser.Statements stop (lexemes.map Lexeme.token) nodes) ∧
      parse (lexemes ++ [Lexeme.atEnd (Position.start.advanceAll source.toList)]) = .ok tree := by
  cases htokens : tokenize source with
  | error e =>
    rw [parseSource, htokens] at h
    cases h
  | ok all =>
    rw [parseSource, htokens] at h
    obtain ⟨lexemes, htiles, rfl⟩ := tokenizeFrom_eq_ok_iff.1 htokens
    have htake := htiles.takeWhile_eq (Position.start.advanceAll source.toList)
    obtain ⟨nodes, hform, harranged, hstatements⟩ :=
      exists_statements_of_parse (htake.symm ▸ htiles.apart) h
    exact ⟨lexemes, nodes, htiles, hform, htake ▸ harranged, htake ▸ hstatements, h⟩

/-- The lexemes of a source that is read are laid out over it, and its statements over them. -/
theorem exists_arranged_of_parseSource {source : String} {tree : Node}
    (h : parseSource source = .ok tree) :
    ∃ lexemes nodes, Tiles .start source.toList lexemes ∧ tree.form = .block nodes ∧
      Parser.Arranged lexemes nodes := by
  obtain ⟨lexemes, nodes, htiles, hform, harranged, -⟩ := exists_statements_of_parseSource h
  exact ⟨lexemes, nodes, htiles, hform, harranged⟩

/-- A tree that is a block up to spans is a block. -/
theorem exists_nodes_of_bare_eq {tree : Node} {nodes : List Node} {span : Span}
    (h : tree.bare = Node.bare ⟨.block nodes, span⟩) :
    ∃ nodes', tree.form = .block nodes' ∧ bareNodes nodes' = bareNodes nodes := by
  have hform := Node.bare_eq_iff.mp h
  cases hblock : tree.form with
  | block nodes' =>
    rw [hblock] at hform
    exact ⟨nodes', rfl, by simpa [Form.bare] using hform⟩
  | _ =>
    rw [hblock] at hform
    simp [Form.bare] at hform

/-- A text that is laid out in the tokens of statements is read as a program with these
statements. -/
theorem parseSource_of_statements {text : List Char} {lexemes : List Lexeme} {nodes : List Node}
    (htiles : Tiles .start text lexemes)
    (hstatements : ∀ stop, Parser.Statements stop (lexemes.map Lexeme.token) nodes) :
    ∃ program, parseSource (String.ofList text) = .ok program ∧
      program.bare = Node.bare ⟨.block nodes, default⟩ := by
  let all := lexemes ++ [Lexeme.atEnd (Position.start.advanceAll text)]
  have htokenize : tokenize (String.ofList text) = .ok all := by
    rw [tokenize, String.toList_ofList]
    exact tokenizeFrom_of_tiles htiles []
  have htake : all.takeWhile (fun l => !l.token.isEof) = lexemes := htiles.takeWhile_eq _
  obtain ⟨program, hparse, hbare⟩ := parse_of_statements (htake.symm ▸ hstatements)
  refine ⟨program, ?_, hbare⟩
  rw [parseSource, htokenize]
  exact hparse

/-- A text that is laid out in the tokens of a statement is read as a program with that one
statement. -/
theorem parseSource_of_tiles {text : List Char} {part : List Lexeme} {node : Node}
    (htiles : Tiles .start text part)
    (hstatement : ∀ stop, Parser.Statement stop (part.map Lexeme.token) node) :
    ∃ program statement, parseSource (String.ofList text) = .ok program ∧
      program.form = .block [statement] ∧ statement.bare = node.bare := by
  have hstatements : ∀ stop, Parser.Statements stop (part.map Lexeme.token) [node] := fun stop => by
    simpa using Parser.Statements.cons (hstatement stop) (fun _ hhead => by cases hhead) .nil
  obtain ⟨program, hparse, hbare⟩ := parseSource_of_statements htiles hstatements
  obtain ⟨nodes, hform, hnodes⟩ := exists_nodes_of_bare_eq hbare
  obtain ⟨statement, rfl, hstatement⟩ : ∃ statement, nodes = [statement] ∧
      statement.bare = node.bare := by
    rcases nodes with _ | ⟨statement, _ | ⟨other, nodes⟩⟩
    · simp [bareNodes] at hnodes
    · exact ⟨statement, rfl, by simpa [bareNodes] using hnodes⟩
    · simp [bareNodes] at hnodes
  exact ⟨program, statement, hparse, hform, hstatement⟩

/-- For every source that is read and every node of its tree but blocks, the text at the node's span
is read as a program whose only statement is that node. -/
theorem text_of_node_reads_back {source : String} {tree node : Node}
    (htree : parseSource source = .ok tree) (hnode : node.Within tree)
    (hform : ∀ nodes, node.form ≠ .block nodes) :
    ∃ program statement, parseSource (node.span.textIn source) = .ok program ∧
      program.form = .block [statement] ∧ statement.bare = node.bare := by
  obtain ⟨lexemes, nodes, htiles, htreeForm, harranged⟩ := exists_arranged_of_parseSource htree
  cases hnode with
  | refl => exact absurd htreeForm (hform nodes)
  | @child child _ hchild hwithin =>
    have hmem : child ∈ nodes := by
      rw [Node.children, htreeForm] at hchild
      exact hchild
    obtain ⟨before, own, after, rfl, hlaid⟩ := harranged.exists_of_mem hmem
    obtain ⟨before', part, after', rfl, hpart⟩ := hlaid.exists_of_within hwithin
    have hlexemes : before ++ (before' ++ (part ++ after') ++ after)
        = (before ++ before') ++ (part ++ (after' ++ after)) := by simp
    rw [hlexemes] at htiles
    obtain ⟨x, text, y, part', hsource, hstart, hstop, htext, hmap⟩ :=
      htiles.restrict hpart.span_over .start
    rw [Span.textIn_eq hsource hstart hstop]
    exact parseSource_of_tiles htext (hmap ▸ hpart.statement hform)

/-- A function in parentheses, far down in a tree and behind a letter of two bytes. Its text has the
parentheses. -/
theorem text_of_function_in_parentheses_reads_back :
    let source := "if \"é\" \x7b return a ^ ( fun(x) = x[y] ) \x7d"
    let span (start stop : Nat) : Span := ⟨⟨start, 1, start - 1⟩, ⟨stop, 1, stop - 1⟩⟩
    let body : Node := ⟨.index ⟨.var "x", span 32 33⟩ ⟨.var "y", span 34 35⟩, span 32 36⟩
    let node : Node := ⟨.function ⟨none, ["x"], body, true⟩, span 21 38⟩
    let value : Node := ⟨.binary ⟨.var "a", span 17 18⟩ .pow node, span 17 38⟩
    let block : Node := ⟨.block [⟨.returning (some value), span 10 38⟩], span 8 40⟩
    let cond : Node := ⟨.text "é", ⟨⟨3, 1, 3⟩, ⟨7, 1, 6⟩⟩⟩
    let whole : Span := ⟨⟨0, 1, 0⟩, ⟨40, 1, 39⟩⟩
    let tree : Node := ⟨.block [⟨.ifElse [⟨cond, block⟩] none, whole⟩], whole⟩
    parseSource source = .ok tree ∧ node.Within tree ∧
      node.span.textIn source = "( fun(x) = x[y] )" ∧
      ∃ program statement, parseSource (node.span.textIn source) = .ok program ∧
        program.form = .block [statement] ∧ statement.bare = node.bare := by
  intro source span body node value block cond whole tree
  have htree : parseSource source = .ok tree := by cbv
  have hnode : node.Within tree :=
    .child (.head _) (.child (.tail _ (.head _)) (.child (.head _) (.child (.head _)
      (.child (.tail _ (.head _)) .refl))))
  have htext : node.span.textIn source = "( fun(x) = x[y] )" := by decide +kernel
  exact ⟨htree, hnode, htext, text_of_node_reads_back htree hnode fun _ => Form.noConfusion⟩

end Script
