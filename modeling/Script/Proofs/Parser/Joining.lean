import Script.Proofs.Parser.SourceText

/-!
# Sources one behind the other

Statements are not separated by anything, so it is not obvious that one source behind another is
read as the statements of the first and then those of the second. With a line break in between it
is, unless the second source starts with a token that could go on with an expression, or the first
one ends with a `return` that could still get a value (`parseSource_join`).

Nothing looks across the seam. No lexeme does, as the line break ends it (`Tiles.append`). And no
statement does, as each of them is read in front of all that may stand behind it
(`Statements.append`).
-/

namespace Script

/-! ## Lexemes -/

/-- Two layouts with a line break in between are a layout. -/
theorem Tiles.append {p : Position} {cs ds : List Char} {front back : List Lexeme}
    (h : Tiles p cs front) (h' : Tiles ((p.advanceAll cs).advance '\n') ds back) :
    Tiles p (cs ++ '\n' :: ds) (front ++ back) := by
  induction h with
  | nil p => exact .blank rfl h'
  | blank hblank _ ih => exact .blank hblank (ih h')
  | @lexeme p text rest token lexemes hlongest _ ih =>
    rw [List.append_assoc]
    refine .lexeme (hlongest.before_blank rfl ds) (ih ?_)
    rw [← Position.advanceAll_append]
    exact h'

namespace Parser

/-! ## Statements -/

namespace Statements

variable {stop : Span} {tokens tokens' : List Token} {nodes nodes' : List Node}

theorem eq_nil_of_tokens (h : Statements stop [] nodes) : nodes = [] := by
  generalize htokens : ([] : List Token) = tokens at h
  cases h with
  | nil => rfl
  | cons hnode =>
    obtain ⟨first, others, rfl, -⟩ := hnode.starts
    cases htokens

/-- The first token of statements starts one. -/
theorem startsStatement (h : Statements stop tokens nodes) {token : Token}
    (htoken : tokens.head? = some token) : token.startsStatement = true := by
  cases h with
  | nil => cases htoken
  | cons hnode =>
    obtain ⟨first, others, rfl, hfirst⟩ := hnode.starts
    cases htoken
    exact hfirst

/-- Statements behind others, if the first of them may stand behind the last of the others. -/
theorem append (h : Statements stop tokens nodes) (h' : Statements stop tokens' nodes')
    (hseam : ∀ last, nodes.getLast? = some last → ∀ token, tokens'.head? = some token →
      last.form.mayPrecede token = true) :
    Statements stop (tokens ++ tokens') (nodes ++ nodes') := by
  induction h with
  | nil => exact h'
  | @cons own others node nodes hnode hnext hnodes ih =>
    rw [List.append_assoc]
    cases hothers : others with
    | cons token rest =>
      refine .cons hnode ?_ (hothers ▸ ih fun last hlast => hseam last ?_)
      · rw [hothers] at hnext
        exact hnext
      · cases nodes with
        | nil =>
          cases hlast
        | cons next nodes => rw [List.getLast?_cons_cons, hlast]
    | nil =>
      subst hothers
      obtain rfl := hnodes.eq_nil_of_tokens
      exact .cons hnode (hseam node rfl) h'

end Statements

end Parser

/-- Behind a statement that is no bare `return` there may stand what starts a statement and does not
go on with an expression. -/
theorem Form.mayPrecede_of_starts {form : Form} {token : Token} (hform : form ≠ .returning none)
    (hstarts : token.startsStatement = true) (hgoesOn : token.goesOn = false) :
    form.mayPrecede token = true := by
  unfold mayPrecede
  split
  · exact absurd rfl hform
  · rfl
  · rfl
  · rw [Token.joins_eq_none hstarts hgoesOn]
    rfl

/-- A source, a line break and another source are read as the statements of the one and then those
of the other. -/
theorem parseSource_join {first second : String} {tree tree' : Node}
    (hfirst : parseSource first = .ok tree) (hsecond : parseSource second = .ok tree')
    (htoken : ∀ lexemes, tokenize second = .ok lexemes → ∀ lexeme, lexemes.head? = some lexeme →
      lexeme.token.goesOn = false)
    (hreturn : ∀ last, tree.children.getLast? = some last → last.form ≠ .returning none) :
    ∃ whole, parseSource (first ++ "\n" ++ second) = .ok whole ∧
      whole.bare = Node.bare ⟨.block (tree.children ++ tree'.children), default⟩ := by
  obtain ⟨front, nodes, hfront, hform, -, hstatements, -⟩ := exists_statements_of_parseSource hfirst
  obtain ⟨back, nodes', hback, hform', -, hstatements', -⟩ :=
    exists_statements_of_parseSource hsecond
  rw [Node.children, hform, Form.children] at hreturn ⊢
  rw [Node.children, hform', Form.children]
  -- The lexemes of the second source are the same further down, with other places.
  obtain ⟨moved, hmoved, hmap⟩ :=
    hback.move ((Position.start.advanceAll first.toList).advance '\n')
  have hsource :
      first ++ "\n" ++ second = String.ofList (first.toList ++ '\n' :: second.toList) := by
    rw [← String.toList_inj]
    simp
  rw [hsource]
  refine parseSource_of_statements (hfront.append hmoved) fun stop => ?_
  rw [List.map_append, hmap]
  refine (hstatements stop).append (hstatements' stop) fun last hlast token hhead => ?_
  refine Form.mayPrecede_of_starts (hreturn last hlast)
    ((hstatements' stop).startsStatement hhead) ?_
  cases back with
  | nil => cases hhead
  | cons lexeme back =>
    cases hhead
    exact htoken _ (tokenizeFrom_of_tiles hback []) lexeme rfl

end Script
