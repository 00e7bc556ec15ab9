import Script.Proofs.Parser.Blocks

/-!
# Reading undoes writing

What `Node.print` writes, `parse` reads back: the same tree, however many parentheses were written
beyond those that the levels of operators ask for. So operators group as the levels say, `-a ^ b`
being the negation of a power and `a - b - c` a difference of a difference.

## Shape of the proof

The induction is over trees, by the recursion of the printer. Each case is a production: it takes
the phrases of the parts, in the positions that the printer gives them, to the phrase of the whole.
Parentheses make an atom of a phrase, and an atom is a phrase of every level, so they are never too
many (`Phrase.parenthesized`), and where they are missing the phrase binds tightly enough for its
position.

A statement must not be taken for the rest of the one before it, nor for the value of a `return`.
This is where `separated` comes in (`mayPrecede_of_separated`).
-/

namespace Script

namespace Parser

variable {stop : Span}

/-- Parentheses make a phrase of every level of an expression, and it needs none if it binds tightly
enough. -/
theorem Phrase.parenthesized {form : Form} {span : Span} {tokens : List Token}
    (h : Phrase stop form.level tokens ⟨form, span⟩) (hform : form.isExpression = true)
    (extra : Nat) (position : Level) :
    Phrase stop position (Script.parenthesized (form.parens extra position) tokens)
      ⟨form, span⟩ := by
  have hatom : ∀ k, Phrase stop .atom (Script.parenthesized (k + 1) tokens) ⟨form, span⟩ := by
    intro k
    induction k with
    | zero => exact (h.lift (Nat.zero_le _)).paren
    | succ k ih => exact (ih.lift (Nat.zero_le _)).paren
  rw [Form.parens, if_pos hform]
  split
  · exact (hatom extra).lift (Level.rank_le_atom position)
  · cases extra with
    | zero => exact h.lift (by omega)
    | succ k => exact (hatom k).lift (Level.rank_le_atom position)

/-- Tokens, which may depend on the position, that are read as a tree in a role. -/
def Reads (stop : Span) (role : Role) (tokens : Level → List Token) (node : Node) : Prop :=
  match role with
  | .expression => ∀ position, Phrase stop position (tokens position) node
  | .statement => Statement stop (tokens .expression) node
  | .block => Braced stop (tokens .expression) node

/-- A phrase in parentheses is read as an expression and as a statement. -/
theorem Reads.of_phrase {role : Role} {form : Form} {span : Span} {tokens : List Token}
    {extra : Nat} (hform : form.isExpression = true) (hrole : role ≠ .block)
    (h : Phrase stop form.level tokens ⟨form, span⟩) :
    Reads stop role (fun position => Script.parenthesized (form.parens extra position) tokens)
      ⟨form, span⟩ := by
  cases role with
  | expression => exact h.parenthesized hform extra
  | statement =>
    refine .expression (h.parenthesized hform extra .expression) ?_
    cases form <;> simp_all [Form.isExpression, Form.isJump]
  | block => exact absurd rfl hrole

/-- A jump starts with its own word. -/
theorem startsExpression_of_isJump {extra : List Nat → Nat} {path : List Nat} {node : Node}
    {token : Token} (h : node.form.isJump = true)
    (hhead : (printAt extra .expression path node).head? = some token) :
    token.startsExpression = false := by
  obtain ⟨form, span⟩ := node
  cases form with
  | returning value =>
    cases value with
    | none =>
      cases hhead
      rfl
    | some value =>
      cases hhead
      rfl
  | breaking | continuing =>
    cases hhead
    rfl
  | _ => cases h

/-- What is separated may follow. -/
theorem mayPrecede_of_separated {extra : List Nat → Nat} {path : List Nat} {before : Form}
    {next : Node} {token : Token} (hstarts : token.startsStatement = true)
    (hhead : (printAt extra .expression path next).head? = some token)
    (h : separated before next.form (printAt extra .expression path next) = true) :
    before.mayPrecede token = true := by
  unfold separated at h
  unfold Form.mayPrecede
  split at h
  · show (!token.startsExpression) = true
    rw [startsExpression_of_isJump h hhead]
    rfl
  · rfl
  · rfl
  · have hgoesOn : token.goesOn = false := by simpa [hhead] using h
    have hjoins := Token.joins_eq_none hstarts hgoesOn
    split
    · contradiction
    · rfl
    · rfl
    · rw [hjoins]
      rfl

section

variable (stop : Span) (extra : List Nat → Nat)

mutual

/-- A node is read in the role that it has in a source. -/
theorem reads_node {role : Role} {path : List Nat} :
    (node : Node) → isSourceNode extra role path node = true →
      Reads stop role (fun position => printAt extra position path node) node
  | ⟨form, span⟩, h => by
    simp only [printAt]
    exact reads_form form span (extra path) h

/-- A form is read in the role that it has in a source. -/
theorem reads_form {role : Role} {path : List Nat} :
    (form : Form) → (span : Span) → (k : Nat) → isSourceForm extra role path form = true →
      Reads stop role (fun position =>
        parenthesized (form.parens k position) (printForm extra path form))
        ⟨form, span⟩
  | .number x, span, k, h => by
    exact .of_phrase rfl (by simpa [isSourceForm] using h) (.of_token rfl (fun _ _ _ => rfl) span)
  | .text s, span, k, h => by
    exact .of_phrase rfl (by simpa [isSourceForm] using h) (.of_token rfl (fun _ _ _ => rfl) span)
  | .null, span, k, h => by
    exact .of_phrase rfl (by simpa [isSourceForm] using h) (.of_token rfl (fun _ _ _ => rfl) span)
  | .var name, span, k, h => by
    exact .of_phrase rfl (by simpa [isSourceForm] using h) (.of_token rfl (fun _ _ _ => rfl) span)
  | .list items, span, k, h => by
    simp only [isSourceForm, Bool.and_eq_true, bne_iff_ne] at h
    exact .of_phrase rfl h.1 (.list (reads_items items h.2) span)
  | .assign name value, span, k, h => by
    simp only [isSourceForm, Bool.and_eq_true, bne_iff_ne] at h
    exact .of_phrase rfl h.1 (.assign (reads_node value h.2 .expression) span)
  | .binary left op right, span, k, h => by
    simp only [isSourceForm, Bool.and_eq_true, bne_iff_ne] at h
    obtain ⟨⟨hrole, hleft⟩, hright⟩ := h
    have hleft' := reads_node left hleft op.leftLevel
    have hright' := reads_node right hright op.rightLevel
    refine .of_phrase rfl hrole ?_
    -- Powers are the only operators that group to the right, and have a rule of their own.
    by_cases hop : op.level = .power
    · obtain rfl : op = .pow := by cases op <;> simp_all [BinaryOp.level]
      exact .power hleft' hright' span
    · exact .binary hop hleft' hright' span
  | .unary op operand, span, k, h => by
    simp only [isSourceForm, Bool.and_eq_true, bne_iff_ne] at h
    exact .of_phrase rfl h.1 (.unary (reads_node operand h.2 op.level) span)
  | .ternary cond yes no, span, k, h => by
    simp only [isSourceForm, Bool.and_eq_true, bne_iff_ne] at h
    obtain ⟨⟨⟨hrole, hcond⟩, hyes⟩, hno⟩ := h
    exact .of_phrase rfl hrole (.ternary (reads_node cond hcond .connective)
      (reads_node yes hyes .expression) (reads_node no hno .expression) span)
  | .index target place, span, k, h => by
    simp only [isSourceForm, Bool.and_eq_true, bne_iff_ne] at h
    obtain ⟨⟨hrole, htarget⟩, hplace⟩ := h
    exact .of_phrase rfl hrole (.index (reads_node target htarget .suffix)
      (reads_node place hplace .expression) span)
  -- No source is read as a conditional without an arm.
  | .ifElse [] otherwise, span, k, h => by
    simp [isSourceForm] at h
  | .ifElse (⟨cond, body⟩ :: arms) otherwise, span, k, h => by
    simp only [isSourceForm, isSourceArms, Bool.and_eq_true, bne_iff_ne] at h
    obtain ⟨⟨⟨hrole, -⟩, ⟨hcond, hbody⟩, harms⟩, hotherwise⟩ := h
    have hphrase := Phrase.ifElse (reads_node cond hcond .expression) (reads_node body hbody)
      (reads_arms arms harms) (reads_block otherwise hotherwise) span
    refine .of_phrase rfl hrole ?_
    simpa [printForm, printArms, Form.level] using hphrase
  | .whileLoop cond body, span, k, h => by
    simp only [isSourceForm, Bool.and_eq_true, bne_iff_ne] at h
    obtain ⟨⟨hrole, hcond⟩, hbody⟩ := h
    refine .of_phrase rfl hrole ?_
    exact .whileLoop (reads_node cond hcond .expression) (reads_node body hbody) span
  | .forLoop name first last step body, span, k, h => by
    simp only [isSourceForm, Bool.and_eq_true, bne_iff_ne] at h
    obtain ⟨⟨⟨⟨hrole, hfirst⟩, hlast⟩, hstep⟩, hbody⟩ := h
    exact .of_phrase rfl hrole (.forLoop (reads_node first hfirst .expression)
      (reads_node last hlast .expression) (reads_step step hstep) (reads_node body hbody) span)
  | .function ⟨name, params, body, true⟩, span, k, h => by
    simp only [isSourceForm, isSourceDefinition, Bool.and_eq_true, bne_iff_ne, if_true] at h
    exact .of_phrase rfl h.1 (.functionExpression (reads_node body h.2 .expression) span)
  | .function ⟨name, params, body, false⟩, span, k, h => by
    simp only [isSourceForm, isSourceDefinition, Bool.and_eq_true, bne_iff_ne, Bool.false_eq_true,
      if_false] at h
    exact .of_phrase rfl h.1 (.functionBlock (reads_node body h.2) span)
  | .call callee args, span, k, h => by
    simp only [isSourceForm, Bool.and_eq_true, bne_iff_ne] at h
    obtain ⟨⟨hrole, hcallee⟩, hargs⟩ := h
    exact .of_phrase rfl hrole
      (.call (reads_node callee hcallee .suffix) (reads_items args hargs) span)
  -- These stand as statements only, where no parentheses are put around them.
  | .returning none, span, k, h => by
    simp only [isSourceForm, Bool.and_eq_true, beq_iff_eq] at h
    rw [h.1]
    exact .returnNothing span
  | .returning (some value), span, k, h => by
    simp only [isSourceForm, isSourceOption, Bool.and_eq_true, beq_iff_eq] at h
    rw [h.1]
    exact .returnValue (reads_node value h.2 .expression) span
  | .breaking, span, k, h => by
    simp only [isSourceForm, beq_iff_eq] at h
    rw [h]
    exact .breaking span
  | .continuing, span, k, h => by
    simp only [isSourceForm, beq_iff_eq] at h
    rw [h]
    exact .continuing span
  | .block statements, span, k, h => by
    simp only [isSourceForm, Bool.and_eq_true, beq_iff_eq] at h
    rw [h.1]
    exact .block (reads_statements statements h.2) span

/-- Items are read. -/
theorem reads_items {path : List Nat} {position : Nat} :
    (items : List Node) → isSourceItems extra path position items = true →
      Items stop (printItems extra path position items) items
  | [], _ => .nil
  | item :: items, h => by
    simp only [isSourceItems, Bool.and_eq_true] at h
    exact .cons (reads_node item h.1 .expression) (reads_items items h.2)

/-- The arms behind the first one are read. -/
theorem reads_arms {path : List Nat} {position : Nat} :
    (arms : List Arm) → isSourceArms extra path position arms = true →
      Arms stop (printArms extra .elif path position arms) arms
  | [], _ => .nil
  | ⟨cond, body⟩ :: arms, h => by
    simp only [isSourceArms, Bool.and_eq_true] at h
    exact .cons (reads_node cond h.1.1 .expression) (reads_node body h.1.2) (reads_arms arms h.2)

/-- The last block of an `if` is read. -/
theorem reads_block {path : List Nat} :
    (node : Option Node) → isSourceOption extra .block path node = true →
      Marked .else (Braced stop) (printMarked extra .else path node) node
  | none, _ => .absent
  | some node, h => .present (reads_node node h)

/-- The step of a `for` is read. -/
theorem reads_step {path : List Nat} :
    (node : Option Node) → isSourceOption extra .expression path node = true →
      Marked .by (Phrase stop .expression) (printMarked extra .by path node) node
  | none, _ => .absent
  | some node, h => .present (reads_node node h .expression)

/-- Statements are read. -/
theorem reads_statements {path : List Nat} {position : Nat} :
    (nodes : List Node) → isSourceStatements extra path position nodes = true →
      Statements stop (printStatements extra path position nodes) nodes
  | [], _ => .nil
  | [node], h => by
    simp only [isSourceStatements, Bool.and_eq_true] at h
    exact .cons (reads_node node h.1.1) nofun .nil
  | node :: next :: nodes, h => by
    rw [isSourceStatements, Bool.and_eq_true, Bool.and_eq_true] at h
    obtain ⟨⟨hnode, hseparated⟩, hnodes⟩ := h
    have hnext : Statement stop (printAt extra .expression ((position + 1) :: path) next) next := by
      rw [isSourceStatements, Bool.and_eq_true, Bool.and_eq_true] at hnodes
      exact reads_node next hnodes.1.1
    refine .cons (reads_node node hnode) ?_ (reads_statements (next :: nodes) hnodes)
    intro token hhead
    obtain ⟨first, others, htokens, hfirst⟩ := hnext.starts
    rw [printStatements, htokens, List.cons_append, List.head?_cons, Option.some.injEq] at hhead
    subst hhead
    exact mayPrecede_of_separated hfirst (by rw [htokens, List.head?_cons]) hseparated

end

end

end Parser

/-! ## Programs -/

theorem BinaryOp.token_ne_eof (op : BinaryOp) : Token.eof ≠ op.token := by
  cases op <;> simp [token]

theorem UnaryOp.token_ne_eof (op : UnaryOp) : Token.eof ≠ op.token := by
  cases op <;> simp [token]

theorem eof_not_mem_parenthesized {tokens : List Token} (h : Token.eof ∉ tokens) (k : Nat) :
    Token.eof ∉ parenthesized k tokens := by
  induction k with
  | zero => exact h
  | succ k ih => simp [parenthesized, ih]

theorem eof_not_mem_printNames (names : List String) : Token.eof ∉ printNames names := by
  cases names with
  | nil => simp [printNames]
  | cons name names => simp [Parser.printNames_cons]

section

variable (extra : List Nat → Nat)

mutual

/-- No tree is written with an end of the input in it. -/
theorem eof_not_mem_printAt (position : Level) (path : List Nat) :
    (node : Node) → Token.eof ∉ printAt extra position path node
  | ⟨form, _⟩ => by
    rw [printAt]
    exact eof_not_mem_parenthesized (eof_not_mem_printForm path form) _

/-- A form is printed without an end marker. -/
theorem eof_not_mem_printForm (path : List Nat) :
    (form : Form) → Token.eof ∉ printForm extra path form
  | .number _ | .text _ | .null | .var _ | .breaking | .continuing | .returning none => by
    simp [printForm]
  | .list items => by
    simp [printForm, eof_not_mem_printItems path 0 items]
  | .assign _ value => by
    simp [printForm, eof_not_mem_printAt _ _ value]
  | .binary left op right => by
    simp [printForm, eof_not_mem_printAt _ _ left, eof_not_mem_printAt _ _ right, op.token_ne_eof]
  | .unary op operand => by
    simp [printForm, eof_not_mem_printAt _ _ operand, op.token_ne_eof]
  | .ternary cond yes no => by
    simp [printForm, eof_not_mem_printAt _ _ cond, eof_not_mem_printAt _ _ yes,
      eof_not_mem_printAt _ _ no]
  | .index target place => by
    simp [printForm, eof_not_mem_printAt _ _ target, eof_not_mem_printAt _ _ place]
  | .ifElse arms otherwise => by
    simp [printForm, eof_not_mem_printArms _ path 0 arms, eof_not_mem_printMarked _ _ otherwise]
  | .whileLoop cond body => by
    simp [printForm, eof_not_mem_printAt _ _ cond, eof_not_mem_printAt _ _ body]
  | .forLoop _ first last step body => by
    simp [printForm, eof_not_mem_printAt _ _ first, eof_not_mem_printAt _ _ last,
      eof_not_mem_printMarked _ _ step, eof_not_mem_printAt _ _ body]
  | .function ⟨name, params, body, isExpression⟩ => by
    cases name <;> cases isExpression <;>
      simp [printForm, printDefinition, eof_not_mem_printNames params, eof_not_mem_printAt _ _ body]
  | .call callee args => by
    simp [printForm, eof_not_mem_printAt _ _ callee, eof_not_mem_printItems path 1 args]
  | .returning (some value) => by
    simp [printForm, eof_not_mem_printAt _ _ value]
  | .block statements => by
    simp [printForm, eof_not_mem_printStatements path 0 statements]

/-- Items are printed without an end marker. -/
theorem eof_not_mem_printItems (path : List Nat) (position : Nat) :
    (items : List Node) → Token.eof ∉ printItems extra path position items
  | [] => by simp [printItems]
  | item :: items => by
    rw [printItems]
    split <;> simp [eof_not_mem_printAt _ _ item, eof_not_mem_printItems path (position + 1) items]

/-- Arms are printed without an end marker. -/
theorem eof_not_mem_printArms (word : Keyword) (path : List Nat) (position : Nat) :
    (arms : List Arm) → Token.eof ∉ printArms extra word path position arms
  | [] => by simp [printArms]
  | ⟨cond, body⟩ :: arms => by
    simp [printArms, eof_not_mem_printAt _ _ cond, eof_not_mem_printAt _ _ body,
      eof_not_mem_printArms .elif path (position + 2) arms]

theorem eof_not_mem_printMarked (word : Keyword) (path : List Nat) :
    (node : Option Node) → Token.eof ∉ printMarked extra word path node
  | none => by simp [printMarked]
  | some node => by simp [printMarked, eof_not_mem_printAt _ _ node]

/-- Statements are printed without an end marker. -/
theorem eof_not_mem_printStatements (path : List Nat) (position : Nat) :
    (nodes : List Node) → Token.eof ∉ printStatements extra path position nodes
  | [] => by simp [printStatements]
  | node :: nodes => by
    simp [printStatements, eof_not_mem_printAt _ _ node,
      eof_not_mem_printStatements path (position + 1) nodes]

end

end

/-- The end of the input is found behind lexemes that do not contain one. -/
theorem takeWhile_of_eof_not_mem {lexemes : List Lexeme} {tokens : List Token}
    (hmap : lexemes.map Lexeme.token = tokens) (h : Token.eof ∉ tokens) (marker : Span) :
    (lexemes ++ [Lexeme.mk .eof marker]).takeWhile (fun l => !l.token.isEof) = lexemes := by
  have hall : ∀ lexeme ∈ lexemes, (!lexeme.token.isEof) = true := by
    intro lexeme hmem
    have hne : lexeme.token ≠ .eof := fun heof => h (hmap ▸ heof ▸ List.mem_map_of_mem hmem)
    cases htoken : lexeme.token <;> simp_all [Token.isEof]
  rw [List.takeWhile_append_of_pos hall]
  simp [Token.isEof]

/-- Reading undoes writing. A tree in the form of a source, written with whatever parentheses the
positions of its parts ask for and any more of them, is read back as the same tree, and nothing but
the places of its parts depends on where its tokens stand. -/
theorem parse_print (extra : List Nat → Nat) (tree : Node) (htree : tree.isSource extra = true)
    (lexemes : List Lexeme) (hlexemes : lexemes.map Lexeme.token = tree.print extra)
    (marker : Span) :
    ∃ tree', parse (lexemes ++ [⟨.eof, marker⟩]) = .ok tree' ∧ tree'.bare = tree.bare := by
  obtain ⟨form, span⟩ := tree
  cases form with
  | block statements =>
    have hstatements : isSourceStatements extra [] 0 statements = true := htree
    have hahead := takeWhile_of_eof_not_mem hlexemes
      (eof_not_mem_printStatements extra [] 0 statements) marker
    obtain ⟨tree', hbare, hread⟩ := (Parser.reads_statements
      (endSpan (lexemes ++ [⟨.eof, marker⟩])) extra statements hstatements).program none hlexemes
    refine ⟨tree', ?_, hbare⟩
    rw [parse_eq_predicted, parsePredictively, hahead]
    simp only [hread]
  | _ => simp [Node.isSource, isSourceNode, isSourceForm] at htree

/-- `set x = (a - (b - c)) ^ -(d) ^ e` and a `return` behind it: the inner difference needs its
parentheses and `d` does not, and the sign takes the whole power on its right. -/
theorem parse_print_nested_power :
    let node : Form → Node := fun form => ⟨form, default⟩
    let name : String → Node := fun s => node (.var s)
    let base := node (.binary (name "a") .sub (node (.binary (name "b") .sub (name "c"))))
    let exponent := node (.unary .neg (node (.binary (name "d") .pow (name "e"))))
    let tree := node (.block [node (.assign "x" (node (.binary base .pow exponent))),
      node (.returning none)])
    let extra : List Nat → Nat := fun path => if path = [0, 0, 1, 0, 0] then 1 else 0
    let tokens : List Token :=
      [.keyword .set, .identifier "x", .operator .assign, .operator .openParen, .identifier "a",
        .operator .minus, .operator .openParen, .identifier "b", .operator .minus, .identifier "c",
        .operator .closeParen, .operator .closeParen, .operator .caret, .operator .minus,
        .operator .openParen, .identifier "d", .operator .closeParen, .operator .caret,
        .identifier "e", .keyword .return]
    tree.isSource extra = true ∧ tokens = tree.print extra ∧
      ∃ tree', parse (tokens.map (fun token => ⟨token, default⟩) ++ [⟨.eof, default⟩]) = .ok tree' ∧
        tree'.bare = tree.bare := by
  intro node name base exponent tree extra tokens
  exact ⟨rfl, rfl, parse_print extra tree rfl _ rfl default⟩

end Script
