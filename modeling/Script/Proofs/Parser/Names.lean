import Script.Proofs.Machine.Frame
import Script.Proofs.Parser.Cursor
import Script.Proofs.Token.Display
import Script.Proofs.Token.Tiling

/-!
# Names come from the source

The names that a program assigns to stand in its source, so they are made of the characters that the
lexer takes for those of a name (`isWord_of_parseSource`).

What a form assigns to is its own name or one of those below it (`Form.mem_assigned_iff`). So a
matching with any node whose names are known (`Parser.Matching.assigning`) is closed under forms,
and the rules of the grammar respect it.
-/

namespace Script

/-- `P` holds of all names that a node assigns to. -/
def Node.Assigns (P : String → Prop) (node : Node) : Prop := ∀ name ∈ node.assigned, P name

namespace Parser

/-- What is read assigns only to names that stand ahead, of all of which `P` holds. -/
def Matching.assigning (P : String → Prop) : Matching where
  names := P
  spans _ _ := True
  nodes node _ := node.Assigns P
  merge _ _ := trivial
  span _ := trivial
  node hform hnamed _ name hname := by
    rcases Form.mem_assigned_iff.mp hname with hname | ⟨child, hchild, hname⟩
    · exact hnamed name hname
    · have hbelow := hform.children.imp fun _ _ h => And.intro h trivial
      exact ((List.forall₂_and_left _ _).mp hbelow).1 child (Form.mem_children hchild) name hname
  widen {node _ _ _} h _ := by
    obtain ⟨form, span⟩ := node
    exact h

end Parser

/-- The names that a program assigns to are among those of its lexemes. -/
theorem assigns_of_parse {P : String → Prop} {lexemes : List Lexeme} {tree : Node}
    (h : parse lexemes = .ok tree) (hnames : Parser.NamesAhead P lexemes) : tree.Assigns P := by
  simp only [parse] at h
  split at h
  · next node s hrun =>
    cases h
    have hahead : Parser.NamesAhead P (lexemes.takeWhile fun l => !l.token.isEof) :=
      fun lexeme hmem => hnames lexeme ((List.takeWhile_sublist _).mem hmem)
    rw [Parser.parseGoal_eq_goalAt] at hrun
    have hrel :=
      Parser.sequenceRelation_yields (M := .assigning P) (fun _ => trivial) (endSpan lexemes)
    obtain ⟨_, hnode⟩ := (hrel.program_goalAt _ ⟨_, none⟩ rfl hahead).2 _ _ hrun
    exact hnode
  · cases h

/-! ## Words -/

/-- What is read as a name is a word. -/
theorem isWord_of_mem_tokenize {source : String} {lexemes : List Lexeme}
    (h : tokenize source = .ok lexemes) :
    Parser.NamesAhead (fun name => isWord name.toList) lexemes := by
  intro lexeme hmem name hname
  obtain ⟨found, hfound, rfl⟩ := tiles_of_tokenizeFrom h
  rw [List.reverse_nil, List.nil_append, List.mem_append, List.mem_singleton] at hmem
  rcases hmem with hmem | rfl
  · obtain ⟨_, _, _, -, -, hlongest⟩ := hfound.exists_of_mem hmem
    have hdenotes := hlongest.denotes
    rw [hname] at hdenotes
    cases hdenotes with
    | name hc hcs _ => rw [String.toList_ofList, isWord, hc, List.all_eq_true.2 hcs, Bool.and_self]
  · cases hname

/-- A program assigns to words only. -/
theorem isWord_of_parseSource {source : String} {tree : Node} (h : parseSource source = .ok tree) :
    tree.Assigns fun name => isWord name.toList := by
  unfold parseSource at h
  cases hlexemes : tokenize source with
  | error e =>
    rw [hlexemes] at h
    cases h
  | ok lexemes =>
    rw [hlexemes] at h
    exact assigns_of_parse h (isWord_of_mem_tokenize hlexemes)

end Script
