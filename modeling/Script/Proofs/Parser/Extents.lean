import Script.Proofs.Parser.Blocks

/-!
# Extents

Every node of a tree was read from lexemes that stand next to each other. Its span reaches from the
first of them to the last (`Span.Over`). Read on their own they are the node again, and the nodes
below it were read from some of them, each from its own ones and in their order. `Laid` says so of a
node and, since it says it of its children too, of the whole tree below it.

Blocks are the exception: they are no statements, so there is no way to read them on their own.
-/

namespace Script

/-- Lexemes that stand one behind the other, each of which takes up room. -/
structure Apart (lexemes : List Lexeme) : Prop where
  nonempty : ∀ l ∈ lexemes, l.span.start.index < l.span.stop.index
  ordered : lexemes.Pairwise fun l m => l.span.stop.index ≤ m.span.start.index

namespace Apart

variable {front back : List Lexeme}

theorem left (h : Apart (front ++ back)) : Apart front where
  nonempty := fun l hl => h.nonempty l (List.mem_append_left back hl)
  ordered := (List.pairwise_append.mp h.ordered).1

theorem right (h : Apart (front ++ back)) : Apart back where
  nonempty := fun l hl => h.nonempty l (List.mem_append_right front hl)
  ordered := (List.pairwise_append.mp h.ordered).2.1

theorem tail {first : Lexeme} (h : Apart (first :: back)) : Apart back :=
  @Apart.right [first] back h

/-- A front of lexemes that stand apart stands apart. -/
theorem of_eq {lexemes : List Lexeme} (h : Apart lexemes) (back : List Lexeme)
    (heq : lexemes = front ++ back) : Apart front :=
  (heq ▸ h).left

/-- A lexeme ends before a later one starts. -/
theorem stop_le_start (h : Apart (front ++ back)) {l m : Lexeme} (hl : l ∈ front) (hm : m ∈ back) :
    l.span.stop.index ≤ m.span.start.index :=
  (List.pairwise_append.mp h.ordered).2.2 l hl m hm

end Apart

/-- The span reaches from the first one of some lexemes to the last. -/
structure Span.Over (span : Span) (lexemes : List Lexeme) : Prop where
  start : ∃ first others, lexemes = first :: others ∧ first.span.start = span.start
  stop : ∃ others last, lexemes = others ++ [last] ∧ last.span.stop = span.stop

namespace Span.Over

/-- A lexeme is under its own span. -/
theorem single (l : Lexeme) : l.span.Over [l] :=
  ⟨⟨l, [], rfl, rfl⟩, ⟨[], l, rfl, rfl⟩⟩

/-- Two spans are merged to the one over all that is under them and between them. -/
theorem merge {s t : Span} {own left right : List Lexeme} (hs : s.Over left) (ht : t.Over right)
    (middle : List Lexeme) (hown : own = left ++ (middle ++ right)) (hapart : Apart own) :
    (s.merge t).Over own := by
  obtain ⟨⟨first, others, hfirst, hstart⟩, ⟨front, mid, hmid, hstop⟩⟩ := hs
  obtain ⟨⟨first', others', hfirst', hstart'⟩, ⟨front', last, hlast, hstop'⟩⟩ := ht
  subst hown
  have hleft : ∀ l ∈ left, ∀ m ∈ right, l.span.stop.index ≤ m.span.start.index := fun l hl m hm =>
    hapart.stop_le_start hl (List.mem_append_right middle hm)
  have hfirst_mem : first ∈ left := hfirst ▸ List.mem_cons_self
  have hmid_mem : mid ∈ left := hmid ▸ List.mem_append_right front (List.mem_singleton_self mid)
  have hfirst_mem' : first' ∈ right := hfirst' ▸ List.mem_cons_self
  have hlast_mem : last ∈ right :=
    hlast ▸ List.mem_append_right front' (List.mem_singleton_self last)
  constructor
  · refine ⟨first, others ++ (middle ++ right), by rw [hfirst, List.cons_append], ?_⟩
    have hroom := hapart.nonempty first (List.mem_append_left _ hfirst_mem)
    have hle := hleft first hfirst_mem first' hfirst_mem'
    show first.span.start = if t.start.index < s.start.index then t.start else s.start
    rw [← hstart, ← hstart', if_neg (by omega)]
  · refine ⟨left ++ (middle ++ front'), last, by simp [hlast], ?_⟩
    have hroom := hapart.nonempty last
      (List.mem_append_right _ (List.mem_append_right middle hlast_mem))
    have hle := hleft mid hmid_mem last hlast_mem
    show last.span.stop = if s.stop.index < t.stop.index then t.stop else s.stop
    rw [← hstop, ← hstop', if_pos (by omega)]

/-- A span that starts at a lexeme ends where another one further on does. -/
theorem merge_first {token : Token} {place t : Span} {middle right : List Lexeme}
    (ht : t.Over right) (hapart : Apart (⟨token, place⟩ :: (middle ++ right))) :
    (place.merge t).Over (⟨token, place⟩ :: (middle ++ right)) :=
  merge (single ⟨token, place⟩) ht middle rfl hapart

/-- A span that lexemes take up has some of them. -/
theorem ne_nil {span : Span} {lexemes : List Lexeme} (h : span.Over lexemes) : lexemes ≠ [] := by
  obtain ⟨first, others, rfl, -⟩ := h.start
  exact List.cons_ne_nil first others

end Span.Over

/-- The node is part of a tree: the whole of it, or part of one of its children. -/
inductive Node.Within (inner : Node) : Node → Prop
  | refl : Within inner inner
  | child {child node : Node} (hchild : child ∈ node.children) (h : Within inner child) :
      Within inner node

/-- What is in a tree is the tree itself or in a child of it. -/
theorem Node.within_mk {inner : Node} {form : Form} {span : Span} :
    inner.Within ⟨form, span⟩ ↔ inner = ⟨form, span⟩ ∨
      ∃ child ∈ form.children, inner.Within child := by
  constructor
  · intro h
    cases h with
    | refl => exact .inl rfl
    | child hchild h => exact .inr ⟨_, hchild, h⟩
  · rintro (rfl | ⟨child, hchild, h⟩)
    · exact .refl
    · exact .child hchild h

namespace Parser

mutual

/-- The lexemes are those that a node was read from. -/
inductive Laid : List Lexeme → Node → Prop
  | intro {own : List Lexeme} {node : Node} (hover : node.span.Over own)
      (hread : (∀ nodes, node.form ≠ .block nodes) →
        ∀ stop, Statement stop (own.map Lexeme.token) node)
      (hchildren : Arranged own node.children) : Laid own node

/-- Each of several nodes was read from some of the lexemes, each from its own ones and in their
order. -/
inductive Arranged : List Lexeme → List Node → Prop
  | nil (own : List Lexeme) : Arranged own []
  | cons (gap : List Lexeme) {own part rest : List Lexeme} {node : Node} {nodes : List Node}
      (hown : own = gap ++ (part ++ rest)) (hnode : Laid part node) (hnodes : Arranged rest nodes) :
      Arranged own (node :: nodes)

end

namespace Laid

variable {own : List Lexeme} {node : Node}

/-- A node that is laid over lexemes has their span. -/
theorem span_over (h : Laid own node) : node.span.Over own := by
  cases h with
  | intro hover => exact hover

/-- A node that is laid over lexemes is read from their tokens. -/
theorem statement (h : Laid own node) (hform : ∀ nodes, node.form ≠ .block nodes) (stop : Span) :
    Statement stop (own.map Lexeme.token) node := by
  cases h with
  | intro _ hread => exact hread hform stop

/-- The children of a node that is laid over lexemes are arranged among these. -/
theorem children (h : Laid own node) : Arranged own node.children := by
  cases h with
  | intro _ _ hchildren => exact hchildren

end Laid

namespace Arranged

variable {own : List Lexeme} {node : Node} {nodes : List Node}

/-- One node that was read from the last lexemes. -/
theorem single (gap : List Lexeme) {part : List Lexeme} (h : Laid part node) :
    Arranged (gap ++ part) [node] :=
  .cons gap (by rw [List.append_nil]) h (.nil [])

/-- More lexemes in front do not matter. -/
theorem weaken (h : Arranged own nodes) (gap : List Lexeme) : Arranged (gap ++ own) nodes := by
  cases h with
  | nil => exact .nil _
  | cons gap' hown hnode hnodes =>
    exact .cons (gap ++ gap') (by rw [hown, List.append_assoc]) hnode hnodes

/-- Nodes that are arranged one after the other are arranged together. -/
theorem append {own' : List Lexeme} {nodes' : List Node} (h : Arranged own nodes)
    (h' : Arranged own' nodes') : Arranged (own ++ own') (nodes ++ nodes') := by
  induction nodes generalizing own with
  | nil => exact h'.weaken own
  | cons node nodes ih =>
    cases h with
    | cons gap hown hnode hnodes =>
      refine .cons gap ?_ hnode (ih hnodes)
      rw [hown, List.append_assoc, List.append_assoc]

/-- Nor do more lexemes behind. -/
theorem extend (h : Arranged own nodes) (more : List Lexeme) : Arranged (own ++ more) nodes := by
  simpa using h.append (.nil more)

/-- Each of the arranged nodes is laid over a stretch of the lexemes. -/
theorem exists_of_mem (h : Arranged own nodes) (hmem : node ∈ nodes) :
    ∃ before part after, own = before ++ (part ++ after) ∧ Laid part node := by
  induction nodes generalizing own with
  | nil => cases hmem
  | cons other nodes ih =>
    cases h with
    | @cons gap _ part rest _ _ hown hother hnodes =>
      rcases List.mem_cons.mp hmem with rfl | hmem
      · exact ⟨gap, part, rest, hown, hother⟩
      · obtain ⟨before, part', after, rfl, hnode⟩ := ih hnodes hmem
        exact ⟨gap ++ (part ++ before), part', after, by simp [hown], hnode⟩

end Arranged

/-- A node inside of a tree was read from some of the lexemes that the tree was read from. -/
theorem Laid.exists_of_within {own : List Lexeme} {node inner : Node} (h : Laid own node)
    (hinner : inner.Within node) :
    ∃ before part after, own = before ++ (part ++ after) ∧ Laid part inner := by
  induction hinner generalizing own with
  | refl => exact ⟨[], own, [], by simp, h⟩
  | child hchild _ ih =>
    obtain ⟨before, part, after, rfl, hpart⟩ := h.children.exists_of_mem hchild
    obtain ⟨before', part', after', rfl, hinner⟩ := ih hpart
    exact ⟨before ++ before', part', after' ++ after, by simp, hinner⟩

end Parser

end Script
