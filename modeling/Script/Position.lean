/-!
# Places in a source text

A `Position` names a point of a source three ways at once: the byte offset, the line and the column.
A `Span` is the stretch between two positions. Everything the front end produces carries spans, so
that a failure can be traced back to the text it came from.

* `Position.advance` moves past one character, `Position.advanceAll` past a run of them.
* `Span.merge` is the smallest span that starts and ends where its two arguments do.
-/

namespace Script

/-- A point in a source text. Lines are counted from one; columns, in characters, from zero. -/
structure Position where
  /-- Byte offset in the UTF-8 encoding of the source. -/
  index : Nat
  /-- Number of the line, the first being 1. -/
  line : Nat
  /-- Number of characters before this point on its line. -/
  column : Nat
deriving DecidableEq, Repr, Inhabited

namespace Position

/-- The point before the first character of a source. -/
def start : Position := ⟨0, 1, 0⟩

/-- The point after `c`. Only a line feed starts a new line. -/
def advance (p : Position) (c : Char) : Position :=
  if c = '\n' then ⟨p.index + c.utf8Size, p.line + 1, 0⟩
  else ⟨p.index + c.utf8Size, p.line, p.column + 1⟩

/-- The point after all of `cs`. -/
def advanceAll (p : Position) (cs : List Char) : Position :=
  cs.foldl advance p

@[simp]
theorem advanceAll_nil (p : Position) : p.advanceAll [] = p := rfl

@[simp]
theorem advanceAll_cons (p : Position) (c : Char) (cs : List Char) :
    p.advanceAll (c :: cs) = (p.advance c).advanceAll cs := rfl

theorem advanceAll_append (p : Position) (cs ds : List Char) :
    p.advanceAll (cs ++ ds) = (p.advanceAll cs).advanceAll ds :=
  List.foldl_append

/-- A position as people count: line and column both from one. -/
def display (p : Position) : String :=
  toString p.line ++ ":" ++ toString (p.column + 1)

end Position

/-- A stretch of source text. -/
structure Span where
  /-- Where the stretch starts. -/
  start : Position
  /-- The point after its last character. -/
  stop : Position
deriving DecidableEq, Repr, Inhabited

namespace Span

/-- The empty stretch at a point. -/
def empty (p : Position) : Span := ⟨p, p⟩

/-- The stretch from the earlier start to the later end; the first span's ends win ties. -/
def merge (s t : Span) : Span where
  start := if t.start.index < s.start.index then t.start else s.start
  stop := if s.stop.index < t.stop.index then t.stop else s.stop

/-- A span is shown as the place where it starts. -/
def display (s : Span) : String := s.start.display

@[simp]
theorem merge_self (s : Span) : s.merge s = s := by
  simp [merge]

end Span

end Script
