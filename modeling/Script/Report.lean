import Script.Fault
import Script.Text.WhiteSpace
import Script.Text.Width

/-!
# Reports

A report shows an error below its title with the source line it is about and the culprit underlined:

```text
Error: Runtime Error
   ╭─[ name:1:1 ]
   │
 1 │ 1 / 0
   │ ──┬──  
   │   ╰──── Can't divide by zero
───╯
```

A culprit that goes over several lines is held by an arrow in the margin instead.

## Counting

Spans count bytes, while a report counts characters. The byte offsets of a span are taken as offsets
of characters all the same, so after a character of several bytes the marks stand too far to the
right. A culprit that ends up behind the end of the source is not shown at all, and one that ends up
behind the end of its line is not drawn.

Lines end at every character that ends a line in any system, not only where positions start a new
line.
-/

namespace Script.Report

/-! ## Lines of a source -/

/-- Characters that end a line. -/
def isLineEnd (c : Char) : Bool :=
  c = '\n' || c = '\r' || c = '\x0b' || c = '\x0c' || c = '\u0085' || c = '\u2028'
    || c = '\u2029'

/-- The lines of a source, each with the characters that end it. The line so far is `current`, last
character first. A line end at the end of the source does not start another line. -/
def splitLines (current : List Char) : List Char → List (List Char)
  | [] => if current = [] then [] else [current.reverse]
  | '\r' :: '\n' :: cs => ('\n' :: '\r' :: current).reverse :: splitLines [] cs
  | c :: cs =>
    if isLineEnd c then (c :: current).reverse :: splitLines [] cs
    else splitLines (c :: current) cs

/-- The lines of a source make up the source. -/
theorem flatten_splitLines (current cs : List Char) :
    (splitLines current cs).flatten = current.reverse ++ cs := by
  fun_induction splitLines current cs with
  | case1 => simp
  | case2 => simp
  | case3 current cs ih => simp [ih]
  | case4 current c cs _ _ ih => simp [ih]
  | case5 current c cs _ _ ih => simp [ih]

/-- A line of a source. -/
structure Line where
  /-- How many lines come before it. -/
  index : Nat
  /-- How many characters come before it. -/
  offset : Nat
  /-- Its characters, with those that end it. -/
  chars : List Char

namespace Line

/-- Where the next line starts. -/
def stop (line : Line) : Nat := line.offset + line.chars.length

/-- The line after a line. -/
def next (line : Line) (chars : List Char) : Line := ⟨line.index + 1, line.stop, chars⟩

/-- What is shown of a line. -/
def shown (line : Line) : List Char := Text.trimEnd line.chars

end Line

/-- The line that holds an offset: the last one of `line` and those after it that starts at or
before the offset. -/
def seek (offset : Nat) (line : Line) : List (List Char) → Line
  | [] => line
  | chars :: rest => if line.stop ≤ offset then seek offset (line.next chars) rest else line

/-- The line of a source that holds an offset. -/
def lineAt (source : List Char) (offset : Nat) : Line :=
  match splitLines [] source with
  | [] => ⟨0, 0, []⟩
  | first :: rest => seek offset ⟨0, 0, first⟩ rest

/-! ## Drawing characters -/

/-- How a character in the given column is drawn, and how wide. A tab goes to the next multiple of
four. -/
def glyph (column : Nat) (c : Char) : Char × Nat :=
  if c = '\t' then (' ', 4 - column % 4)
  else if Text.isWhiteSpace c then (' ', 1)
  else (c, Text.columns c)

/-- Characters as they are drawn from the given column on. -/
def drawText (column : Nat) : List Char → List Char
  | [] => []
  | c :: cs =>
    let (drawn, width) := glyph column c
    (if drawn = ' ' then List.replicate width ' ' else [drawn]) ++ drawText (column + 1) cs

/-- What stands below one column: the first mark, and the one that fills up the width. -/
abbrev Mark := Char × Char

/-- Marks below `n` columns of a line, starting at the given one; `above` are the characters from
there on. A column is as wide as the character above it. -/
def drawMarks (mark : Nat → Mark) : Nat → Nat → List Char → List Char
  | 0, _, _ => []
  | n + 1, column, above =>
    let width :=
      match above with
      | c :: _ => (glyph column c).2
      | [] => 1
    let (first, tail) := mark column
    (first :: List.replicate (width - 1) tail) ++ drawMarks mark n (column + 1) above.tail

/-! ## The culprit -/

/-- The stretch of a source that a report is about, in characters. -/
structure Culprit where
  /-- The offset of the first character. -/
  start : Nat
  /-- The offset after the last character. -/
  stop : Nat

namespace Culprit

/-- The culprit of a span. It does not go beyond the length of the source in bytes. -/
def ofSpan (source : String) (span : Span) : Culprit :=
  ⟨min span.start.index source.utf8ByteSize, min span.stop.index source.utf8ByteSize⟩

/-- The offset of the last character, or the place of a culprit that has none. -/
def last (culprit : Culprit) : Nat := max culprit.start (culprit.stop - 1)

/-- Whether a culprit lies within a source of the given length. -/
def isWithin (culprit : Culprit) (length : Nat) : Bool :=
  culprit.start ≤ length && culprit.last ≤ length

end Culprit

/-- The mark under a column, for a culprit between two columns of a line. -/
def underline (start stop middle column : Nat) : Mark :=
  let inside := start ≤ column && column < stop
  if column = middle then (if inside then ('┬', '─') else ('│', ' '))
  else if inside then ('─', '─')
  else (' ', ' ')

/-- The mark of a column below the underline, where the message hangs. -/
def hook (middle column : Nat) : Mark :=
  if column = middle then ('╰', '─')
  else if middle < column then ('─', '─')
  else (' ', ' ')

/-! ## The lines of a report -/

/-- A line of blanks. -/
def blanks (n : Nat) : List Char := List.replicate n ' '

/-- The margin of a line without number. -/
def margin (width : Nat) : List Char := blanks (width + 2) ++ ['│', ' ']

/-- The margin of a source line. -/
def numbered (width : Nat) (line : Line) : List Char :=
  let number := Number.Decimal.digits (line.index + 1)
  ' ' :: blanks (width - number.length) ++ number ++ [' ', '│', ' ']

/-- The lines for a culprit within one line. -/
def inlineLines (width : Nat) (culprit : Culprit) (line : Line) (message : List Char) :
    List (List Char) :=
  if line.stop < culprit.stop then [margin width]
  else
    let start := culprit.start - line.offset
    let stop := culprit.stop - line.offset
    let middle := (start + stop) / 2
    let marks (mark : Nat → Mark) := drawMarks mark (stop + 2) 0 line.shown
    [numbered width line ++ drawText 0 line.shown,
      margin width ++ marks (underline start stop middle),
      margin width ++ marks (hook middle) ++ ' ' :: message]

/-- The lines for a culprit over several lines. Lines between the first and the last are left
out. -/
def multilineLines (width : Nat) (first last : Line) (message : List Char) : List (List Char) :=
  let marks (c : Char) := drawMarks (fun _ => (c, c)) (last.chars.length + 2) 0 last.shown
  [numbered width first ++ ['╭', '─', '▶', ' '] ++ drawText 0 first.shown]
    ++ (if first.index + 1 < last.index then
      [blanks (width + 2) ++ ['┆', ' ', '┆', ' ', ' ', ' ']] else [])
    ++ [numbered width last ++ ['├', '─', '▶', ' '] ++ drawText 0 last.shown,
      margin width ++ ['│', ' ', ' ', ' '] ++ marks ' ',
      margin width ++ ['╰', '─', '─', '─'] ++ marks '─' ++ ' ' :: message]

/-- Where a culprit starts, as a report says it: line and column counted from one. -/
def location (source : List Char) (culprit : Culprit) : Nat × Nat :=
  let line := lineAt source culprit.start
  (line.index + 1, culprit.start - line.offset + 1)

/-- The line that opens the frame around a source. -/
def header (width : Nat) (name : String) (place : Nat × Nat) : List Char :=
  blanks (width + 2) ++ ['╭', '─', '[', ' '] ++ name.toList
    ++ ':' :: Number.Decimal.digits place.1 ++ ':' :: Number.Decimal.digits place.2 ++ [' ', ']']

/-- The lines that show a culprit in its source. -/
def sourceLines (name : String) (source : List Char) (culprit : Culprit) (message : List Char) :
    List (List Char) :=
  let first := lineAt source culprit.start
  let last := lineAt source culprit.last
  let width := Number.Decimal.digitCount (last.index + 1)
  [header width name (location source culprit), blanks (width + 2) ++ ['│']]
    ++ (if first.index = last.index then inlineLines width culprit first message
      else multilineLines width first last message)
    ++ [List.replicate (width + 2) '─' ++ ['╯']]

/-- The lines of a report. -/
def lines (name source : String) (error : ScriptError) : List (List Char) :=
  let chars := source.toList
  ("Error: " ++ error.title).toList ::
    match error.span with
    | none => []
    | some span =>
      let culprit := Culprit.ofSpan source span
      if culprit.isWithin chars.length then sourceLines name chars culprit error.message.toList
      else []

/-- The report of an error in a named source. -/
def render (name source : String) (error : ScriptError) : String :=
  String.ofList ((lines name source error).flatMap fun line => line ++ ['\n'])

end Script.Report
