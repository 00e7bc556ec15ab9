import Script.Fault

/-!
# The console

Scripts write text to a console and read lines from it. The output may be limited to a number of
bytes; a write that does not fit writes nothing. The input is a sequence of bytes that is read line
by line, and a line that is no text is consumed all the same.
-/

namespace Script

/-- Where a script writes to and reads from. -/
structure Console where
  /-- The text written and not taken yet. -/
  output : String
  /-- How many bytes were written in all. -/
  written : Nat
  /-- The most bytes that may be written, if there is a limit. -/
  limit : Option Nat
  /-- The bytes not read yet. -/
  input : List UInt8

namespace Console

/-- A console with the given input on which nothing is written yet. -/
def new (input : List UInt8) (limit : Option Nat) : Console := ⟨"", 0, limit, input⟩

/-- Whether that many more bytes can be written. -/
def hasRoom (console : Console) (bytes : Nat) : Bool :=
  match console.limit with
  | none => true
  | some limit => decide (console.written + bytes ≤ limit)

/-- Write a text, all of it or nothing. An empty text is never refused. -/
def write (console : Console) (text : String) : Except ConsoleFault Console :=
  if text.isEmpty then .ok console
  else if console.hasRoom text.utf8ByteSize then
    .ok { console with
      output := console.output ++ text
      written := console.written + text.utf8ByteSize }
  else .error .full

/-- The byte that ends a line. -/
def lineFeed : UInt8 := 10

/-- The byte that may stand before the end of a line. -/
def carriageReturn : UInt8 := 13

/-- The bytes of the first line, its line feed included, and those after it. -/
def splitLine (bytes : List UInt8) : List UInt8 × List UInt8 :=
  match bytes.span (· != lineFeed) with
  | (line, []) => (line, [])
  | (line, last :: rest) => (line ++ [last], rest)

/-- A line without its line feed and without a carriage return before that. A carriage return at the
end of an unfinished line stays. -/
def stripLineEnd (line : List UInt8) : List UInt8 :=
  if line.getLast? = some lineFeed then
    let body := line.dropLast
    if body.getLast? = some carriageReturn then body.dropLast else body
  else line

/-- The text that bytes encode, if they encode one. -/
def decode? (bytes : List UInt8) : Option String := String.fromUTF8? (ByteArray.mk bytes.toArray)

/-- Read one line. Its bytes are consumed also when they are no text. -/
def readLine (console : Console) : Except ConsoleFault String × Console :=
  let (line, rest) := splitLine console.input
  if line.isEmpty then (.error .ended, console)
  else
    ((decode? (stripLineEnd line)).elim (.error .notText) .ok, { console with input := rest })

/-- The text written and not taken yet, and the console without it. -/
def take (console : Console) : String × Console := (console.output, { console with output := "" })

end Console

end Script
