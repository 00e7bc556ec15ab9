import Script.Settings
import Script.Text.Hexadecimal

/-!
# Reading settings

Settings are written in TOML, one `key = value` to a line:

```text
prompt = "> "           # a text in quotes, in one of four ways
max_call_depth = 1_000  # a whole number, in one of four bases
strict_variables = true
```

The four keys that there are hold texts, whole numbers and truth values. A document that has
anything else in it (tables, dotted keys, lists, dates, other numbers) is refused as a whole,
whether the rest of it is well-formed or not, and so is a document that sets a key twice.
-/

namespace Script.Settings

/-! ## Characters -/

/-- Blanks within a line. -/
def isBlank (c : Char) : Bool := c = ' ' || c = '\t'

/-- Characters that can stand in a document at all, apart from the ends of lines. -/
def isPrintable (c : Char) : Bool := c = '\t' || (32 ≤ c.toNat && c.toNat ≠ 127)

/-- Characters that stand for themselves between double quotes. -/
def isPlain (c : Char) : Bool := isPrintable c && c ≠ '"' && c ≠ '\\'

/-- Characters that stand between single quotes. -/
def isLiteral (c : Char) : Bool := isPrintable c && c ≠ '\''

/-- Characters of a key without quotes. -/
def isBare (c : Char) : Bool := c.isAlphanum || c = '-' || c = '_'

/-- The rest of a line after its blanks. -/
def skipBlanks (cs : List Char) : List Char := cs.dropWhile isBlank

/-- The end of a line: a line feed with or without a carriage return before it. -/
def lineEnd? : List Char → Option (List Char)
  | '\n' :: cs => some cs
  | '\r' :: '\n' :: cs => some cs
  | _ => none

/-- The text after the end of a line, if there is one. -/
def skipLineEnd (cs : List Char) : List Char := (lineEnd? cs).getD cs

/-- The text after blanks and ends of lines. -/
def skipLines : List Char → List Char
  | '\r' :: '\n' :: cs => skipLines cs
  | c :: cs => if isBlank c || c = '\n' then skipLines cs else c :: cs
  | [] => []

/-! ## Texts -/

/-- The character that a backslash and another character stand for. -/
def unescape? (c : Char) : Option Char :=
  if c = '"' ∨ c = '\\' then some c
  else if c = 'b' then some '\x08'
  else if c = 'f' then some '\x0c'
  else if c = 'n' then some '\n'
  else if c = 'r' then some '\r'
  else if c = 't' then some '\t'
  else none

/-- The character with a number given in hexadecimal digits, if there is one. -/
def numbered? (digits : List Char) : Option Char :=
  match Text.hexNumber? digits with
  | some n => if n.isValidChar then some (Char.ofNat n) else none
  | none => none

/-- Read an escape after its backslash. -/
def readEscape : List Char → Option (Char × List Char)
  | 'u' :: cs =>
    if 4 ≤ cs.length then (numbered? (cs.take 4)).map fun c => (c, cs.drop 4) else none
  | 'U' :: cs =>
    if 8 ≤ cs.length then (numbered? (cs.take 8)).map fun c => (c, cs.drop 8) else none
  | c :: cs => (unescape? c).map fun e => (e, cs)
  | [] => none

/-- The text after a backslash at the end of a line and the blanks at the start of the next ones, if
the backslash does stand at the end of a line. -/
def foldLine? (cs : List Char) : Option (List Char) := (lineEnd? (skipBlanks cs)).map skipLines

/-- Read a text in double quotes after its opening quote. The characters so far are `before`, last
one first. Every step takes a character, of which there are at most `fuel`. -/
def readQuoted : Nat → List Char → List Char → Option (String × List Char)
  | _, _, [] => none
  | 0, _, _ => none
  | fuel + 1, before, c :: cs =>
    if c = '"' then some (String.ofList before.reverse, cs)
    else if c = '\\' then
      match readEscape cs with
      | some (e, rest) => readQuoted fuel (e :: before) rest
      | none => none
    else if isPlain c then readQuoted fuel (c :: before) cs
    else none

/-- Read a text over several lines in triple double quotes after its opening quotes. One or two
quotes in a row belong to the text, also before the closing ones. -/
def readLongQuoted : Nat → List Char → List Char → Option (String × List Char)
  | _, _, [] => none
  | 0, _, _ => none
  | fuel + 1, before, c :: cs =>
    match c :: cs with
    | '"' :: '"' :: '"' :: '"' :: '"' :: rest =>
      some (String.ofList ('"' :: '"' :: before).reverse, rest)
    | '"' :: '"' :: '"' :: '"' :: rest => some (String.ofList ('"' :: before).reverse, rest)
    | '"' :: '"' :: '"' :: rest => some (String.ofList before.reverse, rest)
    | '\r' :: '\n' :: rest => readLongQuoted fuel ('\n' :: before) rest
    | _ =>
      if c = '\\' then
        match foldLine? cs with
        | some rest => readLongQuoted fuel before rest
        | none =>
          match readEscape cs with
          | some (e, rest) => readLongQuoted fuel (e :: before) rest
          | none => none
      else if isPlain c || c = '"' || c = '\n' then readLongQuoted fuel (c :: before) cs
      else none

/-- Read a text in single quotes after its opening quote. Nothing in it is escaped. -/
def readLiteral (cs : List Char) : Option (String × List Char) :=
  match cs.dropWhile isLiteral with
  | '\'' :: rest => some (String.ofList (cs.takeWhile isLiteral), rest)
  | _ => none

/-- Read a text over several lines in triple single quotes after its opening quotes. -/
def readLongLiteral (before : List Char) : List Char → Option (String × List Char)
  | [] => none
  | '\'' :: '\'' :: '\'' :: '\'' :: '\'' :: cs =>
    some (String.ofList ('\'' :: '\'' :: before).reverse, cs)
  | '\'' :: '\'' :: '\'' :: '\'' :: cs => some (String.ofList ('\'' :: before).reverse, cs)
  | '\'' :: '\'' :: '\'' :: cs => some (String.ofList before.reverse, cs)
  | '\r' :: '\n' :: cs => readLongLiteral ('\n' :: before) cs
  | c :: cs =>
    if isLiteral c || c = '\'' || c = '\n' then readLongLiteral (c :: before) cs else none

/-! ## Numbers -/

/-- The value of a digit in a base up to sixteen. -/
def digit? (base : Nat) (c : Char) : Option Nat :=
  (Text.hexValue? c).filter fun d => decide (d < base)

/-- Read the digits after the first one, which an underscore may separate. -/
def readMoreDigits (base sofar : Nat) : List Char → Nat × List Char
  | '_' :: c :: cs =>
    match digit? base c with
    | some d => readMoreDigits base (base * sofar + d) cs
    | none => (sofar, '_' :: c :: cs)
  | c :: cs =>
    match digit? base c with
    | some d => readMoreDigits base (base * sofar + d) cs
    | none => (sofar, c :: cs)
  | [] => (sofar, [])

/-- Read digits, at least one. -/
def readDigits (base : Nat) : List Char → Option (Nat × List Char)
  | c :: cs => (digit? base c).map fun d => readMoreDigits base d cs
  | [] => none

/-- Read a decimal number without sign. It does not start with a zero unless it is zero. -/
def readDecimal : List Char → Option (Nat × List Char)
  | '0' :: cs => some (0, cs)
  | cs => readDigits 10 cs

/-- Read a whole number. -/
def readWhole : List Char → Option (Int × List Char)
  | '0' :: 'x' :: cs => (readDigits 16 cs).map fun (n, rest) => ((n : Int), rest)
  | '0' :: 'o' :: cs => (readDigits 8 cs).map fun (n, rest) => ((n : Int), rest)
  | '0' :: 'b' :: cs => (readDigits 2 cs).map fun (n, rest) => ((n : Int), rest)
  | '+' :: cs => (readDecimal cs).map fun (n, rest) => ((n : Int), rest)
  | '-' :: cs => (readDecimal cs).map fun (n, rest) => (-(n : Int), rest)
  | cs => (readDecimal cs).map fun (n, rest) => ((n : Int), rest)

/-! ## Documents -/

/-- The value of a key. -/
inductive Entry where
  /-- A text. -/
  | text (value : String)
  /-- A whole number. -/
  | whole (value : Int)
  /-- A truth value. -/
  | bool (value : Bool)
deriving DecidableEq, Repr

/-- Read a value. -/
def readEntry : List Char → Option (Entry × List Char)
  | '"' :: '"' :: '"' :: cs =>
    (readLongQuoted cs.length [] (skipLineEnd cs)).map fun (s, rest) => (.text s, rest)
  | '"' :: cs => (readQuoted cs.length [] cs).map fun (s, rest) => (.text s, rest)
  | '\'' :: '\'' :: '\'' :: cs =>
    (readLongLiteral [] (skipLineEnd cs)).map fun (s, rest) => (.text s, rest)
  | '\'' :: cs => (readLiteral cs).map fun (s, rest) => (.text s, rest)
  | 't' :: 'r' :: 'u' :: 'e' :: cs => some (.bool true, cs)
  | 'f' :: 'a' :: 'l' :: 's' :: 'e' :: cs => some (.bool false, cs)
  | cs => (readWhole cs).map fun (n, rest) => (.whole n, rest)

/-- Read a key. -/
def readKey : List Char → Option (String × List Char)
  | '"' :: cs => readQuoted cs.length [] cs
  | '\'' :: cs => readLiteral cs
  | cs =>
    match cs.takeWhile isBare with
    | [] => none
    | key => some (String.ofList key, cs.dropWhile isBare)

/-- Read the rest of a line on which nothing more is set: blanks, perhaps a comment, and the end of
the line or of the document. -/
def readLineRest (cs : List Char) : Option (List Char) :=
  let rest :=
    match skipBlanks cs with
    | '#' :: comment => comment.dropWhile isPrintable
    | other => other
  if rest = [] then some [] else lineEnd? rest

/-- Read a key, its value and the rest of the line. -/
def readAssignment (cs : List Char) : Option ((String × Entry) × List Char) := do
  let (key, cs) ← readKey cs
  match skipBlanks cs with
  | '=' :: cs =>
    let (entry, cs) ← readEntry (skipBlanks cs)
    return ((key, entry), ← readLineRest cs)
  | _ => none

/-- Read lines up to the end of a document. The entries so far are `before`, last one first. Every
line takes a character, of which there are at most `fuel`. -/
def readEntries : Nat → List (String × Entry) → List Char → Option (List (String × Entry))
  | 0, before, cs => if skipBlanks cs = [] then some before.reverse else none
  | fuel + 1, before, cs =>
    match skipBlanks cs with
    | [] => some before.reverse
    | c :: rest =>
      if c = '#' ∨ c = '\n' ∨ c = '\r' then
        match readLineRest (c :: rest) with
        | some rest => readEntries fuel before rest
        | none => none
      else
        match readAssignment (c :: rest) with
        | some (entry, rest) => readEntries fuel (entry :: before) rest
        | none => none

/-- Set a key. A key that does not exist cannot be set, nor one to a value of another kind. -/
def assign? (settings : Settings) : String × Entry → Option Settings
  | ("prompt", .text s) => some { settings with prompt := s }
  | ("history_file", .text s) => some { settings with historyFile := s }
  | ("max_call_depth", .whole n) =>
    if 0 ≤ n ∧ n < Nat.pow 2 63 then some { settings with maxCallDepth := n.toNat } else none
  | ("strict_variables", .bool b) => some { settings with strictVariables := b }
  | _ => none

/-- The text after the mark of its encoding, which may stand at its start. -/
def skipMark : List Char → List Char
  | '\ufeff' :: cs => cs
  | cs => cs

/-- The settings in a document. Keys that it does not set keep their defaults. -/
def read? (document : String) : Option Settings := do
  let cs := skipMark document.toList
  let entries ← readEntries cs.length [] cs
  let keys := entries.map Prod.fst
  if keys.eraseDups.length = keys.length then entries.foldlM assign? .default else none

end Script.Settings
