import Script.SyntaxError

/-!
# Reading tokens

`tokenize` splits a source into lexemes. Blanks separate tokens and are dropped; every other stretch
of text has to start a token, and the longest token that starts there is taken.

The reader of one token, `Found.atFirst`, looks at the first character and at what follows and says
how many of the following characters belong to the token. So each step leaves a shorter rest, and
the loop needs no bound of its own.
-/

namespace Script

/-- The characters that separate tokens. -/
def isBlank (c : Char) : Bool :=
  c == ' ' || c == '\t' || c == '\r' || c == '\n'

/-- Characters that continue a name. -/
def continuesName (c : Char) : Bool :=
  c.isAlphanum || c == '_'

/-- The result of reading a text literal from behind its opening quote. -/
inductive Literal where
  /-- The literal ends after `used` characters, its closing quote included. -/
  | closed (content : List Char) (used : Nat)
  /-- After `used` characters stands one that a backslash does not escape; it is counted. -/
  | badEscape (used : Nat)
  /-- The source ends first. -/
  | unclosed
deriving DecidableEq, Repr

/-- Read a text literal. The content read so far is `content`, last character first, from `used`
characters of source. -/
def Literal.read (content : List Char) (used : Nat) : List Char → Literal
  | [] => .unclosed
  | ['\\'] => .unclosed
  | '\\' :: c :: cs =>
    match Token.unescape? c with
    | some resolved => read (resolved :: content) (used + 2) cs
    | none => .badEscape (used + 2)
  | '"' :: _ => .closed content.reverse (used + 1)
  | c :: cs => read (c :: content) (used + 1) cs

/-- What starts at some point of a source that is not blank. -/
inductive Found where
  /-- A token that takes this many characters after the first. -/
  | token (token : Token) (more : Nat)
  /-- A fault to be blamed on the first character and this many after it. -/
  | fault (fault : SyntaxFault) (more : Nat)

namespace Found

/-- The token that a word denotes. -/
def ofWord (word : String) : Token :=
  match Keyword.ofWord? word with
  | some k => .keyword k
  | none => .identifier word

/-- A word that starts with the letter `c`. -/
def word (c : Char) (cs : List Char) : Found :=
  let more := cs.takeWhile continuesName
  .token (ofWord (String.ofList (c :: more))) more.length

/-- A numeral that starts with the digit `c`. -/
def numeral (c : Char) (cs : List Char) : Found :=
  let whole := cs.takeWhile Char.isDigit
  match cs.dropWhile Char.isDigit with
  | '.' :: ds =>
    let fraction := ds.takeWhile Char.isDigit
    .token (.number (Number.ofParts (c :: whole) fraction)) (whole.length + 1 + fraction.length)
  | _ => .token (.number (Number.ofParts (c :: whole) [])) whole.length

/-- A text literal, from behind its opening quote. -/
def literal (cs : List Char) : Found :=
  match Literal.read [] 0 cs with
  | .closed content used => .token (.text (String.ofList content)) used
  | .badEscape used => .fault .badEscape used
  | .unclosed => .fault .unclosedText cs.length

/-- An operator of one character, or a character that has no business in a source. -/
def symbol (c : Char) : Found :=
  match Operator.ofChar? c with
  | some op => .token (.operator op) 0
  | none => if c = '!' then .fault .loneBang 0 else .fault (.illegalCharacter c) 0

/-- An operator of two characters if there is one, and else a `symbol`. -/
def operator (c : Char) : List Char → Found
  | '=' :: _ =>
    match Operator.withEquals? c with
    | some op => .token (.operator op) 1
    | none => symbol c
  | _ => symbol c

/-- The longest token that starts with `c` when `cs` follows. -/
def atFirst (c : Char) (cs : List Char) : Found :=
  if c.isAlpha then word c cs
  else if c.isDigit then numeral c cs
  else if c = '"' then literal cs
  else operator c cs

end Found

/-- The lexeme that ends every source: it takes up one column that is not there. -/
def Lexeme.atEnd (p : Position) : Lexeme :=
  ⟨.eof, ⟨p, ⟨p.index + 1, p.line, p.column + 1⟩⟩⟩

/-- Read lexemes from position `p` on, where `cs` is the rest of the source and `before` holds the
lexemes read so far, last one first. -/
def tokenizeFrom (before : List Lexeme) (p : Position) :
    List Char → Except SyntaxError (List Lexeme)
  | [] => .ok (Lexeme.atEnd p :: before).reverse
  | c :: cs =>
    if isBlank c then tokenizeFrom before (p.advance c) cs
    else
      match Found.atFirst c cs with
      | .token token more =>
        let stop := (p.advance c).advanceAll (cs.take more)
        tokenizeFrom (⟨token, ⟨p, stop⟩⟩ :: before) stop (cs.drop more)
      | .fault fault more => .error ⟨fault, ⟨p, (p.advance c).advanceAll (cs.take more)⟩⟩
termination_by cs => cs.length
decreasing_by
  · simp
  · simp only [List.length_drop, List.length_cons]
    omega

/-- The lexemes of a source. The last one, and only that, is the end of the input. -/
def tokenize (source : String) : Except SyntaxError (List Lexeme) :=
  tokenizeFrom [] .start source.toList

end Script
