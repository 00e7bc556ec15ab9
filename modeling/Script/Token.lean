import Script.Number.Text
import Script.Position

/-!
# Tokens

The words of the language: numerals, text literals, names, reserved words, operators and the end of
the input. A `Lexeme` is a token together with the stretch of source it was read from.

`Token.display` writes a token the way it could have stood in a source.
-/

namespace Script

/-- The reserved words. -/
inductive Keyword where
  | set | and | or | not | if | else | elif | while | for
      | by | fun | return | continue | break | null
deriving DecidableEq, Repr

namespace Keyword

/-- All reserved words. -/
def all : List Keyword :=
  [.set, .and, .or, .not, .if, .else, .elif, .while, .for, .by, .fun, .return, .continue,
    .break, .null]

/-- The spelling of a reserved word. -/
def display : Keyword → String
  | .set => "set"
  | .and => "and"
  | .or => "or"
  | .not => "not"
  | .if => "if"
  | .else => "else"
  | .elif => "elif"
  | .while => "while"
  | .for => "for"
  | .by => "by"
  | .fun => "fun"
  | .return => "return"
  | .continue => "continue"
  | .break => "break"
  | .null => "null"

/-- The reserved word with this spelling. -/
def ofWord? (word : String) : Option Keyword :=
  all.find? fun k => k.display == word

end Keyword

/-- Operators and punctuation. -/
inductive Operator where
  | plus | minus | star | slash | percent | caret
  | openParen | closeParen | openBrace | closeBrace | openBracket | closeBracket
  | question | colon | comma
  | assign | equal | notEqual | greater | greaterEqual | less | lessEqual
deriving DecidableEq, Repr

namespace Operator

/-- The spelling of an operator. -/
def display : Operator → String
  | .plus => "+"
  | .minus => "-"
  | .star => "*"
  | .slash => "/"
  | .percent => "%"
  | .caret => "^"
  | .openParen => "("
  | .closeParen => ")"
  | .openBrace => "\x7b"
  | .closeBrace => "\x7d"
  | .openBracket => "["
  | .closeBracket => "]"
  | .question => "?"
  | .colon => ":"
  | .comma => ","
  | .assign => "="
  | .equal => "=="
  | .notEqual => "!="
  | .greater => ">"
  | .greaterEqual => ">="
  | .less => "<"
  | .lessEqual => "<="

/-- The operator spelled with this one character. -/
def ofChar? : Char → Option Operator
  | '+' => some .plus
  | '-' => some .minus
  | '*' => some .star
  | '/' => some .slash
  | '%' => some .percent
  | '^' => some .caret
  | '(' => some .openParen
  | ')' => some .closeParen
  | '\x7b' => some .openBrace
  | '\x7d' => some .closeBrace
  | '[' => some .openBracket
  | ']' => some .closeBracket
  | '?' => some .question
  | ':' => some .colon
  | ',' => some .comma
  | '=' => some .assign
  | '>' => some .greater
  | '<' => some .less
  | _ => none

/-- The operator spelled with this character and an equals sign. -/
def withEquals? : Char → Option Operator
  | '=' => some .equal
  | '!' => some .notEqual
  | '>' => some .greaterEqual
  | '<' => some .lessEqual
  | _ => none

end Operator

/-- The parts a source is made of. -/
inductive Token where
  /-- A numeral, as the number it denotes. -/
  | number (value : Float)
  /-- A text literal, with its escapes resolved. -/
  | text (value : String)
  /-- A name that is not reserved. -/
  | identifier (name : String)
  /-- A reserved word. -/
  | keyword (word : Keyword)
  /-- An operator or a piece of punctuation. -/
  | operator (op : Operator)
  /-- The end of the input. -/
  | eof

namespace Token

/-- The class a token belongs to, as listings name it. -/
def kind : Token → String
  | .number _ => "Number"
  | .text _ => "String"
  | .identifier _ => "Identifier"
  | .keyword _ => "Keyword"
  | .operator _ => "Operator"
  | .eof => "Eof"

/-- Whether this is the end of the input. -/
def isEof : Token → Bool
  | .eof => true
  | _ => false

/-- A character inside a text literal: line feeds, tabs, quotes and backslashes are escaped. -/
def escape : Char → List Char
  | '\n' => ['\\', 'n']
  | '\t' => ['\\', 't']
  | '"' => ['\\', '"']
  | '\\' => ['\\', '\\']
  | c => [c]

/-- The character that an escape stands for, by the character after the backslash. -/
def unescape? : Char → Option Char
  | 'n' => some '\n'
  | 't' => some '\t'
  | '"' => some '"'
  | '\\' => some '\\'
  | _ => none

/-- A text literal with its quotes. -/
def quoted (s : String) : String :=
  String.ofList ('"' :: s.toList.flatMap escape ++ ['"'])

/-- A token as it could stand in a source; the end of the input is shown as `<eof>`. -/
def display : Token → String
  | .number x => Number.text x
  | .text s => quoted s
  | .identifier name => name
  | .keyword k => k.display
  | .operator op => op.display
  | .eof => "<eof>"

end Token

/-- A token and where it stands. -/
structure Lexeme where
  /-- What was read. -/
  token : Token
  /-- The stretch of source it was read from. -/
  span : Span

end Script
