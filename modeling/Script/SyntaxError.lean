import Script.Token

/-!
# Errors in the form of a source

A source that is no program is refused with one `SyntaxError`: a cause and the stretch of text to
blame. Characters that belong to no token are told apart from every other fault by their title.
-/

namespace Script

/-- Something that could have stood where an unfit token was found. -/
inductive Expectation where
  /-- Any name. -/
  | identifier
  /-- One particular operator. -/
  | operator (op : Operator)
deriving DecidableEq, Repr

/-- An expectation in words: operators are quoted. -/
def Expectation.display : Expectation → String
  | .identifier => "identifier"
  | .operator op => "'" ++ op.display ++ "'"

/-- What is wrong with the form of a source. -/
inductive SyntaxFault where
  /-- A character that starts no token. -/
  | illegalCharacter (c : Char)
  /-- An exclamation mark without the equals sign that has to follow it. -/
  | loneBang
  /-- A text literal without its closing quote. -/
  | unclosedText
  /-- A backslash before a character that it does not escape. -/
  | badEscape
  /-- A token where an expression has to start, or one left over at the end. -/
  | unexpected
  /-- A token other than one of those that could follow. -/
  | expected (items : List Expectation)
deriving DecidableEq, Repr

namespace SyntaxFault

/-- The message shown for a fault. -/
def message : SyntaxFault → String
  | .illegalCharacter c => "'" ++ String.singleton c ++ "'"
  | .loneBang => "Expected '=' after '!'"
  | .unclosedText => "Expected '\"'"
  | .badEscape => "Expected 'n', 't', '\"' or '\\' after '\\'"
  | .unexpected => "Unexpected token"
  | .expected items => "Expected " ++ String.intercalate " or " (items.map Expectation.display)

/-- The heading a fault is reported under. -/
def title : SyntaxFault → String
  | .illegalCharacter _ => "Illegal Character"
  | _ => "Invalid Syntax"

end SyntaxFault

/-- A fault and the stretch of source to blame for it. -/
structure SyntaxError where
  /-- What is wrong. -/
  fault : SyntaxFault
  /-- Where it is wrong. -/
  span : Span
deriving DecidableEq, Repr

namespace SyntaxError

/-- The message shown for the error. -/
def message (e : SyntaxError) : String := e.fault.message

/-- The heading the error is reported under. -/
def title (e : SyntaxError) : String := e.fault.title

/-- The error in one line. -/
def display (e : SyntaxError) : String :=
  e.title ++ " at " ++ e.span.display ++ ": " ++ e.message

end SyntaxError

end Script
