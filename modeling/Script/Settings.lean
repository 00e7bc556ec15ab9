/-!
# Settings

What a user can choose about running scripts and about the prompt.
-/

namespace Script

/-- The choices of a user. -/
structure Settings where
  /-- What is shown before each line is read. -/
  prompt : String := "Luminary % "
  /-- Where the lines typed at the prompt are kept. -/
  historyFile : String := ".luminary_history"
  /-- How many calls of script functions may be inside each other. -/
  maxCallDepth : Nat := 10000
  /-- Whether the use of a variable that is not bound is an error. -/
  strictVariables : Bool := false
deriving DecidableEq, Repr

/-- The settings of someone who chose nothing. -/
def Settings.default : Settings := {}

end Script
