import Script.Report
import Script.Session

/-!
# The prompt

An interactive session: lines are read one at a time, and each is a command that starts with a colon
or a program of its own. The value of a program is shown unless it is null; an error is reported,
and the session goes on.

## Who reads what

The prompt and the scripts read from the same input, but not byte by byte: input arrives in blocks.
The prompt takes lines out of the block at hand. A script that wants input takes all that is left of
the block at hand and keeps it for itself, so that lines after the one it reads are for the next
script that wants input, and not for the prompt. `Feed` keeps track of this.
-/

namespace Script

/-! ## Input -/

/-- Input that is shared between the prompt and the scripts. -/
structure Feed where
  /-- What the scripts have taken and not read yet. -/
  taken : List UInt8
  /-- The rest of the block at hand. -/
  block : List UInt8
  /-- What has not arrived yet. -/
  ahead : List UInt8

namespace Feed

/-- How many bytes arrive at once. -/
def blockSize : Nat := 8192

/-- An input of which nothing has arrived. -/
def new (bytes : List UInt8) : Feed := ⟨[], [], bytes⟩

/-- The input after `n` bytes of the shared part are consumed. As many blocks arrive as it takes. -/
def consume (feed : Feed) (n : Nat) : Feed :=
  if n ≤ feed.block.length then { feed with block := feed.block.drop n }
  else
    let wanted := n - feed.block.length
    let arrived := (wanted + (blockSize - 1)) / blockSize * blockSize
    { feed with block := (feed.ahead.take arrived).drop wanted, ahead := feed.ahead.drop arrived }

/-- All that scripts can read. -/
def forScripts (feed : Feed) : List UInt8 := feed.taken ++ feed.block ++ feed.ahead

/-- The input after scripts have read some of it and left `rest`. Once they need more than they have
taken, they take all of the block at hand. -/
def afterScripts (feed : Feed) (rest : List UInt8) : Feed :=
  let used := feed.forScripts.length - rest.length
  if used ≤ feed.taken.length then { feed with taken := feed.taken.drop used }
  else
    let after := feed.consume (used - feed.taken.length)
    ⟨after.block, [], after.ahead⟩

/-- Read a line for the prompt; there is none at the end of the input. -/
def readLine (feed : Feed) : Option (Option String × Feed) :=
  let (line, _) := Console.splitLine (feed.block ++ feed.ahead)
  if line.isEmpty then none
  else some (Console.decode? (Console.stripLineEnd line), feed.consume line.length)

end Feed

/-! ## Lines -/

/-- What can be asked of the prompt. -/
inductive PromptCommand where
  /-- Leave. -/
  | quit
  /-- Explain the commands. -/
  | help
  /-- Clear the screen. -/
  | clear
  /-- List the variables. -/
  | listing
  /-- Something that does not exist. -/
  | unknown (text : String)
deriving DecidableEq, Repr

/-- The command that a line asks for. -/
def PromptCommand.ofLine (line : String) : PromptCommand :=
  if line = ":quit" ∨ line = ":q" ∨ line = ":exit" then .quit
  else if line = ":help" ∨ line = ":h" ∨ line = ":?" then .help
  else if line = ":clear" then .clear
  else if line = ":vars" then .listing
  else .unknown line

/-- What comes of a program typed at the prompt. -/
inductive Reply where
  /-- Nothing to show. -/
  | silence
  /-- A value to show. -/
  | value (value : Value)
  /-- An error to report. -/
  | error (error : ScriptError)
  /-- The wish to leave with a code. -/
  | leave (code : Int)

/-- What has been shown, in the order of its showing. -/
structure Screen where
  /-- On standard output. -/
  out : String
  /-- On standard error. -/
  err : String

namespace Screen

/-- Nothing. -/
def empty : Screen := ⟨"", ""⟩

/-- Show more on standard output. -/
def print (screen : Screen) (text : String) : Screen := { screen with out := screen.out ++ text }

/-- Show more on standard error. -/
def complain (screen : Screen) (text : String) : Screen := { screen with err := screen.err ++ text }

end Screen

namespace Prompt

/-- What is shown at the start. -/
def banner : String := "Luminary 0.1.0\nType :help for help, :quit to exit.\n\n"

/-- What the commands are. -/
def helpText : String :=
  "Commands:\n" ++
  "  :help, :h, :?   Show this help\n" ++
  "  :quit, :q       Exit the REPL\n" ++
  "  :clear          Clear the screen\n" ++
  "  :vars           List global variables\n" ++
  "\n" ++
  "Examples:\n" ++
  "  set x = 2 ^ 10\n" ++
  "  fun square(n) = n * n\n" ++
  "  for i = 1 : 3 \x7b println(i, square(i)) \x7d\n" ++
  "  map([1, 2, 3], fun (n) = n * 2)\n"

/-- What clears a screen. -/
def clearText : String := "\x1b[2J\x1b[1;1H"

/-- The name that the source of a line has in reports. -/
def sourceName : String := "<stdin>"

/-- What comes of the outcome of a program. -/
def reply : Outcome → Reply
  | .value .null => .silence
  | .value value => .value value
  | .error e =>
    match e.exitCode? with
    | some code => .leave code
    | none => .error e
  | .exhausted => .silence

/-- Run a line as a program. -/
def evalLine (session : Session) (line : String) : Reply × Session :=
  let (outcome, session) := session.run ampleFuel line
  (reply outcome, session)

/-- What a command shows, or nothing if it is the one to leave. -/
def answer? (session : Session) : PromptCommand → Option String
  | .quit => none
  | .help => some helpText
  | .clear => some clearText
  | .listing => some session.listing
  | .unknown text => some ("Unknown command: " ++ text ++ "\nType :help for help.\n")

/-- Show a reply to a line. The result is the code to leave with, if the line asks for it. -/
def showReply (line : String) (screen : Screen) : Reply → Screen × Option Int
  | .silence => (screen, none)
  | .value value => (screen.print (value.display ++ "\n"), none)
  | .error e => (screen.complain (Report.render sourceName line e), none)
  | .leave code => (screen, some code)

/-- Run a line as a program, with the input for scripts, and show what it writes and what comes of
it. -/
def turn (session : Session) (feed : Feed) (screen : Screen) (line : String) :
    (Screen × Option Int) × Session × Feed :=
  let console := { session.machine.console with input := feed.forScripts }
  let session := { session with machine := { session.machine with console } }
  let (answer, session) := evalLine session line
  let (written, session) := session.takeOutput
  (showReply line (screen.print written) answer, session,
    feed.afterScripts session.machine.console.input)

/-- A line without the white space around it. -/
def tidy (line : String) : String := String.ofList (Text.trim line.toList)

/-- Read lines until the end of the input or until one asks to leave. Every line takes a byte, of
which there are fewer than `fuel`. -/
def loop : Nat → Session → Feed → Screen → Int × Screen
  | 0, _, _, screen => (0, screen)
  | fuel + 1, session, feed, screen =>
    let screen := screen.print session.settings.prompt
    match feed.readLine with
    | none => (0, screen)
    | some (none, _) => (1, screen.complain "Error: stream did not contain valid UTF-8\n")
    | some (some line, feed) =>
      let line := tidy line
      if line.isEmpty then loop fuel session feed screen
      else if line.startsWith ":" then
        match answer? session (.ofLine line) with
        | none => (0, screen)
        | some text => loop fuel session feed (screen.print text)
      else
        match turn session feed screen line with
        | ((screen, some code), _, _) => (code, screen)
        | ((screen, none), session, feed) => loop fuel session feed screen

/-- An interactive session on the given input. -/
def run (settings : Settings) (input : List UInt8) : Int × Screen :=
  loop (input.length + 1) (.new settings (.new [] none) 0) (.new input) (Screen.empty.print banner)

end Prompt

end Script
