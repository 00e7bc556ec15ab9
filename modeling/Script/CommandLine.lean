import Script.Json.Printer
import Script.Prompt
import Script.Settings.Discovery
import Script.Tree.Storage

/-!
# The command line

What the program does with its arguments: run a script, list its tokens, show its tree, or start the
prompt. `Request.ofArgs` says what the arguments ask for, and `Request.answer` does it, given what
there is of files and input.

The arguments are read from left to right, and the first one that settles the matter does so: a
mistake, or a wish to see the version. The option `--config` may be given once before the command
and once after it; the latter counts.
-/

namespace Script

/-- What the program can do. -/
inductive Action where
  /-- Run a script. -/
  | run (file : String)
  /-- Start the prompt. -/
  | prompt
  /-- List the tokens of a script. -/
  | tokens (file : String)
  /-- Show the tree of a script. -/
  | tree (file : String)
deriving DecidableEq, Repr

/-- What the arguments ask for. -/
inductive Request where
  /-- The version. -/
  | version
  /-- An explanation. -/
  | help
  /-- Nothing that makes sense. -/
  | mistake
  /-- Something to do, with the settings in a file. -/
  | perform (config : Option String) (action : Action)
deriving DecidableEq, Repr

namespace CommandLine

/-! ## Arguments -/

/-- The kinds of arguments. -/
inductive Word where
  /-- `--config`, perhaps with its value. -/
  | config (value : Option String)
  /-- A wish to see the version. -/
  | version
  /-- A wish for help. -/
  | help
  /-- What ends the options. -/
  | endOfOptions
  /-- An option that does not exist. -/
  | unknown
  /-- No option. -/
  | plain

/-- The kind of an argument. -/
def Word.of (arg : String) : Word :=
  match arg.toList with
  | ['-', '-'] => .endOfOptions
  | '-' :: '-' :: cs =>
    if arg = "--config" then .config none
    else if arg = "--version" then .version
    else if arg = "--help" then .help
    else if "--config=".toList.isPrefixOf arg.toList then
      .config (some (String.ofList (cs.drop "config=".length)))
    else .unknown
  | '-' :: 'V' :: _ => .version
  | '-' :: 'h' :: _ => .help
  | '-' :: _ :: _ => .unknown
  | _ => .plain

/-- The value of an option, if the argument after it can be one. -/
def valueOf? (arg : String) : Option String :=
  match Word.of arg with
  | .plain => if arg.isEmpty then none else some arg
  | _ => none

/-- Set what can be set only once, to something that is not empty. -/
def setOnce? (old : Option String) (new : String) : Option String :=
  if old.isSome || new.isEmpty then none else some new

/-- The one file among arguments of which none is an option. -/
def readRest (file : Option String) : List String → Option (Option String)
  | [] => some file
  | arg :: args =>
    match setOnce? file arg with
    | some arg => readRest (some arg) args
    | none => none

/-- The arguments of a command: a file, and perhaps `--config`. -/
def readCommand (outer config file : Option String) (action : Option String → Option Action) :
    List String → Request
  | [] =>
    match action file with
    | some action => .perform (config.or outer) action
    | none => .mistake
  | arg :: args =>
    match Word.of arg with
    | .help => .help
    | .version | .unknown => .mistake
    | .endOfOptions =>
      match readRest file args with
      | some file =>
        match action file with
        | some action => .perform (config.or outer) action
        | none => .mistake
      | none => .mistake
    | .config (some value) =>
      match setOnce? config value with
      | some value => readCommand outer (some value) file action args
      | none => .mistake
    | .config none =>
      match args with
      | [] => .mistake
      | value :: args =>
        match (valueOf? value).bind (setOnce? config) with
        | some value => readCommand outer (some value) file action args
        | none => .mistake
    | .plain =>
      match setOnce? file arg with
      | some file => readCommand outer config (some file) action args
      | none => .mistake

/-- The action of a command that wants no file. -/
def withoutFile (action : Action) : Option String → Option Action
  | none => some action
  | some _ => none

/-- All arguments: perhaps `--config`, then perhaps a command. -/
def readAll (config : Option String) : List String → Request
  | [] => .perform config .prompt
  | arg :: args =>
    match Word.of arg with
    | .help => .help
    | .version => .version
    | .unknown => .mistake
    | .endOfOptions => if args.isEmpty then .perform config .prompt else .mistake
    | .config (some value) =>
      match setOnce? config value with
      | some value => readAll (some value) args
      | none => .mistake
    | .config none =>
      match args with
      | [] => .mistake
      | value :: args =>
        match (valueOf? value).bind (setOnce? config) with
        | some value => readAll (some value) args
        | none => .mistake
    | .plain =>
      match arg with
      | "run" => readCommand config none none (fun file => file.map .run) args
      | "repl" => readCommand config none none (withoutFile .prompt) args
      | "tokens" => readCommand config none none (fun file => file.map .tokens) args
      | "parse" => readCommand config none none (fun file => file.map .tree) args
      | "help" => .help
      | _ => .mistake

end CommandLine

namespace Request

/-- What the arguments ask for. -/
def ofArgs (args : List String) : Request := CommandLine.readAll none args

end Request

/-! ## Doing it -/

/-- What is left of a run of the program. -/
structure Result where
  /-- The exit code. -/
  code : Nat
  /-- What was shown. -/
  screen : Screen

namespace Result

/-- A code of a script as the exit code of the program; codes that are too large or negative
become one. -/
def exitCode (code : Int) : Nat := if 0 ≤ code ∧ code ≤ 255 then code.toNat else 1

/-- A run that shows a text. -/
def output (text : String) : Result := ⟨0, Screen.empty.print text⟩

/-- A run that fails before anything is run. -/
def failure (message : String) : Result :=
  ⟨1, Screen.empty.complain ("Error: " ++ message ++ "\n")⟩

end Result

/-- What a run of the program finds around it. -/
structure Surroundings where
  /-- The files. -/
  files : FileSystem
  /-- The current directory. -/
  directory : Path
  /-- The input. -/
  input : List UInt8

namespace CommandLine

/-- A text filled up with blanks. -/
def padded (width : Nat) (text : String) : String :=
  text ++ String.ofList (List.replicate (width - text.length) ' ')

/-- A token in one line. -/
def tokenLine (lexeme : Lexeme) : String :=
  padded 10 lexeme.token.kind ++ " " ++ padded 12 lexeme.token.display ++ " @ "
    ++ lexeme.span.display ++ "\n"

/-- A run that reports an error in a file. -/
def report (name source written : String) (error : ScriptError) : Result :=
  ⟨1, (Screen.empty.print written).complain (Report.render name source error)⟩

/-- Run a script. -/
def runScript (settings : Settings) (input : List UInt8) (name source : String) : Result :=
  let (outcome, session) := (Session.new settings (.new input none) 0).run ampleFuel source
  let (written, _) := session.takeOutput
  match outcome with
  | .error e =>
    match e.exitCode? with
    | some code => ⟨Result.exitCode code, Screen.empty.print written⟩
    | none => report name source written e
  | _ => .output written

/-- List the tokens of a script. -/
def showTokens (name source : String) : Result :=
  match tokenize source with
  | .error e => report name source "" (.refused e)
  | .ok lexemes => .output (String.join (lexemes.map tokenLine))

/-- Show the tree of a script. -/
def showTree (name source : String) : Result :=
  match parseSource source with
  | .error e => report name source "" (.refused e)
  | .ok tree => .output (tree.toJson.write .indented ++ "\n")

/-- Do something with the text of a file. -/
def withSource (files : FileSystem) (name : String) (f : String → Result) : Result :=
  match files.read (Path.ofString name) with
  | .error fault => .failure fault.message
  | .ok source => f source

/-- The settings: those of the file that is asked for, or else those that count in the current
directory. -/
def settings (around : Surroundings) : Option String → Except SettingsError Settings
  | some name => Settings.load around.files name (Path.ofString name)
  | none => Settings.discover around.files around.directory

/-- Do what is asked for. -/
def act (settings : Settings) (around : Surroundings) : Action → Result
  | .run file => withSource around.files file (runScript settings around.input file)
  | .prompt =>
    let (code, screen) := Prompt.run settings around.input
    ⟨Result.exitCode code, screen⟩
  | .tokens file => withSource around.files file (showTokens file)
  | .tree file => withSource around.files file (showTree file)

/-- What the version is. -/
def versionText : String := "luminary 0.1.0\n"

/-- How the program is used. -/
def usageText : String :=
  "Usage: luminary [--config FILE] [run FILE | repl | tokens FILE | parse FILE]\n"

end CommandLine

namespace Request

/-- Do what is asked for. -/
def answer (around : Surroundings) : Request → Result
  | .version => .output CommandLine.versionText
  | .help => .output CommandLine.usageText
  | .mistake => ⟨2, Screen.empty.complain CommandLine.usageText⟩
  | .perform config action =>
    match CommandLine.settings around config with
    | .error e => .failure e.message
    | .ok settings => CommandLine.act settings around action

/-- The paths that are looked at to do what is asked for. -/
def paths (directory : Path) : Request → List Path
  | .version | .help | .mistake => []
  | .perform config action =>
    (match config with
      | some name => [Path.ofString name]
      | none => Settings.candidates directory)
    ++ match action with
      | .run file | .tokens file | .tree file => [Path.ofString file]
      | .prompt => []

end Request

end Script
