import Script.CommandLine
import Script.Json.Reader
import Script.Main
import Script.Proofs.Tree.Bare
import Script.Proofs.Tree.Alike
import Script.Proofs.Parser.Runs
import Script.Proofs.Parser.Rules
import Script.Proofs.Parser.Cursor
import Script.Proofs.Parser.Predictive
import Script.Proofs.Tree.Printer
import Script.Proofs.Parser.Levels
import Script.Proofs.Parser.Phrases
import Script.Proofs.Parser.Blocks
import Script.Proofs.Parser.RoundTrip
import Script.Proofs.Parser.Recognizer
import Script.Proofs.Machine.Frame
import Script.Proofs.Machine.Reachable
import Script.Proofs.Machine.ControlFlow
import Script.Proofs.Machine.Limits
import Script.Proofs.Machine.Settles
import Script.Proofs.Machine.LoopFree
import Script.Proofs.Parser.Tracking
import Script.Proofs.Parser.EarliestError
import Script.Proofs.Token.Denotation
import Script.Proofs.Token.Tiling
import Script.Proofs.Number.Positional
import Script.Proofs.Token.Display
import Script.Proofs.Json.Numerals
import Script.Proofs.Json.RoundTrip
import Script.Proofs.Machine.Stages
import Script.Proofs.Machine.Raising
import Script.Proofs.Machine.Unwinding
import Script.Proofs.Parser.OpenPhrases
import Script.Proofs.Parser.Extents
import Script.Proofs.Parser.Success
import Script.Proofs.Parser.Readings
import Script.Proofs.Parser.Programs
import Script.Proofs.Parser.SourceText
import Script.Proofs.Value.Likeness
import Script.Proofs.Machine.Alongside
import Script.Proofs.Parser.Layouts
import Script.Proofs.Machine.Relayout
import Script.Proofs.Parser.Nesting
import Script.Proofs.Machine.Origins
import Script.Proofs.Machine.Blame
import Script.Proofs.Prompt.Reports
import Script.Proofs.Parser.Joining
import Script.Proofs.Machine.LineByLine
import Script.Proofs.Machine.Unread
import Script.Proofs.Tree.Storage
import Script.Proofs.Report.LineStarts
import Script.Proofs.Report.Locations
import Script.Proofs.Token.LexicalErrors
import Script.Proofs.Machine.Determined
import Script.Proofs.Machine.CallDepth
import Script.Proofs.Machine.Counting
import Script.Proofs.Machine.Splitting
import Script.Proofs.Scope.History
import Script.Proofs.Value.Repetition
import Script.Proofs.Console.Lines
import Script.Proofs.Parser.Steps
import Script.Proofs.Parser.Trails
import Script.Proofs.Parser.CursorSafety
import Script.Proofs.Settings.Nearest
import Script.Proofs.Machine.Histories
import Script.Proofs.Value.Equality
import Script.Proofs.Machine.Identity
import Script.Proofs.Parser.Names
import Script.Proofs.Prompt.Listing
