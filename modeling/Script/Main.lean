import Script.CommandLine

/-!
# The program

Reads the files and the input that a request is about, and shows what comes of it.
-/

namespace Script.Program

/-- What is known about a path after a look at it. -/
def lookAt (path : Path) : IO (Except FileFault String) := do
  try
    let bytes ← IO.FS.readBinFile path.display
    return (String.fromUTF8? bytes).elim (.error .notText) .ok
  catch e =>
    match e with
    | .inappropriateType _ code _ =>
      return .error (if code = 21 ∨ code = -21 then .isDirectory else .notDirectory)
    | .permissionDenied .. => return .error .denied
    | _ => return .error .missing

/-- The bytes of a stream, after those that were read already. -/
partial def readAll (stream : IO.FS.Stream) (before : ByteArray) : IO ByteArray := do
  let more ← stream.read 65536
  if more.isEmpty then return before else readAll stream (before ++ more)

/-- Do what the arguments ask for. -/
def run (args : List String) : IO UInt32 := do
  let request := Request.ofArgs args
  let directory := Path.ofString (← IO.currentDir).toString
  let known ← (request.paths directory).mapM fun path => return (path, ← lookAt path)
  let input ← match request with
    | .perform _ (.run _) | .perform _ .prompt => readAll (← IO.getStdin) .empty
    | _ => pure .empty
  let result := request.answer ⟨.ofKnown known, directory, input.toList⟩
  IO.print result.screen.out
  IO.eprint result.screen.err
  return result.code.toUInt32

end Script.Program

/-- The entry point. -/
def main (args : List String) : IO UInt32 := Script.Program.run args
