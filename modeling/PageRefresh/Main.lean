import PageRefresh.CommandLine.Run
import Std.Time.Format

/-!
The program: it looks up what a command needs to know, has it carried out, and prints what comes of
it.

A log line is one event as `Event.render` writes it, with no time and no place in the program, and
the log follows what the command itself has to say. A command that fails has said why; the line that
would follow, `Error:` and the error in a form made for debugging, is left out.
-/

namespace PageRefresh.CommandLine

/-- What there is at a path. -/
def lookUp (path : String) : IO Source := do
  try
    return .file (← IO.FS.readBinFile path)
  catch
    | .noFileOrDirectory .. => return .missing
    | .inappropriateType .. => return .directory
    | e => return .unreadable (toString e)

/-- The time of day in universal time. -/
def timeOfDay : IO String := do
  let now ← Std.Time.Timestamp.now
  return (Std.Time.DateTime.ofTimestamp now .UTC).format "uuuu-MM-dd'T'HH:mm:ss.SSSSSSSSS'Z'"

def lookAround : IO Environment := do
  let home ← IO.getEnv "HOME"
  let directory := toString (← IO.currentDir)
  let user ← match home with
    | some home => lookUp (configPath home)
    | none => pure .missing
  let project ← lookUp (configPath directory)
  return { home, directory, user, project, now := ⟨← IO.monoNanosNow⟩, time := ← timeOfDay }

/-- Do what the arguments ask for; the exit code. -/
def runProgram (args : List String) : IO UInt32 := do
  match Invocation.read args with
  | .error e =>
      if e.exitCode = 0 then IO.println e.message else IO.eprintln e.message
      return UInt32.ofNat e.exitCode
  | .ok invocation =>
      let output := run (← lookAround) invocation.command
      output.printed.forM IO.println
      (output.stderr invocation.verbose).forM IO.eprintln
      return UInt32.ofNat output.exitCode

end PageRefresh.CommandLine

def main (args : List String) : IO UInt32 :=
  PageRefresh.CommandLine.runProgram args
