/-
  The program on a machine.

  Everything that a command may look at is read here, the command is run, and its
  report is written.  Files that are not needed are not touched.
-/
import SignGloss.Command.Run

namespace SignGloss.Main

open Command

/-- The failure that the system reports. -/
def failureOf : IO.Error → ReadFailure
  | .noFileOrDirectory .. => .missing
  | .inappropriateType _ code _ => if code = 21 ∨ code = -21 then .directory else .notDirectory
  | .invalidArgument _ code _ =>
    if code = 36 ∨ code = -36 then .nameTooLong else .system "Invalid argument (os error 22)"
  | .permissionDenied .. => .system "Permission denied (os error 13)"
  | e => .system (toString e)

/-- Read a file. -/
def readPath (path : String) : IO (Except ReadFailure String) := do
  try
    return textOfBytes (← IO.FS.readBinFile path)
  catch e => return .error (failureOf e)

/-- Read a stream to its end. -/
partial def readStream (s : IO.FS.Stream) (before : ByteArray) : IO ByteArray := do
  let bytes ← s.read 65536
  if bytes.isEmpty then return before else readStream s (before ++ bytes)

/-- The paths that a command line refers to. -/
def paths (i : Invocation) : List String :=
  i.settings.catalog.toList ++
    match i.task with
    | .interpret (.file path) _ => [path]
    | _ => []

/-- The command line reads the standard input. -/
def readsInput (i : Invocation) : Bool :=
  match i.task with
  | .interpret .input _ => true
  | _ => false

/-- Look at what a command line refers to. -/
def look (vars : Variables) (args : List String) : IO Surroundings := do
  match Invocation.read vars args with
  | .error _ => return ⟨vars, .ok "", fun _ => .error .missing⟩
  | .ok i =>
    let input ← if readsInput i then
        textOfBytes <$> readStream (← IO.getStdin) .empty
      else pure (.ok "")
    let texts ← (paths i).mapM fun path => return (path, ← readPath path)
    return ⟨vars, input, fun path =>
      ((texts.find? fun t => t.1 = path).map Prod.snd).getD (.error .missing)⟩

end SignGloss.Main

/-- Run a command line. -/
def main (args : List String) : IO UInt32 := do
  let vars : SignGloss.Command.Variables :=
    ⟨← IO.getEnv "SIGNTERP_CATALOG", ← IO.getEnv "SIGNTERP_LOCALE"⟩
  let report := SignGloss.Command.run (← SignGloss.Main.look vars args) args
  (← IO.getStderr).putStr (SignGloss.Command.closedLines report.errors)
  (← IO.getStdout).putStr (SignGloss.Command.closedLines report.output)
  return UInt32.ofNat report.status
