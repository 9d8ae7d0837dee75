import MonkeySyntax.Cli.Run
import Std.Time.Format

/-!
# The program

The command line on a real system: files, the standard streams and the clock. All that a run decides
is in `Cli.start`, `Cli.finish` and `Repl.respond`.
-/

namespace MonkeySyntax.Cli

/-! ### Files -/

/-- The fault behind an error of the system, if it is one that a run knows how to report. -/
def fileFault? : IO.Error → Option FileFault
  | .noFileOrDirectory .. => some .missing
  | .alreadyExists .. => some .alreadyExists
  | .inappropriateType _ code _ => some (if code = 21 then .isDirectory else .notDirectory)
  | .invalidArgument _ code _ => some (if code = 22 then .nulInPath else .nameTooLong)
  | _ => none

/-- An action on the file under a path, with the errors that a run reports. -/
def attempt {α : Type} (path : Text) (action : String → IO α) : IO (Except FileError α) := do
  try
    return .ok (← action (String.ofList path))
  catch e =>
    match fileFault? e with
    | some fault => return .error ⟨fault, path⟩
    | none => throw e

def readBytes (path : Text) : IO (Except FileError Bytes) :=
  attempt path fun name => do return (← IO.FS.readBinFile name).toList

/-- The files of the system. What cannot be read is no file. -/
def system : Host IO where
  read := readBytes
  isFile path := do
    match ← readBytes path with
    | .ok _ => return .ok true
    | .error ⟨.nameTooLong, path⟩ => return .error ⟨.nameTooLong, path⟩
    | .error _ => return .ok false
  openLog path := attempt path fun name => discard (IO.FS.Handle.mk name .append)

/-! ### Output -/

def timestamp : IO Text := do
  return ((← Std.Time.PlainDateTime.now).format "uuuu-MM-dd HH:mm:ss,SSS").toList

def writeLog (logging : Logging) (record : LogRecord) : IO Unit := do
  if logging.admits record then
    let line := String.ofList (logLine (← timestamp) record)
    match logging.file with
    | none => (← IO.getStderr).putStr line
    | some path => (← IO.FS.Handle.mk (String.ofList path) .append).putStr line

def write (logging : Option Logging) : Output → IO Unit
  | .out text => do (← IO.getStdout).putStr (String.ofList text)
  | .err text => do (← IO.getStderr).putStr (String.ofList text)
  | .log record => logging.forM (writeLog · record)

/-- Ends a run. The reason for which it broke off goes to the error output. -/
def close : Ending → IO UInt32
  | .exit code => return UInt32.ofNat code
  | .failure failure => do
    (← IO.getStderr).putStrLn ("monkey: error: " ++ String.ofList failure.message)
    return 1

/-! ### Sessions -/

/-- The bytes up to the end of a line, after those that were read before. -/
partial def lineBytes (stream : IO.FS.Stream) (before : Bytes) : IO Bytes := do
  match (← stream.read 1).toList with
  | [] => return before.reverse
  | b :: _ => if b = 0x0a then return (b :: before).reverse else lineBytes stream (b :: before)

/-- The next line of a session and those that arrived with it, or none at the end. -/
def nextLines : List Text → IO (Except Utf8.Error (List Text))
  | [] => do
    let arrived ← lineBytes (← IO.getStdin) []
    return (Utf8.decode arrived).map fun text => inputLines (unifyLineEndings text)
  | lines => return .ok lines

/-- Holds a session with a user, who sees each answer before typing the next line. -/
partial def converse (logging : Logging) (settings : Settings.Loaded) (prompt : Text)
    (lines : List Text) : IO Ending := do
  write logging (.out prompt)
  (← IO.getStdout).flush
  match ← nextLines lines with
  | .error e => return .failure (.undecodable e)
  | .ok [] => return .exit 0
  | .ok (line :: rest) =>
    let response := Repl.respond (sessionSettings settings prompt) line
    (logged response.events).forM (write logging)
    match response.outcome with
    | .error numeral => return .failure (.tooLong numeral)
    | .ok text =>
      if canWrite settings response then
        write logging (.out text)
        converse logging settings prompt rest
      else return .failure (.unencodable (unwritten settings))

end MonkeySyntax.Cli

open MonkeySyntax Cli in
def main (arguments : List String) : IO UInt32 := do
  match ← start system (arguments.map String.toList) with
  | .session logging settings =>
    match chars? settings.prompt with
    | none => close (.failure (.unencodable ⟨settings.prompt⟩))
    | some prompt => close (← converse logging settings prompt [])
  | started =>
    let input ← match started with
      | .source _ _ _ .standardInput => do pure (← (← IO.getStdin).readBinToEnd).toList
      | _ => pure []
    let (logging, outputs, ending) := finish input started
    outputs.forM (write logging)
    close ending
