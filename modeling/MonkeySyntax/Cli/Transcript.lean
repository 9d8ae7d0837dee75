import MonkeySyntax.Cli.Run

/-!
# Transcripts

A run of the command line on a tree of files and a given standard input, with all that it writes.
-/

namespace MonkeySyntax

/-- The path that a path means from the working directory: `..` takes back the name before it. -/
def FileTree.absolutePath (tree : FileTree) (path : Text) : Text :=
  let start := if path.head? = some '/' then [] else tree.workingDirectory
  let names := (parts path).foldl (fun names part =>
    if part = [] ∨ part = ['.'] then names
    else if part = ['.', '.'] then names.dropLast
    else names ++ [part]) start
  (if path.head? = some '/' then FileTree.leadingSlashes path else ['/']) ++ joined ['/'] names

def FileTree.host : Cli.Host (StateM FileTree) where
  read path := do return (← get).read path
  isFile path := do return (← get).isFile path
  openLog path := do
    let tree ← get
    match tree.appendFile (tree.absolutePath path) [] with
    | .error e => return .error e
    | .ok opened =>
      set opened
      return .ok ()

namespace Cli

namespace Output

def standardText : Output → Text
  | .out text => text
  | _ => []

/-- What an output adds to the log; `time` stands at the beginning of a line. -/
def logText (time : Text) (logging : Logging) : Output → Text
  | .log record => if logging.admits record then logLine time record else []
  | _ => []

/-- What an output adds to the error output, where the log goes that has no file. -/
def errorText (time : Text) (logging : Option Logging) : Output → Text
  | .err text => text
  | output =>
    match logging with
    | some ⟨weight, none⟩ => output.logText time ⟨weight, none⟩
    | _ => []

end Output

structure Transcript where
  standardOutput : Text
  errorOutput : Text
  files : FileTree

def withLog (files : FileTree) (logging : Option Logging) (log : Logging → Text) : FileTree :=
  match logging with
  | some ⟨weight, some path⟩ =>
    match files.appendFile (files.absolutePath path) (Utf8.encode (log ⟨weight, some path⟩)) with
    | .ok written => written
    | .error _ => files
  | _ => files

def run (time : Text) (arguments : List Text) (input : Bytes) (files : FileTree) :
    Transcript × Ending :=
  let (start, files) := (start FileTree.host arguments).run files
  let (logging, outputs, ending) := finish input start
  ({ standardOutput := outputs.flatMap Output.standardText
     errorOutput := outputs.flatMap (Output.errorText time logging)
     files := withLog files logging fun logging => outputs.flatMap (Output.logText time logging) },
    ending)

end Cli

end MonkeySyntax
