import MonkeySyntax.Cli.Logging
import MonkeySyntax.Cli.Options
import MonkeySyntax.Cli.Usage
import MonkeySyntax.Cli.View
import MonkeySyntax.Repl

/-!
# Runs of the command line

A run reads its options, its settings and its source from a host, and then shows the source or holds
a session. The standard output takes no surrogates, and the error output shows them by their
escapes. `holdSession_raw` says how a session goes without any.
-/

namespace MonkeySyntax.Cli

inductive Failure where
  | settings (error : LoadError)
  | file (error : FileError)
  | undecodable (error : Utf8.Error)
  | noLevel (layout : Layout)
  | tooLong (numeral : Decimal.TooLong)
  | unencodable (text : Unencodable)

def Failure.message : Failure → Text
  | settings e => e.message
  | file e => e.message
  | undecodable e => e.message
  | noLevel layout => layout.message
  | tooLong numeral => numeral.message
  | unencodable text => text.message

/-- How a run ends: with an exit code, or by breaking off. -/
inductive Ending where
  | exit (code : Nat)
  | failure (failure : Failure)

/-- What a run needs of the system that it runs on. -/
structure Host (m : Type → Type) where
  read : Text → m (Except FileError Bytes)
  isFile : Text → m (Except FileError Bool)
  /-- Makes sure that a log file can be appended to. -/
  openLog : Text → m (Except FileError Unit)

/-- The bytes of a source: those of a file, or all of the standard input. -/
inductive Source where
  | file (content : Bytes)
  | standardInput

inductive Start where
  | done (outputs : List Output) (ending : Ending)
  | session (logging : Logging) (settings : Settings.Loaded)
  | source (logging : Logging) (view : View) (filename : Text) (source : Source)

/-- Whether settings that cannot be loaded are reported in words: when the file cannot be read or is
no JSON. Any other reason breaks the run off. -/
def isReported : LoadError → Bool
  | .unreadable e => e.fault.numbered?.isSome
  | .malformed (.fault ..) => true
  | _ => false

def withoutSettings (path : Text) (e : LoadError) : Start :=
  if isReported e then
    .done [.err ("Error: Cannot load settings from ".toList ++ path ++ ':' :: ' ' :: e.message ++
      ['\n'])] (.exit 1)
  else .done [] (.failure (.settings e))

/-- The level that options and settings ask for. An empty option counts as none. -/
def levelOf (options : Options) (settings : Settings.Loaded) : RawText :=
  match options.logLevel with
  | some (c :: level) => codePoints (c :: level)
  | _ => settings.logLevel

section

variable {m : Type → Type} [Monad m] (host : Host m)

def findSource (options : Options) (settings : Settings.Loaded) (logging : Logging) : m Start := do
  let view : View := ⟨options.tokens, options.ast⟩
  match options.input with
  | none => return .session logging settings
  | some ['-'] => return .source logging view (shownRaw settings.filename) .standardInput
  | some path =>
    match ← host.isFile (FileTree.plainPath path) with
    | .error e => return .done [] (.failure (.file e))
    | .ok false =>
      return .done [.err ("Error: File not found: ".toList ++ path ++ ['\n'])] (.exit 1)
    | .ok true =>
      match ← host.read (FileTree.plainPath path) with
      | .error e => return .done [] (.failure (.file e))
      | .ok content => return .source logging view path (.file content)

def startLogged (options : Options) (settings : Settings.Loaded) (file : Option Text) : m Start :=
  match weightOf (levelOf options settings) with
  | .error layout => return .done [] (.failure (.noLevel layout))
  | .ok weight => findSource host options settings ⟨weight, file⟩

/-- Goes on with a run whose settings are known. An empty name of a log file counts as none. -/
def startWith (options : Options) (settings : Settings.Loaded) : m Start := do
  match options.logFile with
  | none | some [] => startLogged host options settings none
  | some path =>
    match ← host.openLog path with
    | .error e => return .done [] (.failure (.file e))
    | .ok () => startLogged host options settings (some path)

def startRun (options : Options) : m Start := do
  match options.settings with
  | none | some [] => startWith host options ({} : Settings).raw
  | some path =>
    match Settings.ofFile (← host.read path) with
    | .error e => return withoutSettings path e
    | .ok settings => startWith host options settings

def start (arguments : List Text) : m Start :=
  match Options.parse arguments with
  | .error refusal =>
    return .done [.err (usage ++ "monkey: error: ".toList ++ refusal.message ++ ['\n'])] (.exit 2)
  | .ok .help => return .done [.out help] (.exit 0)
  | .ok (.run options) => startRun host options

end

/-! ### The rest of a run -/

def showBytes (view : View) (filename : Text) (content : Bytes) : List Output × Ending :=
  match Utf8.decode content with
  | .error e => ([], .failure (.undecodable e))
  | .ok text =>
    match showSource view (unifyLineEndings text) filename with
    | (outputs, .exit code) => (outputs, .exit code)
    | (outputs, .tooLong numeral) => (outputs, .failure (.tooLong numeral))

/-- The settings of a session whose prompt can be written. -/
def sessionSettings (settings : Settings.Loaded) (prompt : Text) : Settings where
  prompt := prompt
  filename := shownRaw settings.filename
  showFace := settings.showFace
  logLevel := shownRaw settings.logLevel

/-- Whether an answer can be written. A report names the source, whose name may hold surrogates. -/
def canWrite (settings : Settings.Loaded) (answer : Repl.Answer) : Bool :=
  (chars? settings.filename).isSome || !answer.events.any fun
    | .lineRejected _ => true
    | _ => false

/-- The beginning of a report, with all that cannot be written of it. -/
def unwritten (settings : Settings.Loaded) : Unencodable :=
  ⟨codePoints (Report.ofTexts settings.showFace [] ++ ['\t']) ++ settings.filename⟩

/-- Holds a session over the lines that arrive on the standard input. -/
def holdSession (settings : Settings.Loaded) (input : Bytes) : List Output × Ending :=
  match chars? settings.prompt with
  | none => ([], .failure (.unencodable ⟨settings.prompt⟩))
  | some prompt =>
    let shown := sessionSettings settings prompt
    let (lines, fault) := Utf8.arrivingLines input
    let written := fun line => canWrite settings (Repl.respond shown line)
    let session := Repl.session shown (lines.takeWhile written)
    match session.stopped, (lines.dropWhile written).head? with
    | some numeral, _ =>
      (logged session.events ++ [.out session.output], .failure (.tooLong numeral))
    | none, some line =>
      (logged (session.events ++ (Repl.respond shown line).events) ++ [.out session.output],
        .failure (.unencodable (unwritten settings)))
    | none, none =>
      (logged session.events ++ [.out session.output],
        match fault with
        | some e => .failure (.undecodable e)
        | none => .exit 0)

theorem sessionSettings_raw (settings : Settings) :
    sessionSettings settings.raw settings.prompt = settings := by
  simp only [sessionSettings, Settings.raw, shownRaw_codePoints]

/-- Without surrogates all answers are written. -/
theorem holdSession_raw (settings : Settings) (input : Bytes) :
    holdSession settings.raw input =
      let (lines, fault) := Utf8.arrivingLines input
      let session := Repl.session settings lines
      (logged session.events ++ [.out session.output],
        match session.stopped, fault with
        | some numeral, _ => .failure (.tooLong numeral)
        | none, some e => .failure (.undecodable e)
        | none, none => .exit 0) := by
  have written (answer : Repl.Answer) : canWrite settings.raw answer = true := by
    rw [canWrite, Settings.raw, chars?_codePoints]
    rfl
  have prompted : chars? settings.raw.prompt = some settings.prompt := chars?_codePoints _
  have all (lines : List Text) : (lines.takeWhile fun _ => true) = lines ∧
      (lines.dropWhile fun _ => true) = [] := by
    induction lines with
    | nil => exact ⟨rfl, rfl⟩
    | cons line lines ih => exact ⟨congrArg (line :: ·) ih.1, ih.2⟩
  unfold holdSession
  rw [prompted]
  simp only [sessionSettings_raw, written, all, List.head?_nil]
  cases (Repl.session settings (Utf8.arrivingLines input).1).stopped with
  | some numeral => rfl
  | none => cases (Utf8.arrivingLines input).2 <;> rfl

/-- What a run that has started writes, where its log goes, and how it ends. -/
def finish (input : Bytes) : Start → Option Logging × List Output × Ending
  | .done outputs ending => (none, outputs, ending)
  | .session logging settings => (some logging, holdSession settings input)
  | .source logging view filename (.file content) =>
    (some logging, showBytes view filename content)
  | .source logging view filename .standardInput =>
    (some logging, showBytes view filename input)

end MonkeySyntax.Cli
