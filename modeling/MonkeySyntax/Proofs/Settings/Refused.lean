import Mathlib
import MonkeySyntax.Cli.Transcript
import MonkeySyntax.Proofs.Text.Encoding

/-!
# Settings that cannot be loaded

A run that is told to take its settings from a file goes on with what was loaded, or says why
nothing was and exits. It does neither, but breaks off, where the file is no text, holds JSON that
is no object or a numeral that is too long, or cannot have the name it is given: `run_takesSettings`.
What can still go wrong with settings that were loaded is `BrokenOff`.
-/

namespace MonkeySyntax

namespace Settings

variable {files : FileTree} {path : Text}

/-- A file holds a text, once its line endings are unified. -/
def Holds (files : FileTree) (path text : Text) : Prop :=
  ∃ written, files.read path = .ok (Utf8.encode written) ∧ text = unifyLineEndings written

/-- The errors that a run reports: there is nothing to read, or it is no JSON. -/
inductive Reported (files : FileTree) (path : Text) : LoadError → Prop
  | unreadable {e : FileError} : files.read path = .error e → e.fault ≠ .nulInPath →
      Reported files path (.unreadable e)
  | malformed {text : Text} {fault : Json.Fault} {line column offset : Nat} :
      Holds files path text → Json.read text = .error (.fault fault line column offset) →
      Reported files path (.malformed (.fault fault line column offset))

/-- The errors that break a run off. -/
inductive Unreported (files : FileTree) (path : Text) : LoadError → Prop
  | nulInPath {e : FileError} : files.read path = .error e → e.fault = .nulInPath →
      Unreported files path (.unreadable e)
  | notText {content : Bytes} {e : Utf8.Error} : files.read path = .ok content →
      (∀ text, Utf8.encode text ≠ content) → Utf8.decode content = .error e →
      Unreported files path (.undecodable e)
  | tooLong {text : Text} {numeral : Decimal.TooLong} : Holds files path text →
      Json.read text = .error (.tooLong numeral) →
      Unreported files path (.malformed (.tooLong numeral))
  | notAnObject {text : Text} {value : Json.Value} : Holds files path text →
      Json.read text = .ok value → (∀ members, value ≠ .object members) →
      Unreported files path (.notAnObject value)

theorem load_of_holds {text : Text} (holds : Holds files path text) :
    load files path =
      match Json.read text with
      | .error e => .error (.malformed e)
      | .ok (.object members) => .ok (ofMembers members)
      | .ok value => .error (.notAnObject value) := by
  obtain ⟨written, found, rfl⟩ := holds
  have decoded : Utf8.decode (Utf8.encode written) = .ok written := Utf8.decode_eq_ok_iff.mpr rfl
  rw [load, found, ofFile, ofBytes]
  split
  · rename_i failed
    rw [decoded] at failed
    contradiction
  · rename_i text isText
    obtain rfl := Except.ok.inj (decoded.symm.trans isText)
    rfl

theorem load_of_reported {e : LoadError} (reported : Reported files path e) :
    load files path = .error e := by
  cases reported with
  | unreadable failed _ => rw [load, failed, ofFile]
  | malformed holds failed => rw [load_of_holds holds, failed]

theorem load_of_unreported {e : LoadError} (unreported : Unreported files path e) :
    load files path = .error e := by
  cases unreported with
  | nulInPath failed _ => rw [load, failed, ofFile]
  | notText found _ failed => rw [load, found, ofFile, ofBytes, failed]
  | tooLong holds failed => rw [load_of_holds holds, failed]
  | notAnObject holds found other =>
    rw [load_of_holds holds, found]
    split
    · contradiction
    · rename_i members same
      exact absurd (Except.ok.inj same) (other members)
    · rename_i value _ same
      rw [Except.ok.inj same]

theorem load_eq_error_iff {e : LoadError} :
    load files path = .error e ↔ Reported files path e ∨ Unreported files path e := by
  refine ⟨?_, fun h => h.elim load_of_reported load_of_unreported⟩
  intro failed
  cases found : files.read path with
  | error fault =>
    rw [load, found] at failed
    cases failed
    by_cases isNul : fault.fault = .nulInPath
    · exact .inr (.nulInPath found isNul)
    · exact .inl (.unreadable found isNul)
  | ok content =>
    cases decoded : Utf8.decode content with
    | error fault =>
      rw [load, found, ofFile, ofBytes, decoded] at failed
      cases failed
      refine .inr (.notText found (fun text isText => ?_) decoded)
      rw [Utf8.decode_eq_ok_iff.mpr isText] at decoded
      contradiction
    | ok text =>
      obtain rfl := Utf8.decode_eq_ok_iff.mp decoded
      have holds : Holds files path (unifyLineEndings text) := ⟨text, found, rfl⟩
      rw [load_of_holds holds] at failed
      split at failed
      · rename_i e read
        cases failed
        cases e with
        | fault => exact .inl (.malformed holds read)
        | tooLong numeral => exact .inr (.tooLong holds read)
      · contradiction
      · rename_i value other read
        cases failed
        refine .inr (.notAnObject holds read ?_)
        rintro members rfl
        exact other members rfl

end Settings

namespace Cli

open Settings (Reported Unreported load)

/-! ### What a run makes of them -/

theorem isReported_of_reported {files : FileTree} {path : Text} {e : LoadError}
    (reported : Reported files path e) : isReported e = true := by
  cases reported with
  | @unreadable e _ numbered =>
    obtain ⟨fault, path⟩ := e
    cases fault <;> first | rfl | exact absurd rfl numbered
  | malformed => rfl

theorem isReported_of_unreported {files : FileTree} {path : Text} {e : LoadError}
    (unreported : Unreported files path e) : isReported e = false := by
  cases unreported with
  | @nulInPath e _ isNul =>
    obtain ⟨fault, path⟩ := e
    obtain rfl : fault = .nulInPath := isNul
    rfl
  | notText => rfl
  | tooLong => rfl
  | notAnObject => rfl

/-- Why a run breaks off whose settings were loaded. -/
inductive BrokenOff (options : Options) (settings : Settings.Loaded) : Failure → Prop
  | file {e : FileError} : BrokenOff options settings (.file e)
  | noLevel {layout : Layout} : weightOf (levelOf options settings) = .error layout →
      BrokenOff options settings (.noLevel layout)
  | undecodable {e : Utf8.Error} : BrokenOff options settings (.undecodable e)
  | tooLong {numeral : Decimal.TooLong} : BrokenOff options settings (.tooLong numeral)
  | unencodable {text : Unencodable} : options.input = none →
      chars? settings.prompt = none ∨ chars? settings.filename = none →
      BrokenOff options settings (.unencodable text)

/-- What a run with settings comes to before its source is shown or its session is held. -/
inductive Starts (options : Options) (settings : Settings.Loaded) : Start → Prop
  | brokenOff {outputs : List Output} {failure : Failure} : BrokenOff options settings failure →
      Starts options settings (.done outputs (.failure failure))
  | refused {outputs : List Output} {code : Nat} :
      Starts options settings (.done outputs (.exit code))
  | session {logging : Logging} : options.input = none →
      Starts options settings (.session logging settings)
  | source {logging : Logging} {view : View} {filename : Text} {source : Source} :
      Starts options settings (.source logging view filename source)

theorem brokenOff_of_showBytes {options : Options} {settings : Settings.Loaded} {failure : Failure}
    {view : View} {filename : Text} {content : Bytes}
    (ended : (showBytes view filename content).2 = .failure failure) :
    BrokenOff options settings failure := by
  unfold showBytes at ended
  split at ended
  · cases ended
    exact .undecodable
  · split at ended
    · contradiction
    · cases ended
      exact .tooLong

theorem chars?_filename_of_canWrite {settings : Settings.Loaded} {answer : Repl.Answer}
    (unwritable : canWrite settings answer = false) : chars? settings.filename = none :=
  Option.not_isSome_iff_eq_none.mp (Bool.eq_false_iff.mp (Bool.or_eq_false_iff.mp unwritable).1)

theorem brokenOff_of_holdSession {options : Options} {settings : Settings.Loaded}
    {failure : Failure} {input : Bytes} (noInput : options.input = none)
    (ended : (holdSession settings input).2 = .failure failure) :
    BrokenOff options settings failure := by
  unfold holdSession at ended
  split at ended
  · rename_i unwritable
    cases ended
    exact .unencodable noInput (.inl unwritable)
  · rename_i prompt _
    let written := fun line =>
      canWrite settings (Repl.respond (sessionSettings settings prompt) line)
    have stops := List.head?_dropWhile_not written (Utf8.arrivingLines input).1
    dsimp only at ended
    split at ended
    · cases ended
      exact .tooLong
    · rename_i line _ next
      cases ended
      rw [next] at stops
      exact .unencodable noInput (.inr (chars?_filename_of_canWrite stops))
    · split at ended
      · cases ended
        exact .undecodable
      · contradiction

theorem brokenOff_of_finish {options : Options} {settings : Settings.Loaded} {failure : Failure}
    {input : Bytes} {start : Start} (starts : Starts options settings start)
    (ended : (finish input start).2.2 = .failure failure) : BrokenOff options settings failure := by
  cases starts with
  | brokenOff reason =>
    cases ended
    exact reason
  | refused => contradiction
  | session noInput => exact brokenOff_of_holdSession noInput ended
  | @source _ _ _ source =>
    cases source with
    | file content => exact brokenOff_of_showBytes ended
    | standardInput => exact brokenOff_of_showBytes ended

section

variable {files : FileTree} {options : Options} {settings : Settings.Loaded}
  {outputs : List Output} {path : Text}

theorem read_run : (FileTree.host.read path).run files = pure (files.read path, files) := rfl

theorem isFile_run : (FileTree.host.isFile path).run files = pure (files.isFile path, files) := rfl

theorem openLog_run :
    (FileTree.host.openLog path).run files =
      match files.appendFile (files.absolutePath path) [] with
      | .error e => pure (.error e, files)
      | .ok opened => pure (.ok (), opened) := by
  simp only [FileTree.host, StateT.run_bind, StateT.run_get, pure_bind]
  cases files.appendFile (files.absolutePath path) [] with
  | error e => rfl
  | ok opened => rfl

theorem starts_findSource (options : Options) (settings : Settings.Loaded) (logging : Logging)
    (files : FileTree) :
    Starts options settings ((findSource FileTree.host options settings logging).run files).1 := by
  unfold findSource
  split
  · rename_i noInput
    exact .session noInput
  · exact .source
  · rename_i path _ _
    rw [StateT.run_bind, isFile_run, pure_bind]
    cases files.isFile (FileTree.plainPath path) with
    | error e => exact .brokenOff .file
    | ok there =>
      cases there with
      | false => exact .refused
      | true =>
        dsimp only
        rw [StateT.run_bind, read_run, pure_bind]
        cases files.read (FileTree.plainPath path) with
        | error e => exact .brokenOff .file
        | ok content => exact .source

theorem starts_startLogged (options : Options) (settings : Settings.Loaded) (file : Option Text)
    (files : FileTree) :
    Starts options settings ((startLogged FileTree.host options settings file).run files).1 := by
  unfold startLogged
  split
  · rename_i noLevel
    exact .brokenOff (.noLevel noLevel)
  · exact starts_findSource options settings _ files

/-- The log goes to a file that can be opened, or to none. -/
def LogOpens (options : Options) (files : FileTree) : Prop :=
  ∀ path, options.logFile = some path → path ≠ [] →
    ∃ opened, files.appendFile (files.absolutePath path) [] = .ok opened

theorem run_startWith (options : Options) (settings : Settings.Loaded) (files : FileTree) :
    (∃ e, (startWith FileTree.host options settings).run files =
        (.done [] (.failure (.file e)), files) ∧ ¬ LogOpens options files) ∨
      ∃ file opened, (startWith FileTree.host options settings).run files =
        (startLogged FileTree.host options settings file).run opened := by
  unfold startWith
  split
  · exact .inr ⟨none, files, rfl⟩
  · exact .inr ⟨none, files, rfl⟩
  · rename_i path named wanted
    rw [StateT.run_bind, openLog_run]
    cases opening : files.appendFile (files.absolutePath path) [] with
    | error e =>
      refine .inl ⟨e, rfl, fun opens => ?_⟩
      obtain ⟨opened, opening'⟩ := opens path wanted named
      rw [opening] at opening'
      contradiction
    | ok opened => exact .inr ⟨some path, opened, rfl⟩

theorem starts_startWith (options : Options) (settings : Settings.Loaded) (files : FileTree) :
    Starts options settings ((startWith FileTree.host options settings).run files).1 := by
  obtain ⟨e, run, _⟩ | ⟨file, opened, run⟩ := run_startWith options settings files
  · rw [run]
    exact .brokenOff .file
  · rw [run]
    exact starts_startLogged options settings file opened

theorem startLogged_of_opens (opens : LogOpens options files) :
    ∃ file opened, (startWith FileTree.host options settings).run files =
      (startLogged FileTree.host options settings file).run opened := by
  obtain ⟨e, _, closed⟩ | logged := run_startWith options settings files
  · exact absurd opens closed
  · exact logged

theorem noLevel_of_startWith {layout : Layout} (opens : LogOpens options files)
    (noLevel : weightOf (levelOf options settings) = .error layout) :
    ∃ opened, (startWith FileTree.host options settings).run files =
      (.done [] (.failure (.noLevel layout)), opened) := by
  obtain ⟨file, opened, run⟩ := startLogged_of_opens opens
  refine ⟨opened, ?_⟩
  rw [run, startLogged, noLevel]
  rfl

theorem session_of_startWith {weight : Nat} (opens : LogOpens options files)
    (level : weightOf (levelOf options settings) = .ok weight) (noInput : options.input = none) :
    ∃ file opened, (startWith FileTree.host options settings).run files =
      (.session ⟨weight, file⟩ settings, opened) := by
  obtain ⟨file, opened, run⟩ := startLogged_of_opens opens
  refine ⟨file, opened, ?_⟩
  rw [run, startLogged, level]
  dsimp only
  rw [findSource, noInput]
  rfl

theorem run_of_done {time : Text} {arguments : List Text} {input : Bytes} {ending : Ending}
    (started : (start FileTree.host arguments).run files = (.done outputs ending, files)) :
    run time arguments input files =
      (⟨outputs.flatMap Output.standardText, outputs.flatMap (Output.errorText time none), files⟩,
        ending) := by
  rw [run, started]
  rfl

end

/-- What a run makes of the file that it is told to take its settings from. -/
structure TakesSettings (time : Text) (arguments : List Text) (input : Bytes) (files : FileTree)
    (options : Options) (path : Text) : Prop where
  goesOn {settings : Settings.Loaded} : load files path = .ok settings →
    (start FileTree.host arguments).run files = (startWith FileTree.host options settings).run files
  reports {e : LoadError} : Reported files path e →
    run time arguments input files =
      (⟨[], "Error: Cannot load settings from ".toList ++ path ++ ':' :: ' ' :: e.message ++ ['\n'],
        files⟩, .exit 1)
  breaksOff {e : LoadError} : Unreported files path e →
    run time arguments input files = (⟨[], [], files⟩, .failure (.settings e))
  /-- There is no fourth way. -/
  settled : (∃ settings, load files path = .ok settings) ∨ (∃ e, Reported files path e) ∨
    ∃ e, Unreported files path e
  blamed {e : LoadError} :
    (run time arguments input files).2 = .failure (.settings e) ↔ Unreported files path e
  /-- A run whose settings were loaded breaks off over them if their level names a layout. -/
  level {settings : Settings.Loaded} {layout : Layout} : load files path = .ok settings →
    LogOpens options files →
    ((run time arguments input files).2 = .failure (.noLevel layout) ↔
      upperRaw (levelOf options settings) = codePoints layout.name)
  /-- A session whose prompt cannot be written breaks off at once. -/
  prompt {settings : Settings.Loaded} : load files path = .ok settings → LogOpens options files →
    (∀ layout : Layout, upperRaw (levelOf options settings) ≠ codePoints layout.name) →
    options.input = none → chars? settings.prompt = none →
    (run time arguments input files).2 = .failure (.unencodable ⟨settings.prompt⟩)
  /-- Only sessions break off over what cannot be written, and only over a prompt or a name. -/
  unencodable {settings : Settings.Loaded} {text : Unencodable} : load files path = .ok settings →
    (run time arguments input files).2 = .failure (.unencodable text) →
    options.input = none ∧ (chars? settings.prompt = none ∨ chars? settings.filename = none)

section

variable {arguments : List Text} {files : FileTree} {options : Options} {path : Text}
  (parsed : Options.parse arguments = .ok (.run options)) (asked : options.settings = some path)
  (named : path ≠ [])

include parsed asked named

theorem start_of_settings :
    (start FileTree.host arguments).run files =
      match load files path with
      | .error e => pure (withoutSettings path e, files)
      | .ok settings => (startWith FileTree.host options settings).run files := by
  obtain ⟨c, path, rfl⟩ := List.exists_cons_of_ne_nil named
  rw [start, parsed]
  simp only [startRun, asked, StateT.run_bind, read_run, pure_bind, load]
  cases Settings.ofFile (files.read (c :: path)) with
  | error e => rfl
  | ok settings => rfl

theorem start_of_loaded {settings : Settings.Loaded} (loaded : load files path = .ok settings) :
    (start FileTree.host arguments).run files =
      (startWith FileTree.host options settings).run files := by
  rw [start_of_settings parsed asked named, loaded]

theorem start_of_error {e : LoadError} (failed : load files path = .error e) :
    (start FileTree.host arguments).run files = (withoutSettings path e, files) := by
  rw [start_of_settings parsed asked named, failed]
  rfl

theorem run_of_reported (time : Text) (input : Bytes) {e : LoadError}
    (reported : Reported files path e) :
    run time arguments input files =
      (⟨[], "Error: Cannot load settings from ".toList ++ path ++ ':' :: ' ' :: e.message ++ ['\n'],
        files⟩, .exit 1) := by
  have started := start_of_error parsed asked named (Settings.load_of_reported reported)
  rw [withoutSettings, if_pos (isReported_of_reported reported)] at started
  rw [run_of_done started]
  simp [Output.standardText, Output.errorText]

theorem run_of_unreported (time : Text) (input : Bytes) {e : LoadError}
    (unreported : Unreported files path e) :
    run time arguments input files = (⟨[], [], files⟩, .failure (.settings e)) := by
  have started := start_of_error parsed asked named (Settings.load_of_unreported unreported)
  rw [withoutSettings, isReported_of_unreported unreported] at started
  exact run_of_done started

theorem brokenOff_of_loaded {time : Text} {input : Bytes} {settings : Settings.Loaded}
    {failure : Failure} (loaded : load files path = .ok settings)
    (ended : (run time arguments input files).2 = .failure failure) :
    BrokenOff options settings failure := by
  rw [run, start_of_loaded parsed asked named loaded] at ended
  exact brokenOff_of_finish (starts_startWith options settings files) ended

theorem run_takesSettings (time : Text) (input : Bytes) :
    TakesSettings time arguments input files options path := by
  have settled : (∃ settings, load files path = .ok settings) ∨ (∃ e, Reported files path e) ∨
      ∃ e, Unreported files path e := by
    cases loaded : load files path with
    | ok settings => exact .inl ⟨settings, rfl⟩
    | error e =>
      exact .inr ((Settings.load_eq_error_iff.mp loaded).imp (fun h => ⟨e, h⟩) (fun h => ⟨e, h⟩))
  refine {
    goesOn := start_of_loaded parsed asked named
    reports := run_of_reported parsed asked named time input
    breaksOff := run_of_unreported parsed asked named time input
    settled := settled
    blamed := ⟨fun ended => ?_, fun unreported => ?_⟩
    level := fun {settings layout} loaded opens => ?_
    prompt := fun {settings} loaded opens noLayout noInput unwritable => ?_
    unencodable := fun {settings text} loaded ended => ?_ }
  · obtain ⟨settings, loaded⟩ | ⟨e', reported⟩ | ⟨e', unreported⟩ := settled
    · cases brokenOff_of_loaded parsed asked named loaded ended
    · rw [run_of_reported parsed asked named time input reported] at ended
      contradiction
    · rw [run_of_unreported parsed asked named time input unreported] at ended
      cases ended
      exact unreported
  · rw [run_of_unreported parsed asked named time input unreported]
  · rw [← weightOf_eq_error_iff]
    constructor
    · intro ended
      cases brokenOff_of_loaded parsed asked named loaded ended with
      | noLevel noLevel => exact noLevel
    · intro noLevel
      obtain ⟨opened, started⟩ := noLevel_of_startWith opens noLevel
      rw [run, start_of_loaded parsed asked named loaded, started]
      rfl
  · obtain ⟨weight, level⟩ : ∃ weight, weightOf (levelOf options settings) = .ok weight := by
      cases level : weightOf (levelOf options settings) with
      | ok weight => exact ⟨weight, rfl⟩
      | error layout => exact absurd (weightOf_eq_error_iff.mp level) (noLayout layout)
    obtain ⟨file, opened, started⟩ := session_of_startWith opens level noInput
    rw [run, start_of_loaded parsed asked named loaded, started]
    show (holdSession settings input).2 = _
    rw [holdSession, unwritable]
  · cases brokenOff_of_loaded parsed asked named loaded ended with
    | unencodable noInput unwritable => exact ⟨noInput, unwritable⟩

end

/-- The file `s.json` in the working directory. -/
def settingsFile (content : Bytes) : FileTree :=
  FileTree.empty.put ["work".toList, "s.json".toList] (.file content)

theorem unreported_array :
    Unreported (settingsFile (Utf8.encode ['[', ']'])) "s.json".toList
      (.notAnObject (.array [])) := by
  have found : (settingsFile (Utf8.encode ['[', ']'])).read "s.json".toList =
      .ok (Utf8.encode ['[', ']']) := by rfl
  have read : Json.read ['[', ']'] = .ok (.array []) := by cbv
  refine .notAnObject ⟨['[', ']'], found, by decide⟩ read fun members same => ?_
  contradiction

/-- An array is JSON and no settings, so that a run cannot go on, and it does not say why. -/
theorem run_of_array_file :
    let arguments := ["--settings".toList, "s.json".toList, ['-']]
    let files := settingsFile (Utf8.encode ['[', ']'])
    (∀ settings, load files "s.json".toList ≠ .ok settings) ∧
      run [] arguments [] files =
        (⟨[], [], files⟩, .failure (.settings (.notAnObject (.array [])))) := by
  intro arguments files
  have parsed : Options.parse arguments =
      .ok (.run { input := some ['-'], settings := some "s.json".toList }) := by rfl
  refine ⟨fun settings loaded => ?_,
    run_of_unreported parsed rfl (by decide) [] [] unreported_array⟩
  rw [Settings.load_of_unreported unreported_array] at loaded
  contradiction

theorem run_takesSettings_of_array :
    let arguments := ["--settings".toList, "s.json".toList, ['-']]
    let options : Options := { input := some ['-'], settings := some "s.json".toList }
    let files := settingsFile (Utf8.encode ['[', ']'])
    Options.parse arguments = .ok (.run options) ∧ options.settings = some "s.json".toList ∧
      "s.json".toList ≠ [] ∧ TakesSettings [] arguments [] files options "s.json".toList := by
  intro arguments options files
  have parsed : Options.parse arguments = .ok (.run options) := by rfl
  exact ⟨parsed, rfl, by decide, run_takesSettings parsed rfl (by decide) [] []⟩

end Cli

end MonkeySyntax
