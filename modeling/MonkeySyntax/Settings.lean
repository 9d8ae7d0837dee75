import MonkeySyntax.FileTree
import MonkeySyntax.Json.Reader
import MonkeySyntax.Json.Writer
import MonkeySyntax.Text.CodePoint

/-!
# Settings

What a user can choose, and settings files in JSON. A file may hold surrogates that stand alone, so
what is loaded has raw text where settings have text. `ofMembers_congr` says that loading depends on
what each known name has last and on nothing else.
-/

namespace MonkeySyntax

structure Settings where
  /-- Written before each line is read. -/
  prompt : Text := ">> ".toList
  /-- The name of the source in messages about lines of a session. -/
  filename : Text := "<stdin>".toList
  /-- Whether error reports have a face. -/
  showFace : Bool := true
  /-- The name of the least level of log records. -/
  logLevel : Text := "WARNING".toList
deriving DecidableEq

/-- Settings as a file has them. -/
structure Settings.Loaded where
  prompt : RawText
  filename : RawText
  showFace : Bool
  logLevel : RawText
deriving DecidableEq

/-- Settings as they are loaded from a file that has just them. -/
def Settings.raw (settings : Settings) : Settings.Loaded where
  prompt := codePoints settings.prompt
  filename := codePoints settings.filename
  showFace := settings.showFace
  logLevel := codePoints settings.logLevel

theorem Settings.raw_inj {settings other : Settings} :
    settings.raw = other.raw ↔ settings = other := by
  cases settings
  cases other
  simp [raw, codePoints_inj]

inductive LoadError where
  | unreadable (error : FileError)
  | undecodable (error : Utf8.Error)
  | malformed (error : Json.Error)
  | notAnObject (value : Json.Value)

def Json.Value.typeName : Json.Value → Text
  | null => "NoneType".toList
  | bool _ => "bool".toList
  | integer _ => "int".toList
  | float _ => "float".toList
  | string _ => "str".toList
  | array _ => "list".toList
  | object _ => "dict".toList

def LoadError.message : LoadError → Text
  | unreadable e => e.message
  | undecodable e => e.message
  | malformed e => e.message
  | notAnObject value =>
    '\'' :: value.typeName ++ "' object has no attribute 'get'".toList

namespace Settings

def promptKey : Text := "prompt".toList
def filenameKey : Text := "filename".toList
def showFaceKey : Text := "show_face".toList
def logLevelKey : Text := "log_level".toList

/-! ### Loading -/

/-- The text that a name has last in an object, or a text for an object without it. -/
def textOr (fallback : RawText) (name : Text) (members : List (RawText × Json.Value)) : RawText :=
  match Json.last? (codePoints name) members with
  | some value => value.plain
  | none => fallback

/-- The settings in the members of an object. Whether to show the face must be a boolean to count,
and the level is taken in upper case. -/
def ofMembers (members : List (RawText × Json.Value)) : Loaded :=
  let default := ({} : Settings).raw
  { prompt := textOr default.prompt promptKey members
    filename := textOr default.filename filenameKey members
    showFace :=
      match Json.last? (codePoints showFaceKey) members with
      | some (.bool value) => value
      | _ => default.showFace
    logLevel := upperRaw (textOr default.logLevel logLevelKey members) }

theorem ofMembers_congr {members others : List (RawText × Json.Value)}
    (h : ∀ name ∈ [promptKey, filenameKey, showFaceKey, logLevelKey],
      Json.last? (codePoints name) members = Json.last? (codePoints name) others) :
    ofMembers members = ofMembers others := by
  simp only [List.mem_cons, List.not_mem_nil, or_false, forall_eq_or_imp, forall_eq] at h
  simp [ofMembers, textOr, h]

def ofBytes (content : Bytes) : Except LoadError Loaded :=
  match Utf8.decode content with
  | .error e => .error (.undecodable e)
  | .ok text =>
    match Json.read (unifyLineEndings text) with
    | .error e => .error (.malformed e)
    | .ok (.object members) => .ok (ofMembers members)
    | .ok value => .error (.notAnObject value)

/-- The settings in a file that was or was not read. -/
def ofFile : Except FileError Bytes → Except LoadError Loaded
  | .error e => .error (.unreadable e)
  | .ok content => ofBytes content

def load (files : FileTree) (path : Text) : Except LoadError Loaded :=
  ofFile (files.read path)

/-! ### Saving -/

def written (name value : Text) : Text :=
  "\n  ".toList ++ Json.writtenString name ++ ':' :: ' ' :: value

def toText (settings : Settings) : Text :=
  '{' :: joined [','] [
    written promptKey (Json.writtenString settings.prompt),
    written filenameKey (Json.writtenString settings.filename),
    written showFaceKey (if settings.showFace then "true".toList else "false".toList),
    written logLevelKey (Json.writtenString settings.logLevel)] ++ ['\n', '}']

def save (settings : Settings) (files : FileTree) (path : Text) :
    Except FileError Unit × FileTree :=
  files.saveFile path (Utf8.encode settings.toText)

end Settings

end MonkeySyntax
