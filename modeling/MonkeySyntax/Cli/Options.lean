import MonkeySyntax.Text.DecimalDigit
import MonkeySyntax.Text.Quoted

/-!
# Command-line options

The arguments of the command line become options, or a refusal that says what is wrong with them. A
long option may be cut short as long as it stays the only one, and two hyphens end the options.
-/

namespace MonkeySyntax.Cli

inductive Flag where
  | help | tokens | ast | settings | logLevel | logFile
deriving DecidableEq

namespace Flag

/-- The spellings of options, in the order in which messages list them. -/
def spellings : List (Text × Flag) := [
  ("-h".toList, help), ("--help".toList, help), ("--tokens".toList, tokens), ("--ast".toList, ast),
  ("--settings".toList, settings), ("--log-level".toList, logLevel), ("--log-file".toList, logFile)]

def name (flag : Flag) : Text :=
  joined ['/'] ((spellings.filter (·.2 == flag)).map Prod.fst)

def takesValue : Flag → Bool
  | settings | logLevel | logFile => true
  | help | tokens | ast => false

end Flag

structure Options where
  /-- The file to read; a session is started without one. -/
  input : Option Text := none
  tokens : Bool := false
  ast : Bool := false
  settings : Option Text := none
  logLevel : Option Text := none
  logFile : Option Text := none
deriving DecidableEq

inductive Refusal where
  | unrecognized (arguments : List Text)
  | valueMissing (flag : Flag)
  | valueIgnored (flag : Flag) (value : Text)
  | ambiguous (argument : Text) (candidates : List Text)
deriving DecidableEq

def Refusal.message : Refusal → Text
  | unrecognized arguments => "unrecognized arguments: ".toList ++ joined [' '] arguments
  | valueMissing flag => "argument ".toList ++ flag.name ++ ": expected one argument".toList
  | valueIgnored flag value =>
    "argument ".toList ++ flag.name ++ ": ignored explicit argument ".toList ++ quoted value
  | ambiguous argument candidates =>
    "ambiguous option: ".toList ++ argument ++ " could match ".toList ++
      joined [',', ' '] candidates

inductive Argument where
  | operand (text : Text)
  /-- An option; `attached` is a value in the same argument. -/
  | option (flag : Flag) (attached : Option Text)
  /-- The short option for help, with letters behind it or behind an equals sign. -/
  | helpCluster (letters : Text)
  /-- It looks like an option, but there is none of this name. -/
  | unknown (text : Text)
  /-- The two hyphens that end the options. -/
  | separator
deriving DecidableEq

/-! ### Single arguments -/

/-- A hyphen with a decimal number behind it; one line feed may follow. -/
def isNegativeNumber : Text → Bool
  | '-' :: rest =>
    let number := if rest.getLast? = some '\n' then rest.dropLast else rest
    match number.dropWhile isDecimalDigit with
    | [] => !number.isEmpty
    | '.' :: places => !places.isEmpty && places.all isDecimalDigit
    | _ => false
  | _ => false

/-- An argument up to its first equals sign, and what is behind the sign. -/
def splitValue (argument : Text) : Text × Option Text :=
  match argument.dropWhile (· ≠ '=') with
  | [] => (argument, none)
  | _ :: value => (argument.takeWhile (· ≠ '='), some value)

/-- The options that an argument may mean when it is none in full. -/
def candidates (argument : Text) : List (Text × Argument) :=
  match argument with
  | '-' :: '-' :: _ =>
    let (name, value) := splitValue argument
    (Flag.spellings.filter fun s => name.isPrefixOf s.1).map fun s => (s.1, .option s.2 value)
  | '-' :: 'h' :: letters => [("-h".toList, .helpCluster letters)]
  | _ => []

/-- What an argument in front of the two hyphens is. -/
def classify (argument : Text) : Except Refusal Argument :=
  match argument with
  | [] | ['-'] => .ok (.operand argument)
  | '-' :: _ =>
    match Flag.spellings.lookup argument with
    | some flag => .ok (.option flag none)
    | none =>
      let (name, value) := splitValue argument
      match Flag.spellings.lookup name, value with
      | some flag, some value =>
        .ok (if name = ['-', 'h'] then .helpCluster value else .option flag (some value))
      | _, _ =>
        match candidates argument with
        | [(_, meant)] => .ok meant
        | [] =>
          if isNegativeNumber argument || argument.contains ' ' then .ok (.operand argument)
          else .ok (.unknown argument)
        | several => .error (.ambiguous argument (several.map Prod.fst))
  | _ => .ok (.operand argument)

/-- What the arguments are. Behind two hyphens all are operands. -/
def classifyAll : List Text → Except Refusal (List Argument)
  | [] => .ok []
  | argument :: rest =>
    if argument = ['-', '-'] then .ok (.separator :: rest.map .operand)
    else
      match classify argument with
      | .error refusal => .error refusal
      | .ok found =>
        match classifyAll rest with
        | .error refusal => .error refusal
        | .ok more => .ok (found :: more)

/-! ### All arguments -/

/-- What is asked for: help, or to run with options. -/
inductive Request where
  | help
  | run (options : Options)
deriving DecidableEq

/-- Where the one operand of the command line stands: not met yet, met just now, or met before. -/
inductive OperandState where
  | awaited | justMet | met
deriving DecidableEq

def Options.setFlag (options : Options) : Flag → Options
  | .tokens => { options with tokens := true }
  | .ast => { options with ast := true }
  | _ => options

def Options.setValue (options : Options) (value : Text) : Flag → Options
  | .settings => { options with settings := some value }
  | .logLevel => { options with logLevel := some value }
  | .logFile => { options with logFile := some value }
  | _ => options

/-- The letters with the short option for help: each may ask for help again, and what is left behind
the last that does is a value that help does not have. -/
def helpLetters (letters : Text) : Except Refusal Request :=
  match letters, letters.dropWhile (· = 'h') with
  | _ :: _, [] => .ok .help
  | _, value => .error (.valueIgnored .help value)

/-- An attached value. Two hyphens and nothing else count as an empty one. -/
def attachedValue (value : Text) : Text := if value = ['-', '-'] then [] else value

/-- Goes through the arguments from left to right; `extra` are those that nobody asked for. The two
hyphens count as one of them unless the operand is awaited or stands right before. -/
def gather (options : Options) (operand : OperandState) (extra : List Text) :
    List Argument → Except Refusal Request
  | [] => if extra.isEmpty then .ok (.run options) else .error (.unrecognized extra)
  | .operand text :: rest =>
    match operand with
    | .awaited => gather { options with input := some text } .justMet extra rest
    | _ => gather options .met (extra ++ [text]) rest
  | .separator :: rest =>
    match operand with
    | .awaited => gather options .awaited extra rest
    | .justMet => gather options .met extra rest
    | .met => gather options .met (extra ++ [['-', '-']]) rest
  | .unknown text :: rest => gather options (passed operand) (extra ++ [text]) rest
  | .helpCluster letters :: _ => helpLetters letters
  | .option .help none :: _ => .ok .help
  | .option flag attached :: rest =>
    if flag.takesValue then
      match attached, rest with
      | some value, rest =>
        gather (options.setValue (attachedValue value) flag) (passed operand) extra rest
      | none, .operand value :: rest =>
        gather (options.setValue value flag) (passed operand) extra rest
      | none, _ => .error (.valueMissing flag)
    else
      match attached with
      | some value => .error (.valueIgnored flag value)
      | none => gather (options.setFlag flag) (passed operand) extra rest
where
  /-- The state of the operand behind an option. -/
  passed : OperandState → OperandState
    | .awaited => .awaited
    | _ => .met

def Options.parse (arguments : List Text) : Except Refusal Request :=
  match classifyAll arguments with
  | .error refusal => .error refusal
  | .ok found => gather {} .awaited [] found

end MonkeySyntax.Cli
