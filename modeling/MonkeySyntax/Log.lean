import MonkeySyntax.Error

/-!
# Log records

What happens while a source is read, and the record that each event leaves in a log.
-/

namespace MonkeySyntax

inductive Level where
  | debug | info | warning | error | critical
deriving DecidableEq

namespace Level

def weight : Level → Nat
  | debug => 10
  | info => 20
  | warning => 30
  | error => 40
  | critical => 50

def name : Level → Text
  | debug => "DEBUG".toList
  | info => "INFO".toList
  | warning => "WARNING".toList
  | error => "ERROR".toList
  | critical => "CRITICAL".toList

end Level

/-- A line of a log: who wrote it, how important it is, and what it says. -/
structure LogRecord where
  logger : Text
  level : Level
  message : Text

def LogRecord.brief (record : LogRecord) : Text :=
  record.logger ++ ' ' :: record.level.name ++ ' ' :: record.message

/-- What happens while a source is read. -/
inductive Event where
  /-- A name that starts with a digit is met for the first time. -/
  | badName (literal filename : Text) (position : Position)
  /-- The parser keeps an error. -/
  | errorKept (error : Error)
  /-- A line of a session is about to be parsed. -/
  | lineRead (line : Text)
  /-- A line of a session has errors. -/
  | lineRejected (errors : Nat)
deriving DecidableEq

namespace Event

def record : Event → LogRecord
  | badName literal filename position =>
    ⟨"MonkeyLexer".toList, .warning,
      "Bad variable name ".toList ++ quoted literal ++ " at ".toList ++ filename ++
        ':' :: Decimal.ofInt position.line ++ ':' :: Decimal.ofInt position.column⟩
  | errorKept error =>
    ⟨"MonkeyParser".toList, .debug, "Parse error: ".toList ++ error.text⟩
  | lineRead line =>
    ⟨"MonkeyRepl".toList, .debug, "Parsing line: ".toList ++ quoted line⟩
  | lineRejected errors =>
    ⟨"MonkeyRepl".toList, .debug,
      "Line produced ".toList ++ Decimal.ofNat errors ++ " error(s)".toList⟩

/-- The line that an event writes to a stream for diagnostics. -/
def diagnostic : Event → Text
  | badName literal filename position => (Error.mk (.badName literal) filename position).line
  | _ => []

end Event

def diagnostics (events : List Event) : Text := events.flatMap Event.diagnostic

end MonkeySyntax
