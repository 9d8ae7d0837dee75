import MonkeySyntax.Lexer
import MonkeySyntax.Parser.Statement

/-!
# Programs

A whole source is parsed in turns, each a statement or an error, and parsing goes on behind an
error. `turns_nil` and `turns_badName` say where it ends.
-/

namespace MonkeySyntax

namespace Parser

/-- One turn of parsing: a statement, or what is wrong and where. -/
inductive Turn where
  | statement (node : Node)
  | problem (cause : Cause) (position : Position)

/-- How parsing ends: at the end of the source, at a bad name where a statement should begin, or at
a numeral that cannot be converted. With it goes what is left unread. -/
inductive Ending where
  | endOfSource
  | badName (literal : Text) (position : Position) (rest : List Item)
  | tooLong (numeral : Decimal.TooLong) (rest : List Item)

def Ending.turns : Ending → List Turn
  | .badName literal position _ => [.problem (.badName literal) position]
  | _ => []

def turns (finish : Position) : List Item → List Turn × Ending
  | [] => ([], .endOfSource)
  | .badName literal position :: rest => ([], .badName literal position rest)
  | .token t :: rest =>
    match statement finish t rest with
    | .done node rest _ => ((.statement node :: (turns finish rest).1), (turns finish rest).2)
    | .failed (.problem cause position) rest _ =>
      ((.problem cause position :: (turns finish rest).1), (turns finish rest).2)
    | .failed (.tooLong numeral) rest _ => ([], .tooLong numeral rest)
termination_by items => items.length
decreasing_by all_goals grind [List.IsSuffix.length_le]

theorem turns_nil (finish : Position) : turns finish [] = ([], .endOfSource) := by
  rw [turns]

theorem turns_badName (finish : Position) (literal : Text) (position : Position)
    (rest : List Item) :
    turns finish (.badName literal position :: rest) = ([], .badName literal position rest) := by
  rw [turns]

/-- Whether an error repeats the last one: both are bad names, at the same place. -/
def repeats : Option Error → Error → Bool
  | some ⟨.badName _, _, position⟩, ⟨.badName _, _, place⟩ => position = place
  | _, _ => false

/-- What parsing keeps of the turns, what happens meanwhile, and the lexer afterwards. -/
structure Kept where
  statements : List Node
  errors : List Error
  events : List Event
  lexer : Lexer

/-- Keeps the statements and the errors of turns. A bad name is reported first, and an error that
repeats the last one is dropped. -/
def keep (last : Option Error) (lexer : Lexer) : List Turn → Kept
  | [] => ⟨[], [], [], lexer⟩
  | .statement node :: turns =>
    let kept := keep last lexer turns
    { kept with statements := node :: kept.statements }
  | .problem cause position :: turns =>
    let e : Error := ⟨cause, lexer.filename, position⟩
    let (events, lexer) := match cause with
      | .badName literal => lexer.report (.badName literal position)
      | _ => ([], lexer)
    if repeats last e then
      let kept := keep last lexer turns
      { kept with events := events ++ kept.events }
    else
      let kept := keep (some e) lexer turns
      { kept with errors := e :: kept.errors, events := events ++ .errorKept e :: kept.events }

/-- The result of parsing a source: its statements, or the numeral that stopped it; all errors kept
so far, the events, and the lexer afterwards. -/
structure Parse where
  outcome : Except Decimal.TooLong (List Node)
  errors : List Error
  events : List Event
  lexer : Lexer

namespace Parse

def statements (parse : Parse) : List Node := parse.outcome.toOption.getD []

def program (parse : Parse) : Node := .program parse.statements

end Parse

/-- Parses what a lexer has left, and keeps its errors behind those kept before. -/
def parse (errors : List Error) (lexer : Lexer) : Parse :=
  let items := lexer.cursor.items
  let finish := lexer.cursor.finish
  let (turns, ending) := turns finish.position items
  let kept := keep errors.getLast? lexer (turns ++ ending.turns)
  { outcome := match ending with
      | .tooLong numeral _ => .error numeral
      | _ => .ok kept.statements
    errors := errors ++ kept.errors
    events := kept.events
    lexer := { kept.lexer with
      cursor := match ending with
        | .endOfSource => finish
        | .badName _ _ rest | .tooLong _ rest =>
          lexer.cursor.readMany (items.length - rest.length) } }

def parseSource (source : Text) (filename : Text := Lexer.defaultFilename) : Parse :=
  parse [] (.ofSource source filename)

end Parser

end MonkeySyntax
