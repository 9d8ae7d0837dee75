import MonkeySyntax.Cursor
import MonkeySyntax.Log

/-!
# Lexer

A lexer reads a named source token by token, can look at the next token without reading it, and
reports each bad name once. `cursor_peek` says that looking does not move it, and `outcome_peek`
that it shows what reading returns.
-/

namespace MonkeySyntax

structure Lexer where
  filename : Text
  cursor : Cursor
  /-- The place of the bad name reported last. -/
  reported : Option Position := none

/-- What an operation on a lexer returns, what happens meanwhile, and the lexer afterwards. -/
structure Step (α : Type) where
  outcome : α
  events : List Event
  lexer : Lexer

namespace Lexer

def defaultFilename : Text := "<input>".toList

def ofSource (source : Text) (filename : Text := defaultFilename) : Lexer where
  filename := filename
  cursor := .ofSource source

def outcomeOf (filename : Text) : Item → Except Error Token
  | .token t => .ok t
  | .badName literal position => .error ⟨.badName literal, filename, position⟩

/-- Reports an item, unless it is a token or was the last one reported. -/
def report (lexer : Lexer) : Item → List Event × Lexer
  | .token _ => ([], lexer)
  | .badName literal position =>
    if lexer.reported = some position then ([], lexer)
    else ([.badName literal lexer.filename position], { lexer with reported := some position })

def next (lexer : Lexer) : Step (Except Error Token) :=
  let (item, cursor) := lexer.cursor.read
  let (events, lexer) := lexer.report item
  ⟨outcomeOf lexer.filename item, events, { lexer with cursor }⟩

def peek (lexer : Lexer) : Step (Except Error Token) :=
  let (item, _) := lexer.cursor.read
  let (events, lexer) := lexer.report item
  ⟨outcomeOf lexer.filename item, events, lexer⟩

theorem filename_report (lexer : Lexer) (item : Item) :
    (lexer.report item).2.filename = lexer.filename := by
  unfold report
  repeat' split
  all_goals rfl

theorem cursor_report (lexer : Lexer) (item : Item) :
    (lexer.report item).2.cursor = lexer.cursor := by
  unfold report
  repeat' split
  all_goals rfl

theorem cursor_peek (lexer : Lexer) : lexer.peek.lexer.cursor = lexer.cursor :=
  lexer.cursor_report _

theorem outcome_peek (lexer : Lexer) : lexer.peek.outcome = lexer.next.outcome := rfl

/-- The tokens from here to the end, the end token included, or to the first bad name. -/
def rest (lexer : Lexer) : Step (List Token × Option Error) :=
  match Item.untilBadName lexer.cursor.items with
  | (tokens, none) =>
    let finish := lexer.cursor.finish
    ⟨(tokens ++ [⟨.eof, [], finish.position⟩], none), [], { lexer with cursor := finish }⟩
  | (tokens, some (literal, position)) =>
    let (events, lexer) := lexer.report (.badName literal position)
    ⟨(tokens, some ⟨.badName literal, lexer.filename, position⟩), events,
      { lexer with cursor := lexer.cursor.readMany (tokens.length + 1) }⟩

end Lexer

/-- A run over the remaining tokens of a lexer. It is over after the end token and after a bad name,
and reads nothing from then on. -/
structure TokenRun where
  ended : Bool := false

def TokenRun.step (run : TokenRun) (lexer : Lexer) :
    Step (Option (Except Error Token) × TokenRun) :=
  if run.ended then ⟨(none, run), [], lexer⟩
  else
    let step := lexer.next
    let ended := match step.outcome with
      | .ok t => t.kind == .eof
      | .error _ => true
    ⟨(some step.outcome, ⟨ended⟩), step.events, step.lexer⟩

end MonkeySyntax
