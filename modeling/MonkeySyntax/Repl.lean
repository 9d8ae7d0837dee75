import MonkeySyntax.Node.Render
import MonkeySyntax.Parser.Program
import MonkeySyntax.Report
import MonkeySyntax.Settings

/-!
# Sessions

A session answers source line by line: with the canonical form of the line, or with a report of its
errors. `session_cons_ok` says that lines are answered one after another, each on its own.
-/

namespace MonkeySyntax

namespace Repl

/-- What answering yields: a text, unless a numeral is too long, and what happens meanwhile. -/
structure Answer where
  outcome : Except Decimal.TooLong Text
  events : List Event

def answer (settings : Settings) (line : Text) : Answer :=
  let parse := Parser.parseSource line settings.filename
  let events := .lineRead line :: parse.events
  match parse.outcome with
  | .error numeral => ⟨.error numeral, events⟩
  | .ok _ =>
    if parse.errors.isEmpty then ⟨.ok (parse.program.render ++ ['\n']), events⟩
    else
      ⟨.ok (Report.ofErrors settings.showFace parse.errors),
        events ++ [.lineRejected parse.errors.length]⟩

/-- The answer to a line as it is read, with its line end; a blank line has none. -/
def respond (settings : Settings) (line : Text) : Answer :=
  if isBlankLine (withoutEnding line) then ⟨.ok [], []⟩ else answer settings (withoutEnding line)

/-- What a session writes, what happens in it, and the numeral that stopped it, if one did. -/
structure Session where
  output : Text
  events : List Event
  stopped : Option Decimal.TooLong

/-- A session over lines. The prompt is written before each line and before the end is found. -/
def session (settings : Settings) : List Text → Session
  | [] => ⟨settings.prompt, [], none⟩
  | line :: rest =>
    let response := respond settings line
    match response.outcome with
    | .error numeral => ⟨settings.prompt, response.events, some numeral⟩
    | .ok text =>
      let more := session settings rest
      ⟨settings.prompt ++ text ++ more.output, response.events ++ more.events, more.stopped⟩

def run (settings : Settings) (input : Text) : Session := session settings (inputLines input)

theorem session_nil (settings : Settings) :
    session settings [] = ⟨settings.prompt, [], none⟩ := rfl

theorem session_cons_ok {settings : Settings} {line text : Text} {rest : List Text}
    (h : (respond settings line).outcome = .ok text) :
    session settings (line :: rest) =
      let more := session settings rest
      ⟨settings.prompt ++ text ++ more.output, (respond settings line).events ++ more.events,
        more.stopped⟩ := by
  rw [session, h]

end Repl

end MonkeySyntax
