import MonkeySyntax.Node.Outline
import MonkeySyntax.Parser.Program

/-!
# Views of a source

What the command line writes about a whole source: its tokens, its tree or its canonical form, or
else its errors. `showSource_tokens` and `showSource_program` say which view is shown.
-/

namespace MonkeySyntax.Cli

/-- Something that a run writes: to the standard output, to the error output, or to the log. -/
inductive Output where
  | out (text : Text)
  | err (text : Text)
  | log (record : LogRecord)

/-- How showing a source ends: with an exit code, or at a numeral that is too long. -/
inductive Shown where
  | exit (code : Nat)
  | tooLong (numeral : Decimal.TooLong)
deriving DecidableEq

/-- Which view of a source is wanted. Of both, the tokens win. -/
structure View where
  tokens : Bool := false
  ast : Bool := false

def diagnosed (event : Event) : List Output :=
  .log event.record :: if event.diagnostic = [] then [] else [.err event.diagnostic]

def logged (events : List Event) : List Output := events.map fun event => .log event.record

/-- The tokens of a source, or nothing but the report of its first bad name. -/
def showTokens (source filename : Text) : List Output × Shown :=
  let reading := (Lexer.ofSource source filename).rest
  match reading.outcome with
  | (tokens, none) => ([.out (Token.dump tokens)], .exit 0)
  | (_, some _) => (reading.events.flatMap diagnosed, .exit 1)

/-- The tree or the canonical form of a source, or nothing but its errors. -/
def showProgram (ast : Bool) (source filename : Text) : List Output × Shown :=
  let parse := Parser.parseSource source filename
  match parse.outcome with
  | .error numeral => (logged parse.events, .tooLong numeral)
  | .ok _ =>
    if parse.errors.isEmpty then
      (logged parse.events ++
        [.out (if ast then parse.program.outline else parse.program.render ++ ['\n'])], .exit 0)
    else (logged parse.events ++ parse.errors.map fun e => .err e.line, .exit 1)

def showSource (view : View) (source filename : Text) : List Output × Shown :=
  if view.tokens then showTokens source filename else showProgram view.ast source filename

theorem showSource_tokens (ast : Bool) (source filename : Text) :
    showSource ⟨true, ast⟩ source filename = showTokens source filename := rfl

theorem showSource_program (ast : Bool) (source filename : Text) :
    showSource ⟨false, ast⟩ source filename = showProgram ast source filename := rfl

end MonkeySyntax.Cli
