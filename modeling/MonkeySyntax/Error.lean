import MonkeySyntax.Token

/-!
# Errors

What can be wrong with a source, and where. `Cause.message` words each cause.
-/

namespace MonkeySyntax

inductive Cause where
  /-- Stated in words, and neither lexical nor syntactic. -/
  | stated (message : Text)
  /-- Stated in words, about the characters of the source. -/
  | lexical (message : Text)
  /-- Stated in words, about the order of its tokens. -/
  | syntactic (message : Text)
  /-- A name starts with a digit. -/
  | badName (literal : Text)
  /-- The next token is of none of the wanted kinds. -/
  | unexpected (wanted : List Kind) (got : Kind)
  /-- No expression starts with this token. -/
  | noOperand (literal : Text)
  /-- No token starts with this character. -/
  | illegal (literal : Text)
  /-- This token does not join two operands. -/
  | noOperator (literal : Text)
  /-- An integer does not fit into 64 bits with a sign. -/
  | overflow (literal : Text)
deriving DecidableEq

namespace Cause

def message : Cause → Text
  | stated message | lexical message | syntactic message => message
  | badName literal =>
    "bad variable name: ".toList ++ quoted literal ++
      " (identifiers cannot start with a digit)".toList
  | unexpected wanted got =>
    "expected token: ".toList ++ joined " or ".toList (wanted.map Kind.spelling) ++
      ", got ".toList ++ got.spelling
  | noOperand literal => "no prefix parse function for ".toList ++ quoted literal
  | illegal literal => "illegal character ".toList ++ quoted literal
  | noOperator literal => "no infix parse function for ".toList ++ quoted literal
  | overflow literal => "integer literal ".toList ++ literal ++ " is out of range".toList

/-- Whether the characters of the source are at fault. -/
def isLexical : Cause → Bool
  | lexical _ | badName _ => true
  | _ => false

/-- Whether the order of the tokens is at fault. -/
def isSyntactic : Cause → Bool
  | syntactic _ | unexpected .. | noOperand _ | illegal _ | noOperator _ | overflow _ => true
  | _ => false

/-- Whether an expression should have started. -/
def isMissingOperand : Cause → Bool
  | noOperand _ | illegal _ => true
  | _ => false

end Cause

structure Error where
  cause : Cause
  filename : Text := []
  position : Position := {}
deriving DecidableEq

namespace Error

def message (e : Error) : Text := e.cause.message

/-- The place of an error and its cause, in words. -/
def text (e : Error) : Text :=
  e.filename ++ " line: ".toList ++ Decimal.ofInt e.position.line ++
    " col: ".toList ++ Decimal.ofInt e.position.column ++ ' ' :: e.message

def diagnostic (filename : Text) (position : Position) (message : Text) : Text :=
  "file: ".toList ++ filename ++ " line: ".toList ++ Decimal.ofInt position.line ++
    " column: ".toList ++ Decimal.ofInt position.column ++ ", error: ".toList ++ message

/-- The diagnostic line of an error at its own place, with its line end. -/
def line (e : Error) : Text := diagnostic e.filename e.position e.message ++ ['\n']

end Error

end MonkeySyntax
