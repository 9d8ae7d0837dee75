import MonkeySyntax.Text.Quoted

/-!
# Tokens

The kinds of tokens, their spellings, and tokens with their place in the source.
`Kind.ofSpelling?_spelling` says that no two kinds share a spelling.
-/

namespace MonkeySyntax

/-- A place in a source: lines and columns of a text count from one. -/
structure Position where
  line : Int := 0
  column : Int := 0
deriving DecidableEq

inductive Kind where
  | illegal | eof | ident | int
  | assign | plus | minus | bang | asterisk | slash | lt | gt | eq | notEq | gtEq | ltEq
  | increment | decrement
  | comma | semicolon | lparen | rparen | lbrace | rbrace
  | fnKeyword | letKeyword | returnKeyword | trueKeyword | falseKeyword | ifKeyword | elseKeyword
deriving DecidableEq

namespace Kind

def all : List Kind := [
  illegal, eof, ident, int,
  assign, plus, minus, bang, asterisk, slash, lt, gt, eq, notEq, gtEq, ltEq,
  increment, decrement,
  comma, semicolon, lparen, rparen, lbrace, rbrace,
  fnKeyword, letKeyword, returnKeyword, trueKeyword, falseKeyword, ifKeyword, elseKeyword]

theorem mem_all (kind : Kind) : kind ∈ all := by cases kind <;> decide

def name : Kind → Text
  | illegal => "ILLEGAL".toList
  | eof => "EOF".toList
  | ident => "IDENT".toList
  | int => "INT".toList
  | assign => "ASSIGN".toList
  | plus => "PLUS".toList
  | minus => "MINUS".toList
  | bang => "BANG".toList
  | asterisk => "ASTERISK".toList
  | slash => "SLASH".toList
  | lt => "LT".toList
  | gt => "GT".toList
  | eq => "EQ".toList
  | notEq => "NEQ".toList
  | gtEq => "GTE".toList
  | ltEq => "LTE".toList
  | increment => "INCREMENT".toList
  | decrement => "DECREMENT".toList
  | comma => "COMMA".toList
  | semicolon => "SEMICOLON".toList
  | lparen => "LPAREN".toList
  | rparen => "RPAREN".toList
  | lbrace => "LBRACE".toList
  | rbrace => "RBRACE".toList
  | fnKeyword => "FUNCTION".toList
  | letKeyword => "LET".toList
  | returnKeyword => "RETURN".toList
  | trueKeyword => "TRUE".toList
  | falseKeyword => "FALSE".toList
  | ifKeyword => "IF".toList
  | elseKeyword => "ELSE".toList

/-- The spelling of a kind in messages: an operator or delimiter as it is written, any other kind by
its name. -/
def spelling : Kind → Text
  | assign => ['=']
  | plus => ['+']
  | minus => ['-']
  | bang => ['!']
  | asterisk => ['*']
  | slash => ['/']
  | lt => ['<']
  | gt => ['>']
  | eq => ['=', '=']
  | notEq => ['!', '=']
  | gtEq => ['>', '=']
  | ltEq => ['<', '=']
  | increment => ['+', '+']
  | decrement => ['-', '-']
  | comma => [',']
  | semicolon => [';']
  | lparen => ['(']
  | rparen => [')']
  | lbrace => ['{']
  | rbrace => ['}']
  | kind => kind.name

def ofName? (name : Text) : Option Kind := all.find? (·.name == name)

def ofSpelling? (spelling : Text) : Option Kind := all.find? (·.spelling == spelling)

theorem ofName?_name (kind : Kind) : ofName? kind.name = some kind := by
  cases kind <;> decide +kernel

theorem ofSpelling?_spelling (kind : Kind) : ofSpelling? kind.spelling = some kind := by
  cases kind <;> decide +kernel

end Kind

structure Token where
  kind : Kind
  literal : Text
  position : Position := {}
deriving DecidableEq

namespace Token

/-- Whether two tokens are equal wherever they stand. -/
def same (a b : Token) : Bool := a.kind == b.kind && a.literal == b.literal

theorem same_iff {a b : Token} : a.same b ↔ a.kind = b.kind ∧ a.literal = b.literal := by
  simp [same]

/-- A token with all its parts, on one line. -/
def describe (token : Token) : Text :=
  "MonkeyToken(".toList ++ token.kind.name ++ ", ".toList ++ quoted token.literal ++
    ", line=".toList ++ Decimal.ofInt token.position.line ++
    ", col=".toList ++ Decimal.ofInt token.position.column ++ ")".toList

def row (token : Token) : Text :=
  Decimal.ofInt token.position.line ++ ':' :: Decimal.ofInt token.position.column ++ ' ' ::
    token.kind.name ++ ' ' :: quoted token.literal ++ ['\n']

def dump (tokens : List Token) : Text := tokens.flatMap row

end Token

end MonkeySyntax
