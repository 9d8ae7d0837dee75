import MonkeySyntax.Token

/-!
# Lexemes

The first lexeme of a text that starts with no layout: the longest operator, word or numeral, a
numeral that runs into a word, or a single character that is none of these. `consumed_first` says
that a lexeme is a beginning of the text.
-/

namespace MonkeySyntax

/-- The characters between tokens: space, tab, carriage return and line feed. -/
def isLayout (c : Char) : Bool := c = ' ' || c = '\t' || c = '\r' || c = '\n'

def isDigit (c : Char) : Bool := '0' ≤ c && c ≤ '9'

/-- An ASCII letter or an underscore. -/
def isLetter (c : Char) : Bool := 'a' ≤ c && c ≤ 'z' || 'A' ≤ c && c ≤ 'Z' || c = '_'

/-- A character that can go on a word. -/
def isWordChar (c : Char) : Bool := isLetter c || isDigit c

namespace Kind

def ofChar? : Char → Option Kind
  | '=' => some assign
  | ';' => some semicolon
  | '(' => some lparen
  | ')' => some rparen
  | ',' => some comma
  | '+' => some plus
  | '-' => some minus
  | '{' => some lbrace
  | '}' => some rbrace
  | '!' => some bang
  | '*' => some asterisk
  | '/' => some slash
  | '<' => some lt
  | '>' => some gt
  | _ => none

def ofPair? : Char → Char → Option Kind
  | '=', '=' => some eq
  | '!', '=' => some notEq
  | '>', '=' => some gtEq
  | '<', '=' => some ltEq
  | '+', '+' => some increment
  | '-', '-' => some decrement
  | _, _ => none

def keywords : List (Text × Kind) := [
  ("fn".toList, fnKeyword), ("let".toList, letKeyword), ("if".toList, ifKeyword),
  ("else".toList, elseKeyword), ("return".toList, returnKeyword), ("true".toList, trueKeyword),
  ("false".toList, falseKeyword)]

/-- The kind of a word or numeral; an empty one stands for the end of the source. -/
def ofWord : Text → Kind
  | [] => eof
  | c :: rest =>
    match keywords.lookup (c :: rest) with
    | some keyword => keyword
    | none => if isDigit c then int else ident

end Kind

/-- A piece of source text: a token, or a name that starts with a digit. Of such a name only the
digits are consumed. -/
inductive Lexeme where
  | token (kind : Kind) (literal : Text)
  | badName (literal digits : Text)
deriving DecidableEq

namespace Lexeme

def consumed : Lexeme → Text
  | token _ literal => literal
  | badName _ digits => digits

def first (c : Char) (rest : Text) : Lexeme :=
  match Kind.ofChar? c with
  | some kind =>
    match rest with
    | d :: _ =>
      match Kind.ofPair? c d with
      | some pair => .token pair [c, d]
      | none => .token kind [c]
    | [] => .token kind [c]
  | none =>
    if isDigit c then
      let digits := c :: rest.takeWhile isDigit
      match rest.dropWhile isDigit with
      | d :: _ =>
        if isLetter d then .badName (c :: rest.takeWhile isWordChar) digits
        else .token (.ofWord digits) digits
      | [] => .token (.ofWord digits) digits
    else if isLetter c then
      let word := c :: rest.takeWhile isWordChar
      .token (.ofWord word) word
    else .token .illegal [c]

theorem consumed_first (c : Char) (rest : Text) :
    ∃ r, (first c rest).consumed = c :: r ∧ r <+: rest := by
  unfold first
  repeat' split
  · exact ⟨[_], rfl, List.prefix_iff_eq_append.mpr rfl⟩
  · exact ⟨[], rfl, List.nil_prefix⟩
  · exact ⟨[], rfl, List.nil_prefix⟩
  · exact ⟨_, rfl, List.takeWhile_prefix _⟩
  · exact ⟨_, rfl, List.takeWhile_prefix _⟩
  · exact ⟨_, rfl, List.takeWhile_prefix _⟩
  · exact ⟨_, rfl, List.takeWhile_prefix _⟩
  · exact ⟨[], rfl, List.nil_prefix⟩

end Lexeme

end MonkeySyntax
