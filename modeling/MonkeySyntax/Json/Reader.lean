import MonkeySyntax.Json.Value

/-!
# Reading JSON

A JSON text becomes a value, or the first fault is reported with its place. `NaN` and the infinities
are read as numbers; control characters in strings are refused. `length_skipSpace_le` and the sizes
in `Reading` are what makes the reader terminate.
-/

namespace MonkeySyntax.Json

inductive Fault where
  | value | name | colon | comma
  | extra | unterminated | escape | unicodeEscape | controlCharacter | byteOrderMark
deriving DecidableEq

def Fault.message : Fault → Text
  | value => "Expecting value".toList
  | name => "Expecting property name enclosed in double quotes".toList
  | colon => "Expecting ':' delimiter".toList
  | comma => "Expecting ',' delimiter".toList
  | extra => "Extra data".toList
  | unterminated => "Unterminated string starting at".toList
  | escape => "Invalid \\escape".toList
  | unicodeEscape => "Invalid \\uXXXX escape".toList
  | controlCharacter => "Invalid control character at".toList
  | byteOrderMark => "Unexpected UTF-8 BOM (decode using utf-8-sig)".toList

/-- A fault and how many characters of the text are left at it, or a numeral that is too long. -/
inductive Failure where
  | fault (fault : Fault) (left : Nat)
  | tooLong (numeral : Decimal.TooLong)
deriving DecidableEq

/-- The result of reading from the start of `text`, with what is left of it. -/
inductive Reading (α : Type) (text : Text) where
  | done (value : α) (rest : Text) (shorter : rest.length < text.length)
  | failed (failure : Failure)

/-- Spaces, tabs, carriage returns and line feeds stand between the parts of a JSON text. -/
def skipSpace (text : Text) : Text :=
  text.dropWhile fun c => c = ' ' || c = '\t' || c = '\n' || c = '\r'

theorem length_skipSpace_le (text : Text) : (skipSpace text).length ≤ text.length :=
  (List.dropWhile_suffix _).length_le

/-! ### Strings -/

def hexValue? (c : Char) : Option Nat :=
  if '0' ≤ c && c ≤ '9' then some (c.toNat - 48)
  else if 'a' ≤ c && c ≤ 'f' then some (c.toNat - 87)
  else if 'A' ≤ c && c ≤ 'F' then some (c.toNat - 55)
  else none

def hexQuad? (digits : Text) : Option Nat :=
  digits.foldl (fun n c => do return 16 * (← n) + (← hexValue? c)) (some 0)

def escapedChar? : Char → Option Char
  | '"' => some '"'
  | '\\' => some '\\'
  | '/' => some '/'
  | 'b' => some '\x08'
  | 'f' => some '\x0c'
  | 'n' => some '\n'
  | 'r' => some '\r'
  | 't' => some '\t'
  | _ => none

/-- The code point behind `\u` and how much of the text it takes: two escapes when the first is a
high surrogate and the second a low one. Any other surrogate stands alone. -/
def unicodeEscape (text : Text) : Except Failure (CodePoint × Nat) :=
  if (text.drop 4).isEmpty then .error (.fault .unicodeEscape (text.length + 1))
  else
    match hexQuad? (text.take 4) with
    | none => .error (.fault .unicodeEscape (text.length + 1))
    | some first =>
      let single := CodePoint.ofNat first
      match text.drop 4 with
      | '\\' :: 'u' :: more =>
        if 0xd800 ≤ first && first < 0xdc00 && !(more.drop 4).isEmpty then
          match hexQuad? (more.take 4) with
          | none => .error (.fault .unicodeEscape (more.length + 1))
          | some second =>
            if 0xdc00 ≤ second && second < 0xe000 then
              .ok (.ofNat (0x10000 + (first - 0xd800) * 0x400 + (second - 0xdc00)), 10)
            else .ok (single, 4)
        else .ok (single, 4)
      | _ => .ok (single, 4)

/-- The rest of a string behind its opening quote; `start` is the text from that quote on. -/
def stringBody (start text : Text) : Reading RawText text :=
  match text with
  | [] => .failed (.fault .unterminated start.length)
  | '"' :: rest => .done [] rest (by simp)
  | ['\\'] => .failed (.fault .unterminated start.length)
  | '\\' :: 'u' :: rest =>
    match unicodeEscape rest with
    | .error failure => .failed failure
    | .ok (c, width) =>
      match stringBody start (rest.drop width) with
      | .failed failure => .failed failure
      | .done more left h => .done (c :: more) left (by simp at h ⊢; omega)
  | '\\' :: letter :: rest =>
    match escapedChar? letter with
    | none => .failed (.fault .escape (rest.length + 2))
    | some c =>
      match stringBody start rest with
      | .failed failure => .failed failure
      | .done more left h => .done (.char c :: more) left (by simp; omega)
  | c :: rest =>
    if c.toNat < 0x20 then .failed (.fault .controlCharacter (rest.length + 1))
    else
      match stringBody start rest with
      | .failed failure => .failed failure
      | .done more left h => .done (.char c :: more) left (by simp; omega)
termination_by text.length
decreasing_by all_goals simp +arith

/-! ### Numbers -/

def fraction : Text → Text
  | '.' :: rest =>
    match rest.takeWhile Char.isDigit with
    | [] => []
    | digits => '.' :: digits
  | _ => []

def exponent : Text → Text
  | e :: rest =>
    if e = 'e' || e = 'E' then
      match rest with
      | '+' :: digits | '-' :: digits =>
        match digits.takeWhile Char.isDigit with
        | [] => []
        | found => e :: rest.take 1 ++ found
      | _ =>
        match rest.takeWhile Char.isDigit with
        | [] => []
        | found => e :: found
    else []
  | [] => []

def exponentValue : Text → Int
  | _ :: '-' :: digits => - (Decimal.value digits : Int)
  | _ :: '+' :: digits => Decimal.value digits
  | _ :: digits => Decimal.value digits
  | [] => 0

/-- The digits before the point: one zero, or any digits that do not start with zero. -/
def integerDigits : Text → Text
  | '0' :: _ => ['0']
  | text => text.takeWhile Char.isDigit

/-- The value of a number given by its parts. Without fraction and exponent it is an integer. -/
def numberValue (negative : Bool) (digits fraction exponent : Text) : Except Failure Value :=
  if fraction.isEmpty && exponent.isEmpty then
    if digits.length > Decimal.maxDigits then .error (.tooLong ⟨digits.length⟩)
    else
      let n : Int := Decimal.value digits
      .ok (.integer (if negative then -n else n))
  else
    let places := fraction.drop 1
    .ok (.float (.ofDecimal negative (Decimal.value (digits ++ places))
      (exponentValue exponent - places.length)))

def number (text : Text) : Reading Value text :=
  let negative := text.head? = some '-'
  let signed := if negative then text.drop 1 else text
  let digits := integerDigits signed
  if h : digits = [] ∨ text = [] then .failed (.fault .value text.length)
  else
    let afterDigits := signed.drop digits.length
    let places := fraction afterDigits
    let power := exponent (afterDigits.drop places.length)
    match numberValue negative digits places power with
    | .error failure => .failed failure
    | .ok value =>
      .done value ((afterDigits.drop places.length).drop power.length) (by
        rw [not_or] at h
        have := List.length_pos_iff.2 h.1
        have := List.length_pos_iff.2 h.2
        have : signed.length ≤ text.length := by
          simp only [signed]
          split <;> simp
        simp only [afterDigits, List.length_drop]
        omega)

/-! ### Values -/

def words : List (Text × Value) := [
  ("null".toList, .null), ("true".toList, .bool true), ("false".toList, .bool false),
  ("NaN".toList, .float .nan), ("Infinity".toList, .float (.infinite false)),
  ("-Infinity".toList, .float (.infinite true))]

def scalar (text : Text) : Reading Value text :=
  match words.find? fun word => word.1.isPrefixOf text with
  | some (word, value) =>
    if h : word ≠ [] ∧ text ≠ [] then
      .done value (text.drop word.length) (by
        have := List.length_pos_iff.2 h.1
        have := List.length_pos_iff.2 h.2
        simp only [List.length_drop]
        omega)
    else .failed (.fault .value text.length)
  | none => number text

mutual

def value (text : Text) : Reading Value text :=
  match text with
  | '"' :: rest =>
    match stringBody ('"' :: rest) rest with
    | .failed failure => .failed failure
    | .done string left h => .done (.string string) left (by simp; omega)
  | '{' :: rest =>
    match h : skipSpace rest with
    | '}' :: left => .done (.object []) left (by grind [length_skipSpace_le])
    | _ =>
      match members (skipSpace rest) with
      | .failed failure => .failed failure
      | .done found left _ => .done (.object found) left (by grind [length_skipSpace_le])
  | '[' :: rest =>
    match h : skipSpace rest with
    | ']' :: left => .done (.array []) left (by grind [length_skipSpace_le])
    | _ =>
      match elements (skipSpace rest) with
      | .failed failure => .failed failure
      | .done found left _ => .done (.array found) left (by grind [length_skipSpace_le])
  | text => scalar text
termination_by 2 * text.length
decreasing_by all_goals grind [length_skipSpace_le]

/-- The elements of an array, up to and with its closing bracket. -/
def elements (text : Text) : Reading (List Value) text :=
  match value text with
  | .failed failure => .failed failure
  | .done first left h₁ =>
    match h₂ : skipSpace left with
    | ']' :: rest => .done [first] rest (by grind [length_skipSpace_le])
    | ',' :: rest =>
      match elements (skipSpace rest) with
      | .failed failure => .failed failure
      | .done more behind h₃ => .done (first :: more) behind (by grind [length_skipSpace_le])
    | rest => .failed (.fault .comma rest.length)
termination_by 2 * text.length + 1
decreasing_by all_goals grind [length_skipSpace_le]

/-- The members of an object, up to and with its closing brace. -/
def members (text : Text) : Reading (List (RawText × Value)) text :=
  match text with
  | '"' :: rest =>
    match stringBody ('"' :: rest) rest with
    | .failed failure => .failed failure
    | .done name afterName h₁ =>
      match h₂ : skipSpace afterName with
      | ':' :: afterColon =>
        match value (skipSpace afterColon) with
        | .failed failure => .failed failure
        | .done found afterValue h₃ =>
          match h₄ : skipSpace afterValue with
          | '}' :: left => .done [(name, found)] left (by grind [length_skipSpace_le])
          | ',' :: afterComma =>
            match members (skipSpace afterComma) with
            | .failed failure => .failed failure
            | .done more left h₅ =>
              .done ((name, found) :: more) left (by grind [length_skipSpace_le])
          | left => .failed (.fault .comma left.length)
      | left => .failed (.fault .colon left.length)
  | text => .failed (.fault .name text.length)
termination_by 2 * text.length
decreasing_by all_goals grind [length_skipSpace_le]

end

/-- Why a JSON text has no value: a fault with its line and column from one and the number of
characters before it, or a numeral that is too long. -/
inductive Error where
  | fault (fault : Fault) (line column offset : Nat)
  | tooLong (numeral : Decimal.TooLong)
deriving DecidableEq

def Error.message : Error → Text
  | .fault f line column offset =>
    f.message ++ ": line ".toList ++ Decimal.ofNat line ++ " column ".toList ++
      Decimal.ofNat column ++ " (char ".toList ++ Decimal.ofNat offset ++ [')']
  | .tooLong numeral => numeral.message

def Failure.located (text : Text) : Failure → Error
  | .fault f left =>
    let before := text.take (text.length - left)
    .fault f (before.count '\n' + 1) ((before.reverse.takeWhile (· ≠ '\n')).length + 1)
      before.length
  | .tooLong numeral => .tooLong numeral

def read (text : Text) : Except Error Value :=
  let failure (failure : Failure) : Except Error Value := .error (failure.located text)
  if text.head? = some '\ufeff' then failure (.fault .byteOrderMark text.length)
  else
    match value (skipSpace text) with
    | .failed found => failure found
    | .done found rest _ =>
      match skipSpace rest with
      | [] => .ok found
      | left => failure (.fault .extra left.length)

end MonkeySyntax.Json
