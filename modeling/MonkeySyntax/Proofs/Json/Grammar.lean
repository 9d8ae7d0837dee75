import MonkeySyntax.Json.Value
import MonkeySyntax.Text.Lines

/-!
# The grammar of JSON

Which texts are JSON, and what value each stands for. A part of a text is given by the text that it
starts and the rest behind it. Carriage returns stand only in gaps between the parts, so unifying
the line endings changes no value: `TextOf.unified`.
-/

namespace MonkeySyntax

namespace Json.Grammar

/-- The characters that are no part of a value. -/
def spaces : Text := [' ', '\t', '\n', '\r']

/-- Any number of spaces between the parts of a text. -/
inductive Gap : Text → Text → Prop
  | none {rest : Text} : Gap rest rest
  | more {c : Char} {start rest : Text} : c ∈ spaces → Gap start rest → Gap (c :: start) rest

/-! ### Strings -/

/-- The hexadecimal digits and their values. -/
def hexValues : List (Char × Nat) :=
  ['0', '1', '2', '3', '4', '5', '6', '7', '8', '9', 'a', 'b', 'c', 'd', 'e', 'f'].zipIdx ++
    ['A', 'B', 'C', 'D', 'E', 'F'].zipIdx 10

/-- Four hexadecimal digits, and their number. -/
inductive Quad : Text → Nat → Text → Prop
  | digits {a b c d : Char} {i j k l : Nat} {rest : Text} :
      (a, i) ∈ hexValues → (b, j) ∈ hexValues → (c, k) ∈ hexValues → (d, l) ∈ hexValues →
      Quad (a :: b :: c :: d :: rest) (16 * (16 * (16 * i + j) + k) + l) rest

/-- The letters behind a backslash, and the characters that they stand for. -/
def escapes : List (Char × Char) := [
  ('"', '"'), ('\\', '\\'), ('/', '/'), ('b', '\x08'), ('f', '\x0c'), ('n', '\n'), ('r', '\r'),
  ('t', '\t')]

/-- A part of a string: a character, or the number of a UTF-16 code unit. -/
inductive Piece where
  | char (c : Char)
  | unit (n : Nat)

/-- The pieces of a string up to and with its closing quote. -/
inductive Pieces : Text → List Piece → Text → Prop
  | close {rest : Text} : Pieces ('"' :: rest) [] rest
  | plain {c : Char} {start rest : Text} {pieces : List Piece} :
      0x20 ≤ c.toNat → c ≠ '"' → c ≠ '\\' → Pieces start pieces rest →
      Pieces (c :: start) (.char c :: pieces) rest
  | letter {letter c : Char} {start rest : Text} {pieces : List Piece} :
      (letter, c) ∈ escapes → Pieces start pieces rest →
      Pieces ('\\' :: letter :: start) (.char c :: pieces) rest
  | unit {n : Nat} {start mid rest : Text} {pieces : List Piece} :
      Quad start n mid → Pieces mid pieces rest →
      Pieces ('\\' :: 'u' :: start) (.unit n :: pieces) rest

def isHigh (n : Nat) : Bool := 0xd800 ≤ n && n < 0xdc00

def isLow (n : Nat) : Bool := 0xdc00 ≤ n && n < 0xe000

/-- The character of a surrogate pair. -/
def paired (high low : Nat) : CodePoint :=
  .ofNat (0x10000 + (high - 0xd800) * 0x400 + (low - 0xdc00))

/-- The code points of a string. A high surrogate makes a character with the low surrogate behind
it, and any other surrogate stands alone. -/
def textOf : List Piece → RawText
  | [] => []
  | .char c :: pieces => .char c :: textOf pieces
  | .unit high :: .unit low :: pieces =>
    if isHigh high && isLow low then paired high low :: textOf pieces
    else .ofNat high :: textOf (.unit low :: pieces)
  | .unit n :: pieces => .ofNat n :: textOf pieces

/-! ### Numbers -/

/-- One digit or more. -/
def Digits (text : Text) : Prop := text ≠ [] ∧ ∀ c ∈ text, c.isDigit

/-- The digits before the point: zero, or digits that do not start with it. -/
def Whole (text : Text) : Prop := Digits text ∧ (text = ['0'] ∨ text.head? ≠ some '0')

/-- The point and the digits behind it, or nothing. -/
inductive Fraction : Text → Text → Prop
  | none : Fraction [] []
  | some {places : Text} : Digits places → Fraction ('.' :: places) places

/-- A scale by powers of ten, or nothing. -/
inductive Exponent : Text → Int → Prop
  | none : Exponent [] 0
  | plain {mark : Char} {digits : Text} : mark = 'e' ∨ mark = 'E' → Digits digits →
      Exponent (mark :: digits) (Decimal.value digits)
  | plus {mark : Char} {digits : Text} : mark = 'e' ∨ mark = 'E' → Digits digits →
      Exponent (mark :: '+' :: digits) (Decimal.value digits)
  | minus {mark : Char} {digits : Text} : mark = 'e' ∨ mark = 'E' → Digits digits →
      Exponent (mark :: '-' :: digits) (-(Decimal.value digits : Int))

def sign (negative : Bool) : Text := if negative then ['-'] else []

/-- A number without its sign: an integer unless it has a fraction or an exponent. -/
inductive Magnitude (negative : Bool) : Text → Value → Prop
  | integer {digits : Text} : Whole digits →
      Magnitude negative digits
        (.integer (if negative then -(Decimal.value digits : Int) else Decimal.value digits))
  | float {digits fraction places power : Text} {scale : Int} : Whole digits →
      Fraction fraction places → Exponent power scale → fraction ≠ [] ∨ power ≠ [] →
      Magnitude negative (digits ++ fraction ++ power)
        (.float (.ofDecimal negative (Decimal.value (digits ++ places)) (scale - places.length)))

/-! ### Values -/

/-- The values that are words. Those that are no numerals are numbers all the same. -/
def literals : List (Text × Value) := [
  ("null".toList, .null), ("true".toList, .bool true), ("false".toList, .bool false),
  ("NaN".toList, .float .nan), ("Infinity".toList, .float (.infinite false)),
  ("-Infinity".toList, .float (.infinite true))]

mutual

inductive ValueAt : Text → Value → Text → Prop
  | literal {word rest : Text} {v : Value} : (word, v) ∈ literals → ValueAt (word ++ rest) v rest
  | number {negative : Bool} {text rest : Text} {v : Value} : Magnitude negative text v →
      ValueAt (sign negative ++ (text ++ rest)) v rest
  | string {start rest : Text} {pieces : List Piece} : Pieces start pieces rest →
      ValueAt ('"' :: start) (.string (textOf pieces)) rest
  | noElements {start rest : Text} : Gap start (']' :: rest) →
      ValueAt ('[' :: start) (.array []) rest
  | array {start rest : Text} {values : List Value} : ElementsAt start values (']' :: rest) →
      ValueAt ('[' :: start) (.array values) rest
  | noMembers {start rest : Text} : Gap start ('}' :: rest) →
      ValueAt ('{' :: start) (.object []) rest
  | object {start rest : Text} {members : List (RawText × Value)} :
      MembersAt start members ('}' :: rest) → ValueAt ('{' :: start) (.object members) rest

/-- Values with commas between them. -/
inductive ElementsAt : Text → List Value → Text → Prop
  | last {before start behind rest : Text} {v : Value} :
      Gap before start → ValueAt start v behind → Gap behind rest → ElementsAt before [v] rest
  | more {before start behind next rest : Text} {v : Value} {values : List Value} :
      Gap before start → ValueAt start v behind → Gap behind (',' :: next) →
      ElementsAt next values rest → ElementsAt before (v :: values) rest

/-- Names with their values, and commas between them. -/
inductive MembersAt : Text → List (RawText × Value) → Text → Prop
  | last {before rest : Text} {member : RawText × Value} : MemberAt before member rest →
      MembersAt before [member] rest
  | more {before next rest : Text} {member : RawText × Value} {members : List (RawText × Value)} :
      MemberAt before member (',' :: next) → MembersAt next members rest →
      MembersAt before (member :: members) rest

/-- A name, a colon and a value, and the gaps around them. -/
inductive MemberAt : Text → RawText × Value → Text → Prop
  | named {before name afterName afterColon start behind rest : Text} {pieces : List Piece}
      {v : Value} :
      Gap before ('"' :: name) → Pieces name pieces afterName → Gap afterName (':' :: afterColon) →
      Gap afterColon start → ValueAt start v behind → Gap behind rest →
      MemberAt before (textOf pieces, v) rest

end

/-- A text is JSON for a value. -/
def TextOf (text : Text) (v : Value) : Prop :=
  ∃ start behind, Gap text start ∧ ValueAt start v behind ∧ Gap behind []

end Json.Grammar

/-! ### Line endings -/

theorem unifyLineEndings_cons {c : Char} (other : c ≠ '\r') (rest : Text) :
    unifyLineEndings (c :: rest) = c :: unifyLineEndings rest := by
  rw [unifyLineEndings]
  · rintro next rfl
    contradiction
  · rintro rfl
    contradiction

theorem unifyLineEndings_append {first : Text} (other : '\r' ∉ first) (rest : Text) :
    unifyLineEndings (first ++ rest) = first ++ unifyLineEndings rest := by
  induction first with
  | nil => rfl
  | cons c first ih =>
    have isOther : c ≠ '\r' := fun same => other (same ▸ List.mem_cons_self)
    rw [List.cons_append, unifyLineEndings_cons isOther,
      ih fun member => other (List.mem_cons_of_mem c member), List.cons_append]

/-- A carriage return becomes a line feed, or is dropped in front of one. -/
theorem unifyLineEndings_return (rest : Text) :
    unifyLineEndings ('\r' :: rest) = '\n' :: unifyLineEndings rest ∨
      unifyLineEndings ('\r' :: rest) = unifyLineEndings rest := by
  match rest with
  | [] => exact .inl rfl
  | c :: next =>
    by_cases feed : c = '\n'
    · subst feed
      exact .inr (by rw [unifyLineEndings, unifyLineEndings_cons (by decide)])
    · refine .inl ?_
      rw [unifyLineEndings]
      rintro next same
      exact feed (List.cons.inj same).1

namespace Json.Grammar

theorem Gap.unified {start rest : Text} (gap : Gap start rest) :
    Gap (unifyLineEndings start) (unifyLineEndings rest) := by
  induction gap with
  | none => exact .none
  | @more c start rest isSpace _ ih =>
    by_cases isReturn : c = '\r'
    · subst isReturn
      rcases unifyLineEndings_return start with feed | dropped
      · rw [feed]
        exact .more (by decide) ih
      · rw [dropped]
        exact ih
    · rw [unifyLineEndings_cons isReturn]
      exact .more isSpace ih

/-- A gap before a character that is none of its own. -/
theorem Gap.unified_cons {c : Char} {start rest : Text} (gap : Gap start (c :: rest))
    (other : c ≠ '\r') : Gap (unifyLineEndings start) (c :: unifyLineEndings rest) :=
  unifyLineEndings_cons other rest ▸ gap.unified

theorem ne_return_of_mem_hexValues {c : Char} {d : Nat} (digit : (c, d) ∈ hexValues) :
    c ≠ '\r' := by
  have each : ∀ pair ∈ hexValues, pair.1 ≠ '\r' := by decide
  exact each _ digit

theorem Quad.unified {start rest : Text} {n : Nat} :
    Quad start n rest → Quad (unifyLineEndings start) n (unifyLineEndings rest)
  | .digits a b c d => by
    rw [unifyLineEndings_cons (ne_return_of_mem_hexValues a),
      unifyLineEndings_cons (ne_return_of_mem_hexValues b),
      unifyLineEndings_cons (ne_return_of_mem_hexValues c),
      unifyLineEndings_cons (ne_return_of_mem_hexValues d)]
    exact .digits a b c d

theorem ne_return_of_mem_escapes {letter c : Char} (escape : (letter, c) ∈ escapes) :
    letter ≠ '\r' := by
  have each : ∀ pair ∈ escapes, pair.1 ≠ '\r' := by decide
  exact each _ escape

theorem Pieces.unified {start rest : Text} {pieces : List Piece} (body : Pieces start pieces rest) :
    Pieces (unifyLineEndings start) pieces (unifyLineEndings rest) := by
  induction body with
  | close =>
    rw [unifyLineEndings_cons (by decide)]
    exact .close
  | plain visible notQuote notEscape _ ih =>
    rw [unifyLineEndings_cons (by rintro rfl; contradiction)]
    exact .plain visible notQuote notEscape ih
  | letter escape _ ih =>
    rw [unifyLineEndings_cons (by decide), unifyLineEndings_cons (ne_return_of_mem_escapes escape)]
    exact .letter escape ih
  | unit quad _ ih =>
    rw [unifyLineEndings_cons (by decide), unifyLineEndings_cons (by decide)]
    exact .unit quad.unified ih

theorem Digits.return_not_mem {text : Text} (digits : Digits text) : '\r' ∉ text :=
  fun member => absurd (digits.2 _ member) (by decide)

theorem Fraction.return_not_mem {text places : Text} (fraction : Fraction text places) :
    '\r' ∉ text := by
  cases fraction with
  | none => exact List.not_mem_nil
  | some digits => simpa using digits.return_not_mem

theorem Exponent.return_not_mem {text : Text} {scale : Int} (exponent : Exponent text scale) :
    '\r' ∉ text := by
  cases exponent with
  | none => exact List.not_mem_nil
  | plain mark digits | plus mark digits | minus mark digits =>
    rcases mark with rfl | rfl <;> simpa using digits.return_not_mem

theorem Magnitude.return_not_mem {negative : Bool} {text : Text} {v : Value}
    (magnitude : Magnitude negative text v) : '\r' ∉ text := by
  cases magnitude with
  | integer whole => exact whole.1.return_not_mem
  | float whole fraction exponent _ =>
    simp [whole.1.return_not_mem, fraction.return_not_mem, exponent.return_not_mem]

theorem return_not_mem_sign (negative : Bool) : '\r' ∉ sign negative := by
  cases negative <;> decide

theorem return_not_mem_literal {word : Text} {v : Value} (literal : (word, v) ∈ literals) :
    '\r' ∉ word := by
  have each : ∀ word ∈ literals.map Prod.fst, '\r' ∉ word := by decide
  exact each _ (List.mem_map.mpr ⟨_, literal, rfl⟩)

mutual

theorem ValueAt.unified {start rest : Text} {v : Value} :
    ValueAt start v rest → ValueAt (unifyLineEndings start) v (unifyLineEndings rest)
  | .literal word => by
    rw [unifyLineEndings_append (return_not_mem_literal word)]
    exact .literal word
  | .number magnitude => by
    rw [unifyLineEndings_append (return_not_mem_sign _),
      unifyLineEndings_append magnitude.return_not_mem]
    exact .number magnitude
  | .string pieces => by
    rw [unifyLineEndings_cons (by decide)]
    exact .string pieces.unified
  | .noElements gap => by
    rw [unifyLineEndings_cons (by decide)]
    exact .noElements (gap.unified_cons (by decide))
  | .array elements => by
    rw [unifyLineEndings_cons (by decide)]
    exact .array (unifyLineEndings_cons (c := ']') (by decide) _ ▸ elements.unified)
  | .noMembers gap => by
    rw [unifyLineEndings_cons (by decide)]
    exact .noMembers (gap.unified_cons (by decide))
  | .object members => by
    rw [unifyLineEndings_cons (by decide)]
    exact .object (unifyLineEndings_cons (c := '}') (by decide) _ ▸ members.unified)

theorem ElementsAt.unified {start rest : Text} {values : List Value} :
    ElementsAt start values rest →
      ElementsAt (unifyLineEndings start) values (unifyLineEndings rest)
  | .last before value behind => .last before.unified value.unified behind.unified
  | .more before value behind others =>
    .more before.unified value.unified (behind.unified_cons (by decide)) others.unified

theorem MembersAt.unified {start rest : Text} {members : List (RawText × Value)} :
    MembersAt start members rest →
      MembersAt (unifyLineEndings start) members (unifyLineEndings rest)
  | .last member => .last member.unified
  | .more member others =>
    .more (unifyLineEndings_cons (c := ',') (by decide) _ ▸ member.unified) others.unified

theorem MemberAt.unified {start rest : Text} {member : RawText × Value} :
    MemberAt start member rest → MemberAt (unifyLineEndings start) member (unifyLineEndings rest)
  | .named before name afterName afterColon value behind =>
    .named (before.unified_cons (by decide)) name.unified (afterName.unified_cons (by decide))
      afterColon.unified value.unified behind.unified

end

theorem TextOf.unified {text : Text} {v : Value} (isText : TextOf text v) :
    TextOf (unifyLineEndings text) v := by
  obtain ⟨start, behind, before, value, after⟩ := isText
  exact ⟨_, _, before.unified, value.unified, after.unified⟩

end Json.Grammar

end MonkeySyntax
