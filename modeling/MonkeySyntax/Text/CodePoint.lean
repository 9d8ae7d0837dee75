import MonkeySyntax.Text.Quoted
import MonkeySyntax.Text.Uppercase

/-!
# Raw text

Text in which surrogates may stand alone, as in strings of JSON. It cannot be written in UTF-8
unless it is text after all: `chars?_eq_some_iff`. What is done to raw text does to text what it
should: `quotedRaw_codePoints`, `upperRaw_codePoints`.
-/

namespace MonkeySyntax

/-- A character, or one of the surrogates, counted from the first. -/
inductive CodePoint where
  | char (c : Char)
  | surrogate (index : Fin 0x800)
deriving DecidableEq

namespace CodePoint

def ofNat (n : Nat) : CodePoint :=
  if h : 0xd800 ≤ n ∧ n < 0xe000 then .surrogate ⟨n - 0xd800, by omega⟩ else .char (Char.ofNat n)

theorem ofNat_toNat (c : Char) : ofNat c.toNat = .char c := by
  have scalar : c.toNat < 0xd800 ∨ 0xdfff < c.toNat ∧ c.toNat < 0x110000 := c.valid
  rw [ofNat, dif_neg (by omega), c.ofNat_toNat]

def char? : CodePoint → Option Char
  | char c => some c
  | surrogate _ => none

/-- A code point as a stream shows it that escapes what it cannot encode. -/
def shown : CodePoint → Text
  | char c => [c]
  | surrogate index => '\\' :: 'u' :: hexDigits 4 (0xd800 + index)

/-- A code point between quotes. No surrogate is printable. -/
def escaped (quote : Char) : CodePoint → Text
  | char c => MonkeySyntax.escaped quote c
  | surrogate index => (surrogate index).shown

def upper : CodePoint → List CodePoint
  | char c => (upperChar c).map .char
  | surrogate index => [.surrogate index]

end CodePoint

/-- Text in which surrogates may stand alone. -/
abbrev RawText := List CodePoint

/-- A text as raw text. -/
def codePoints (text : Text) : RawText := text.map .char

/-- The text that a raw text is, unless there is a surrogate in it. -/
def chars? : RawText → Option Text
  | [] => some []
  | .char c :: rest => (chars? rest).map (c :: ·)
  | .surrogate _ :: _ => none

def shownRaw (text : RawText) : Text := text.flatMap CodePoint.shown

def quotedRaw (text : RawText) : Text :=
  let quote := quoteFor (text.filterMap CodePoint.char?)
  quote :: text.flatMap (CodePoint.escaped quote) ++ [quote]

def upperRaw (text : RawText) : RawText := text.flatMap CodePoint.upper

theorem codePoints_inj {text other : Text} : codePoints text = codePoints other ↔ text = other :=
  List.map_inj_right fun _ _ same => by cases same; rfl

theorem chars?_codePoints (text : Text) : chars? (codePoints text) = some text := by
  induction text with
  | nil => rfl
  | cons c text ih =>
    show (chars? (codePoints text)).map (c :: ·) = _
    rw [ih]
    rfl

theorem chars?_eq_some_iff {raw : RawText} {text : Text} :
    chars? raw = some text ↔ raw = codePoints text := by
  refine ⟨fun found => ?_, fun same => same ▸ chars?_codePoints text⟩
  fun_induction chars? raw generalizing text with
  | case1 =>
    cases found
    rfl
  | case2 c rest ih =>
    obtain ⟨more, isRest, rfl⟩ := Option.map_eq_some_iff.mp found
    exact congrArg (.char c :: ·) (ih isRest)
  | case3 => contradiction

theorem quotedRaw_codePoints (text : Text) : quotedRaw (codePoints text) = quoted text := by
  have chars : (codePoints text).filterMap CodePoint.char? = text := by
    rw [codePoints, List.filterMap_map]
    exact List.filterMap_some
  rw [quotedRaw, chars, codePoints, List.flatMap_map]
  rfl

theorem upperRaw_codePoints (text : Text) :
    upperRaw (codePoints text) = codePoints (upper text) := by
  rw [upperRaw, codePoints, List.flatMap_map, upper, codePoints, List.map_flatMap]
  rfl

theorem shownRaw_codePoints (text : Text) : shownRaw (codePoints text) = text := by
  rw [shownRaw, codePoints, List.flatMap_map]
  exact List.flatMap_singleton' text

/-! ### What cannot be written -/

/-- A raw text that a stream in UTF-8 does not take. -/
structure Unencodable where
  text : RawText
deriving DecidableEq

/-- Where the first surrogates are. -/
def Unencodable.message (e : Unencodable) : Text :=
  let before := (e.text.takeWhile (·.char?.isSome)).length
  let place := match (e.text.drop before).takeWhile (·.char?.isNone) with
    | [c] => " '".toList ++ c.shown ++ "' in position ".toList ++ Decimal.ofNat before
    | several => "s in position ".toList ++ Decimal.ofNat before ++
        '-' :: Decimal.ofNat (before + several.length - 1)
  "'utf-8' codec can't encode character".toList ++ place ++ ": surrogates not allowed".toList

end MonkeySyntax
