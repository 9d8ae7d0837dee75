import MonkeySyntax.Text.Decimal
import MonkeySyntax.Text.Printable

/-!
# Quoted text

How a text is shown in messages: between quotes, with the quote, the backslash and every unprintable
character escaped.
-/

namespace MonkeySyntax

/-- A numeral of exactly `width` hexadecimal digits, the lowest ones. -/
def hexDigits : Nat → Nat → Text
  | 0, _ => []
  | width + 1, n => hexDigits width (n / 16) ++ [Decimal.digit (n % 16)]

theorem length_hexDigits (width n : Nat) : (hexDigits width n).length = width := by
  induction width generalizing n with
  | zero => rfl
  | succ width ih => simp [hexDigits, ih]

/-- The single quote, unless the text has one and no double quote. -/
def quoteFor (text : Text) : Char :=
  if text.contains '\'' && !text.contains '"' then '"' else '\''

def escaped (quote c : Char) : Text :=
  if c = '\\' ∨ c = quote then ['\\', c]
  else if c = '\n' then ['\\', 'n']
  else if c = '\r' then ['\\', 'r']
  else if c = '\t' then ['\\', 't']
  else if isPrintable c then [c]
  else if c.toNat < 0x100 then '\\' :: 'x' :: hexDigits 2 c.toNat
  else if c.toNat < 0x10000 then '\\' :: 'u' :: hexDigits 4 c.toNat
  else '\\' :: 'U' :: hexDigits 8 c.toNat

def quoted (text : Text) : Text :=
  quoteFor text :: text.flatMap (escaped (quoteFor text)) ++ [quoteFor text]

end MonkeySyntax
