import MonkeySyntax.Text.Quoted

/-!
# Writing JSON strings

A string in ASCII JSON. `isPrintableAscii_writtenString` says that nothing but printable ASCII is
written.
-/

namespace MonkeySyntax.Json

def unitEscape (unit : Nat) : Text := '\\' :: 'u' :: hexDigits 4 unit

/-- A character of a string: beyond the basic plane it is written as a surrogate pair. -/
def writtenChar (c : Char) : Text :=
  if c = '"' then ['\\', '"']
  else if c = '\\' then ['\\', '\\']
  else if c = '\n' then ['\\', 'n']
  else if c = '\r' then ['\\', 'r']
  else if c = '\t' then ['\\', 't']
  else if c = '\x08' then ['\\', 'b']
  else if c = '\x0c' then ['\\', 'f']
  else if 0x20 ≤ c.toNat && c.toNat < 0x7f then [c]
  else if c.toNat < 0x10000 then unitEscape c.toNat
  else
    unitEscape (0xd800 + (c.toNat - 0x10000) / 0x400) ++
      unitEscape (0xdc00 + (c.toNat - 0x10000) % 0x400)

def writtenString (text : Text) : Text := '"' :: text.flatMap writtenChar ++ ['"']

/-! ### All is printable ASCII -/

def isPrintableAscii (c : Char) : Bool := 0x20 ≤ c.toNat && c.toNat < 0x7f

theorem isPrintableAscii_digit (d : Nat) (h : d < 16) : isPrintableAscii (Decimal.digit d) := by
  have all : ∀ d < 16, isPrintableAscii (Decimal.digit d) := by decide
  exact all d h

theorem isPrintableAscii_hexDigits (width n : Nat) :
    ∀ c ∈ hexDigits width n, isPrintableAscii c := by
  induction width generalizing n with
  | zero => simp [hexDigits]
  | succ width ih =>
    simp only [hexDigits, List.mem_append, List.mem_singleton]
    rintro c (h | rfl)
    · exact ih _ c h
    · exact isPrintableAscii_digit _ (Nat.mod_lt _ (by decide))

theorem isPrintableAscii_unitEscape (unit : Nat) : ∀ c ∈ unitEscape unit, isPrintableAscii c := by
  simp only [unitEscape, List.mem_cons]
  rintro c (rfl | rfl | h)
  · decide
  · decide
  · exact isPrintableAscii_hexDigits _ _ c h

theorem isPrintableAscii_writtenChar (c : Char) : ∀ d ∈ writtenChar c, isPrintableAscii d := by
  have short {letter : Char} (h : isPrintableAscii letter) :
      ∀ d ∈ ['\\', letter], isPrintableAscii d := by
    simp only [List.mem_cons, List.not_mem_nil, or_false]
    rintro d (rfl | rfl)
    · rfl
    · exact h
  unfold writtenChar
  split; · exact short rfl
  split; · exact short rfl
  split; · exact short rfl
  split; · exact short rfl
  split; · exact short rfl
  split; · exact short rfl
  split; · exact short rfl
  split
  · rename_i h
    intro d member
    simp only [List.mem_singleton] at member
    exact member ▸ h
  split
  · exact isPrintableAscii_unitEscape _
  · simp only [List.mem_append]
    rintro d (h | h)
    · exact isPrintableAscii_unitEscape _ d h
    · exact isPrintableAscii_unitEscape _ d h

theorem isPrintableAscii_writtenString (text : Text) :
    ∀ c ∈ writtenString text, isPrintableAscii c := by
  simp only [writtenString, List.cons_append, List.mem_cons, List.mem_append, List.mem_flatMap,
    List.not_mem_nil, or_false]
  rintro c (rfl | ⟨d, _, h⟩ | rfl)
  · decide
  · exact isPrintableAscii_writtenChar d c h
  · decide

end MonkeySyntax.Json
