/-!
# Decimal numerals

Numbers as decimal text. `value_ofNat` says that a number is read back from its numeral.
-/

namespace MonkeySyntax

/-- Text, one element for each code point. -/
abbrev Text := List Char

namespace Decimal

/-- The character of a digit below sixteen, in lower case. -/
def digit (d : Nat) : Char :=
  if d < 10 then Char.ofNat (48 + d) else Char.ofNat (87 + d)

def digitValue (c : Char) : Nat := c.toNat - 48

/-- The shortest decimal numeral of a number. -/
def ofNat (n : Nat) : Text :=
  if n < 10 then [digit n] else ofNat (n / 10) ++ [digit (n % 10)]

/-- The numeral of an integer. The limit `maxDigits` holds for writing too and is not checked here:
an integer that was read is within it, and only trees that are built by hand can hold others. -/
def ofInt : Int → Text
  | .ofNat n => ofNat n
  | .negSucc n => '-' :: ofNat (n + 1)

/-- The most digits that a numeral may have to be converted to a number, leading zeros counted. -/
def maxDigits : Nat := 4300

structure TooLong where
  digits : Nat
deriving DecidableEq

def TooLong.message (e : TooLong) : Text :=
  "Exceeds the limit (".toList ++ ofNat maxDigits ++
    " digits) for integer string conversion: value has ".toList ++ ofNat e.digits ++
    " digits; use sys.set_int_max_str_digits() to increase the limit".toList

/-- The number that a run of decimal digits denotes, leading zeros allowed. -/
def value (digits : Text) : Nat :=
  digits.foldl (fun n c => 10 * n + digitValue c) 0

theorem digitValue_digit {d : Nat} (h : d < 10) : digitValue (digit d) = d := by
  match d, h with
  | 0, _ | 1, _ | 2, _ | 3, _ | 4, _ | 5, _ | 6, _ | 7, _ | 8, _ | 9, _ => rfl

theorem value_append_singleton (digits : Text) (c : Char) :
    value (digits ++ [c]) = 10 * value digits + digitValue c := by
  simp [value]

theorem value_ofNat (n : Nat) : value (ofNat n) = n := by
  induction n using Nat.strongRecOn with
  | _ n ih =>
    rw [ofNat]
    split
    · rename_i h
      simp [value, digitValue_digit h]
    · rename_i h
      rw [value_append_singleton, ih _ (by omega), digitValue_digit (by omega)]
      omega

end Decimal

/-- `items` with `separator` between neighbours. -/
def joined (separator : Text) : List Text → Text
  | [] => []
  | [item] => item
  | item :: next :: rest => item ++ separator ++ joined separator (next :: rest)

end MonkeySyntax
