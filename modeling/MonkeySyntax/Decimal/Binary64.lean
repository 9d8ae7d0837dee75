import MonkeySyntax.Text.Decimal

/-!
# Binary floating point and its decimal text

Decimals are rounded to the nearest double, and a double is shown with the fewest digits that round
back to it, all in exact integer arithmetic.
-/

namespace MonkeySyntax

/-- A double: `mantissa * 2 ^ exponent` with a sign, an infinity, or no number. -/
inductive Binary64 where
  | finite (negative : Bool) (mantissa : Nat) (exponent : Int)
  | infinite (negative : Bool)
  | nan
deriving DecidableEq

namespace Binary64

def minExponent : Int := -1074
def maxExponent : Int := 971

def minFullMantissa : Nat := 0x10000000000000

/-- The quotient rounded to the nearest integer, halves to the even one. -/
def roundDiv (n d : Nat) : Nat :=
  let q := n / d
  let twice := 2 * (n % d)
  if twice < d then q else if d < twice then q + 1 else q + q % 2

def powOf (b : Nat) (e : Int) : Nat := b.pow e.toNat

def ofFraction (negative : Bool) (n d : Nat) : Binary64 :=
  let estimate : Int := n.log2 - d.log2
  let magnitude :=
    if d * powOf 2 estimate ≤ n * powOf 2 (-estimate) then estimate else estimate - 1
  let exponent := max (magnitude - 52) minExponent
  let mantissa := roundDiv (n * powOf 2 (-exponent)) (d * powOf 2 exponent)
  let (mantissa, exponent) :=
    if mantissa = 2 * minFullMantissa then (minFullMantissa, exponent + 1)
    else (mantissa, exponent)
  if exponent > maxExponent then infinite negative else finite negative mantissa exponent

/-- The double nearest to `coefficient * 10 ^ exponent`. Far outside the range of doubles the power
need not be computed. -/
def ofDecimal (negative : Bool) (coefficient : Nat) (exponent : Int) : Binary64 :=
  let magnitude := (Decimal.ofNat coefficient).length + exponent
  if coefficient = 0 || magnitude < -400 then finite negative 0 minExponent
  else if magnitude > 400 then infinite negative
  else ofFraction negative (coefficient * powOf 10 exponent) (powOf 10 (-exponent))

/-! ### Shortest decimals -/

/-- Whether `x * 10 ^ e` rounds to the double `mantissa * 2 ^ exponent`: it lies between the middles
towards the two neighbours, or on one of them when the mantissa is even. -/
def roundsTo (mantissa : Nat) (exponent : Int) (x : Nat) (e : Int) : Bool :=
  let below := if mantissa = minFullMantissa && minExponent < exponent then 1 else 2
  let scale := 4 * powOf 2 (-exponent) * powOf 10 e
  let point := x * scale
  let unit := powOf 2 exponent * powOf 10 (-e)
  let low := (4 * mantissa - below) * unit
  let high := (4 * mantissa + 2) * unit
  if mantissa % 2 = 0 then low ≤ point && point ≤ high else low < point && point < high

/-- The multiple of `10 ^ e` nearest to the double, among those next to it that round to it. -/
def onGrid? (mantissa : Nat) (exponent : Int) (e : Int) : Option Nat :=
  let n := mantissa * powOf 2 exponent * powOf 10 (-e)
  let d := powOf 2 (-exponent) * powOf 10 e
  let below := n / d
  match roundsTo mantissa exponent below e, roundsTo mantissa exponent (below + 1) e with
  | true, true => some (roundDiv n d)
  | true, false => some below
  | false, true => some (below + 1)
  | false, false => none

/-- The shortest decimal that rounds to a positive double, as a coefficient and a power of ten. -/
def shortest (mantissa : Nat) (exponent : Int) : Nat × Int :=
  let n := mantissa * powOf 2 exponent
  let d := powOf 2 (-exponent)
  let estimate : Int := (Decimal.ofNat n).length - (Decimal.ofNat d).length
  let magnitude :=
    if d * powOf 10 estimate ≤ n * powOf 10 (-estimate) then estimate else estimate - 1
  let grids := (List.range 17).map fun k : Nat => magnitude - (k : Int)
  match grids.findSome? fun e => (onGrid? mantissa exponent e).map fun x => (x, e) with
  | some found => found
  | none => (n, 0)

/-- The digits of a decimal without zeros at the end, and the place of its point in them. -/
def digitsAndPoint (coefficient : Nat) (exponent : Int) : Text × Int :=
  let digits := Decimal.ofNat coefficient
  ((digits.reverse.dropWhile (· = '0')).reverse, digits.length + exponent)

/-- Which places of the point are written without an exponent, and the least length of one. -/
structure Style where
  leastPoint : Int
  greatestPoint : Int
  exponentDigits : Nat

/-- Numbers from a ten-thousandth to below ten to the sixteenth are written out, and an exponent has
two digits at least. -/
def style : Style := ⟨-3, 16, 2⟩

def zeros (n : Int) : Text := List.replicate n.toNat '0'

def written (style : Style) (digits : Text) (point : Int) : Text :=
  if style.leastPoint ≤ point && point ≤ style.greatestPoint then
    if point ≤ 0 then "0.".toList ++ zeros (-point) ++ digits
    else
      let fraction := digits.drop point.toNat
      digits.take point.toNat ++ zeros (point - digits.length) ++ '.' ::
        (if fraction.isEmpty then ['0'] else fraction)
  else
    let sign := if point ≤ 0 then '-' else '+'
    let exponent := Decimal.ofNat (point - 1).natAbs
    let fraction := digits.drop 1
    digits.take 1 ++ (if fraction.isEmpty then [] else '.' :: fraction) ++ 'e' :: sign ::
      (zeros (style.exponentDigits - exponent.length) ++ exponent)

def text : Binary64 → Text
  | nan => "nan".toList
  | infinite negative => (if negative then ['-'] else []) ++ "inf".toList
  | finite negative mantissa exponent =>
    (if negative then ['-'] else []) ++
      if mantissa = 0 then "0.0".toList
      else
        let (coefficient, power) := shortest mantissa exponent
        let (digits, point) := digitsAndPoint coefficient power
        written style digits point

end Binary64

end MonkeySyntax
