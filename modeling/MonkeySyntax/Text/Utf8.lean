import MonkeySyntax.Text.Lines
import MonkeySyntax.Text.Quoted

/-!
# UTF-8 input

Bytes become text, or the first offence against UTF-8 is reported with its place.
-/

namespace MonkeySyntax

abbrev Bytes := List UInt8

namespace Utf8

inductive Fault where
  | invalidStart
  | invalidContinuation
  | unexpectedEnd
deriving DecidableEq

/-- The bytes that cannot be decoded, and how many bytes come before them. -/
structure Error where
  fault : Fault
  offset : Nat
  bytes : Bytes
deriving DecidableEq

def Fault.message : Fault → Text
  | .invalidStart => "invalid start byte".toList
  | .invalidContinuation => "invalid continuation byte".toList
  | .unexpectedEnd => "unexpected end of data".toList

def Error.message (e : Error) : Text :=
  let place := match e.bytes with
    | [b] => "byte 0x".toList ++ hexDigits 2 b.toNat ++ " in position ".toList ++
        Decimal.ofNat e.offset
    | bytes => "bytes in position ".toList ++ Decimal.ofNat e.offset ++ '-' ::
        Decimal.ofNat (e.offset + bytes.length - 1)
  "'utf-8' codec can't decode ".toList ++ place ++ ": ".toList ++ e.fault.message

/-- How one character starts: it is complete, the bytes end inside it, or they cannot start one.
The number counts the bytes that are all right. -/
inductive Start where
  | complete (c : Char) (width : Nat)
  | cutShort
  | invalid (fault : Fault) (width : Nat)

/-- For a first byte: how many bytes follow it, and the least and the greatest second byte. -/
def sequel (first : UInt8) : Option (Nat × UInt8 × UInt8) :=
  if first < 0x80 then some (0, 0, 0)
  else if first < 0xc2 then none
  else if first < 0xe0 then some (1, 0x80, 0xbf)
  else if first = 0xe0 then some (2, 0xa0, 0xbf)
  else if first = 0xed then some (2, 0x80, 0x9f)
  else if first < 0xf0 then some (2, 0x80, 0xbf)
  else if first = 0xf0 then some (3, 0x90, 0xbf)
  else if first < 0xf4 then some (3, 0x80, 0xbf)
  else if first = 0xf4 then some (3, 0x80, 0x8f)
  else none

/-- Reads `missing` more bytes of a character, the next one between `low` and `high`. -/
def continuation (low high : UInt8) : (missing value width : Nat) → Bytes → Start
  | 0, value, width, _ => .complete (Char.ofNat value) width
  | _ + 1, _, _, [] => .cutShort
  | missing + 1, value, width, b :: rest =>
    if low ≤ b && b ≤ high then
      continuation 0x80 0xbf missing (64 * value + b.toNat % 64) (width + 1) rest
    else .invalid .invalidContinuation width

def start (first : UInt8) (rest : Bytes) : Start :=
  match sequel first with
  | none => .invalid .invalidStart 1
  | some (0, _, _) => .complete (Char.ofNat first.toNat) 1
  | some (missing, low, high) =>
    continuation low high missing (first.toNat % (64 >>> missing)) 1 rest

/-- Whether nothing is left but the first two bytes of a surrogate. -/
def isCutSurrogate : Bytes → Bool
  | [first, second] => first == 0xed && 0xa0 ≤ second && second ≤ 0xbf
  | _ => false

/-- The text of a block of bytes that starts at `offset`, and the bytes of a last character that the
block does not complete; in a `final` block there must be none. A surrogate is no character, but one
that is cut short is refused only when the next bytes are there. -/
def decodeBlock (final : Bool) (offset : Nat) : Bytes → Except Error (Text × Bytes)
  | [] => .ok ([], [])
  | first :: rest =>
    match start first rest with
    | .complete c width =>
      match decodeBlock final (offset + width) (rest.drop (width - 1)) with
      | .ok (text, held) => .ok (c :: text, held)
      | .error e => .error e
    | .cutShort =>
      if final then .error ⟨.unexpectedEnd, offset, first :: rest⟩ else .ok ([], first :: rest)
    | .invalid fault width =>
      if !final && isCutSurrogate (first :: rest) then .ok ([], first :: rest)
      else .error ⟨fault, offset, (first :: rest).take width⟩
termination_by bytes => bytes.length
decreasing_by simp only [List.length_drop, List.length_cons]; omega

def decode (bytes : Bytes) : Except Error Text :=
  (decodeBlock true 0 bytes).map (·.1)

def encodeChar (c : Char) : Bytes :=
  let n := c.toNat
  let tail (m : Nat) : UInt8 := UInt8.ofNat (0x80 + m % 64)
  if n < 0x80 then [UInt8.ofNat n]
  else if n < 0x800 then [UInt8.ofNat (0xc0 + n / 64), tail n]
  else if n < 0x10000 then [UInt8.ofNat (0xe0 + n / 4096), tail (n / 64), tail n]
  else [UInt8.ofNat (0xf0 + n / 262144), tail (n / 4096), tail (n / 64), tail n]

def encode (text : Text) : Bytes := text.flatMap encodeChar

/-! ### Reading as the bytes arrive -/

/-- The number of bytes that arrive together. -/
def blockSize : Nat := 8192

/-- The text of the bytes that arrive block by block after `held`, up to the first block that
cannot be decoded. -/
def decodeArriving (held : Bytes) (bytes : Bytes) : Text × Option Error :=
  match bytes with
  | [] =>
    match decodeBlock true 0 held with
    | .ok (text, _) => (text, none)
    | .error e => ([], some e)
  | b :: rest =>
    match decodeBlock false 0 (held ++ b :: rest.take (blockSize - 1)) with
    | .ok (text, held) =>
      let (more, fault) := decodeArriving held (rest.drop (blockSize - 1))
      (text ++ more, fault)
    | .error e => ([], some e)
termination_by bytes.length
decreasing_by simp only [List.length_drop, List.length_cons]; omega

/-- The lines that can be read from arriving bytes before a block cannot be decoded. A line that
such a block would have completed is lost. -/
def arrivingLines (bytes : Bytes) : List Text × Option Error :=
  match decodeArriving [] bytes with
  | (text, none) => (inputLines (unifyLineEndings text), none)
  | (text, some e) =>
    let settled := if text.getLast? = some '\r' then text.dropLast else text
    ((inputLines (unifyLineEndings settled)).filter (·.getLast? = some '\n'), some e)

end Utf8

end MonkeySyntax
