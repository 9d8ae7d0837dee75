import MonkeySyntax.Lexeme

/-!
# Reading a source

A cursor is the unread text and the place of the last character read. `read` takes the next item
from it, a token or a bad name; `length_rest_read_lt` says that it advances unless the text is used
up.
-/

namespace MonkeySyntax

/-- What a source consists of: tokens, and names that start with a digit. -/
inductive Item where
  | token (token : Token)
  | badName (literal : Text) (position : Position)
deriving DecidableEq

def Item.position : Item → Position
  | .token t => t.position
  | .badName _ position => position

/-- The tokens before the first bad name, and that name. -/
def Item.untilBadName : List Item → List Token × Option (Text × Position)
  | [] => ([], none)
  | .token t :: items => ((t :: (untilBadName items).1), (untilBadName items).2)
  | .badName literal position :: _ => ([], some (literal, position))

def Lexeme.at (position : Position) : Lexeme → Item
  | .token kind literal => .token ⟨kind, literal, position⟩
  | .badName literal _ => .badName literal position

/-- A place in a source: what is unread, and where the last character read stands. -/
structure Cursor where
  rest : Text
  position : Position := ⟨1, 0⟩
  /-- Whether the last character read is a line feed, so that the next one starts a line. -/
  atLineEnd : Bool := false
deriving DecidableEq

namespace Cursor

/-- The start of a source. A NUL ends the source as the end of its text does. -/
def ofSource (source : Text) : Cursor where
  rest := source.takeWhile (· ≠ '\x00')

def pass : Nat → Cursor → Cursor
  | 0, cursor => cursor
  | n + 1, cursor =>
    match cursor.rest with
    | [] => cursor
    | c :: rest =>
      let position : Position :=
        if cursor.atLineEnd then ⟨cursor.position.line + 1, 1⟩
        else ⟨cursor.position.line, cursor.position.column + 1⟩
      pass n ⟨rest, position, c = '\n'⟩

theorem rest_pass (n : Nat) (cursor : Cursor) : (cursor.pass n).rest = cursor.rest.drop n := by
  induction n generalizing cursor with
  | zero => rfl
  | succ n ih =>
    rw [pass]
    split
    · rename_i h
      simp [h]
    · rename_i h
      simp [h, ih]

def skipLayout (cursor : Cursor) : Cursor :=
  cursor.pass (cursor.rest.takeWhile isLayout).length

theorem rest_skipLayout (cursor : Cursor) :
    cursor.skipLayout.rest = cursor.rest.dropWhile isLayout := by
  rw [skipLayout, rest_pass]
  induction cursor.rest with
  | nil => rfl
  | cons c rest ih => by_cases h : isLayout c <;> simp [h, ih]

/-- The next item, and the cursor behind it. At the end of the source it is an end token without
text, at the last character of the source. -/
def read (cursor : Cursor) : Item × Cursor :=
  match cursor.skipLayout.rest with
  | [] => (.token ⟨.eof, [], cursor.skipLayout.position⟩, cursor.skipLayout)
  | c :: rest =>
    ((Lexeme.first c rest).at (cursor.skipLayout.pass 1).position,
      cursor.skipLayout.pass (Lexeme.first c rest).consumed.length)

theorem length_rest_skipLayout_le (cursor : Cursor) :
    cursor.skipLayout.rest.length ≤ cursor.rest.length := by
  rw [rest_skipLayout]
  exact (List.dropWhile_suffix _).length_le

theorem length_rest_read_lt {cursor : Cursor} (h : cursor.skipLayout.rest ≠ []) :
    cursor.read.2.rest.length < cursor.rest.length := by
  have le := cursor.length_rest_skipLayout_le
  unfold read
  split
  · contradiction
  · rename_i c rest eq
    obtain ⟨r, consumed, _⟩ := Lexeme.consumed_first c rest
    simp only [rest_pass, eq, consumed, List.length_drop, List.length_cons] at le ⊢
    omega

/-- The items of the unread text, the end token left out. -/
def items (cursor : Cursor) : List Item :=
  if h : cursor.skipLayout.rest = [] then []
  else
    have := length_rest_read_lt h
    cursor.read.1 :: items cursor.read.2
termination_by cursor.rest.length

def readMany : Nat → Cursor → Cursor
  | 0, cursor => cursor
  | n + 1, cursor => readMany n cursor.read.2

def finish (cursor : Cursor) : Cursor := cursor.pass cursor.rest.length

end Cursor

end MonkeySyntax
