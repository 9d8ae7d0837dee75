import MonkeySyntax.Proofs.Lexing.Places

/-!
# Places counted in the text

The place of a character is counted in the text before it: lines by their line feeds, columns from
the last of them. A cursor counts as it goes, and starts a line only with the character behind the
line feed; `hasRead_pass` says that its place is still that of the last character read.
-/

namespace MonkeySyntax

namespace Position

/-- The place of the character behind a text. -/
def following (before : Text) : Position where
  line := 1 + before.count '\n'
  column := 1 + (before.reverse.takeWhile (· ≠ '\n')).length

/-- The place of the last character of a text; in front of the first there is column zero. -/
def ofLast : Text → Position
  | [] => ⟨1, 0⟩
  | c :: text => following (c :: text).dropLast

@[simp] theorem ofLast_concat (before : Text) (c : Char) :
    ofLast (before ++ [c]) = following before := by
  have some : before ++ [c] ≠ [] := by simp
  obtain ⟨d, text, eq⟩ := List.exists_cons_of_ne_nil some
  rw [eq, ofLast, ← eq, List.dropLast_concat]

/-- A line feed is the last character of its line. -/
theorem following_concat (before : Text) (c : Char) :
    following (before ++ [c]) =
      if c = '\n' then ⟨(following before).line + 1, 1⟩
      else ⟨(following before).line, (following before).column + 1⟩ := by
  by_cases feed : c = '\n'
  · subst feed
    simp [following, Int.add_assoc]
  · simp [following, feed, Int.add_comm]

end Position

/-- The source up to its end, which a NUL stands for as well. -/
def readable (source : Text) : Text := source.takeWhile (· ≠ '\x00')

@[simp] theorem rest_ofSource (source : Text) : (Cursor.ofSource source).rest = readable source := rfl

namespace Cursor

variable {cursor : Cursor} {read : Text}

/-- A text has been read, and the cursor stands at its last character. -/
structure HasRead (read : Text) (cursor : Cursor) : Prop where
  position : cursor.position = .ofLast read
  atLineEnd : cursor.atLineEnd ↔ read.getLast? = some '\n'

theorem hasRead_ofSource (source : Text) : HasRead [] (ofSource source) :=
  ⟨rfl, by simp [ofSource]⟩

theorem HasRead.pass_one (hasRead : HasRead read cursor) {c : Char} {text : Text}
    (starts : cursor.rest = c :: text) : HasRead (read ++ [c]) (cursor.pass 1) := by
  obtain ⟨position, atLineEnd⟩ := hasRead
  rw [pass, starts]
  dsimp only
  rw [pass]
  refine ⟨?_, by simp⟩
  rw [Position.ofLast_concat, position]
  dsimp only
  rcases List.eq_nil_or_concat read with rfl | ⟨before, last, rfl⟩
  · rw [if_neg (by simp [atLineEnd])]
    rfl
  · rw [List.concat_eq_append, Position.ofLast_concat, Position.following_concat]
    simp only [atLineEnd, List.concat_eq_append, List.getLast?_append, List.getLast?_singleton,
      Option.some_or, Option.some.injEq]

theorem HasRead.pass (hasRead : HasRead read cursor) (n : Nat) :
    HasRead (read ++ cursor.rest.take n) (cursor.pass n) := by
  induction n generalizing read cursor with
  | zero =>
    rw [List.take_zero, List.append_nil]
    exact hasRead
  | succ n ih =>
    cases starts : cursor.rest with
    | nil =>
      rw [pass_of_rest_eq_nil starts, List.take_nil, List.append_nil]
      exact hasRead
    | cons c text =>
      have behind := ih (hasRead.pass_one starts)
      rw [rest_pass, starts, List.drop_one, List.tail_cons, List.append_assoc, ← pass_add,
        Nat.add_comm] at behind
      exact behind

theorem hasRead_pass (source : Text) (n : Nat) :
    HasRead ((readable source).take n) ((ofSource source).pass n) :=
  (hasRead_ofSource source).pass n

theorem position_pass_ofSource {source before rest : Text} {c : Char}
    (split : readable source = before ++ c :: rest) :
    ((ofSource source).pass (before.length + 1)).position = .following before := by
  have taken : (readable source).take (before.length + 1) = before ++ [c] := by
    rw [split, List.take_length_add_append, List.take_succ_cons, List.take_zero]
  rw [(hasRead_pass source _).position, taken, Position.ofLast_concat]

theorem HasRead.of_pass {source : Text} {n : Nat} (eq : cursor = (ofSource source).pass n) :
    ∃ read, readable source = read ++ cursor.rest ∧ HasRead read cursor := by
  subst eq
  refine ⟨_, ?_, hasRead_pass source n⟩
  rw [rest_pass, rest_ofSource, List.take_append_drop]

end Cursor

end MonkeySyntax
