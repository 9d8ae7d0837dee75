import Mathlib.Order.Basic
import MonkeySyntax.Proofs.Lexing.Items

/-!
# Places in reading order

Places are ordered by line and then by column, and a cursor only moves forward in this order. So the
items of a source stand at different places, one behind another (`pairwise_items`), and a cursor
stands between those that it has read and those that are left. `Meets` says which items reading
again and again comes to, the end token included.
-/

namespace MonkeySyntax

namespace Position

/-- Reading order: by line, then by column. -/
instance : PartialOrder Position where
  le a b := a.line < b.line ∨ a.line = b.line ∧ a.column ≤ b.column
  lt a b := a.line < b.line ∨ a.line = b.line ∧ a.column < b.column
  le_refl _ := .inr ⟨rfl, Int.le_refl _⟩
  le_trans a b c ab bc := by omega
  lt_iff_le_not_ge a b := by omega
  le_antisymm a b ab ba := by
    cases a
    cases b
    simp only [mk.injEq] at *
    omega

instance : DecidableLE Position := fun a b =>
  inferInstanceAs (Decidable (a.line < b.line ∨ a.line = b.line ∧ a.column ≤ b.column))

theorem lt_iff {a b : Position} :
    a < b ↔ a.line < b.line ∨ a.line = b.line ∧ a.column < b.column := .rfl

end Position

@[simp] theorem Lexeme.position_at (position : Position) (lexeme : Lexeme) :
    (lexeme.at position).position = position := by
  cases lexeme <;> rfl

namespace Cursor

variable {cursor : Cursor}

/-! ### Moving over characters -/

theorem pass_of_rest_eq_nil (ends : cursor.rest = []) (n : Nat) : cursor.pass n = cursor := by
  cases n with
  | zero => rfl
  | succ n => rw [pass, ends]

theorem position_lt_pass_one (more : cursor.rest ≠ []) :
    cursor.position < (cursor.pass 1).position := by
  obtain ⟨c, text, starts⟩ := List.exists_cons_of_ne_nil more
  rw [pass, starts]
  dsimp only
  rw [pass, Position.lt_iff]
  split
  · exact .inl (by dsimp only; omega)
  · exact .inr ⟨rfl, by dsimp only; omega⟩

theorem position_le_pass (n : Nat) (cursor : Cursor) : cursor.position ≤ (cursor.pass n).position := by
  induction n generalizing cursor with
  | zero => exact le_rfl
  | succ n ih =>
    by_cases ends : cursor.rest = []
    · rw [pass_of_rest_eq_nil ends]
    · rw [Nat.add_comm, pass_add]
      exact (position_lt_pass_one ends).le.trans (ih _)

@[simp] theorem rest_finish (cursor : Cursor) : cursor.finish.rest = [] := by
  rw [finish, rest_pass, List.drop_length]

theorem finish_pass (n : Nat) (cursor : Cursor) : (cursor.pass n).finish = cursor.finish := by
  rw [finish, rest_pass, List.length_drop, ← pass_add]
  rcases Nat.le_total n cursor.rest.length with le | ge
  · rw [Nat.add_sub_cancel' le, finish]
  · -- Passing more characters than there are stops behind the last.
    obtain ⟨more, rfl⟩ := Nat.exists_eq_add_of_le ge
    rw [Nat.sub_eq_zero_of_le ge, Nat.add_zero, pass_add]
    exact pass_of_rest_eq_nil cursor.rest_finish more

theorem position_le_finish (cursor : Cursor) : cursor.position ≤ cursor.finish.position :=
  position_le_pass ..

/-! ### Reading items -/

theorem skipLayout_of_ends (ends : cursor.skipLayout.rest = []) :
    cursor.skipLayout = cursor.finish := by
  have used : cursor.skipLayout.finish = cursor.finish := finish_pass ..
  rw [← used, finish, ends]
  rfl

theorem read_of_ends (ends : cursor.skipLayout.rest = []) :
    cursor.read = (.token ⟨.eof, [], cursor.finish.position⟩, cursor.finish) := by
  rw [← skipLayout_of_ends ends, read]
  split
  · rfl
  · rename_i text
    rw [text] at ends
    contradiction

theorem exists_read_eq_pass (cursor : Cursor) : ∃ n, cursor.read.2 = cursor.pass n := by
  by_cases ends : cursor.skipLayout.rest = []
  · exact ⟨cursor.rest.length, by rw [read_of_ends ends, finish]⟩
  · obtain ⟨c, text, starts⟩ := List.exists_cons_of_ne_nil ends
    rw [read_eq_of_cons starts]
    exact ⟨_, (pass_add ..).symm⟩

theorem finish_read (cursor : Cursor) : cursor.read.2.finish = cursor.finish := by
  obtain ⟨n, eq⟩ := cursor.exists_read_eq_pass
  rw [eq, finish_pass]

theorem position_le_read (cursor : Cursor) : cursor.position ≤ cursor.read.2.position := by
  obtain ⟨n, eq⟩ := cursor.exists_read_eq_pass
  rw [eq]
  exact position_le_pass ..

/-- An item starts behind the cursor, and the cursor behind it is at its last character. -/
theorem position_read (more : cursor.skipLayout.rest ≠ []) :
    cursor.position < cursor.read.1.position ∧ cursor.read.1.position ≤ cursor.read.2.position := by
  obtain ⟨c, text, starts⟩ := List.exists_cons_of_ne_nil more
  obtain ⟨r, consumed, _⟩ := Lexeme.consumed_first c text
  rw [read_eq_of_cons starts, Lexeme.position_at, consumed, List.length_cons, Nat.add_comm, pass_add]
  exact ⟨(position_le_pass ..).trans_lt (position_lt_pass_one more), position_le_pass ..⟩

theorem position_le_item (cursor : Cursor) : cursor.position ≤ cursor.read.1.position := by
  by_cases ends : cursor.skipLayout.rest = []
  · rw [read_of_ends ends]
    exact cursor.position_le_finish
  · exact (position_read ends).1.le

/-- The end token is no bad name, so something is left in front of one. -/
theorem more_of_badName {literal : Text} {position : Position}
    (met : cursor.read.1 = .badName literal position) : cursor.skipLayout.rest ≠ [] := by
  intro ends
  rw [read_of_ends ends] at met
  contradiction

theorem position_of_badName {literal : Text} {position : Position}
    (met : cursor.read.1 = .badName literal position) :
    cursor.position < position ∧ position ≤ cursor.read.2.position := by
  have between := position_read (more_of_badName met)
  rw [met] at between
  exact between

theorem position_of_mem_items {item : Item} (member : item ∈ cursor.items) :
    cursor.position < item.position ∧ item.position ≤ cursor.finish.position := by
  fun_induction items cursor with
  | case1 => simp at member
  | case2 cursor more _ ih =>
    obtain ⟨before, behind⟩ := position_read more
    rw [finish_read] at ih
    rcases List.mem_cons.mp member with rfl | member
    · exact ⟨before, behind.trans (finish_read cursor ▸ position_le_finish _)⟩
    · exact ⟨(before.trans_le behind).trans (ih member).1, (ih member).2⟩

theorem pairwise_items (cursor : Cursor) :
    cursor.items.Pairwise fun a b => a.position < b.position := by
  fun_induction items cursor with
  | case1 => exact .nil
  | case2 cursor more _ ih =>
    refine .cons (fun item member => ?_) ih
    exact (position_read more).2.trans_lt (position_of_mem_items member).1

theorem readMany_succ (n : Nat) (cursor : Cursor) :
    cursor.readMany (n + 1) = (cursor.readMany n).read.2 := by
  induction n generalizing cursor with
  | zero => rfl
  | succ n ih =>
    rw [readMany, ih]
    rfl

theorem exists_readMany_eq_pass (n : Nat) (cursor : Cursor) :
    ∃ m, cursor.readMany n = cursor.pass m := by
  induction n with
  | zero => exact ⟨0, rfl⟩
  | succ n ih =>
    obtain ⟨m, eq⟩ := ih
    obtain ⟨k, behind⟩ := (cursor.readMany n).exists_read_eq_pass
    exact ⟨m + k, by rw [readMany_succ, behind, eq, pass_add]⟩

theorem items_eq_map_read (cursor : Cursor) :
    cursor.items = (List.range cursor.items.length).map fun n => (cursor.readMany n).read.1 := by
  fun_induction items cursor with
  | case1 => rfl
  | case2 cursor more _ ih =>
    rw [List.length_cons, List.range_succ_eq_map, List.map_cons, List.map_map]
    exact congrArg (cursor.read.1 :: ·) ih

theorem read_readMany_of_split {before rest : List Item} {item : Item}
    (split : cursor.items = before ++ item :: rest) :
    (cursor.readMany before.length).read.1 = item := by
  have starts : (cursor.readMany before.length).items = item :: rest := by
    rw [items_readMany, split, List.drop_left]
  have more : (cursor.readMany before.length).skipLayout.rest ≠ [] := by
    intro ends
    rw [items_eq_nil ends] at starts
    contradiction
  rw [items_eq_cons more] at starts
  exact (List.cons.inj starts).1

theorem mem_items_of_readMany {n : Nat} {literal : Text} {position : Position}
    (met : (cursor.readMany n).read.1 = .badName literal position) :
    .badName literal position ∈ cursor.items := by
  have starts := items_eq_cons (more_of_badName met)
  rw [items_readMany, met] at starts
  exact List.mem_of_mem_drop (starts ▸ List.mem_cons_self)

theorem position_le_of_mem_take {item : Item} (n : Nat) (cursor : Cursor)
    (member : item ∈ cursor.items.take n) : item.position ≤ (cursor.readMany n).position := by
  induction n generalizing cursor with
  | zero => simp at member
  | succ n ih =>
    by_cases ends : cursor.skipLayout.rest = []
    · rw [items_eq_nil ends] at member
      simp at member
    · rw [items_eq_cons ends, List.take_succ_cons] at member
      obtain ⟨m, eq⟩ := cursor.read.2.exists_readMany_eq_pass n
      rcases List.mem_cons.mp member with rfl | member
      · rw [readMany, eq]
        exact (position_read ends).2.trans (position_le_pass ..)
      · exact ih _ member

/-! ### The stream of items -/

/-- The items of a source, and the end token behind them. -/
def stream (cursor : Cursor) : List Item :=
  cursor.items ++ [.token ⟨.eof, [], cursor.finish.position⟩]

theorem stream_of_ends (ends : cursor.skipLayout.rest = []) : cursor.stream = [cursor.read.1] := by
  rw [stream, items_eq_nil ends, read_of_ends ends]
  rfl

theorem stream_of_more (more : cursor.skipLayout.rest ≠ []) :
    cursor.stream = cursor.read.1 :: cursor.read.2.stream := by
  rw [stream, items_eq_cons more, stream, finish_read, List.cons_append]

theorem pairwise_stream (cursor : Cursor) :
    cursor.stream.Pairwise fun a b => a.position ≤ b.position := by
  rw [stream, List.pairwise_append]
  refine ⟨cursor.pairwise_items.imp fun lt => lt.le, List.pairwise_singleton .., ?_⟩
  intro item member last isLast
  obtain rfl := List.mem_singleton.mp isLast
  exact (position_of_mem_items member).2

end Cursor

/-- Reading a source again and again, past bad names, comes to an item. -/
def Meets (source : Text) (item : Item) : Prop :=
  ∃ n, ((Cursor.ofSource source).readMany n).read.1 = item

theorem Cursor.exists_read_of_mem_stream {cursor : Cursor} {item : Item}
    (member : item ∈ cursor.stream) : ∃ n, (cursor.readMany n).read.1 = item := by
  by_cases ends : cursor.skipLayout.rest = []
  · rw [stream_of_ends ends, List.mem_singleton] at member
    exact ⟨0, member.symm⟩
  · rw [stream_of_more ends] at member
    rcases List.mem_cons.mp member with rfl | member
    · exact ⟨0, rfl⟩
    · obtain ⟨n, met⟩ := exists_read_of_mem_stream member
      exact ⟨n + 1, met⟩
termination_by cursor.rest.length
decreasing_by exact length_rest_read_lt ends

theorem meets_of_mem_stream {source : Text} {item : Item}
    (member : item ∈ (Cursor.ofSource source).stream) : Meets source item :=
  Cursor.exists_read_of_mem_stream member

/-- What reading comes to stands on some line. -/
theorem Meets.line_pos {source : Text} {item : Item} (meets : Meets source item) :
    1 ≤ item.position.line := by
  obtain ⟨n, rfl⟩ := meets
  have start : (Cursor.ofSource source).position ≤ ((Cursor.ofSource source).readMany n).position := by
    obtain ⟨m, eq⟩ := (Cursor.ofSource source).exists_readMany_eq_pass n
    rw [eq]
    exact Cursor.position_le_pass ..
  have onFirst : (Cursor.ofSource source).position.line = 1 := rfl
  rcases start.trans (Cursor.position_le_item _) with above | ⟨same, _⟩ <;> omega

end MonkeySyntax
