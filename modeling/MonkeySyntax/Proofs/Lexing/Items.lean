import MonkeySyntax.Cursor
import MonkeySyntax.Proofs.Lexing.Lexemes

/-!
# The items of a text

`Lexed` stands between a text and the items that a cursor reads from it, wherever that text stands
in a source. There is one lemma for each kind of token, which reads it off the beginning of a text.
-/

namespace MonkeySyntax

namespace Cursor

variable {cursor : Cursor}

theorem pass_add (m n : Nat) (cursor : Cursor) : cursor.pass (m + n) = (cursor.pass m).pass n := by
  induction m generalizing cursor with
  | zero => rw [Nat.zero_add, pass]
  | succ m ih =>
    rw [Nat.succ_add, pass, pass]
    split
    · rename_i text
      cases n with
      | zero => rfl
      | succ n => rw [pass, text]
    · exact ih _

theorem items_eq_nil (h : cursor.skipLayout.rest = []) : cursor.items = [] := by
  rw [items, dif_pos h]

theorem items_eq_cons (h : cursor.skipLayout.rest ≠ []) :
    cursor.items = cursor.read.1 :: cursor.read.2.items := by
  rw [items, dif_neg h]

theorem read_eq_of_cons {c : Char} {rest : Text} (h : cursor.skipLayout.rest = c :: rest) :
    cursor.read = ((Lexeme.first c rest).at (cursor.skipLayout.pass 1).position,
      cursor.skipLayout.pass (Lexeme.first c rest).consumed.length) := by
  unfold read
  split
  · rename_i ends
    rw [ends] at h
    contradiction
  · rename_i d text eq
    obtain ⟨rfl, rfl⟩ := List.cons.inj (eq.symm.trans h)
    rfl

theorem items_read (cursor : Cursor) : cursor.read.2.items = cursor.items.tail := by
  by_cases ends : cursor.skipLayout.rest = []
  · have stays : cursor.read.2 = cursor.skipLayout := by
      unfold read
      split
      · rfl
      · rename_i text
        rw [text] at ends
        contradiction
    rw [stays, items_eq_nil ends, items_eq_nil]
    · rfl
    · rw [rest_skipLayout, ends]
      rfl
  · rw [items_eq_cons ends, List.tail_cons]

theorem items_readMany (n : Nat) (cursor : Cursor) :
    (cursor.readMany n).items = cursor.items.drop n := by
  induction n generalizing cursor with
  | zero => rfl
  | succ n ih => rw [readMany, ih, items_read, List.drop_tail]

theorem items_finish (cursor : Cursor) : cursor.finish.items = [] := by
  apply items_eq_nil
  rw [rest_skipLayout, finish, rest_pass, List.drop_length]
  rfl

/-- Layout before the next item is no part of any. -/
theorem items_pass_one {c : Char} {text : Text} (starts : cursor.rest = c :: text)
    (layout : isLayout c) : (cursor.pass 1).items = cursor.items := by
  have tail : (cursor.pass 1).rest = text := by
    rw [rest_pass, starts, List.drop_one, List.tail_cons]
  have same : (cursor.pass 1).skipLayout = cursor.skipLayout := by
    rw [skipLayout, skipLayout, tail, starts, List.takeWhile_cons_of_pos layout, List.length_cons,
      Nat.add_comm, pass_add]
  have read : (cursor.pass 1).read = cursor.read := by rw [Cursor.read, Cursor.read, same]
  by_cases ends : cursor.skipLayout.rest = []
  · rw [items_eq_nil ends, items_eq_nil (by rw [same, ends])]
  · rw [items_eq_cons ends, items_eq_cons (by rwa [same]), read]

end Cursor

/-- The items are those of the text, wherever it stands in a source. -/
def Lexed (text : Text) (items : List Item) : Prop :=
  ∃ cursor : Cursor, cursor.rest = text ∧ cursor.items = items

theorem lexed_ofSource {source : Text} (noNul : '\x00' ∉ source) :
    Lexed source (Cursor.ofSource source).items := by
  refine ⟨Cursor.ofSource source, ?_, rfl⟩
  have all : ∀ c ∈ source, decide (c ≠ '\x00') := by
    intro c member
    rw [decide_eq_true_eq]
    rintro rfl
    exact noNul member
  have stop : ∀ c ∈ ([] : Text).head?, decide (c ≠ '\x00') = false := by simp
  have whole := (takeWhile_append_of_stop all stop).1
  rwa [List.append_nil] at whole

namespace Lexed

variable {text tail : Text} {items : List Item} {c : Char}

theorem nil (lexed : Lexed [] items) : items = [] := by
  obtain ⟨cursor, rest, rfl⟩ := lexed
  apply Cursor.items_eq_nil
  rw [Cursor.rest_skipLayout, rest]
  rfl

theorem layout (lexed : Lexed (c :: text) items) (isLayout : isLayout c) : Lexed text items := by
  obtain ⟨cursor, rest, rfl⟩ := lexed
  refine ⟨cursor.pass 1, ?_, Cursor.items_pass_one rest isLayout⟩
  rw [Cursor.rest_pass, rest, List.drop_one, List.tail_cons]

/-- The first item is the first lexeme, and the others are those of the text behind it. -/
theorem first (lexed : Lexed (c :: text) items) (visible : isLayout c = false)
    (consumed : (Lexeme.first c text).consumed ++ tail = c :: text) :
    ∃ position more, items = (Lexeme.first c text).at position :: more ∧ Lexed tail more := by
  obtain ⟨cursor, rest, rfl⟩ := lexed
  have starts : cursor.skipLayout.rest = c :: text := by
    rw [Cursor.rest_skipLayout, rest, List.dropWhile_cons_of_neg (by simp [visible])]
  have notEnd : cursor.skipLayout.rest ≠ [] := by simp [starts]
  refine ⟨(cursor.skipLayout.pass 1).position, cursor.read.2.items, ?_, cursor.read.2, ?_, rfl⟩
  · rw [Cursor.items_eq_cons notEnd, Cursor.read_eq_of_cons starts]
  · rw [Cursor.read_eq_of_cons starts, Cursor.rest_pass, starts, ← consumed, List.drop_left]

theorem token {kind : Kind} {literal : Text} (lexed : Lexed (literal ++ tail) items)
    (starts : ∃ c text, literal ++ tail = c :: text ∧ isLayout c = false ∧
      Lexeme.first c text = .token kind literal) :
    ∃ t more, items = .token t :: more ∧ t.kind = kind ∧ t.literal = literal ∧ Lexed tail more := by
  obtain ⟨c, text, split, visible, isFirst⟩ := starts
  rw [split] at lexed
  obtain ⟨position, more, rfl, behind⟩ := lexed.first visible (by rw [isFirst]; exact split)
  rw [isFirst]
  exact ⟨⟨kind, literal, position⟩, more, rfl, rfl, rfl, behind⟩

theorem word {word : Text} (lexed : Lexed (c :: word ++ tail) items) (letter : isLetter c)
    (chars : ∀ d ∈ word, isWordChar d) (breaks : Breaks tail) :
    ∃ t more, items = .token t :: more ∧ t.kind = .ofWord (c :: word) ∧ t.literal = c :: word ∧
      Lexed tail more :=
  lexed.token ⟨c, word ++ tail, rfl, isLayout_eq_false (isWordChar_of_isLetter letter),
    Lexeme.first_word letter chars breaks⟩

theorem name {name : Text} (lexed : Lexed (name ++ tail) items) (isName : isName name)
    (breaks : Breaks tail) :
    ∃ t more, items = .token t :: more ∧ t.kind = .ident ∧ t.literal = name ∧ Lexed tail more := by
  rw [← ofWord_of_isName isName]
  match name with
  | c :: rest =>
    simp only [MonkeySyntax.isName, Bool.and_eq_true, List.all_eq_true] at isName
    exact lexed.word isName.1.1 isName.1.2 breaks

theorem numeral {digits : Text} (lexed : Lexed (digits ++ tail) items) (some : digits ≠ [])
    (all : ∀ d ∈ digits, isDigit d) (breaks : Breaks tail) :
    ∃ t more, items = .token t :: more ∧ t.kind = .int ∧ t.literal = digits ∧ Lexed tail more := by
  match digits with
  | c :: digits =>
    obtain ⟨digit, tailDigits⟩ := List.forall_mem_cons.mp all
    rw [← @ofWord_of_isDigit c digits digit]
    exact lexed.token ⟨c, digits ++ tail, rfl, isLayout_eq_false (isWordChar_of_isDigit digit),
      Lexeme.first_numeral digit tailDigits breaks⟩

theorem single {kind : Kind} (lexed : Lexed (c :: tail) items)
    (delimiter : Kind.ofChar? c = some kind)
    (alone : ∀ d ∈ tail.head?, Kind.ofPair? c d = none) :
    ∃ t more, items = .token t :: more ∧ t.kind = kind ∧ t.literal = [c] ∧ Lexed tail more :=
  token lexed ⟨c, tail, rfl, isLayout_eq_false_of_ofChar? delimiter,
    Lexeme.first_single delimiter alone⟩

theorem pair {d : Char} {kind pair : Kind} (lexed : Lexed (c :: d :: tail) items)
    (delimiter : Kind.ofChar? c = some kind) (isPair : Kind.ofPair? c d = some pair) :
    ∃ t more, items = .token t :: more ∧ t.kind = pair ∧ t.literal = [c, d] ∧ Lexed tail more :=
  token lexed ⟨c, d :: tail, rfl, isLayout_eq_false_of_ofChar? delimiter,
    Lexeme.first_pair delimiter isPair⟩

end Lexed

/-- Every item is the first lexeme of some text, at its place. -/
theorem Cursor.first_of_mem_items {cursor : Cursor} {item : Item} (member : item ∈ cursor.items) :
    ∃ c text position, item = (Lexeme.first c text).at position := by
  fun_induction Cursor.items cursor with
  | case1 => simp at member
  | case2 cursor notEnd _ ih =>
    rcases List.mem_cons.mp member with rfl | member
    · obtain ⟨c, text, starts⟩ := List.exists_cons_of_ne_nil notEnd
      rw [read_eq_of_cons starts]
      exact ⟨c, text, _, rfl⟩
    · exact ih member

end MonkeySyntax
