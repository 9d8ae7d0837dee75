import MonkeySyntax.Proofs.Lexing.Operations

/-!
# Bad names

A bad name is digits with a letter behind them. Reading it takes the digits and leaves the cursor
behind them (`exists_digitsEnd_read`), and a reader that goes on meets all bad names of a source
(`mem_namesMet`).
-/

namespace MonkeySyntax

def Item.badName? : Item → Option (Text × Position)
  | .token _ => none
  | .badName literal position => some (literal, position)

def badNames (items : List Item) : List (Text × Position) := items.filterMap Item.badName?

theorem badNames_append (first more : List Item) :
    badNames (first ++ more) = badNames first ++ badNames more := List.filterMap_append

@[simp] theorem badNames_tokens (tokens : List Token) : badNames (tokens.map .token) = [] := by
  rw [badNames, List.filterMap_map, List.filterMap_eq_nil_iff]
  exact fun _ _ => rfl

theorem mem_badNames {items : List Item} {literal : Text} {position : Position} :
    (literal, position) ∈ badNames items ↔ .badName literal position ∈ items := by
  rw [badNames, List.mem_filterMap]
  constructor
  · rintro ⟨item, member, isName⟩
    cases item with
    | token => contradiction
    | badName => cases isName; exact member
  · exact fun member => ⟨_, member, rfl⟩

theorem pairwise_badNames {items : List Item}
    (rising : items.Pairwise fun a b => a.position < b.position) :
    (badNames items).Pairwise fun a b => a.2 < b.2 := by
  rw [badNames, List.pairwise_filterMap]
  refine rising.imp fun {a b} lt first isFirst second isSecond => ?_
  cases a with
  | token => contradiction
  | badName =>
    cases b with
    | token => contradiction
    | badName => cases isFirst; cases isSecond; exact lt

/-! ### Reading past bad names -/

namespace Lexer

/-- The bad name that an operation returns. -/
def badNameOf : Except Error Token → Option (Text × Position)
  | .error ⟨.badName literal, _, position⟩ => some (literal, position)
  | _ => none

/-- The bad names that a reader meets, one after another, if it does nothing but read. -/
def namesMet (lexer : Lexer) : List (Text × Position) :=
  (List.range lexer.cursor.items.length).filterMap fun n => badNameOf (lexer.outcomeAfter n)

theorem badNameOf_outcomeOf (filename : Text) (item : Item) :
    badNameOf (outcomeOf filename item) = item.badName? := by
  cases item <;> rfl

theorem namesMet_eq (lexer : Lexer) : lexer.namesMet = badNames lexer.cursor.items := by
  have read : ∀ n, badNameOf (lexer.outcomeAfter n) =
      (lexer.cursor.readMany n).read.1.badName? := by
    intro n
    rw [outcomeAfter_eq, badNameOf_outcomeOf]
  calc lexer.namesMet
    _ = (List.range lexer.cursor.items.length).filterMap fun n =>
        (lexer.cursor.readMany n).read.1.badName? := by simp only [namesMet, read]
    _ = badNames ((List.range lexer.cursor.items.length).map fun n =>
        (lexer.cursor.readMany n).read.1) := by rw [badNames, List.filterMap_map]; rfl
    _ = badNames lexer.cursor.items := by rw [← lexer.cursor.items_eq_map_read]

theorem mem_namesMet {lexer : Lexer} {literal : Text} {position : Position} :
    (literal, position) ∈ lexer.namesMet ↔
      ∃ n, lexer.outcomeAfter n = .error ⟨.badName literal, lexer.filename, position⟩ := by
  rw [namesMet_eq, mem_badNames]
  constructor
  · intro member
    rw [Cursor.items_eq_map_read] at member
    obtain ⟨n, _, isRead⟩ := List.mem_map.mp member
    exact ⟨n, by rw [outcomeAfter_eq, isRead]; rfl⟩
  · rintro ⟨n, returned⟩
    rw [outcomeAfter_eq] at returned
    obtain ⟨found, isRead, same⟩ := badName_of_outcomeOf returned
    cases same
    exact Cursor.mem_items_of_readMany isRead

end Lexer

/-! ### Digits and a letter -/

/-- Digits with a letter behind them stand in the text, and the cursor behind stands at their end.
The bad name goes on with the word that begins with that letter. -/
structure DigitsEnd (start : Cursor) (before digits literal : Text) (position : Position)
    (behind : Cursor) : Prop where
  text : start.rest = before ++ digits ++ behind.rest
  cursor : behind = start.pass (before ++ digits).length
  place : (start.pass (before.length + 1)).position = position
  some : digits ≠ []
  all : ∀ c ∈ digits, isDigit c
  letter : ∃ c ∈ behind.rest.head?, isLetter c
  word : literal = digits ++ behind.rest.takeWhile isWordChar

theorem Lexeme.badName_of_first {c : Char} {rest literal digits : Text}
    (h : first c rest = .badName literal digits) :
    isDigit c ∧ digits = c :: rest.takeWhile isDigit ∧ literal = c :: rest.takeWhile isWordChar ∧
      ∃ d ∈ (rest.dropWhile isDigit).head?, isLetter d := by
  unfold first at h
  split at h
  · repeat' split at h
    all_goals cases h
  · split at h
    · rename_i digit
      dsimp only at h
      split at h
      · rename_i d tail behind
        split at h
        · rename_i letter
          cases h
          exact ⟨digit, rfl, rfl, d, by rw [behind]; rfl, letter⟩
        · cases h
      · cases h
    · repeat' split at h
      all_goals cases h

namespace DigitsEnd

variable {start behind : Cursor} {before digits literal : Text} {position : Position}

theorem of_pass {m : Nat} (ends : DigitsEnd (start.pass m) before digits literal position behind) :
    DigitsEnd start (start.rest.take m ++ before) digits literal position behind := by
  obtain ⟨text, cursor, place, some, all, letter, word⟩ := ends
  -- No digits are left behind the end of the text.
  have le : m ≤ start.rest.length := by
    by_contra more
    rw [Cursor.rest_pass, List.drop_eq_nil_of_le (by omega)] at text
    simp [some] at text
  have length (more : Text) : (start.rest.take m ++ more).length = m + more.length := by
    rw [List.length_append, List.length_take_of_le le]
  refine ⟨?_, ?_, ?_, some, all, letter, word⟩
  · rw [List.append_assoc, List.append_assoc, ← List.append_assoc before, ← text, Cursor.rest_pass,
      List.take_append_drop]
  · rw [cursor, ← Cursor.pass_add, List.append_assoc, length]
  · rw [← place, ← Cursor.pass_add, length, Nat.add_assoc]

end DigitsEnd

/-- Reading a bad name takes the digits that it begins with. -/
theorem Cursor.exists_digitsEnd_read {cursor : Cursor} {literal : Text} {position : Position}
    (met : cursor.read.1 = .badName literal position) :
    ∃ before digits, DigitsEnd cursor before digits literal position cursor.read.2 := by
  obtain ⟨c, text, starts⟩ := List.exists_cons_of_ne_nil (more_of_badName met)
  rw [read_eq_of_cons starts] at met ⊢
  cases isFirst : Lexeme.first c text with
  | token => rw [isFirst] at met; contradiction
  | badName found digits =>
    rw [isFirst] at met
    obtain ⟨rfl, rfl⟩ := Item.badName.inj met
    obtain ⟨digit, rfl, rfl, letter⟩ := Lexeme.badName_of_first isFirst
    have split : text = text.takeWhile isDigit ++ text.dropWhile isDigit :=
      List.takeWhile_append_dropWhile.symm
    have behind : (cursor.skipLayout.pass (c :: text.takeWhile isDigit).length).rest =
        text.dropWhile isDigit := by
      rw [rest_pass, starts, List.length_cons, List.drop_succ_cons]
      conv => lhs; arg 2; rw [split]
      exact List.drop_left
    have digits : ∀ d ∈ text.takeWhile isDigit, isDigit d :=
      List.all_eq_true.mp List.all_takeWhile
    have word : text.takeWhile isWordChar =
        text.takeWhile isDigit ++ (text.dropWhile isDigit).takeWhile isWordChar := by
      conv => lhs; rw [split]
      exact List.takeWhile_append_of_pos fun d member => isWordChar_of_isDigit (digits d member)
    have ends : DigitsEnd cursor.skipLayout [] (c :: text.takeWhile isDigit)
        (c :: text.takeWhile isWordChar) (cursor.skipLayout.pass 1).position
        (cursor.skipLayout.pass (c :: text.takeWhile isDigit).length) := by
      refine ⟨?_, rfl, rfl, nofun, List.forall_mem_cons.mpr ⟨digit, digits⟩, ?_, ?_⟩
      · rw [behind, starts, List.nil_append, List.cons_append, ← split]
      · rw [behind]
        exact letter
      · rw [behind, word, List.cons_append]
    exact ⟨_, _, ends.of_pass⟩

end MonkeySyntax
