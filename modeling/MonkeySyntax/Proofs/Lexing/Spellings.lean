import MonkeySyntax.Proofs.Lexing.Items

/-!
# Tokens at the beginning of a text

Reserved words, operators and numerals as a renderer writes them, with what must stand behind them
so that they are read back.
-/

namespace MonkeySyntax

/-! ### Numerals -/

namespace Decimal

theorem isDigit_digit {d : Nat} (small : d < 10) : isDigit (digit d) := by
  match d, small with
  | 0, _ | 1, _ | 2, _ | 3, _ | 4, _ | 5, _ | 6, _ | 7, _ | 8, _ | 9, _ => decide

theorem ofNat_ne_nil (n : Nat) : ofNat n ≠ [] := by
  rw [ofNat]
  split <;> simp

theorem isDigit_of_mem_ofNat {n : Nat} : ∀ c ∈ ofNat n, isDigit c := by
  induction n using Nat.strongRecOn with
  | _ n ih =>
    rw [ofNat]
    intro c member
    split at member
    · rename_i small
      rw [List.mem_singleton.mp member]
      exact isDigit_digit small
    · rename_i large
      rcases List.mem_append.mp member with member | member
      · exact ih (n / 10) (by omega) c member
      · rw [List.mem_singleton.mp member]
        exact isDigit_digit (Nat.mod_lt n (by decide))

theorem length_ofNat_le {n k : Nat} (bound : n < Nat.pow 10 (k + 1)) :
    (ofNat n).length ≤ k + 1 := by
  induction k generalizing n with
  | zero =>
    rw [ofNat, if_pos (by simpa using bound)]
    exact Nat.le_refl _
  | succ k ih =>
    rw [ofNat]
    split
    · simp
    · have power : n < Nat.pow 10 (k + 1) * 10 := bound
      have shorter := @ih (n / 10) (by omega)
      rw [List.length_append, List.length_singleton]
      omega

end Decimal

/-! ### Operators -/

/-- A word, a numeral or a parenthesis begins. -/
def Opens (text : Text) : Prop := ∃ c rest, text = c :: rest ∧ (isWordChar c ∨ c = '(')

theorem Opens.append {text : Text} (opens : Opens text) (tail : Text) : Opens (text ++ tail) := by
  obtain ⟨c, rest, rfl, starts⟩ := opens
  exact ⟨c, rest ++ tail, rfl, starts⟩

theorem ofPair?_eq_none {c d : Char} (other : isWordChar d ∨ d = '(' ∨ d = ' ') :
    Kind.ofPair? c d = none := by
  unfold Kind.ofPair?
  split <;> first | rfl | exact absurd other (by decide)

/-- The operators and delimiters. -/
def Kind.signs : List Kind := [
  assign, plus, minus, bang, asterisk, slash, lt, gt, eq, notEq, gtEq, ltEq, increment, decrement,
  comma, semicolon, lparen, rparen, lbrace, rbrace]

theorem Kind.mem_signs {kind : Kind} (operator : kind.isBinaryOperator ∨ kind.isPrefixOperator) :
    kind ∈ signs := by
  cases kind <;> first | decide | exact absurd operator (by decide)

theorem spelling_cases {kind : Kind} (isSign : kind ∈ Kind.signs) :
    (∃ c, kind.spelling = [c] ∧ Kind.ofChar? c = some kind) ∨
      ∃ c d single, kind.spelling = [c, d] ∧ Kind.ofChar? c = some single ∧
        Kind.ofPair? c d = some kind := by
  cases kind <;> first
    | exact .inl ⟨_, rfl, rfl⟩
    | exact .inr ⟨_, _, _, rfl, rfl, rfl⟩
    | exact absurd isSign (by decide)

namespace Lexed

variable {text tail : Text} {items : List Item}

theorem keyword {word : Text} (kind : Kind) (lexed : Lexed (word ++ tail) items)
    (reserved : (word, kind) ∈ Kind.keywords) (breaks : Breaks tail) :
    ∃ t more, items = .token t :: more ∧ t.kind = kind ∧ Lexed tail more := by
  have words : ∀ entry ∈ Kind.keywords, entry.1.head?.any isLetter ∧ entry.1.all isWordChar ∧
      Kind.ofWord entry.1 = entry.2 := by decide
  obtain ⟨letter, chars, isKind⟩ := words _ reserved
  match word with
  | c :: rest =>
    obtain ⟨_, tailChars⟩ := List.forall_mem_cons.mp (List.all_eq_true.mp chars)
    obtain ⟨t, more, same, kind, _, behind⟩ := lexed.word letter tailChars breaks
    exact ⟨t, more, same, kind.trans isKind, behind⟩

theorem operator {kind : Kind} (lexed : Lexed (kind.spelling ++ text) items)
    (isOperator : kind.isBinaryOperator ∨ kind.isPrefixOperator)
    (alone : ∀ c, ∀ d ∈ text.head?, Kind.ofPair? c d = none) :
    ∃ t more, items = .token t :: more ∧ t.kind = kind ∧ t.literal = kind.spelling ∧
      Lexed text more := by
  rcases spelling_cases (Kind.mem_signs isOperator) with
    ⟨c, spelling, single⟩ | ⟨c, d, first, spelling, single, pair⟩
  · rw [spelling] at lexed ⊢
    exact lexed.single single (alone c)
  · rw [spelling] at lexed ⊢
    exact lexed.pair single pair

/-- A prefix operator stands right before its operand. -/
theorem prefixOperator {kind : Kind} (lexed : Lexed (kind.spelling ++ text) items)
    (isPrefix : kind.isPrefixOperator) (opens : Opens text) :
    ∃ t more, items = .token t :: more ∧ t.kind = kind ∧ t.literal = kind.spelling ∧
      Lexed text more := by
  obtain ⟨c, rest, rfl, starts⟩ := opens
  refine lexed.operator (.inr isPrefix) fun d e member => ?_
  obtain rfl := Option.some.inj member
  exact ofPair?_eq_none (starts.imp id .inl)

/-- A binary operator stands between spaces. -/
theorem binaryOperator {kind : Kind} (lexed : Lexed (kind.spelling ++ ' ' :: text) items)
    (isBinary : kind.isBinaryOperator) :
    ∃ t more, items = .token t :: more ∧ t.kind = kind ∧ t.literal = kind.spelling ∧
      Lexed text more := by
  have alone : ∀ c, ∀ d ∈ (' ' :: text).head?, Kind.ofPair? c d = none := by
    intro c d member
    obtain rfl := Option.some.inj member
    exact ofPair?_eq_none (.inr (.inr rfl))
  obtain ⟨t, more, same, isKind, literal, behind⟩ := lexed.operator (.inl isBinary) alone
  exact ⟨t, more, same, isKind, literal, behind.layout rfl⟩

end Lexed

end MonkeySyntax
