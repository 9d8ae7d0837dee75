import MonkeySyntax.Lexeme
import MonkeySyntax.Proofs.Lookahead

/-!
# The first lexeme of a text

Words and numerals end before a character that cannot go on with them, and an operator is one
character unless the next makes a pair with it. `first_cases` says the other way round what the text
of a token looks like.
-/

namespace MonkeySyntax

/-- No word or numeral goes on with the text. -/
def Breaks (text : Text) : Prop := ∀ c ∈ text.head?, isWordChar c = false

@[simp] theorem breaks_nil : Breaks [] := by simp [Breaks]

@[simp] theorem breaks_cons {c : Char} {text : Text} :
    Breaks (c :: text) ↔ isWordChar c = false := by simp [Breaks]

theorem isWordChar_of_isDigit {c : Char} (digit : isDigit c) : isWordChar c := by
  simp [isWordChar, digit]

theorem isWordChar_of_isLetter {c : Char} (letter : isLetter c) : isWordChar c := by
  simp [isWordChar, letter]

theorem isDigit_eq_false_of_isLetter {c : Char} (letter : isLetter c) : isDigit c = false := by
  simp only [isLetter, isDigit, Bool.or_eq_true, Bool.and_eq_true, decide_eq_true_eq, Char.le_def,
    UInt32.le_iff_toNat_le, Bool.and_eq_false_iff, decide_eq_false_iff_not] at *
  rcases letter with (lower | upper) | rfl
  · refine .inr fun digit => ?_
    have := Nat.le_trans lower.1 digit
    revert this
    decide
  · refine .inr fun digit => ?_
    have := Nat.le_trans upper.1 digit
    revert this
    decide
  · exact .inr (by decide)

theorem ofChar?_eq_none {c : Char} (wordChar : isWordChar c) : Kind.ofChar? c = none := by
  unfold Kind.ofChar?
  split <;> first | rfl | exact absurd wordChar (by decide)

theorem isLayout_eq_false {c : Char} (wordChar : isWordChar c) : isLayout c = false := by
  simp only [isLayout, Bool.or_eq_false_iff, decide_eq_false_iff_not]
  refine ⟨⟨⟨?_, ?_⟩, ?_⟩, ?_⟩ <;> rintro rfl <;> exact absurd wordChar (by decide)

theorem isLayout_eq_false_of_ofChar? {c : Char} {kind : Kind}
    (delimiter : Kind.ofChar? c = some kind) : isLayout c = false := by
  simp only [isLayout, Bool.or_eq_false_iff, decide_eq_false_iff_not]
  refine ⟨⟨⟨?_, ?_⟩, ?_⟩, ?_⟩ <;> rintro rfl <;> contradiction

theorem takeWhile_append_of_stop {p : Char → Bool} {text tail : Text} (all : ∀ c ∈ text, p c)
    (stop : ∀ c ∈ tail.head?, p c = false) :
    (text ++ tail).takeWhile p = text ∧ (text ++ tail).dropWhile p = tail := by
  induction text with
  | nil =>
    cases tail with
    | nil => exact ⟨rfl, rfl⟩
    | cons c tail => simp [stop c rfl]
  | cons c text ih =>
    have := ih fun d member => all d (List.mem_cons_of_mem c member)
    simp [all c List.mem_cons_self, this]

namespace Lexeme

theorem first_word {c : Char} {word tail : Text} (letter : isLetter c)
    (chars : ∀ d ∈ word, isWordChar d) (breaks : Breaks tail) :
    first c (word ++ tail) = .token (.ofWord (c :: word)) (c :: word) := by
  rw [first, ofChar?_eq_none (isWordChar_of_isLetter letter)]
  dsimp only
  rw [if_neg (by simp [isDigit_eq_false_of_isLetter letter]), if_pos letter,
    (takeWhile_append_of_stop chars breaks).1]

theorem first_numeral {c : Char} {digits tail : Text} (digit : isDigit c)
    (all : ∀ d ∈ digits, isDigit d) (breaks : Breaks tail) :
    first c (digits ++ tail) = .token (.ofWord (c :: digits)) (c :: digits) := by
  have stop : ∀ d ∈ tail.head?, isDigit d = false ∧ isLetter d = false := by
    intro d member
    have := breaks d member
    rw [isWordChar, Bool.or_eq_false_iff] at this
    exact this.symm
  obtain ⟨taken, dropped⟩ := takeWhile_append_of_stop all fun d member => (stop d member).1
  rw [first, ofChar?_eq_none (isWordChar_of_isDigit digit)]
  dsimp only
  rw [if_pos digit, taken, dropped]
  cases tail with
  | nil => rfl
  | cons d tail => simp [(stop d rfl).2]

theorem first_single {c : Char} {kind : Kind} {tail : Text} (delimiter : Kind.ofChar? c = some kind)
    (alone : ∀ d ∈ tail.head?, Kind.ofPair? c d = none) : first c tail = .token kind [c] := by
  rw [first, delimiter]
  cases tail with
  | nil => rfl
  | cons d tail => simp [alone d rfl]

theorem first_pair {c d : Char} {kind pair : Kind} {tail : Text}
    (delimiter : Kind.ofChar? c = some kind) (isPair : Kind.ofPair? c d = some pair) :
    first c (d :: tail) = .token pair [c, d] := by
  rw [first, delimiter]
  simp [isPair]

/-- What a token can be the first of. -/
theorem first_cases {c : Char} {rest literal : Text} {kind : Kind}
    (h : first c rest = .token kind literal) :
    (Kind.ofChar? c = some kind ∧ literal = [c]) ∨
      (∃ d, Kind.ofPair? c d = some kind ∧ literal = [c, d]) ∨
      (isDigit c ∧ (∀ d ∈ literal, isDigit d) ∧ kind = .ofWord literal ∧ literal.head? = some c) ∨
      (isLetter c ∧ (∀ d ∈ literal, isWordChar d) ∧ kind = .ofWord literal ∧
        literal.head? = some c) ∨
      (kind = .illegal ∧ literal = [c]) := by
  unfold first at h
  split at h
  · rename_i single delimiter
    split at h
    · split at h
      · rename_i pair
        cases h
        exact .inr (.inl ⟨_, pair, rfl⟩)
      · cases h
        exact .inl ⟨delimiter, rfl⟩
    · cases h
      exact .inl ⟨delimiter, rfl⟩
  · split at h
    · rename_i digit
      have digits : ∀ d ∈ c :: rest.takeWhile isDigit, isDigit d :=
        List.forall_mem_cons.mpr ⟨digit, List.all_eq_true.mp List.all_takeWhile⟩
      dsimp only at h
      split at h
      · split at h
        · cases h
        · cases h
          exact .inr (.inr (.inl ⟨digit, digits, rfl, rfl⟩))
      · cases h
        exact .inr (.inr (.inl ⟨digit, digits, rfl, rfl⟩))
    · split at h
      · rename_i letter
        have chars : ∀ d ∈ c :: rest.takeWhile isWordChar, isWordChar d :=
          List.forall_mem_cons.mpr
            ⟨isWordChar_of_isLetter letter, List.all_eq_true.mp List.all_takeWhile⟩
        cases h
        exact .inr (.inr (.inr (.inl ⟨letter, chars, rfl, rfl⟩)))
      · cases h
        exact .inr (.inr (.inr (.inr ⟨rfl, rfl⟩)))

end Lexeme

/-! ### The text of a token -/

/-- Whether a text is a name: a letter or underscore, more of them and digits, and no reserved
word. -/
def isName : Text → Bool
  | [] => false
  | c :: rest => isLetter c && rest.all isWordChar && (Kind.keywords.lookup (c :: rest)).isNone

theorem isWordChar_of_isName {name : Text} (h : isName name) : ∀ c ∈ name, isWordChar c := by
  match name with
  | c :: rest =>
    simp only [isName, Bool.and_eq_true, List.all_eq_true] at h
    exact List.forall_mem_cons.mpr ⟨isWordChar_of_isLetter h.1.1, h.1.2⟩

theorem ofWord_of_isName {name : Text} (h : isName name) : Kind.ofWord name = .ident := by
  match name with
  | c :: rest =>
    simp only [isName, Bool.and_eq_true, Option.isNone_iff_eq_none] at h
    obtain ⟨⟨letter, _⟩, free⟩ := h
    simp [Kind.ofWord, free, isDigit_eq_false_of_isLetter letter]

theorem mem_keywords {text : Text} {kind : Kind} (h : Kind.keywords.lookup text = some kind) :
    kind ∈ Kind.keywords.map Prod.snd := by
  obtain ⟨before, after, split, _⟩ := List.lookup_eq_some_iff.mp h
  rw [split]
  simp

theorem ofWord_cons {c : Char} {word : Text} :
    (Kind.keywords.lookup (c :: word) = some (Kind.ofWord (c :: word)) ∧
        Kind.ofWord (c :: word) ∈ Kind.keywords.map Prod.snd) ∨
      (Kind.keywords.lookup (c :: word) = none ∧
        Kind.ofWord (c :: word) = if isDigit c then .int else .ident) := by
  unfold Kind.ofWord
  dsimp only
  split
  · rename_i keyword
    exact .inl ⟨keyword, mem_keywords keyword⟩
  · rename_i free
    exact .inr ⟨free, rfl⟩

/-- A word of letters is no name only if it is reserved, and a numeral is none. -/
theorem isName_of_ofWord {c : Char} {word : Text} (letter : isLetter c)
    (chars : ∀ d ∈ c :: word, isWordChar d) (ident : Kind.ofWord (c :: word) = .ident) :
    isName (c :: word) := by
  rcases @ofWord_cons c word with ⟨_, keyword⟩ | ⟨free, _⟩
  · rw [ident] at keyword
    exact absurd keyword (by decide)
  · have tail := (List.forall_mem_cons.mp chars).2
    simp [isName, letter, free, List.all_eq_true.mpr tail]

theorem ofWord_of_isDigit {c : Char} {digits : Text} (digit : isDigit c) :
    Kind.ofWord (c :: digits) = .int := by
  rcases @ofWord_cons c digits with ⟨keyword, _⟩ | ⟨_, numeral⟩
  · obtain ⟨before, after, split, _⟩ := List.lookup_eq_some_iff.mp keyword
    have starts : ∀ entry ∈ Kind.keywords, entry.1.head?.any isDigit = false := by decide
    have listed : (c :: digits, Kind.ofWord (c :: digits)) ∈ Kind.keywords := by
      rw [split]
      simp
    exact absurd digit (Bool.eq_false_iff.mp (starts _ listed))
  · rw [numeral, if_pos digit]

theorem not_isOperator_ofWord (word : Text) :
    (Kind.ofWord word).isBinaryOperator = false ∧ (Kind.ofWord word).isPrefixOperator = false := by
  match word with
  | [] => exact ⟨rfl, rfl⟩
  | c :: word =>
    rcases @ofWord_cons c word with ⟨_, keyword⟩ | ⟨_, other⟩
    · revert keyword
      cases Kind.ofWord (c :: word) <;> decide
    · rw [other]
      split <;> exact ⟨rfl, rfl⟩

theorem spelling_of_ofChar? {c : Char} {kind : Kind} (h : Kind.ofChar? c = some kind) :
    kind.spelling = [c] ∧ kind ≠ .ident := by
  unfold Kind.ofChar? at h
  split at h <;> cases h <;> exact ⟨rfl, by decide⟩

theorem spelling_of_ofPair? {c d : Char} {kind : Kind} (h : Kind.ofPair? c d = some kind) :
    kind.spelling = [c, d] ∧ kind ≠ .ident := by
  unfold Kind.ofPair? at h
  split at h <;> cases h <;> exact ⟨rfl, by decide⟩

namespace Lexeme

variable {c : Char} {rest literal : Text} {kind : Kind}

theorem isName_of_ident (h : first c rest = .token .ident literal) : isName literal := by
  rcases first_cases h with ⟨single, _⟩ | ⟨d, pair, _⟩ | ⟨digit, _, word, head⟩ |
    ⟨letter, chars, word, head⟩ | ⟨kind, _⟩
  · exact absurd rfl (spelling_of_ofChar? single).2
  · exact absurd rfl (spelling_of_ofPair? pair).2
  · obtain ⟨more, rfl⟩ := List.head?_eq_some_iff.mp head
    rw [ofWord_of_isDigit digit] at word
    contradiction
  · obtain ⟨more, rfl⟩ := List.head?_eq_some_iff.mp head
    exact isName_of_ofWord letter chars word.symm
  · contradiction

theorem literal_of_operator (h : first c rest = .token kind literal)
    (operator : kind.isBinaryOperator ∨ kind.isPrefixOperator) : literal = kind.spelling := by
  have notWord : ∀ word, kind ≠ .ofWord word := by
    rintro word rfl
    simp [not_isOperator_ofWord word] at operator
  rcases first_cases h with ⟨single, text⟩ | ⟨d, pair, text⟩ | ⟨_, _, word, _⟩ | ⟨_, _, word, _⟩ |
    ⟨rfl, _⟩
  · exact text.trans (spelling_of_ofChar? single).1.symm
  · exact text.trans (spelling_of_ofPair? pair).1.symm
  · exact absurd word (notWord literal)
  · exact absurd word (notWord literal)
  · simp [Kind.isBinaryOperator, Kind.isPrefixOperator] at operator

end Lexeme

end MonkeySyntax
