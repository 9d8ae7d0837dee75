import Mathlib.Data.List.TakeWhile
import MonkeySyntax.Proofs.Lexing.Pieces
import MonkeySyntax.Proofs.Lexing.Spellings

/-!
# Longest match

Reading takes the longest name, numeral, operator or delimiter that the unread text begins with, and
a single character where it begins with none (`next_longest`). Only digits that run into a letter
are refused. What each kind of token looks like is said here without the lexer's tables.
-/

namespace MonkeySyntax

def Kind.reservedWord? : Kind → Option Text
  | fnKeyword => some "fn".toList
  | letKeyword => some "let".toList
  | returnKeyword => some "return".toList
  | trueKeyword => some "true".toList
  | falseKeyword => some "false".toList
  | ifKeyword => some "if".toList
  | elseKeyword => some "else".toList
  | _ => none

/-- A letter or underscore, and more of them and digits behind it. -/
def IsIdentifier (text : Text) : Prop :=
  ∃ c rest, text = c :: rest ∧ isLetter c ∧ ∀ d ∈ rest, isWordChar d

def IsNumeral (text : Text) : Prop := text ≠ [] ∧ ∀ c ∈ text, isDigit c

/-- What a token can consist of. -/
def IsLexeme (text : Text) : Prop :=
  IsIdentifier text ∨ IsNumeral text ∨ ∃ kind ∈ Kind.signs, text = kind.spelling

/-- Which texts are tokens of which kind. -/
inductive Spelt : Kind → Text → Prop
  | keyword {kind : Kind} {word : Text} : kind.reservedWord? = some word → Spelt kind word
  | name {text : Text} : IsIdentifier text → (∀ kind : Kind, kind.reservedWord? ≠ some text) →
      Spelt .ident text
  | numeral {text : Text} : IsNumeral text → Spelt .int text
  | sign {kind : Kind} : kind ∈ Kind.signs → Spelt kind kind.spelling

/-- The longest beginning of a text that has a property. -/
structure Longest (property : Text → Prop) (part whole : Text) : Prop where
  begins : part <+: whole
  holds : property part
  longest (other : Text) : other <+: whole → property other → other.length ≤ part.length

/-- Digits that a letter or underscore follows stand at the beginning. -/
def RunsOn (text : Text) : Prop :=
  ∃ digits c rest, text = digits ++ c :: rest ∧ IsNumeral digits ∧ isLetter c

/-! ### Beginnings -/

variable {c : Char} {rest : Text} {kind : Kind}

theorem prefix_takeWhile {p : Char → Bool} {part whole : Text} (begins : part <+: whole)
    (all : ∀ d ∈ part, p d) : part <+: whole.takeWhile p := by
  obtain ⟨tail, rfl⟩ := begins
  rw [List.takeWhile_append_of_pos all]
  exact List.prefix_append ..

theorem longest_takeWhile {p : Char → Bool} (first : p c) (rest : Text) :
    Longest (fun text => ∀ d ∈ text, p d) (c :: rest.takeWhile p) (c :: rest) where
  begins := (List.prefix_cons_inj c).mpr (List.takeWhile_prefix p)
  holds := List.forall_mem_cons.mpr ⟨first, List.all_eq_true.mp List.all_takeWhile⟩
  longest other begins all := by
    have within := prefix_takeWhile begins all
    rw [List.takeWhile_cons_of_pos first] at within
    exact within.length_le

/-- It is enough to look at beginnings that are not empty. -/
theorem Longest.of_cons {property : Text → Prop} {part : Text} (begins : part <+: rest)
    (holds : property (c :: part)) (some : ¬ property [])
    (longest : ∀ other, other <+: rest → property (c :: other) → other.length ≤ part.length) :
    Longest property (c :: part) (c :: rest) := by
  refine ⟨(List.prefix_cons_inj c).mpr begins, holds, fun other isPrefix isOther => ?_⟩
  cases other with
  | nil => exact absurd isOther some
  | cons d other =>
    obtain ⟨rfl, begins⟩ := List.cons_prefix_cons.mp isPrefix
    exact Nat.succ_le_succ (longest other begins isOther)

theorem runsOn_cons :
    RunsOn (c :: rest) ↔ isDigit c ∧ ∃ d ∈ (rest.dropWhile isDigit).head?, isLetter d := by
  constructor
  · rintro ⟨digits, d, tail, split, ⟨some, all⟩, letter⟩
    cases digits with
    | nil => exact absurd rfl some
    | cons e digits =>
      rw [List.cons_append] at split
      obtain ⟨rfl, rfl⟩ := List.cons.inj split
      obtain ⟨digit, digits⟩ := List.forall_mem_cons.mp all
      have stop : ∀ e ∈ (d :: tail).head?, isDigit e = false := by
        simp [isDigit_eq_false_of_isLetter letter]
      rw [(takeWhile_append_of_stop digits stop).2]
      exact ⟨digit, d, rfl, letter⟩
  · rintro ⟨digit, d, behind, letter⟩
    obtain ⟨tail, behind⟩ := List.head?_eq_some_iff.mp behind
    refine ⟨c :: rest.takeWhile isDigit, d, tail, ?_, ⟨nofun, ?_⟩, letter⟩
    · rw [← behind, List.cons_append, List.takeWhile_append_dropWhile]
    · exact List.forall_mem_cons.mpr ⟨digit, List.all_eq_true.mp List.all_takeWhile⟩

/-! ### Kinds and their spellings -/

theorem spelt_of_ofChar? (single : Kind.ofChar? c = some kind) : Spelt kind [c] := by
  have isSign : kind ∈ Kind.signs := by
    unfold Kind.ofChar? at single
    split at single <;> cases single <;> decide
  rw [← (spelling_of_ofChar? single).1]
  exact .sign isSign

theorem spelt_of_ofPair? {d : Char} (pair : Kind.ofPair? c d = some kind) : Spelt kind [c, d] := by
  have isSign : kind ∈ Kind.signs := by
    unfold Kind.ofPair? at pair
    split at pair <;> cases pair <;> decide
  rw [← (spelling_of_ofPair? pair).1]
  exact .sign isSign

theorem lookup_keywords_eq_some {word : Text} :
    Kind.keywords.lookup word = some kind ↔ kind.reservedWord? = some word := by
  constructor
  · intro found
    obtain ⟨before, after, split, _⟩ := List.lookup_eq_some_iff.mp found
    have all : ∀ entry ∈ Kind.keywords, entry.2.reservedWord? = some entry.1 := by decide
    exact all (word, kind) (by simp [split])
  · intro reserved
    unfold Kind.reservedWord? at reserved
    split at reserved <;> first | (cases reserved; rfl) | contradiction

theorem isIdentifier_of_reservedWord? {word : Text} (reserved : kind.reservedWord? = some word) :
    IsIdentifier word := by
  have spelt : word.head?.any isLetter ∧ word.tail.all isWordChar := by
    unfold Kind.reservedWord? at reserved
    split at reserved <;> first | (cases reserved; decide) | contradiction
  obtain ⟨letter, chars⟩ := spelt
  match word with
  | c :: rest => exact ⟨c, rest, rfl, letter, List.all_eq_true.mp chars⟩

theorem spelt_ofWord {text : Text} (isIdentifier : IsIdentifier text) :
    Spelt (Kind.ofWord text) text := by
  have whole := isIdentifier
  obtain ⟨c, rest, rfl, letter, _⟩ := isIdentifier
  rcases @ofWord_cons c rest with ⟨found, _⟩ | ⟨free, other⟩
  · exact .keyword (lookup_keywords_eq_some.mp found)
  · rw [other, if_neg (by simp [isDigit_eq_false_of_isLetter letter])]
    refine .name whole fun kind reserved => ?_
    rw [lookup_keywords_eq_some.mpr reserved] at free
    contradiction

theorem isLexeme_iff_spelt {text : Text} : IsLexeme text ↔ ∃ kind, Spelt kind text := by
  constructor
  · rintro (isIdentifier | isNumeral | ⟨kind, isSign, rfl⟩)
    · exact ⟨_, spelt_ofWord isIdentifier⟩
    · exact ⟨_, .numeral isNumeral⟩
    · exact ⟨kind, .sign isSign⟩
  · rintro ⟨kind, spelt⟩
    cases spelt with
    | keyword reserved => exact .inl (isIdentifier_of_reservedWord? reserved)
    | name isIdentifier => exact .inl isIdentifier
    | numeral isNumeral => exact .inr (.inl isNumeral)
    | sign isSign => exact .inr (.inr ⟨kind, isSign, rfl⟩)

/-- The first character of a lexeme decides what may follow it. -/
theorem IsLexeme.cons_cases (isLexeme : IsLexeme (c :: rest)) :
    (isLetter c ∧ ∀ d ∈ rest, isWordChar d) ∨ (isDigit c ∧ ∀ d ∈ rest, isDigit d) ∨
      ((Kind.ofChar? c).isSome ∧
        (rest = [] ∨ ∃ d, rest = [d] ∧ (Kind.ofPair? c d).isSome)) := by
  rcases isLexeme with ⟨_, _, same, letter, chars⟩ | ⟨_, all⟩ | ⟨kind, isSign, same⟩
  · obtain ⟨rfl, rfl⟩ := List.cons.inj same
    exact .inl ⟨letter, chars⟩
  · exact .inr (.inl (List.forall_mem_cons.mp all))
  · rcases spelling_cases isSign with ⟨d, spelling, single⟩ | ⟨d, e, _, spelling, single, pair⟩
    · rw [spelling] at same
      obtain ⟨rfl, rfl⟩ := List.cons.inj same
      exact .inr (.inr ⟨by simp [single], .inl rfl⟩)
    · rw [spelling] at same
      obtain ⟨rfl, rfl⟩ := List.cons.inj same
      exact .inr (.inr ⟨by simp [single], .inr ⟨e, rfl, by simp [pair]⟩⟩)

theorem not_isLexeme_nil : ¬ IsLexeme [] := by
  rintro (⟨_, _, same, _⟩ | ⟨some, _⟩ | ⟨kind, isSign, same⟩)
  · contradiction
  · exact some rfl
  · rcases spelling_cases isSign with ⟨_, spelling, _⟩ | ⟨_, _, _, spelling, _⟩ <;>
    · rw [spelling] at same
      contradiction

/-- A lexeme alone is read as a token of its kind. -/
theorem Spelt.first (spelt : Spelt kind (c :: rest)) :
    Lexeme.first c rest = .token kind (c :: rest) := by
  have word (letter : isLetter c) (chars : ∀ d ∈ rest, isWordChar d) :
      Lexeme.first c rest = .token (.ofWord (c :: rest)) (c :: rest) := by
    have first := Lexeme.first_word letter chars breaks_nil
    rwa [List.append_nil] at first
  have isLexeme := (isLexeme_iff_spelt.mpr ⟨kind, spelt⟩).cons_cases
  generalize whole : c :: rest = text at spelt
  cases spelt with
  | keyword reserved =>
    obtain ⟨d, tail, rfl, letter, chars⟩ := isIdentifier_of_reservedWord? reserved
    obtain ⟨rfl, rfl⟩ := List.cons.inj whole
    rw [word letter chars, Kind.ofWord, lookup_keywords_eq_some.mpr reserved]
  | name isIdentifier free =>
    obtain ⟨d, tail, rfl, letter, chars⟩ := isIdentifier
    obtain ⟨rfl, rfl⟩ := List.cons.inj whole
    rcases @ofWord_cons c rest with ⟨found, _⟩ | ⟨_, other⟩
    · exact absurd (lookup_keywords_eq_some.mp found) (free _)
    · rw [word letter chars, other, if_neg (by simp [isDigit_eq_false_of_isLetter letter])]
  | numeral isNumeral =>
    obtain ⟨_, all⟩ := isNumeral
    subst whole
    obtain ⟨digit, digits⟩ := List.forall_mem_cons.mp all
    have first := Lexeme.first_numeral digit digits breaks_nil
    rwa [List.append_nil, ofWord_of_isDigit digit] at first
  | sign isSign =>
    rcases spelling_cases isSign with ⟨d, spelling, single⟩ | ⟨d, e, _, spelling, single, pair⟩
    · rw [spelling] at whole ⊢
      obtain ⟨rfl, rfl⟩ := List.cons.inj whole
      exact Lexeme.first_single single (by simp)
    · rw [spelling] at whole ⊢
      obtain ⟨rfl, rfl⟩ := List.cons.inj whole
      exact Lexeme.first_pair single pair

theorem Spelt.unique {other : Kind} {text : Text} (spelt : Spelt kind text)
    (also : Spelt other text) : kind = other := by
  cases text with
  | nil => exact absurd (isLexeme_iff_spelt.mpr ⟨kind, spelt⟩) not_isLexeme_nil
  | cons c rest =>
    obtain ⟨same, _⟩ := Lexeme.token.inj (spelt.first.symm.trans also.first)
    exact same

/-! ### The first lexeme -/

/-- A lexeme is the longest that a text begins with, a name that starts with a digit, or a character
that no lexeme begins with. -/
def Lexeme.Matches (text : Text) : Lexeme → Prop
  | badName literal digits =>
    RunsOn text ∧ Longest (fun part => ∀ c ∈ part, isWordChar c) literal text ∧
      Longest (fun part => ∀ c ∈ part, isDigit c) digits text
  | token kind literal =>
    ¬ RunsOn text ∧
      (Longest IsLexeme literal text ∧ Spelt kind literal ∨
        (∀ part, part <+: text → ¬ IsLexeme part) ∧ kind = .illegal ∧ literal = text.take 1)

namespace Lexeme

theorem matches_word (letter : isLetter c) :
    (token (.ofWord (c :: rest.takeWhile isWordChar)) (c :: rest.takeWhile isWordChar)).Matches
      (c :: rest) := by
  have isIdentifier : IsIdentifier (c :: rest.takeWhile isWordChar) :=
    ⟨c, _, rfl, letter, List.all_eq_true.mp List.all_takeWhile⟩
  have notDigit := isDigit_eq_false_of_isLetter letter
  refine ⟨by simp [runsOn_cons, notDigit], .inl ⟨?_, spelt_ofWord isIdentifier⟩⟩
  refine .of_cons (List.takeWhile_prefix _) (.inl isIdentifier) not_isLexeme_nil ?_
  intro other isPrefix isLexeme
  rcases isLexeme.cons_cases with ⟨_, chars⟩ | ⟨digit, _⟩ | ⟨single, _⟩
  · exact (prefix_takeWhile isPrefix chars).length_le
  · rw [notDigit] at digit
    contradiction
  · rw [ofChar?_eq_none (isWordChar_of_isLetter letter)] at single
    contradiction

theorem matches_numeral (digit : isDigit c)
    (ends : ∀ d ∈ (rest.dropWhile isDigit).head?, isLetter d = false) :
    (token (.ofWord (c :: rest.takeWhile isDigit)) (c :: rest.takeWhile isDigit)).Matches
      (c :: rest) := by
  have isNumeral : IsNumeral (c :: rest.takeWhile isDigit) :=
    ⟨nofun, (longest_takeWhile digit rest).holds⟩
  refine ⟨?_, .inl ⟨?_, ?_⟩⟩
  · rw [runsOn_cons]
    rintro ⟨_, d, behind, letter⟩
    rw [ends d behind] at letter
    contradiction
  · refine .of_cons (List.takeWhile_prefix _) (.inr (.inl isNumeral)) not_isLexeme_nil ?_
    intro other isPrefix isLexeme
    rcases isLexeme.cons_cases with ⟨letter, _⟩ | ⟨_, digits⟩ | ⟨single, _⟩
    · rw [isDigit_eq_false_of_isLetter letter] at digit
      contradiction
    · exact (prefix_takeWhile isPrefix digits).length_le
    · rw [ofChar?_eq_none (isWordChar_of_isDigit digit)] at single
      contradiction
  · rw [ofWord_of_isDigit digit]
    exact .numeral isNumeral

theorem matches_badName (digit : isDigit c) {d : Char} (behind : d ∈ (rest.dropWhile isDigit).head?)
    (letter : isLetter d) :
    (badName (c :: rest.takeWhile isWordChar) (c :: rest.takeWhile isDigit)).Matches (c :: rest) :=
  ⟨runsOn_cons.mpr ⟨digit, d, behind, letter⟩, longest_takeWhile (isWordChar_of_isDigit digit) rest,
    longest_takeWhile digit rest⟩

section

variable {single : Kind} (delimiter : Kind.ofChar? c = some single)

include delimiter

/-- Only the next character may belong to an operator or delimiter that begins here. -/
theorem sign_of_isLexeme {other : Text} (isLexeme : IsLexeme (c :: other)) :
    other = [] ∨ ∃ d, other = [d] ∧ (Kind.ofPair? c d).isSome := by
  rcases isLexeme.cons_cases with ⟨letter, _⟩ | ⟨digit, _⟩ | ⟨_, sign⟩
  · rw [ofChar?_eq_none (isWordChar_of_isLetter letter)] at delimiter
    contradiction
  · rw [ofChar?_eq_none (isWordChar_of_isDigit digit)] at delimiter
    contradiction
  · exact sign

theorem not_runsOn_of_ofChar? : ¬ RunsOn (c :: rest) := by
  rw [runsOn_cons]
  rintro ⟨digit, _⟩
  rw [ofChar?_eq_none (isWordChar_of_isDigit digit)] at delimiter
  contradiction

theorem matches_single (alone : ∀ d ∈ rest.head?, Kind.ofPair? c d = none) :
    (token single [c]).Matches (c :: rest) := by
  have spelt := spelt_of_ofChar? delimiter
  refine ⟨not_runsOn_of_ofChar? delimiter, .inl ⟨?_, spelt⟩⟩
  refine .of_cons List.nil_prefix (isLexeme_iff_spelt.mpr ⟨_, spelt⟩) not_isLexeme_nil ?_
  intro other isPrefix isLexeme
  rcases sign_of_isLexeme delimiter isLexeme with rfl | ⟨d, rfl, pair⟩
  · exact le_rfl
  · obtain ⟨tail, rfl⟩ := isPrefix
    rw [alone d rfl] at pair
    contradiction

theorem matches_pair {pair : Kind} {d : Char} (isPair : Kind.ofPair? c d = some pair) :
    (token pair [c, d]).Matches (c :: d :: rest) := by
  have spelt := spelt_of_ofPair? isPair
  refine ⟨not_runsOn_of_ofChar? delimiter, .inl ⟨?_, spelt⟩⟩
  refine .of_cons ⟨rest, rfl⟩ (isLexeme_iff_spelt.mpr ⟨_, spelt⟩) not_isLexeme_nil ?_
  intro other _ isLexeme
  rcases sign_of_isLexeme delimiter isLexeme with rfl | ⟨e, rfl, _⟩
  · exact Nat.zero_le _
  · exact le_rfl

end

theorem matches_illegal (delimiter : Kind.ofChar? c = none) (digit : isDigit c = false)
    (letter : isLetter c = false) : (token .illegal [c]).Matches (c :: rest) := by
  refine ⟨by simp [runsOn_cons, digit], .inr ⟨fun part isPrefix isLexeme => ?_, rfl, rfl⟩⟩
  cases part with
  | nil => exact not_isLexeme_nil isLexeme
  | cons d part =>
    obtain ⟨rfl, _⟩ := List.cons_prefix_cons.mp isPrefix
    have none := isLexeme.cons_cases
    simp [delimiter, digit, letter] at none

theorem matches_first (c : Char) (rest : Text) : (first c rest).Matches (c :: rest) := by
  unfold first
  split
  · rename_i single delimiter
    split
    · rename_i d tail
      split
      · rename_i pair isPair
        exact matches_pair delimiter isPair
      · rename_i alone
        exact matches_single delimiter (by simpa using alone)
    · exact matches_single delimiter (by simp)
  · rename_i delimiter
    split
    · rename_i digit
      dsimp only
      split
      · rename_i d tail behind
        split
        · rename_i letter
          exact matches_badName digit (by simp [behind]) letter
        · rename_i letter
          exact matches_numeral digit (by simpa [behind] using letter)
      · rename_i behind
        exact matches_numeral digit (by simp [behind])
    · rename_i digit
      split
      · rename_i letter
        exact matches_word letter
      · rename_i letter
        exact matches_illegal delimiter (Bool.of_not_eq_true digit) (Bool.of_not_eq_true letter)

end Lexeme

/-! ### Reading -/

namespace Lexer

/-- What the next read returns, where `text` is left to read but for the layout before it. -/
structure ReadsLongest (lexer : Lexer) (text : Text) : Prop where
  ends : (∃ t, lexer.next.outcome = .ok t ∧ t.kind = .eof) ↔ text = []
  refuses : (∃ e, lexer.next.outcome = .error e) ↔ RunsOn text
  /-- Of a name that starts with a digit only the digits are read. -/
  badName (e : Error) : lexer.next.outcome = .error e → ∃ literal digits,
    e.cause = .badName literal ∧ Longest (fun part => ∀ c ∈ part, isWordChar c) literal text ∧
      Longest (fun part => ∀ c ∈ part, isDigit c) digits text ∧
      text = digits ++ lexer.next.lexer.cursor.rest
  token (t : Token) : lexer.next.outcome = .ok t → t.kind ≠ .eof →
    text = t.literal ++ lexer.next.lexer.cursor.rest ∧
      (Longest IsLexeme t.literal text ∧ (∀ kind, t.kind = kind ↔ Spelt kind t.literal) ∨
        (∀ part, part <+: text → ¬ IsLexeme part) ∧ t.kind = .illegal ∧ t.literal = text.take 1)

variable {lexer : Lexer}

theorem readsLongest_of_nil (ends : lexer.cursor.skipLayout.rest = []) :
    lexer.ReadsLongest [] := by
  have outcome : lexer.next.outcome = .ok ⟨.eof, [], lexer.cursor.finish.position⟩ := by
    rw [outcome_next, Cursor.read_of_ends ends]
    rfl
  refine ⟨⟨fun _ => rfl, fun _ => ⟨_, outcome, rfl⟩⟩, ⟨?_, ?_⟩, ?_, ?_⟩
  · rintro ⟨e, refused⟩
    rw [outcome] at refused
    contradiction
  · rintro ⟨digits, c, rest, split, _⟩
    simp at split
  · intro e refused
    rw [outcome] at refused
    contradiction
  · intro t returned notEnd
    rw [outcome] at returned
    cases returned
    exact absurd rfl notEnd

theorem readsLongest_of_cons (starts : lexer.cursor.skipLayout.rest = c :: rest) :
    lexer.ReadsLongest (c :: rest) := by
  have fits := Lexeme.matches_first c rest
  have read := Cursor.read_eq_of_cons starts
  have outcome : lexer.next.outcome = outcomeOf lexer.filename
      ((Lexeme.first c rest).at (lexer.cursor.skipLayout.pass 1).position) := by
    rw [outcome_next, read]
  have behind : c :: rest = (Lexeme.first c rest).consumed ++ lexer.next.lexer.cursor.rest := by
    obtain ⟨r, consumed, isPrefix⟩ := Lexeme.consumed_first c rest
    rw [cursor_next, read, Cursor.rest_pass, starts, consumed]
    exact (List.prefix_iff_eq_append.mp ((List.prefix_cons_inj c).mpr isPrefix)).symm
  cases isFirst : Lexeme.first c rest with
  | badName literal digits =>
    rw [isFirst] at fits outcome behind
    obtain ⟨runsOn, name, numeral⟩ := fits
    have refused : lexer.next.outcome = .error _ := outcome
    refine ⟨⟨?_, nofun⟩, ⟨fun _ => runsOn, fun _ => ⟨_, refused⟩⟩, ?_, ?_⟩
    · rintro ⟨t, returned, _⟩
      rw [refused] at returned
      contradiction
    · intro e same
      rw [refused] at same
      cases same
      exact ⟨literal, digits, rfl, name, numeral, behind⟩
    · intro t returned
      rw [refused] at returned
      contradiction
  | token kind literal =>
    have notEnd := Lexeme.kind_ne_eof isFirst
    rw [isFirst] at fits outcome behind
    obtain ⟨runsNot, isToken⟩ := fits
    have returned : lexer.next.outcome = .ok _ := outcome
    refine ⟨⟨?_, nofun⟩, ⟨?_, fun runsOn => absurd runsOn runsNot⟩, ?_, ?_⟩
    · rintro ⟨t, same, eof⟩
      rw [returned] at same
      cases same
      exact absurd eof notEnd
    · rintro ⟨e, refused⟩
      rw [returned] at refused
      contradiction
    · intro e refused
      rw [returned] at refused
      contradiction
    · intro t same _
      rw [returned] at same
      cases same
      refine ⟨behind, isToken.imp_left fun ⟨longest, spelt⟩ => ⟨longest, fun other => ?_⟩⟩
      constructor
      · rintro rfl
        exact spelt
      · exact spelt.unique

/-- Whatever was done with a lexer, the next read takes the longest match. -/
theorem next_longest (source filename : Text) (operations : List Operation) :
    let lexer := ((Shared.ofSource source filename).after operations).lexer
    lexer.InPlace source ∧ lexer.ReadsLongest (lexer.cursor.rest.dropWhile isLayout) := by
  intro lexer
  refine ⟨(inPlace_after source filename operations).1, ?_⟩
  have skipped := lexer.cursor.rest_skipLayout
  cases starts : lexer.cursor.skipLayout.rest with
  | nil =>
    rw [← skipped, starts]
    exact readsLongest_of_nil starts
  | cons c rest =>
    rw [← skipped, starts]
    exact readsLongest_of_cons starts

end Lexer

end MonkeySyntax
