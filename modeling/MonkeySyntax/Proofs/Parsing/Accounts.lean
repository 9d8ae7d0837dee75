import MonkeySyntax.Proofs.Lexing.Lexemes
import MonkeySyntax.Proofs.Parsing.Acceptance

/-!
# What becomes of a source

Parsing a source fails exactly at a numeral with too many digits, even if its value is small. Any
other numeral that is too great is an error at its place, and nothing is left out without an error.
-/

namespace MonkeySyntax.Parser

open Grammar

variable (source filename : Text)

/-- What parsing a source reads of its items, and what becomes of the numerals among them. -/
structure Accounts (read : List Item) : Prop where
  /-- The items are those that were read and those that are left. -/
  split : (Cursor.ofSource source).items = read ++ (parseSource source filename).lexer.cursor.items
  returns : (∃ statements, (parseSource source filename).outcome = .ok statements) ↔ Short read
  /-- The numeral that stops parsing is the last item that was read. -/
  stopped (numeral : Decimal.TooLong) : (parseSource source filename).outcome = .error numeral →
    ∃ before t, read = before ++ [.token t] ∧ t.kind = .int ∧
      t.literal.length = numeral.digits ∧ Decimal.maxDigits < numeral.digits
  /-- Any other numeral is an error if it is too great, and only then. -/
  refused (t : Token) : .token t ∈ read → t.kind = .int →
    t.literal.length ≤ Decimal.maxDigits →
      (⟨.overflow t.literal, filename, t.position⟩ ∈ (parseSource source filename).errors ↔
        maxInteger < Decimal.value t.literal)
  /-- What is left of a source that is parsed stands behind a bad name, which is the last error. -/
  unread : (∃ statements, (parseSource source filename).outcome = .ok statements) →
    (parseSource source filename).lexer.cursor.items ≠ [] →
      ∃ literal name position,
        (parseSource source filename).errors.getLast? = some ⟨.badName literal, name, position⟩
  /-- A source without errors is derived. -/
  clean (statements : List Node) : (parseSource source filename).outcome = .ok statements →
    (parseSource source filename).errors = [] →
      Program .plain (Cursor.ofSource source).items statements
  /-- Without bad names, all numerals of the source are read. -/
  all : (∀ literal position, .badName literal position ∉ (Cursor.ofSource source).items) →
    ((∃ statements, (parseSource source filename).outcome = .ok statements) ↔
      Short (Cursor.ofSource source).items)

/-- Parsing a source fails exactly at a numeral with too many digits. -/
theorem parseSource_accounts : ∃ read, Accounts source filename read := by
  obtain ⟨read, split, judged⟩ := turnsOf_split source
  have returns := (returns_iff source filename).trans (short_iff source split judged)
  refine ⟨read, by rw [items_parseSource, ← split], returns, ?_, ?_, ?_, ?_, ?_⟩
  · intro numeral stopped
    obtain ⟨rest, ends⟩ := tooLong_of_error source filename stopped
    exact read_of_tooLong source split ends
  · intro t member isInt short
    exact overflow_iff source filename (judged t member isInt) short
  · intro parsed left
    rw [items_parseSource] at left
    rw [errors_parseSource]
    cases ends : (turnsOf source).2 with
    | endOfSource => rw [ends] at left; contradiction
    | tooLong numeral rest => exact absurd ends ((returns_iff source filename).mp parsed _ _)
    | badName literal position rest =>
      obtain ⟨found, name, last⟩ := getLast?_keep_badName none (.ofSource source filename)
        (turnsOf source).1 literal position
      exact ⟨found, name, position, last⟩
  · intro statements parsed clean
    exact program_of_errors filename parsed clean
  · exact returns_iff_short source filename

/-- A source of digits alone is one numeral. -/
theorem items_of_digits {digits : Text} (some : digits ≠ []) (all : ∀ c ∈ digits, isDigit c) :
    ∃ t : Token, (Cursor.ofSource digits).items = [.token t] ∧ t.kind = .int ∧
      t.literal = digits := by
  have noNul : '\x00' ∉ digits := fun member => absurd (all _ member) (by decide)
  have lexed : Lexed (digits ++ []) (Cursor.ofSource digits).items := by
    rw [List.append_nil]
    exact lexed_ofSource noNul
  obtain ⟨t, more, items, isInt, literal, behind⟩ := lexed.numeral some all breaks_nil
  exact ⟨t, by rw [items, behind.nil], isInt, literal⟩

/-- It is not parsed if there are too many digits, whatever their value. -/
theorem error_of_digits {digits : Text} (all : ∀ c ∈ digits, isDigit c)
    (long : Decimal.maxDigits < digits.length) :
    (parseSource digits filename).outcome = .error ⟨digits.length⟩ := by
  obtain ⟨t, items, isInt, literal⟩ := items_of_digits (by rintro rfl; simp at long) all
  have noBadName : ∀ literal position,
      .badName literal position ∉ (Cursor.ofSource digits).items := by
    simp [items]
  cases parsed : (parseSource digits filename).outcome with
  | ok statements =>
    have short := (returns_iff_short digits filename noBadName).mp ⟨statements, parsed⟩
    have := short t (by rw [items]; exact List.mem_cons_self) isInt
    rw [literal] at this
    omega
  | error numeral =>
    obtain ⟨rest, ends⟩ := tooLong_of_error digits filename parsed
    obtain ⟨before, u, split, _, length, _⟩ := tooLong_of_turns ends
    have member : .token u ∈ (Cursor.ofSource digits).items := by simp [split]
    rw [items, List.mem_singleton, Item.token.injEq] at member
    rw [← literal, ← member, length]

theorem isDigit_of_mem_zeros {n : Nat} : ∀ c ∈ List.replicate n '0', isDigit c := by
  intro c member
  rw [List.eq_of_mem_replicate member]
  decide

theorem error_of_replicate_zero {n : Nat} (long : Decimal.maxDigits < n) :
    (parseSource (List.replicate n '0') filename).outcome = .error ⟨n⟩ := by
  have stopped := error_of_digits filename isDigit_of_mem_zeros
    (long.trans_eq List.length_replicate.symm)
  rwa [List.length_replicate] at stopped

/-- Zero is not parsed if it is written with too many digits. -/
theorem error_of_zeros :
    (parseSource (List.replicate 4301 '0') Lexer.defaultFilename).outcome = .error ⟨4301⟩ :=
  error_of_replicate_zero _ (by decide)

end MonkeySyntax.Parser
