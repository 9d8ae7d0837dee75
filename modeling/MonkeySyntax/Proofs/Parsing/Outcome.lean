import MonkeySyntax.Proofs.Grammar.Greedy
import MonkeySyntax.Proofs.Lexing.Pieces
import MonkeySyntax.Proofs.Parsing.Turns

/-!
# Which sources are parsed

Parsing a source returns a program unless it meets a numeral with more digits than can be converted.
Every other numeral that is too great is an error at its place, and nothing is left unread without
an error.
-/

namespace MonkeySyntax.Parser

open Grammar

variable (source filename : Text)

/-- The turns that a source takes, and how they end. -/
def turnsOf (source : Text) : List Turn × Ending :=
  turns (Cursor.ofSource source).finish.position (Cursor.ofSource source).items

theorem errors_parseSource :
    (parseSource source filename).errors =
      (keep none (.ofSource source filename)
        ((turnsOf source).1 ++ (turnsOf source).2.turns)).errors := rfl

theorem events_parseSource :
    (parseSource source filename).events =
      (keep none (.ofSource source filename)
        ((turnsOf source).1 ++ (turnsOf source).2.turns)).events := rfl

theorem program_of_outcome {parse : Parse} {nodes : List Node}
    (returns : parse.outcome = .ok nodes) : parse.program = .program nodes := by
  rw [Parse.program, Parse.statements, returns]
  rfl

theorem outcome_parseSource_of_tooLong {numeral : Decimal.TooLong} {rest : List Item}
    (ends : (turnsOf source).2 = .tooLong numeral rest) :
    (parseSource source filename).outcome = .error numeral := by
  unfold turnsOf at ends
  simp only [parseSource, parse, Lexer.ofSource, ends]

theorem outcome_parseSource (returns : ∀ numeral rest, (turnsOf source).2 ≠ .tooLong numeral rest) :
    (parseSource source filename).outcome = .ok
      (keep none (.ofSource source filename)
        ((turnsOf source).1 ++ (turnsOf source).2.turns)).statements := by
  unfold turnsOf at returns ⊢
  -- The ending is settled by `returns`.
  simp only [parseSource, parse, Lexer.ofSource]
  rfl

theorem turnsOf_split :
    ∃ read, (Cursor.ofSource source).items = read ++ (turnsOf source).2.unread ∧
      ∀ t, .token t ∈ read → t.kind = .int →
        Judged t (.problem (.overflow t.literal) t.position ∈ (turnsOf source).1)
          ((turnsOf source).2 = .tooLong ⟨t.literal.length⟩ (turnsOf source).2.unread) :=
  turns_split _

theorem items_parseSource :
    (parseSource source filename).lexer.cursor.items = (turnsOf source).2.unread := by
  obtain ⟨read, split, _⟩ := turnsOf_split source
  have skipped : ∀ rest, (turnsOf source).2.unread = rest →
      ((Cursor.ofSource source).readMany
        ((Cursor.ofSource source).items.length - rest.length)).items = rest := by
    rintro rest rfl
    rw [Cursor.items_readMany, split, List.length_append, Nat.add_sub_cancel, List.drop_left]
  unfold turnsOf at skipped ⊢
  simp only [parseSource, parse, Lexer.ofSource]
  cases ends : (turns (Cursor.ofSource source).finish.position
      (Cursor.ofSource source).items).2 with
  | endOfSource => exact Cursor.items_finish _
  | badName _ _ rest | tooLong _ rest => exact skipped rest (by rw [ends]; rfl)

theorem returns_iff : (∃ statements, (parseSource source filename).outcome = .ok statements) ↔
    ∀ numeral rest, (turnsOf source).2 ≠ .tooLong numeral rest := by
  constructor
  · rintro ⟨statements, returns⟩ numeral rest ends
    rw [outcome_parseSource_of_tooLong source filename ends] at returns
    contradiction
  · intro goesOn
    exact ⟨_, outcome_parseSource source filename goesOn⟩

theorem tooLong_of_error {numeral : Decimal.TooLong}
    (stopped : (parseSource source filename).outcome = .error numeral) :
    ∃ rest, (turnsOf source).2 = .tooLong numeral rest := by
  cases ends : (turnsOf source).2 with
  | tooLong found rest =>
    rw [outcome_parseSource_of_tooLong source filename ends] at stopped
    cases stopped
    exact ⟨rest, rfl⟩
  | endOfSource | badName =>
    rw [outcome_parseSource source filename (by simp [ends])] at stopped
    contradiction

theorem endOfSource_of_returns (goesOn : ∀ numeral rest, (turnsOf source).2 ≠ .tooLong numeral rest)
    (noBadName : ∀ literal position, .badName literal position ∉ (Cursor.ofSource source).items) :
    (turnsOf source).2 = .endOfSource := by
  cases ends : (turnsOf source).2 with
  | endOfSource => rfl
  | badName literal position rest => exact absurd (badName_of_turns ends) (noBadName _ _)
  | tooLong numeral rest => exact absurd ends (goesOn _ _)

theorem read_of_tooLong {read : List Item} {numeral : Decimal.TooLong} {rest : List Item}
    (split : (Cursor.ofSource source).items = read ++ (turnsOf source).2.unread)
    (ends : (turnsOf source).2 = .tooLong numeral rest) :
    ∃ before t, read = before ++ [.token t] ∧ t.kind = .int ∧
      t.literal.length = numeral.digits ∧ Decimal.maxDigits < numeral.digits := by
  obtain ⟨before, t, whole, found⟩ := tooLong_of_turns ends
  rw [ends] at split
  refine ⟨before, t, ?_, found⟩
  have same := split.symm.trans whole
  rw [List.append_cons] at same
  exact List.append_cancel_right same

theorem short_iff {read : List Item}
    (split : (Cursor.ofSource source).items = read ++ (turnsOf source).2.unread)
    (judged : ∀ t, .token t ∈ read → t.kind = .int →
      Judged t (.problem (.overflow t.literal) t.position ∈ (turnsOf source).1)
        ((turnsOf source).2 = .tooLong ⟨t.literal.length⟩ (turnsOf source).2.unread)) :
    (∀ numeral rest, (turnsOf source).2 ≠ .tooLong numeral rest) ↔ Short read := by
  constructor
  · intro goesOn t member isInt
    rcases judged t member isInt with ⟨short, _⟩ | ⟨short, _, _⟩ | ⟨_, ends⟩
    · exact short
    · exact short
    · exact absurd ends (goesOn _ _)
  · intro short numeral rest ends
    obtain ⟨before, t, rfl, isInt, length, long⟩ := read_of_tooLong source split ends
    have := short t (List.mem_append_right before List.mem_cons_self) isInt
    omega

theorem overflow_iff {t : Token}
    (judged : Judged t (.problem (.overflow t.literal) t.position ∈ (turnsOf source).1)
      ((turnsOf source).2 = .tooLong ⟨t.literal.length⟩ (turnsOf source).2.unread))
    (short : t.literal.length ≤ Decimal.maxDigits) :
    ⟨.overflow t.literal, filename, t.position⟩ ∈ (parseSource source filename).errors ↔
      maxInteger < Decimal.value t.literal := by
  rw [errors_parseSource]
  refine (mem_errors_keep (by simp) none (.ofSource source filename) _).trans ⟨?_, ?_⟩
  · intro refused
    rcases List.mem_append.mp refused with refused | refused
    · exact tooGreat_of_mem_turns refused
    · unfold Ending.turns at refused
      split at refused
      · simp at refused
      · simp at refused
  · intro great
    rcases judged with ⟨_, small⟩ | ⟨_, _, refused⟩ | ⟨long, _⟩
    · omega
    · exact List.mem_append_left _ refused
    · omega

/-- A source is parsed if all its numerals can be converted. -/
theorem returns_of_short (short : Short (Cursor.ofSource source).items) :
    ∃ statements, (parseSource source filename).outcome = .ok statements := by
  obtain ⟨read, split, judged⟩ := turnsOf_split source
  rw [returns_iff, short_iff source split judged]
  intro t member
  apply short t
  rw [split]
  exact List.mem_append_left _ member

/-- Without bad names, all numerals of a source are read. -/
theorem returns_iff_short
    (noBadName : ∀ literal position, .badName literal position ∉ (Cursor.ofSource source).items) :
    (∃ statements, (parseSource source filename).outcome = .ok statements) ↔
      Short (Cursor.ofSource source).items := by
  refine ⟨fun returns => ?_, returns_of_short source filename⟩
  obtain ⟨read, split, judged⟩ := turnsOf_split source
  have goesOn := (returns_iff source filename).mp returns
  have short := (short_iff source split judged).mp goesOn
  rw [endOfSource_of_returns source goesOn noBadName] at split
  rw [split, Ending.unread, List.append_nil]
  exact short

/-- No numeral is longer than its source. -/
theorem short_of_length (length : source.length ≤ Decimal.maxDigits) :
    Short (Cursor.ofSource source).items := by
  intro t member _
  have inSource := (Cursor.ofSource source).length_consumed_le member
  have readable : (readable source).length ≤ source.length :=
    (List.takeWhile_prefix _).length_le
  rw [rest_ofSource] at inSource
  exact inSource.trans (readable.trans length)

end MonkeySyntax.Parser
