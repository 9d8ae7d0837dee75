import Mathlib
import MonkeySyntax.Proofs.Parsing.Diagnoses

/-!
# What becomes of bad names

Each bad name that parsing reads is one error, one diagnostic line and one warning, in the order of
the source, whether a statement looked at it or not. Where text is left unread, parsing stopped
behind the digits of the last of them (`parseSource_reports`).
-/

namespace MonkeySyntax.Parser

variable {source filename : Text}

/-- The bad names of a source up to the last character that parsing it reads. -/
def namesRead (source filename : Text) : List (Text × Position) :=
  (Lexer.ofSource source filename).namesMet.filter fun name =>
    name.2 ≤ (parseSource source filename).lexer.cursor.position

/-- What parsing a source makes of its bad names. -/
structure Reports (source filename : Text) : Prop where
  /-- They are those that a reader meets which does nothing but read, bad names or not. -/
  met (literal : Text) (position : Position) : (literal, position) ∈ namesRead source filename ↔
    (∃ n, (Lexer.ofSource source filename).outcomeAfter n =
      .error ⟨.badName literal, filename, position⟩) ∧
    position ≤ (parseSource source filename).lexer.cursor.position
  /-- They stand at different places. -/
  distinct : (namesRead source filename).Pairwise fun a b => a.2 < b.2
  errors : (parseSource source filename).errors.filter (·.cause.isLexical) =
    (namesRead source filename).map fun name => ⟨.badName name.1, filename, name.2⟩
  lines : diagnostics (parseSource source filename).events =
    (namesRead source filename).flatMap fun name =>
      (Error.mk (.badName name.1) filename name.2).line
  warnings : ((parseSource source filename).events.map Event.record).filter
      (fun record => record.logger = "MonkeyLexer".toList && record.level = .warning) =
    (namesRead source filename).map fun name => (Event.badName name.1 filename name.2).record
  /-- Text is left unread only behind the digits of a bad name, which is the last error. -/
  unread : (parseSource source filename).lexer.cursor.rest ≠ [] →
    ∃ literal position before digits,
      (parseSource source filename).errors.getLast? =
        some ⟨.badName literal, filename, position⟩ ∧
      DigitsEnd (Cursor.ofSource source) before digits literal position
        (parseSource source filename).lexer.cursor

/-! ### What a turn reports -/

theorem diagnostics_turns (filename : Text) (turns : List Turn) :
    diagnostics (turns.flatMap (Turn.events filename)) =
      (turns.filterMap Turn.badName?).flatMap fun name =>
        (Error.mk (.badName name.1) filename name.2).line := by
  induction turns with
  | nil => rfl
  | cons turn turns ih =>
    rw [List.flatMap_cons, diagnostics, List.flatMap_append, ← diagnostics, ← diagnostics, ih]
    cases turn with
    | statement => rfl
    | problem cause position =>
      cases cause with
      | badName literal => exact congrArg (· ++ _) (List.append_nil _)
      | _ => rfl

theorem warnings_turns (filename : Text) (turns : List Turn) :
    ((turns.flatMap (Turn.events filename)).map Event.record).filter
        (fun record => record.logger = "MonkeyLexer".toList && record.level = .warning) =
      (turns.filterMap Turn.badName?).map fun name =>
        (Event.badName name.1 filename name.2).record := by
  induction turns with
  | nil => rfl
  | cons turn turns ih =>
    rw [List.flatMap_cons, List.map_append, List.filter_append, ih]
    cases turn with
    | statement => rfl
    | problem cause position => cases cause <;> rfl

theorem lexical_turns (filename : Text) {turns : List Turn}
    (unstated : ∀ message position, .problem (.lexical message) position ∉ turns) :
    (turns.filterMap (Turn.error? filename)).filter (·.cause.isLexical) =
      (turns.filterMap Turn.badName?).map fun name => ⟨.badName name.1, filename, name.2⟩ := by
  induction turns with
  | nil => rfl
  | cons turn turns ih =>
    have tail := ih fun message position member =>
      unstated message position (List.mem_cons_of_mem _ member)
    cases turn with
    | statement => exact tail
    | problem cause position =>
      cases cause with
      | badName literal => exact congrArg (_ :: ·) tail
      | lexical message => exact absurd List.mem_cons_self (unstated message position)
      | _ => exact tail

/-! ### Where parsing ends -/

theorem cursor_parseSource_of_endOfSource (ends : (turnsOf source).2 = .endOfSource) :
    (parseSource source filename).lexer.cursor = (Cursor.ofSource source).finish := by
  unfold turnsOf at ends
  simp only [parseSource, parse, Lexer.ofSource, ends]

theorem cursor_parseSource_of_badName {literal : Text} {position : Position} {rest : List Item}
    (ends : (turnsOf source).2 = .badName literal position rest) :
    (parseSource source filename).lexer.cursor = (Cursor.ofSource source).readMany
      ((Cursor.ofSource source).items.length - rest.length) := by
  unfold turnsOf at ends
  simp only [parseSource, parse, Lexer.ofSource, ends]

/-- What is read starts before the place where parsing ends. -/
theorem Noted.position_le {segments : List (List Item × Turn)}
    (kept : Noted source filename segments) {item : Item}
    (member : item ∈ segmentItems segments ++ (turnsOf source).2.last) :
    item.position ≤ (parseSource source filename).lexer.cursor.position := by
  have split := kept.course.split
  cases ends : (turnsOf source).2 with
  | endOfSource =>
    rw [cursor_parseSource_of_endOfSource ends]
    have isItem : item ∈ (Cursor.ofSource source).items := by
      rw [split]
      exact List.mem_append_left _ member
    exact (Cursor.position_of_mem_items isItem).2
  | tooLong numeral rest => exact absurd ends (kept.course.goesOn _ _)
  | badName literal position rest =>
    rw [cursor_parseSource_of_badName ends]
    refine Cursor.position_le_of_mem_take _ _ ?_
    rw [ends] at split member
    rw [split, List.length_append, Ending.unread, Nat.add_sub_cancel, List.take_left]
    exact member

theorem Noted.namesRead_eq {segments : List (List Item × Turn)}
    (kept : Noted source filename segments) :
    namesRead source filename = (noted source).filterMap Turn.badName? := by
  have read : ∀ name ∈ badNames (segmentItems segments ++ (turnsOf source).2.last),
      decide (name.2 ≤ (parseSource source filename).lexer.cursor.position) := by
    intro name member
    exact decide_eq_true (kept.position_le (mem_badNames.mp member))
  have left : ∀ name ∈ badNames (turnsOf source).2.unread,
      ¬ decide (name.2 ≤ (parseSource source filename).lexer.cursor.position) := by
    intro name member
    rw [decide_eq_true_eq]
    rw [← items_parseSource source filename, mem_badNames] at member
    exact (Cursor.position_of_mem_items member).1.not_ge
  rw [namesRead, Lexer.namesMet_eq, Lexer.ofSource, kept.course.split, badNames_append,
    List.filter_append, List.filter_eq_self.mpr read, List.filter_eq_nil_iff.mpr left,
    List.append_nil, kept.names]

theorem Noted.unread {segments : List (List Item × Turn)} (kept : Noted source filename segments)
    (left : (parseSource source filename).lexer.cursor.rest ≠ []) :
    ∃ literal position before digits,
      (parseSource source filename).errors.getLast? =
        some ⟨.badName literal, filename, position⟩ ∧
      DigitsEnd (Cursor.ofSource source) before digits literal position
        (parseSource source filename).lexer.cursor := by
  have split := kept.course.split
  have last := kept.last
  cases ends : (turnsOf source).2 with
  | endOfSource =>
    rw [cursor_parseSource_of_endOfSource ends, Cursor.rest_finish] at left
    contradiction
  | tooLong numeral rest => exact absurd ends (kept.course.goesOn _ _)
  | badName literal position rest =>
    rw [ends] at split last
    obtain ⟨others, all⟩ := last
    rw [Ending.last, Ending.unread, List.append_assoc] at split
    have met := Cursor.read_readMany_of_split split
    have behind : (parseSource source filename).lexer.cursor =
        ((Cursor.ofSource source).readMany (segmentItems segments).length).read.2 := by
      rw [cursor_parseSource_of_badName ends, ← Cursor.readMany_succ, split, List.length_append,
        List.singleton_append, List.length_cons, ← Nat.add_assoc, Nat.add_right_comm,
        Nat.add_sub_cancel]
    obtain ⟨m, passed⟩ := (Cursor.ofSource source).exists_readMany_eq_pass
      (segmentItems segments).length
    obtain ⟨before, digits, found⟩ := Cursor.exists_digitsEnd_read met
    rw [← behind, passed] at found
    refine ⟨literal, position, _, digits, ?_, found.of_pass⟩
    rw [kept.errors, ← all, List.filterMap_append]
    exact List.getLast?_concat ..

/-- Every bad name that is read is one error, one line and one warning, and no text is left unread
without an error. -/
theorem parseSource_reports {statements : List Node}
    (returns : (parseSource source filename).outcome = .ok statements) :
    Reports source filename := by
  have goesOn := (returns_iff source filename).mp ⟨statements, returns⟩
  obtain ⟨segments, kept⟩ := exists_noted source filename goesOn
  have names := kept.namesRead_eq
  have unstated : ∀ message position, .problem (.lexical message) position ∉ noted source := by
    intro message position member
    obtain ⟨item, _, _, isAbout⟩ := kept.isAbout member
    exact isAbout
  constructor
  · intro literal position
    rw [namesRead, List.mem_filter, Lexer.mem_namesMet, decide_eq_true_eq]
    rfl
  · rw [names, ← kept.names]
    exact kept.course.rising
  · rw [names, kept.errors, lexical_turns filename unstated]
  · rw [names, kept.events, diagnostics_turns]
  · rw [names, kept.events, warnings_turns]
  · exact kept.unread

/-- One bad name is read in a statement, one is looked at and ends parsing, and one is left. -/
theorem reports_two_of_three :
    namesRead "let a = 1b; let 2c 3d".toList Lexer.defaultFilename =
        [("1b".toList, ⟨1, 9⟩), ("2c".toList, ⟨1, 17⟩)] ∧
      Reports "let a = 1b; let 2c 3d".toList Lexer.defaultFilename := by
  have returns : (parseSource "let a = 1b; let 2c 3d".toList Lexer.defaultFilename).outcome =
      .ok [.expressionStatement ⟨.ident, ['b'], ⟨1, 10⟩⟩
        (.identifier ⟨.ident, ['b'], ⟨1, 10⟩⟩ ['b'])] := by cbv
  exact ⟨by cbv, parseSource_reports returns⟩

end MonkeySyntax.Parser
