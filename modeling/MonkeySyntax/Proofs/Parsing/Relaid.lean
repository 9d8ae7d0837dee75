import Mathlib
import MonkeySyntax.Proofs.Lexing.Words
import MonkeySyntax.Proofs.Parsing.Elsewhere

/-!
# Sources laid out anew

Sources with the same words are parsed alike: the programs are the same, and so are the errors but
for their places (`parseSource_relaid`). A bad name that was only looked at is dropped where parsing
ends because of its place; whether there is one can be counted, and so does not depend on places.
-/

namespace MonkeySyntax

/-- The error wherever it stands. -/
def Error.unplaced (e : Error) : Error := e.moved fun _ => {}

namespace Parser

/-- Where all places are one. -/
def nowhere : Elsewhere := ⟨fun _ => {}, [], {}⟩

variable {source other filename : Text}

theorem items_nowhere (same : words source = words other) :
    nowhere.items (Cursor.ofSource source).items = nowhere.items (Cursor.ofSource other).items := by
  have items : (Cursor.ofSource source).items.map (Item.moved fun _ => {}) =
      (Cursor.ofSource other).items.map (Item.moved fun _ => {}) :=
    Cursor.items_of_words (words_readable_of_words same)
  exact congrArg (· ++ []) items

theorem turns_nowhere (source : Text) :
    turns {} (nowhere.items (Cursor.ofSource source).items) =
      ((turnsOf source).1.map nowhere.turn, nowhere.ending (turnsOf source).2) := by
  have ends : nowhere.Ends (Cursor.ofSource source).finish.position := ⟨rfl, rfl⟩
  exact turns_of_ends ends _

theorem turnsOf_of_words (same : words source = words other) :
    (turnsOf source).1.map nowhere.turn = (turnsOf other).1.map nowhere.turn ∧
      nowhere.ending (turnsOf source).2 = nowhere.ending (turnsOf other).2 := by
  have here := turns_nowhere source
  rw [items_nowhere same, turns_nowhere other] at here
  exact (Prod.ext_iff.mp here).imp Eq.symm Eq.symm

theorem goesOn_of_words (same : words source = words other)
    (goesOn : ∀ numeral rest, (turnsOf source).2 ≠ .tooLong numeral rest)
    (numeral : Decimal.TooLong) (rest : List Item) : (turnsOf other).2 ≠ .tooLong numeral rest := by
  intro stops
  have ending := (turnsOf_of_words same).2
  rw [stops] at ending
  cases here : (turnsOf source).2 with
  | tooLong found left => exact goesOn found left here
  | endOfSource | badName =>
    rw [here] at ending
    contradiction

theorem unread_of_words (same : words source = words other) :
    nowhere.items (turnsOf source).2.unread = nowhere.items (turnsOf other).2.unread := by
  rw [← unread_ending rfl, ← unread_ending rfl, (turnsOf_of_words same).2]

theorem noted_of_words {here there : List (List Item × Turn)} (same : words source = words other)
    (kept : Noted source filename here) (keptThere : Noted other filename there) :
    (noted source).map nowhere.turn = (noted other).map nowhere.turn := by
  obtain ⟨turns, ending⟩ := turnsOf_of_words same
  have names : ((turnsOf source).1.filterMap Turn.badName?).length =
      ((turnsOf other).1.filterMap Turn.badName?).length := by
    calc ((turnsOf source).1.filterMap Turn.badName?).length
        = (((turnsOf source).1.map nowhere.turn).filterMap Turn.badName?).length :=
          (length_names_turn _).symm
      _ = (((turnsOf other).1.map nowhere.turn).filterMap Turn.badName?).length := by rw [turns]
      _ = ((turnsOf other).1.filterMap Turn.badName?).length := length_names_turn _
  have items : (badNames (Cursor.ofSource source).items).length =
      (badNames (Cursor.ofSource other).items).length := by
    have moved := congrArg (List.length ∘ badNames) (items_nowhere same)
    simpa only [Function.comp_apply, length_badNames_items, Nat.add_right_cancel_iff] using moved
  have unread : (badNames (turnsOf source).2.unread).length =
      (badNames (turnsOf other).2.unread).length := by
    have moved := congrArg (List.length ∘ badNames) (unread_of_words same)
    simpa only [Function.comp_apply, length_badNames_items, Nat.add_right_cancel_iff] using moved
  have unmet : ((turnsOf source).2.unmet (turnsOf source).1).length =
      ((turnsOf other).2.unmet (turnsOf other).1).length := by
    have count := kept.length_unmet
    have countThere := keptThere.length_unmet
    omega
  rw [noted, noted, List.map_append, List.map_append, turns, map_unmet, map_unmet, ending, unmet]

/-- Sources with the same words are parsed alike. -/
theorem parseSource_relaid {statements : List Node} (same : words source = words other)
    (returns : (parseSource source filename).outcome = .ok statements) :
    ∃ others, (parseSource other filename).outcome = .ok others ∧
      (Node.program others).same (.program statements) ∧
      (parseSource other filename).errors.map Error.unplaced =
        (parseSource source filename).errors.map Error.unplaced := by
  have goesOn := (returns_iff source filename).mp ⟨_, returns⟩
  obtain ⟨_, here⟩ := exists_noted source filename goesOn
  obtain ⟨_, there⟩ := exists_noted other filename (goesOn_of_words same goesOn)
  have alike := noted_of_words same here there
  refine ⟨_, there.outcome, ?_, ?_⟩
  · obtain rfl := Except.ok.inj (here.outcome.symm.trans returns)
    have nodes := congrArg (List.filterMap Turn.statement?) alike
    rw [statements_turn, statements_turn] at nodes
    have bare := congrArg Node.bareEach nodes
    rw [Elsewhere.nodes, Elsewhere.nodes, Node.bareEach_moved, Node.bareEach_moved] at bare
    rw [Node.same_iff, Node.bare, Node.bare, bare]
  · have errors := congrArg (List.filterMap (Turn.error? filename)) alike
    rw [errors_turn, errors_turn, ← here.errors, ← there.errors] at errors
    exact errors.symm

/-- Layout is added and removed around two statements, an error and a bad name that is only looked
at. -/
theorem relaid_around_badName :
    words "a; let 7 b 1c".toList = words "\n\ta;\r\nlet  7\n\nb 1c ".toList ∧
      ∃ others, (parseSource "\n\ta;\r\nlet  7\n\nb 1c ".toList Lexer.defaultFilename).outcome =
          .ok others ∧
        (Node.program others).same (.program [
          .expressionStatement ⟨.ident, ['a'], ⟨1, 1⟩⟩ (.identifier ⟨.ident, ['a'], ⟨1, 1⟩⟩ ['a']),
          .expressionStatement ⟨.int, ['7'], ⟨1, 8⟩⟩ (.integer ⟨.int, ['7'], ⟨1, 8⟩⟩ 7)]) ∧
        (parseSource "\n\ta;\r\nlet  7\n\nb 1c ".toList Lexer.defaultFilename).errors.map
            Error.unplaced =
          (parseSource "a; let 7 b 1c".toList Lexer.defaultFilename).errors.map Error.unplaced := by
  have same : words "a; let 7 b 1c".toList = words "\n\ta;\r\nlet  7\n\nb 1c ".toList := by cbv
  exact ⟨same, parseSource_relaid same (by cbv)⟩

end Parser

end MonkeySyntax
