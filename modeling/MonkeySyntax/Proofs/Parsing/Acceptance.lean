import Mathlib
import MonkeySyntax.Proofs.Parsing.Completeness
import MonkeySyntax.Proofs.Parsing.Outcome
import MonkeySyntax.Proofs.Parsing.Soundness

/-!
# Sources without errors

Parsing a source records no error exactly if the grammar derives its items, and it returns the tree
of such a derivation. That a statement takes up all it can loses nothing, because two statements
that could be one join into one.
-/

namespace MonkeySyntax.Parser

open Grammar

theorem keep_statements (last : Option Error) (lexer : Lexer) (nodes : List Node) :
    keep last lexer (nodes.map .statement) = ⟨nodes, [], [], lexer⟩ := by
  induction nodes with
  | nil => rfl
  | cons node nodes ih => rw [List.map_cons, keep, ih]

theorem statements_of_keep {lexer : Lexer} {turns : List Turn}
    (clean : (keep none lexer turns).errors = []) :
    ∃ nodes : List Node, turns = nodes.map .statement := by
  induction turns with
  | nil => exact ⟨[], rfl⟩
  | cons turn turns ih =>
    cases turn with
    | statement node =>
      obtain ⟨nodes, rfl⟩ := ih clean
      exact ⟨node :: nodes, rfl⟩
    | problem cause position =>
      obtain ⟨after, _, errors⟩ := keep_problem none lexer cause position turns
      rw [errors, if_neg (by simp [repeats])] at clean
      contradiction

section

variable {source : Text} (filename : Text) {nodes : List Node}

/-- Without errors, every turn is a statement and nothing is left. -/
theorem turnsOf_of_errors (returns : (parseSource source filename).outcome = .ok nodes)
    (clean : (parseSource source filename).errors = []) :
    turnsOf source = (nodes.map .statement, .endOfSource) := by
  have goesOn := (returns_iff source filename).mp ⟨nodes, returns⟩
  rw [errors_parseSource] at clean
  obtain ⟨kept, all⟩ := statements_of_keep clean
  have ends : (turnsOf source).2 = .endOfSource := by
    cases ends : (turnsOf source).2 with
    | endOfSource => rfl
    | tooLong numeral rest => exact absurd ends (goesOn _ _)
    | badName literal position rest =>
      have problem : .problem (.badName literal) position ∈ kept.map Turn.statement := by
        rw [← all, ends]
        exact List.mem_append_right _ List.mem_cons_self
      simp at problem
  rw [outcome_parseSource source filename goesOn, all, keep_statements] at returns
  obtain rfl := Except.ok.inj returns
  rw [ends] at all
  exact Prod.ext ((List.append_nil _).symm.trans all) ends

theorem program_of_errors (returns : (parseSource source filename).outcome = .ok nodes)
    (clean : (parseSource source filename).errors = []) :
    Program .plain (Cursor.ofSource source).items nodes := by
  have all := turnsOf_of_errors filename returns clean
  exact program_of_turns (congrArg Prod.fst all) (congrArg Prod.snd all)

/-- Where every turn is a statement, these are the program and nothing else happens. -/
theorem parseSource_of_turns (all : turnsOf source = (nodes.map .statement, .endOfSource)) :
    (parseSource source filename).outcome = .ok nodes ∧
      (parseSource source filename).errors = [] ∧ (parseSource source filename).events = [] := by
  have goesOn : ∀ numeral rest, (turnsOf source).2 ≠ .tooLong numeral rest := by simp [all]
  have kept : (turnsOf source).1 ++ (turnsOf source).2.turns = nodes.map .statement := by
    rw [all]
    exact List.append_nil _
  rw [outcome_parseSource source filename goesOn, errors_parseSource, events_parseSource, kept,
    keep_statements]
  exact ⟨rfl, rfl, rfl⟩

theorem parseSource_of_program (program : Program .greedy (Cursor.ofSource source).items nodes) :
    (parseSource source filename).outcome = .ok nodes ∧
      (parseSource source filename).errors = [] := by
  have all : turnsOf source = (nodes.map .statement, .endOfSource) := turns_of_program program
  obtain ⟨returns, clean, _⟩ := parseSource_of_turns filename all
  exact ⟨returns, clean⟩

theorem noBadName_of_program {dialect : Dialect} {items : List Item}
    (program : Program dialect items nodes) (literal : Text) (position : Position) :
    .badName literal position ∉ items := by
  obtain ⟨tokens, rfl⟩ := program.spans
  simp

/-- A parsed source has no errors exactly if it is derived, and then its program is that of a
derivation. -/
theorem errors_eq_nil_iff_program {statements : List Node}
    (returns : (parseSource source filename).outcome = .ok statements) :
    ((parseSource source filename).errors = [] ↔
        ∃ nodes, Program .plain (Cursor.ofSource source).items nodes) ∧
      ((parseSource source filename).errors = [] →
        Program .plain (Cursor.ofSource source).items statements) := by
  have sound := program_of_errors filename returns
  refine ⟨⟨fun clean => ⟨statements, sound clean⟩, ?_⟩, sound⟩
  rintro ⟨nodes, program⟩
  have short := (returns_iff_short source filename (noBadName_of_program program)).mp
    ⟨statements, returns⟩
  obtain ⟨greedy, derived⟩ := exists_greedy_program program short
  exact (parseSource_of_program filename derived).2

end

/-- A name and a group behind it could be two statements, and are one. -/
theorem program_of_name_and_group :
    Program .plain (Cursor.ofSource "a (b)".toList).items
      [.expressionStatement ⟨.ident, ['a'], ⟨1, 1⟩⟩
        (.call ⟨.lparen, ['('], ⟨1, 3⟩⟩ (.identifier ⟨.ident, ['a'], ⟨1, 1⟩⟩ ['a'])
          [.identifier ⟨.ident, ['b'], ⟨1, 4⟩⟩ ['b']])] := by
  have returns : (parseSource "a (b)".toList Lexer.defaultFilename).outcome = .ok
      [.expressionStatement ⟨.ident, ['a'], ⟨1, 1⟩⟩
        (.call ⟨.lparen, ['('], ⟨1, 3⟩⟩ (.identifier ⟨.ident, ['a'], ⟨1, 1⟩⟩ ['a'])
          [.identifier ⟨.ident, ['b'], ⟨1, 4⟩⟩ ['b']])] := by cbv
  have clean : (parseSource "a (b)".toList Lexer.defaultFilename).errors = [] := by cbv
  exact (errors_eq_nil_iff_program Lexer.defaultFilename returns).2 clean

end MonkeySyntax.Parser
