import MonkeySyntax.Proofs.Parsing.Acceptance
import MonkeySyntax.Proofs.Trees.Characters

/-!
# Rendering and parsing

A well-formed program is parsed back from its text, and every program that parsing returns is well
formed, with errors or without.
-/

namespace MonkeySyntax.Parser

open Grammar Node

theorem parseSource_rendered {nodes : List Node} (each : ∀ node ∈ nodes, IsStatement node)
    (filename : Text) :
    ∃ again, (parseSource (Node.program nodes).render filename).outcome = .ok again ∧
      (parseSource (Node.program nodes).render filename).errors = [] ∧
        (Node.program again).same (.program nodes) := by
  have noNul : NoNul (Node.program nodes).render := by
    rw [render]
    exact noNul_statements fun node member => noNul_of_isStatement (each node member)
  obtain ⟨again, program, same⟩ := program_of_rendered each _ (lexed_ofSource noNul)
  obtain ⟨returns, clean⟩ := parseSource_of_program filename program
  refine ⟨again, returns, clean, (same_iff _ _).mpr ?_⟩
  rw [bare, bare, same]

/-- A well-formed program is parsed back from its text, so no other has the same text. -/
theorem parseSource_render {tree : Node} (wellFormed : tree.IsProgram) (filename : Text) :
    (∃ nodes, (parseSource tree.render filename).outcome = .ok nodes) ∧
      (parseSource tree.render filename).errors = [] ∧
      (parseSource tree.render filename).program.same tree ∧
      ∀ other : Node, other.IsProgram → other.render = tree.render → other.same tree := by
  obtain ⟨each⟩ := wellFormed
  obtain ⟨again, returns, clean, same⟩ := parseSource_rendered each filename
  refine ⟨⟨again, returns⟩, clean, by rwa [program_of_outcome returns], ?_⟩
  rintro _ ⟨others⟩ text
  obtain ⟨found, returnsOther, _, sameOther⟩ := parseSource_rendered others filename
  rw [text, returns] at returnsOther
  rw [← Except.ok.inj returnsOther] at sameOther
  rw [same_iff] at same sameOther ⊢
  exact sameOther.symm.trans same

/-- A numeral may be called, and a token may say what it likes. -/
theorem parseSource_render_call :
    let t : Token := ⟨.illegal, "let".toList, {}⟩
    let tree : Node := .program [.expressionStatement t (.call t (.integer t 5)
      [.unary t ['!'] (.conditional t (.boolean t true) (.block t []) none)])]
    tree.IsProgram ∧ (parseSource tree.render Lexer.defaultFilename).errors = [] ∧
      (parseSource tree.render Lexer.defaultFilename).program.same tree := by
  intro t tree
  have isBlock : IsBlock (.block t []) := .braces (by simp)
  have isUnary :
      IsExpression (.unary t ['!'] (.conditional t (.boolean t true) (.block t []) none)) :=
    @IsExpression.unary t .bang _ _ rfl rfl (.conditional .boolean isBlock)
  have wellFormed : tree.IsProgram := by
    refine .statements (List.forall_mem_singleton.mpr (.expression (.call ?_ ?_)))
    · exact .integer (by decide) (by decide)
    · exact List.forall_mem_singleton.mpr isUnary
  have parsed := parseSource_render wellFormed Lexer.defaultFilename
  exact ⟨wellFormed, parsed.2.1, parsed.2.2.1⟩

/-- Whatever survives of a source is well formed. -/
theorem isStatement_of_returns {source filename : Text} {nodes : List Node}
    (returns : (parseSource source filename).outcome = .ok nodes) :
    ∀ node ∈ nodes, IsStatement node := by
  have goesOn := (returns_iff source filename).mp ⟨nodes, returns⟩
  rw [outcome_parseSource source filename goesOn] at returns
  obtain rfl := Except.ok.inj returns
  intro node member
  have turn := mem_statements_keep _ _ _ member
  rcases List.mem_append.mp turn with turn | turn
  · obtain ⟨t, inner, rest, suffix, yields⟩ := yields_of_mem_turns turn
    obtain ⟨closed, derived⟩ := derived_of_statement yields
    exact isStatement_of_statement derived fun u listed => spelled_items (suffix.subset listed)
  · cases ends : (turnsOf source).2 <;> simp [ends, Ending.turns] at turn

/-- The text of any program that was parsed is parsed without errors as the same program, and
rendered as the same text. -/
theorem parseSource_render_parseSource {source filename : Text}
    (returns : ∃ nodes, (parseSource source filename).outcome = .ok nodes) (name : Text) :
    let program := (parseSource source filename).program
    let again := parseSource program.render name
    (∃ nodes, again.outcome = .ok nodes) ∧ again.errors = [] ∧ again.program.same program ∧
      again.program.render = program.render := by
  obtain ⟨nodes, returns⟩ := returns
  have each := isStatement_of_returns returns
  intro program again
  have isProgram : program = .program nodes := program_of_outcome returns
  obtain ⟨found, returnsAgain, clean, same⟩ := parseSource_rendered each name
  rw [← isProgram] at returnsAgain clean same
  rw [← program_of_outcome returnsAgain] at same
  exact ⟨⟨found, returnsAgain⟩, clean, same, render_eq_of_same same⟩

/-- Two statements survive of a source with two errors. -/
theorem parseSource_render_of_errors :
    let program := (parseSource "let = 1; -a".toList Lexer.defaultFilename).program
    let again := parseSource program.render Lexer.defaultFilename
    (∃ nodes, again.outcome = .ok nodes) ∧ again.errors = [] ∧ again.program.same program ∧
      again.program.render = program.render := by
  have returns : (parseSource "let = 1; -a".toList Lexer.defaultFilename).outcome = .ok
      [.expressionStatement ⟨.int, ['1'], ⟨1, 7⟩⟩ (.integer ⟨.int, ['1'], ⟨1, 7⟩⟩ 1),
        .expressionStatement ⟨.minus, ['-'], ⟨1, 10⟩⟩ (.unary ⟨.minus, ['-'], ⟨1, 10⟩⟩ ['-']
          (.identifier ⟨.ident, ['a'], ⟨1, 11⟩⟩ ['a']))] := by cbv
  exact parseSource_render_parseSource ⟨_, returns⟩ Lexer.defaultFilename

end MonkeySyntax.Parser
