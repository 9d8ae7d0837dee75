import Mathlib
import MonkeySyntax.Proofs.Grammar.Tokens
import MonkeySyntax.Proofs.Parsing.Recovery

/-!
# The tokens of a parsed program

Every node of a program has a token of the source that fits it. The tokens of a program stand in the
source as in the tree, one behind another, and an expression statement has the token that it begins
with (`parseSource_faithful`), whatever errors lie between the statements.
-/

namespace MonkeySyntax

open Grammar Node

namespace Parser

variable {finish : Position}

/-! ### One turn -/

theorem Taken.passes {segment left : List Item} {node : Node}
    (taken : Taken finish segment (.statement node) left) :
    Passes node.sourceTokens (segment ++ left) left := by
  cases taken with
  | statement yields =>
    obtain ⟨closed, derived⟩ := derived_of_statement yields
    exact derived.passes

theorem Taken.keeps {items segment left : List Item} {node : Node}
    (taken : Taken finish segment (.statement node) left)
    (within : Within items (segment ++ left)) : All (Keeps items) node := by
  cases taken with
  | statement yields =>
    obtain ⟨closed, derived⟩ := derived_of_statement yields
    exact derived.keeps within

/-! ### All turns -/

namespace Course

variable {items start : List Item} {segments : List (List Item × Turn)} {ending : Ending}

theorem passes (course : Course finish start segments ending) :
    Passes (sourceTokensEach ((segments.map Prod.snd).filterMap Turn.statement?)) start [] := by
  induction course with
  | endOfSource => exact .nothing List.suffix_rfl
  | badName => exact .nothing List.nil_suffix
  | @turn _ _ turn _ _ taken _ ih =>
    rw [List.map_cons]
    cases turn with
    | statement node =>
      show Passes (sourceTokensEach (node :: _)) _ []
      rw [sourceTokensEach]
      exact taken.passes.append ih
    | problem =>
      -- Nothing is kept of what an error has read.
      exact (Passes.nothing (List.suffix_append ..)).append ih

theorem keeps (course : Course finish start segments ending) (within : Within items start) :
    ∀ node ∈ (segments.map Prod.snd).filterMap Turn.statement?, All (Keeps items) node := by
  intro node member
  obtain ⟨turn, isTurn, isStatement⟩ := List.mem_filterMap.mp member
  obtain ⟨⟨segment, _⟩, isSegment, rfl⟩ := List.mem_map.mp isTurn
  obtain ⟨left, taken, suffix⟩ := course.taken_within isSegment
  have here : Within items (segment ++ left) :=
    { within with suffix := suffix.trans within.suffix }
  cases taken with
  | problem => contradiction
  | statement yields =>
    cases isStatement
    exact (Taken.statement yields).keeps here

end Course

/-- What the tokens of a program tell of its source. -/
structure Faithful (source : Text) (program : Node) : Prop where
  /-- A node below the program has a token of the source, which fits it. -/
  tokens (depth : Nat) (node : Node) : (depth, node) ∈ program.preorder → 0 < depth →
    ∃ t, node.token? = some t ∧ Meets source (.token t) ∧ node.FitsToken
  /-- In the order of the source, every token stands behind the one before. -/
  rising : program.sourceTokens.Pairwise fun a b => a.position < b.position
  /-- An expression statement has the token that it begins with. -/
  begins (depth : Nat) (t : Token) (expression : Node) :
    (depth, .expressionStatement t expression) ∈ program.preorder →
      BeginsStatement (Cursor.ofSource source).items t expression

theorem within_ofSource (source : Text) :
    Within (Cursor.ofSource source).items (Cursor.ofSource source).items where
  suffix := List.suffix_rfl
  spelled _ member := spelled_items member
  rising := Cursor.pairwise_items _

/-- Whatever a source is parsed to, its tokens tell where each node comes from. -/
theorem parseSource_faithful {source filename : Text} {statements : List Node}
    (returns : (parseSource source filename).outcome = .ok statements) :
    Faithful source (.program statements) := by
  have goesOn := (returns_iff source filename).mp ⟨statements, returns⟩
  obtain ⟨segments, kept⟩ := exists_noted source filename goesOn
  have nodes : statements = (segments.map Prod.snd).filterMap Turn.statement? := by
    have same := Except.ok.inj (returns.symm.trans kept.outcome)
    rw [same, noted, List.filterMap_append, statements_unmet, List.append_nil, kept.turns]
  have keeps : ∀ depth node, (depth, node) ∈ (Node.program statements).preorder →
      depth = 0 ∧ node = .program statements ∨ Keeps (Cursor.ofSource source).items node := by
    intro depth node member
    rw [preorder, preorderFrom_eq] at member
    rcases List.mem_cons.mp member with root | member
    · cases root
      exact .inl ⟨rfl, rfl⟩
    · obtain ⟨statement, isStatement, member⟩ := List.mem_flatMap.mp member
      have all := kept.course.keeps (within_ofSource source) statement (nodes ▸ isStatement)
      exact .inr (all.of_mem_preorderFrom member)
  constructor
  · intro depth node member below
    obtain ⟨rfl, _⟩ | ⟨⟨t, own, read⟩, fits, _⟩ := keeps depth node member
    · contradiction
    · exact ⟨t, own, meets_of_mem_stream (List.mem_append_left _ read), fits⟩
  · have passes := kept.course.passes.sublist
    rw [← nodes] at passes
    have rising := (Cursor.ofSource source).pairwise_items.sublist passes
    rw [List.pairwise_map] at rising
    exact rising
  · intro depth t expression member
    obtain ⟨_, root⟩ | keeps := keeps depth _ member
    · contradiction
    · exact keeps.begins t expression rfl

/-- Behind an error stands a statement that begins with a parenthesis, which no node but the statement
keeps. -/
theorem faithful_behind_error :
    (parseSource ") (a) - b;".toList Lexer.defaultFilename).errors =
        [⟨.noOperand [')'], Lexer.defaultFilename, ⟨1, 1⟩⟩] ∧
      Faithful ") (a) - b;".toList (.program [.expressionStatement ⟨.lparen, ['('], ⟨1, 3⟩⟩
        (.binary ⟨.minus, ['-'], ⟨1, 7⟩⟩ (.identifier ⟨.ident, ['a'], ⟨1, 4⟩⟩ ['a']) ['-']
          (.identifier ⟨.ident, ['b'], ⟨1, 9⟩⟩ ['b']))]) := by
  refine ⟨by cbv, ?_⟩
  exact @parseSource_faithful _ Lexer.defaultFilename _ (by cbv)

end Parser

end MonkeySyntax
