import Mathlib
import MonkeySyntax.Proofs.Lexing.Joined
import MonkeySyntax.Proofs.Parsing.Acceptance
import MonkeySyntax.Proofs.Parsing.Elsewhere

/-!
# Sources one behind another

Behind a source without errors that a semicolon ends, another source is parsed as if it stood alone
(`parseSource_joined`). The parser looks one item beyond a statement only if no semicolon ends it,
and the last token of an expression is none.
-/

namespace MonkeySyntax

namespace Grammar

variable {dialect : Dialect} {start rest : List Item} {node : Node}

/-- The last token that is read is no semicolon. -/
def EndsOpen (start rest : List Item) : Prop :=
  ∃ last : Token, Spans start (.token last :: rest) ∧ last.kind ≠ .semicolon

theorem EndsOpen.behind {mid : List Item} (spans : Spans start mid) :
    EndsOpen mid rest → EndsOpen start rest
  | ⟨last, behind, other⟩ => ⟨last, spans.trans behind, other⟩

theorem Block.endsOpen (h : Block dialect start node rest) : EndsOpen start rest := by
  cases h with
  | braces _ body closes => exact ⟨_, .trans .token body.spans, by rw [closes]; decide⟩

theorem Primary.endsOpen (h : Primary dialect start node rest) : EndsOpen start rest := by
  cases h with
  | identifier kind | integer kind | true kind | false kind =>
    exact ⟨_, .refl, by rw [kind]; decide⟩
  | group _ inner closes => exact ⟨_, .trans .token inner.spans, by rw [closes]; decide⟩
  | conditional _ _ condition _ consequence =>
    have inner := condition.spans.trans .token
    exact consequence.endsOpen.behind (.trans .token (.trans .token inner))
  | conditionalElse _ _ condition _ consequence _ alternative =>
    have inner := (condition.spans.trans .token).trans (consequence.spans.trans .token)
    exact alternative.endsOpen.behind (.trans .token (.trans .token inner))
  | function _ _ names _ body =>
    have inner := names.spans.trans .token
    exact body.endsOpen.behind (.trans .token (.trans .token inner))

theorem Applied.endsOpen (h : Applied dialect start node rest) : EndsOpen start rest := by
  cases h with
  | primary inner => exact inner.endsOpen
  | call callee _ values closes =>
    exact ⟨_, callee.spans.trans (.trans .token values.spans), by rw [closes]; decide⟩

mutual

theorem Expression.endsOpen {start rest : List Item} {tree : Node} :
    Expression dialect start tree rest → EndsOpen start rest
  | .chain first links _ => by
    rcases links.endsOpen with rfl | more
    · exact first.endsOpen
    · exact more.behind first.spans

theorem Links.endsOpen {start rest : List Item} {links : List Link} :
    Links dialect start links rest → start = rest ∨ EndsOpen start rest
  | .nil => .inl rfl
  | .cons _ operand tail => by
    rcases tail.endsOpen with rfl | more
    · exact .inr (operand.endsOpen.behind .token)
    · exact .inr (more.behind (.trans .token operand.spans))

theorem Operand.endsOpen {start rest : List Item} {node : Node} :
    Operand dialect start node rest → EndsOpen start rest
  | .unary _ inner => inner.endsOpen.behind .token
  | .applied inner => inner.endsOpen

end

end Grammar

namespace Parser

open Grammar Reply

variable {finish : Position} {more : List Item}

/-- The same place, with more items behind. -/
def ahead (more : List Item) (finish : Position) : Elsewhere := ⟨id, more, finish⟩

@[simp] theorem items_ahead (items : List Item) : (ahead more finish).items items = items ++ more := by
  have same : Item.moved id = id := by
    funext item
    cases item <;> rfl
  rw [Elsewhere.items, ahead, same, List.map_id]

@[simp] theorem node_ahead (node : Node) : (ahead more finish).node node = node := node.moved_id

variable {left : List Item} {node : Node} (more) (there : Position)

theorem expression_ahead {power : Precedence} {items : List Item}
    (yields : (expression finish power items).Yields node left) (some : left ≠ []) :
    (expression there power (items ++ more)).Yields node (left ++ more) := by
  have carries : Carries (ahead more there) finish (ahead more there).node
      (expression finish power items) (expression there power ((ahead more there).items items)) :=
    carries_expression power items
  have again := carries.yields (.inr some) yields
  rwa [items_ahead, items_ahead, node_ahead] at again

/-- A statement that leaves something is the same with more behind. -/
theorem statement_ahead {t : Token} {rest : List Item}
    (yields : (statement finish t rest).Yields node left) (some : left ≠ []) :
    (statement there t (rest ++ more)).Yields node (left ++ more) := by
  have carries : Carries (ahead more there) finish (ahead more there).node
      (statement finish t rest) (statement there t ((ahead more there).items rest)) := by
    have token : (ahead more there).token t = t := rfl
    rw [← token]
    exact carries_statement t rest
  have again := carries.yields (.inr some) yields
  rwa [items_ahead, items_ahead, node_ahead] at again

/-- A statement that leaves nothing is the same with more behind if a semicolon ends it. -/
theorem statement_closed {t semicolon : Token} {rest : List Item}
    (yields : (statement finish t rest).Yields node [])
    (last : (Item.token t :: rest).getLast? = some (.token semicolon))
    (closes : semicolon.kind = .semicolon) :
    (statement there t (rest ++ more)).Yields node more := by
  by_cases isLet : t.kind = .letKeyword
  · obtain ⟨name, assign, after, value, ends, rfl, isName, isAssign, inner, isEnd, rfl⟩ :=
      (yields_letStatement isLet).mp yields
    have again := expression_ahead more there inner (by simp)
    exact (yields_letStatement isLet).mpr
      ⟨name, assign, _, value, ends, rfl, isName, isAssign, again, isEnd, rfl⟩
  · by_cases isReturn : t.kind = .returnKeyword
    · obtain ⟨value, ends, inner, isEnd, rfl⟩ := (yields_returnStatement isReturn).mp yields
      have again := expression_ahead more there inner (by simp)
      exact (yields_returnStatement isReturn).mpr ⟨value, ends, again, isEnd, rfl⟩
    · obtain ⟨value, mid, inner, rfl, ⟨ends, rfl, isEnd⟩ | ⟨rfl, _⟩⟩ :=
        (yields_expressionStatement isLet isReturn).mp yields
      · have again := expression_ahead more there inner (by simp)
        exact (yields_expressionStatement isLet isReturn).mpr
          ⟨value, _, again, rfl, .inl ⟨ends, rfl, isEnd⟩⟩
      · -- The last token would be that of an expression.
        have derived := ((sound finish _).expression (Nat.lt_succ_self _) inner).expression
        obtain ⟨found, ⟨tokens, split⟩, other⟩ := derived.endsOpen
        rw [split, List.getLast?_concat] at last
        cases last
        exact absurd closes other

/-- Turns that are all statements are the same with more behind if a semicolon ends the last. -/
theorem turns_append {items : List Item} {nodes : List Node} {semicolon : Token}
    (all : turns finish items = (nodes.map .statement, .endOfSource))
    (last : items.getLast? = some (.token semicolon)) (closes : semicolon.kind = .semicolon) :
    turns there (items ++ more) =
      (nodes.map .statement ++ (turns there more).1, (turns there more).2) := by
  fun_induction turns finish items generalizing nodes with
  | case1 => contradiction
  | case2 | case5 => simp at all
  | case4 => cases nodes <;> simp at all
  | case3 t rest node left suffix eq ih =>
    cases nodes with
    | nil => simp at all
    | cons first nodes =>
      obtain ⟨isFirst, isEnd⟩ := Prod.ext_iff.mp all
      obtain ⟨same, isTail⟩ := List.cons.inj isFirst
      obtain rfl := Turn.statement.inj same
      have tail : turns finish left = (nodes.map .statement, .endOfSource) := Prod.ext isTail isEnd
      show turns there (.token t :: (rest ++ more)) = _
      by_cases used : left = []
      · subst used
        obtain ⟨_, one⟩ := statement_closed more there ⟨suffix, eq⟩ last closes
        rw [turns_nil] at isTail
        have none : nodes.map Turn.statement = [] := isTail.symm
        rw [turns, one, List.map_cons, none]
        rfl
      · obtain ⟨_, one⟩ := statement_ahead more there ⟨suffix, eq⟩ used
        have lastLeft : left.getLast? = some (.token semicolon) := by
          obtain ⟨inner, whole⟩ := suffix.trans (List.suffix_cons (.token t) rest)
          rwa [← whole, List.getLast?_append_of_ne_nil _ used] at last
        rw [turns, one]
        dsimp only
        rw [ih tail lastLeft]
        rfl

/-! ### Two sources -/

/-- A source behind another. -/
def joined (first second : Text) : Elsewhere where
  move := Position.behind first
  more := []
  finish := (Cursor.ofSource (first ++ second)).finish.position

variable {filename : Text} {before gap : Text} {statements : List Node}

/-- Behind another source, a source takes the turns that it takes alone. -/
theorem turns_joined {first : Text} (noNul : '\x00' ∉ first) (second : Text) :
    turns (Cursor.ofSource (first ++ second)).finish.position
        ((joined first second).items (Cursor.ofSource second).items) =
      ((turnsOf second).1.map (joined first second).turn,
        (joined first second).ending (turnsOf second).2) := by
  by_cases none : readable second = []
  · -- Nothing is left to read, and it does not matter where the source ends.
    have nothing : (Cursor.ofSource second).items = [] := by
      apply Cursor.items_eq_nil
      rw [Cursor.rest_skipLayout, rest_ofSource, none]
      rfl
    rw [turnsOf, nothing, show (joined first second).items [] = [] from rfl, turns_nil, turns_nil]
    rfl
  · have ends : (joined first second).Ends (Cursor.ofSource second).finish.position := by
      have moved := (Cursor.follows_ofSource noNul second).finish none
      rw [Cursor.finish_pass] at moved
      exact ⟨rfl, moved⟩
    exact turns_of_ends ends (Cursor.ofSource second).items

/-- A source and another behind it: their items and turns are one behind the other. -/
structure Joins (first second : Text) (statements : List Node) : Prop where
  alone : turnsOf first = (statements.map .statement, .endOfSource)
  items : (Cursor.ofSource (first ++ second)).items =
    (Cursor.ofSource first).items ++ (joined first second).items (Cursor.ofSource second).items
  turns : turnsOf (first ++ second) =
    (statements.map .statement ++ (turnsOf second).1.map (joined first second).turn,
      (joined first second).ending (turnsOf second).2)

theorem joins_of_semicolon (noNul : '\x00' ∉ before ++ ';' :: gap)
    (layout : ∀ c ∈ gap, isLayout c) (second : Text)
    (alone : turnsOf (before ++ ';' :: gap) = (statements.map .statement, .endOfSource)) :
    Joins (before ++ ';' :: gap) second statements := by
  have first := Cursor.items_joined noNul layout []
  rw [List.append_nil, show (Cursor.ofSource []).items = [] from Cursor.items_eq_nil rfl,
    List.map_nil] at first
  have last : (Cursor.ofSource (before ++ ';' :: gap)).items.getLast? =
      some (.token ⟨.semicolon, [';'], .following before⟩) := by
    rw [first, List.getLast?_concat]
  have items : (Cursor.ofSource (before ++ ';' :: gap ++ second)).items =
      (Cursor.ofSource (before ++ ';' :: gap)).items ++
        (joined (before ++ ';' :: gap) second).items (Cursor.ofSource second).items := by
    rw [Cursor.items_joined noNul layout second, first, Elsewhere.items, List.append_assoc]
    exact congrArg (_ ++ _ :: ·) (List.append_nil _).symm
  refine ⟨alone, items, ?_⟩
  rw [turnsOf, items, turns_append _ _ alone last rfl, turns_joined noNul second]

namespace Joins

variable {first second : Text}

theorem length_badNames (joins : Joins first second statements) :
    (badNames (Cursor.ofSource (first ++ second)).items).length =
      (badNames (Cursor.ofSource second).items).length := by
  have program := program_of_turns (congrArg Prod.fst joins.alone) (congrArg Prod.snd joins.alone)
  have none : badNames (Cursor.ofSource first).items = [] := by
    apply List.eq_nil_iff_forall_not_mem.mpr
    intro name member
    exact noBadName_of_program program name.1 name.2 (mem_badNames.mp member)
  rw [joins.items, badNames_append, none, List.nil_append, length_badNames_items]
  rfl

theorem noted (joins : Joins first second statements) {here there : List (List Item × Turn)}
    (kept : Noted second filename here) (keptThere : Noted (first ++ second) filename there) :
    noted (first ++ second) =
      statements.map .statement ++ (noted second).map (joined first second).turn := by
  have names : ((turnsOf (first ++ second)).1.filterMap Turn.badName?).length =
      ((turnsOf second).1.filterMap Turn.badName?).length := by
    have none : (statements.map Turn.statement).filterMap Turn.badName? = [] := by
      rw [List.filterMap_map, List.filterMap_eq_nil_iff]
      exact fun _ _ => rfl
    rw [joins.turns, List.filterMap_append, none, List.nil_append, length_names_turn]
  have unread : (badNames (turnsOf (first ++ second)).2.unread).length =
      (badNames (turnsOf second).2.unread).length := by
    rw [joins.turns, unread_ending rfl, length_badNames_items]
    rfl
  have unmet : ((turnsOf (first ++ second)).2.unmet (turnsOf (first ++ second)).1).length =
      ((turnsOf second).2.unmet (turnsOf second).1).length := by
    have count := kept.length_unmet
    have countThere := keptThere.length_unmet
    have all := joins.length_badNames
    omega
  rw [Parser.noted, unmet_eq_take, unmet, joins.turns, Parser.noted, List.map_append, map_unmet,
    List.append_assoc]

theorem outcome (joins : Joins first second statements) {others : List Node}
    (returns : (parseSource second filename).outcome = .ok others) :
    (parseSource (first ++ second) filename).outcome =
        .ok (statements ++ (joined first second).nodes others) ∧
      (parseSource (first ++ second) filename).errors =
        (parseSource second filename).errors.map (Error.moved (Position.behind first)) := by
  have goesOn := (returns_iff second filename).mp ⟨_, returns⟩
  obtain ⟨_, kept⟩ := exists_noted second filename goesOn
  have goesOnThere : ∀ numeral rest, (turnsOf (first ++ second)).2 ≠ .tooLong numeral rest := by
    intro numeral rest stops
    rw [joins.turns] at stops
    cases ending : (turnsOf second).2 with
    | tooLong found left => exact goesOn found left ending
    | endOfSource | badName => rw [ending] at stops; contradiction
  obtain ⟨_, keptThere⟩ := exists_noted (first ++ second) filename goesOnThere
  have all := joins.noted kept keptThere
  obtain rfl := Except.ok.inj (kept.outcome.symm.trans returns)
  have nodes : (statements.map Turn.statement).filterMap Turn.statement? = statements := by
    rw [List.filterMap_map]
    exact List.filterMap_some
  have none : (statements.map Turn.statement).filterMap (Turn.error? filename) = [] := by
    rw [List.filterMap_map, List.filterMap_eq_nil_iff]
    exact fun _ _ => rfl
  rw [keptThere.outcome, keptThere.errors, kept.errors, all, List.filterMap_append,
    List.filterMap_append, statements_turn, errors_turn, nodes, none]
  exact ⟨rfl, rfl⟩

end Joins

/-- A text whose last character but for layout is a semicolon. -/
theorem split_of_semicolon {text : Text}
    (ends : (text.filter fun c => !isLayout c).getLast? = some ';') :
    ∃ before gap, text = before ++ ';' :: gap ∧ ∀ c ∈ gap, isLayout c := by
  obtain ⟨visible, split⟩ := List.getLast?_eq_some_iff.mp ends
  obtain ⟨first, behind, rfl, _, last⟩ := List.filter_eq_append_iff.mp split
  obtain ⟨between, gap, rfl, _, _, none⟩ := List.filter_eq_cons_iff.mp last
  refine ⟨first ++ between, gap, (List.append_assoc ..).symm, ?_⟩
  simpa using none

/-- Behind a source without errors that a semicolon ends, another source is parsed as if it stood
alone. -/
theorem parseSource_joined {first second filename : Text} {statements others : List Node}
    (noNul : '\x00' ∉ first) (returns : (parseSource first filename).outcome = .ok statements)
    (clean : (parseSource first filename).errors = [])
    (ends : (first.filter fun c => !isLayout c).getLast? = some ';')
    (returnsSecond : (parseSource second filename).outcome = .ok others) :
    (parseSource (first ++ second) filename).outcome =
        .ok (statements ++ others.map (Node.moved (Position.behind first))) ∧
      (Node.program (statements ++ others.map (Node.moved (Position.behind first)))).same
        (.program (statements ++ others)) ∧
      (parseSource (first ++ second) filename).errors =
        (parseSource second filename).errors.map (Error.moved (Position.behind first)) := by
  obtain ⟨before, gap, rfl, layout⟩ := split_of_semicolon ends
  have alone := turnsOf_of_errors filename returns clean
  have joins := joins_of_semicolon noNul layout second alone
  obtain ⟨outcome, errors⟩ := joins.outcome returnsSecond
  rw [← Node.movedEach_eq_map]
  refine ⟨outcome, ?_, errors⟩
  rw [Node.same_iff, Node.bare, Node.bare, Node.bareEach_append, Node.bareEach_append,
    Node.bareEach_moved]

/-- Behind one statement and layout stand an error, a statement, and a bad name on the next line. -/
theorem joined_behind_statement :
    (parseSource "a;\n ".toList Lexer.defaultFilename).errors = [] ∧
      (parseSource ("a;\n ".toList ++ ") b;\n2c".toList) Lexer.defaultFilename).outcome = .ok
        ([.expressionStatement ⟨.ident, ['a'], ⟨1, 1⟩⟩ (.identifier ⟨.ident, ['a'], ⟨1, 1⟩⟩ ['a'])] ++
          [Node.expressionStatement ⟨.ident, ['b'], ⟨1, 3⟩⟩
            (.identifier ⟨.ident, ['b'], ⟨1, 3⟩⟩ ['b'])].map
              (Node.moved (Position.behind "a;\n ".toList))) ∧
      (parseSource ("a;\n ".toList ++ ") b;\n2c".toList) Lexer.defaultFilename).errors =
        [⟨.noOperand [')'], Lexer.defaultFilename, ⟨2, 2⟩⟩,
          ⟨.badName ['2', 'c'], Lexer.defaultFilename, ⟨3, 1⟩⟩] := by
  have clean : (parseSource "a;\n ".toList Lexer.defaultFilename).errors = [] := by cbv
  have second : (parseSource ") b;\n2c".toList Lexer.defaultFilename).errors =
      [⟨.noOperand [')'], Lexer.defaultFilename, ⟨1, 1⟩⟩,
        ⟨.badName ['2', 'c'], Lexer.defaultFilename, ⟨2, 1⟩⟩] := by cbv
  obtain ⟨outcome, _, errors⟩ := @parseSource_joined "a;\n ".toList ") b;\n2c".toList
    Lexer.defaultFilename _ _ (by decide) (by cbv) clean (by cbv) (by cbv)
  refine ⟨clean, outcome, ?_⟩
  rw [errors, second]
  rfl

end Parser

end MonkeySyntax
