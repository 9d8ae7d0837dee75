import MonkeySyntax.Parser.Program
import MonkeySyntax.Proofs.Grammar
import MonkeySyntax.Proofs.Parsing.Yields

/-!
# What the parser yields is derived

Every successful parse of a part has a derivation in the plain grammar, with the tree that was
returned. The invariant of the operator loop is `Before`; `derived_of_statement` is the result for a
statement, and `program_of_turns` the one for a source without errors.
-/

namespace MonkeySyntax.Parser

open Grammar Reply

variable {finish : Position}

/-- A chain of operands whose operators all bind more strongly than `power`, up to a token that does
not. -/
structure Chain (power : Precedence) (start : List Item) (tree : Node)
    (rest : List Item) : Prop where
  derived : ∃ first mid links, Operand .plain start first mid ∧ Links .plain mid links rest ∧
    Groups first links tree ∧ ∀ link ∈ links, power.weaker link.1.kind.precedence
  stops : Next (fun kind => power.weaker kind.precedence = false) rest

theorem Chain.expression {power : Precedence} {start rest : List Item} {tree : Node}
    (chain : Chain power start tree rest) : Expression .plain start tree rest := by
  obtain ⟨first, mid, links, operand, linked, groups, _⟩ := chain.derived
  exact .chain operand linked groups

theorem groups_nil {first tree : Node} {links : List Link} (groups : Groups first links tree)
    (none : links = []) : tree = first := by
  cases groups with
  | operand => rfl
  | root => simp at none

/-- No binary operator binds more strongly than a prefix operator. -/
theorem Chain.operand {start rest : List Item} {tree : Node}
    (chain : Chain .unary start tree rest) : Operand .plain start tree rest := by
  obtain ⟨first, mid, links, operand, linked, groups, weaker⟩ := chain.derived
  cases linked with
  | nil =>
    obtain rfl := groups_nil groups rfl
    exact operand
  | @cons op _ _ _ right _ binary _ _ =>
    have stronger : Precedence.unary.weaker op.kind.precedence :=
      weaker (op, right) List.mem_cons_self
    have := Precedence.weaker_trans stronger (Kind.weaker_of_isBinaryOperator binary).2.1
    contradiction

/-- What stands before the operators: something that may be called, or a chain whose operators all
bind at least as strongly as the next token, which is no call. -/
inductive Before (power : Precedence) (start : List Item) (left : Node) (items : List Item) : Prop
  | applied : Applied .plain start left items → Before power start left items
  | chain {first : Node} {mid : List Item} {links : List Link} :
      Operand .plain start first mid → Links .plain mid links items → Groups first links left →
      (∀ link ∈ links, power.weaker link.1.kind.precedence) →
      Next (fun kind => kind ≠ .lparen ∧
        ∀ link ∈ links, kind.precedence.value ≤ link.1.kind.precedence.value) items →
      Before power start left items

namespace Before

variable {power : Precedence} {start items : List Item} {left : Node}

theorem stop (before : Before power start left items)
    (stops : Next (fun kind => power.weaker kind.precedence = false) items) :
    Chain power start left items := by
  cases before with
  | applied callee => exact ⟨⟨left, items, [], .applied callee, .nil, .operand, by simp⟩, stops⟩
  | chain operand linked groups weaker _ =>
    exact ⟨⟨_, _, _, operand, linked, groups, weaker⟩, stops⟩

theorem callee {t : Token} {rest : List Item} (before : Before power start left (.token t :: rest))
    (call : t.kind = .lparen) : Applied .plain start left (.token t :: rest) := by
  cases before with
  | applied callee => exact callee
  | chain _ _ _ _ next => exact absurd call next.1

/-- Before a binary operator stands a chain in any case. -/
theorem links {op : Token} {inner : List Item}
    (before : Before power start left (.token op :: inner)) :
    ∃ first mid links, Operand .plain start first mid ∧
      Links .plain mid links (.token op :: inner) ∧ Groups first links left ∧
      (∀ link ∈ links, power.weaker link.1.kind.precedence) ∧
      ∀ link ∈ links, op.kind.precedence.value ≤ link.1.kind.precedence.value := by
  cases before with
  | applied callee => exact ⟨left, _, [], .applied callee, .nil, .operand, by simp, by simp⟩
  | chain operand linked groups weaker next =>
    exact ⟨_, _, _, operand, linked, groups, weaker, next.2⟩

/-- A binary operator and the chain behind it, which binds more strongly, go on with the chain. -/
theorem binary {op : Token} {inner rest : List Item} {right : Node}
    (before : Before power start left (.token op :: inner))
    (weaker : power.weaker op.kind.precedence) (binary : op.kind.isBinaryOperator)
    (behind : Chain op.kind.precedence inner right rest) :
    Before power start (.binary op left op.literal right) rest := by
  obtain ⟨first, mid, linksBefore, isFirst, linkedLeft, groupsLeft, weakerLeft, atLeast⟩ :=
    before.links
  obtain ⟨operand, last, linksAfter, isOperand, linkedRight, groupsRight, stronger⟩ :=
    behind.derived
  have linked := linkedLeft.append (.cons binary isOperand linkedRight)
  have groups := groupsLeft.root groupsRight atLeast
    fun link member => Precedence.weaker_iff.mp (stronger link member)
  refine .chain isFirst linked groups ?_ (behind.stops.imp fun kind stops => ⟨?_, ?_⟩)
  · intro link member
    rcases List.mem_append.mp member with member | member
    · exact weakerLeft link member
    · rcases List.mem_cons.mp member with rfl | member
      · exact weaker
      · exact Precedence.weaker_trans weaker (stronger link member)
  · rintro rfl
    have opWeaker := (Kind.weaker_of_isBinaryOperator binary).2.2
    exact Bool.false_ne_true (stops.symm.trans opWeaker)
  · have le := Precedence.not_weaker_iff.mp stops
    intro link member
    rcases List.mem_append.mp member with member | member
    · exact Nat.le_trans le (atLeast link member)
    · rcases List.mem_cons.mp member with rfl | member
      · exact le
      · exact Nat.le_trans le (Nat.le_of_lt (Precedence.weaker_iff.mp (stronger link member)))

end Before

theorem opened_of_yields_parameters {items rest : List Item} {names : List Node}
    (h : (parameters finish items).Yields names rest) (opened : ¬ Next (· = .rparen) items) :
    Next (· ≠ .rparen) items := by
  match items with
  | [] => simp [parameters] at h
  | .badName .. :: _ => simp [parameters] at h
  | .token t :: _ => exact opened

theorem opened_of_yields_arguments {items rest : List Item} {values : List Node}
    (h : (arguments finish items).Yields values rest) (opened : ¬ Next (· = .rparen) items) :
    Next (· ≠ .rparen) items := by
  match items with
  | [] => exact Kind.noConfusion
  | .badName .. :: _ => simp [arguments] at h
  | .token t :: _ => exact opened

theorem opened_of_yields_statements {items rest : List Item} {nodes : List Node}
    (h : (statements finish items).Yields nodes rest)
    (opened : ¬ (items = [] ∨ Next (· = .rbrace) items)) :
    ∃ t inner, items = .token t :: inner ∧ t.kind ≠ .rbrace := by
  match items with
  | [] => simp at opened
  | .badName .. :: _ => simp [statements] at h
  | .token t :: inner => exact ⟨t, inner, rfl, fun closes => opened (.inr closes)⟩

theorem parameters_of_yields {items rest : List Item} {names : List Node}
    (h : (parameters finish items).Yields names rest) : Parameters items names rest := by
  induction size : items.length using Nat.strongRecOn generalizing items names with | _ _ ih
  by_cases closes : Next (· = .rparen) items
  · obtain ⟨rfl, rfl⟩ := (yields_parameters_of_next closes).mp h
    exact .none
  · have opened := opened_of_yields_parameters h closes
    obtain ⟨t, mid, rfl, isName, ⟨rfl, rfl, _⟩ | ⟨comma, after, more, rfl, isComma, tail, rfl⟩⟩ :=
      (yields_parameters opened).mp h
    · exact .last isName
    · simp only [List.length_cons] at size
      exact .cons isName isComma (ih after.length (by omega) tail rfl)

/-- What is yielded from fewer than `size` items is derived. -/
structure Sound (finish : Position) (size : Nat) : Prop where
  expression {power : Precedence} {items rest : List Item} {tree : Node} : items.length < size →
    (expression finish power items).Yields tree rest → Chain power items tree rest
  operators {power : Precedence} {start items rest : List Item} {left tree : Node} :
    items.length < size → Before power start left items →
      (operators finish power left items).Yields tree rest → Chain power start tree rest
  arguments {items rest : List Item} {values : List Node} : items.length < size →
    (arguments finish items).Yields values rest → Arguments .plain items values rest
  statements {items rest : List Item} {nodes : List Node} : items.length < size →
    (statements finish items).Yields nodes rest → Statements .plain items nodes rest

namespace Sound

variable {size : Nat} {items rest : List Item} (sound : Sound finish size)
include sound

theorem block {tree : Node} (le : items.length ≤ size)
    (h : (Parser.block finish items).Yields tree rest) : Block .plain items tree rest := by
  obtain ⟨opens, inner, body, close, rfl, isOpen, listed, closes, rfl⟩ := yields_block.mp h
  exact .braces isOpen (sound.statements le listed) closes

theorem conditional {t : Token} {tree : Node} (lt : items.length < size)
    (isIf : t.kind = .ifKeyword) (h : (operand finish t items).Yields tree rest) :
    Primary .plain (.token t :: items) tree rest := by
  obtain ⟨opens, inner, condition, close, after, consequence, mid, alternative, rfl, isOpen,
    isCondition, closes, isConsequence, tail, rfl⟩ := (yields_operand_conditional isIf).mp h
  have shorter : inner.length < size := Nat.lt_of_succ_lt lt
  have shorterAfter : after.length + 1 < inner.length := length_lt_of_expression isCondition
  have derived := (sound.expression shorter isCondition).expression
  have taken := sound.block (by omega) isConsequence
  cases alternative with
  | none =>
    obtain ⟨rfl, _⟩ := tail
    exact .conditional isIf isOpen derived closes taken
  | some alternative =>
    obtain ⟨word, other, rfl, isElse, isAlternative⟩ := tail
    have shorterOther : other.length + 1 ≤ after.length := isConsequence.length_le
    exact .conditionalElse isIf isOpen derived closes taken isElse
      (sound.block (by omega) isAlternative)

theorem function {t : Token} {tree : Node} (lt : items.length < size)
    (isFn : t.kind = .fnKeyword) (h : (operand finish t items).Yields tree rest) :
    Primary .plain (.token t :: items) tree rest := by
  obtain ⟨opens, inner, names, close, after, body, rfl, isOpen, areNames, closes, isBody, rfl⟩ :=
    (yields_operand_function isFn).mp h
  have shorter : inner.length < size := Nat.lt_of_succ_lt lt
  have shorterAfter : after.length + 1 ≤ inner.length := areNames.length_le
  exact .function isFn isOpen (parameters_of_yields areNames) closes
    (sound.block (by omega) isBody)

theorem operand {power : Precedence} {t : Token} {left : Node} (lt : items.length < size)
    (h : (Parser.operand finish t items).Yields left rest) :
    Before power (.token t :: items) left rest := by
  by_cases starts : t.kind.startsOperand
  · rcases Kind.startsOperand_cases starts with
      isPrefix | isName | isInt | isTrue | isFalse | isOpen | isIf | isFn
    · obtain ⟨right, inner, rfl⟩ := (yields_operand_unary isPrefix).mp h
      have chain := sound.expression lt inner
      refine .chain (.unary isPrefix chain.operand) .nil .operand (by simp) (chain.stops.imp ?_)
      intro kind stops
      refine ⟨?_, by simp⟩
      rintro rfl
      contradiction
    · obtain ⟨rfl, rfl⟩ := (yields_operand_identifier isName).mp h
      exact .applied (.primary (.identifier isName))
    · obtain ⟨_, small, rfl, rfl⟩ := (yields_operand_integer isInt).mp h
      exact .applied (.primary (.integer isInt small))
    · obtain ⟨rfl, rfl⟩ := (yields_operand_true isTrue).mp h
      exact .applied (.primary (.true isTrue))
    · obtain ⟨rfl, rfl⟩ := (yields_operand_false isFalse).mp h
      exact .applied (.primary (.false isFalse))
    · obtain ⟨close, inner, closes⟩ := (yields_operand_group isOpen).mp h
      exact .applied (.primary (.group isOpen (sound.expression lt inner).expression closes))
    · exact .applied (.primary (sound.conditional lt isIf h))
    · exact .applied (.primary (sound.function lt isFn h))
  · exact absurd h (not_yields_operand (Bool.eq_false_iff.mpr starts))

theorem nextExpression {power : Precedence} {tree : Node} (le : items.length ≤ size)
    (h : (Parser.expression finish power items).Yields tree rest) :
    Chain power items tree rest := by
  obtain ⟨t, inner, left, mid, rfl, first, tail⟩ := yields_expression.mp h
  have shorter := first.length_le
  exact sound.operators (Nat.lt_of_le_of_lt shorter le) (sound.operand le first) tail

theorem nextOperators {power : Precedence} {start : List Item} {left tree : Node}
    (le : items.length ≤ size) (before : Before power start left items)
    (h : (Parser.operators finish power left items).Yields tree rest) :
    Chain power start tree rest := by
  rcases operators_cases h with stops | ⟨t, inner, rfl, weaker, call | binary⟩
  · obtain ⟨rfl, rfl⟩ := (yields_operators_of_next stops).mp h
    exact before.stop stops
  · rw [call] at weaker
    obtain ⟨values, close, after, listed, closes, tail⟩ := (yields_operators_call weaker call).mp h
    have shorter : after.length + 1 ≤ inner.length := listed.length_le
    have applied : Applied .plain start (.call t left values) after :=
      .call (before.callee call) call (sound.arguments le listed) closes
    exact sound.operators (by simp only [List.length_cons] at le; omega) (.applied applied) tail
  · obtain ⟨right, mid, behind, tail⟩ := (yields_operators_binary weaker binary).mp h
    have shorter := length_lt_of_expression behind
    have chain := sound.expression le behind
    exact sound.operators (by simp only [List.length_cons] at le; omega)
      (before.binary weaker binary chain) tail

theorem nextArguments {values : List Node} (le : items.length ≤ size)
    (h : (Parser.arguments finish items).Yields values rest) :
    Arguments .plain items values rest := by
  by_cases closes : Next (· = .rparen) items
  · obtain ⟨rfl, rfl⟩ := (yields_arguments_of_next closes).mp h
    exact .none
  · have opened := opened_of_yields_arguments h closes
    obtain ⟨first, mid, value, ⟨rfl, rfl, _⟩ | ⟨comma, after, more, rfl, isComma, tail, rfl⟩⟩ :=
      (yields_arguments opened).mp h
    · exact .last (sound.nextExpression le value).expression
    · have shorter : after.length + 1 < items.length := length_lt_of_expression value
      exact .cons (sound.nextExpression le value).expression isComma
        (sound.arguments (by omega) tail)

theorem statement {t : Token} {node : Node} (lt : (Item.token t :: items).length ≤ size)
    (h : (Parser.statement finish t items).Yields node rest) :
    ∃ closed, Statement .plain closed (.token t :: items) node rest := by
  by_cases isLet : t.kind = .letKeyword
  · obtain ⟨name, assign, after, value, semicolon, rfl, isName, isAssign, inner, ends, rfl⟩ :=
      (yields_letStatement isLet).mp h
    have chain := sound.expression (by simp only [List.length_cons] at lt; omega) inner
    exact ⟨true, .bind isLet isName isAssign chain.expression ends⟩
  · by_cases isReturn : t.kind = .returnKeyword
    · obtain ⟨value, semicolon, inner, ends, rfl⟩ := (yields_returnStatement isReturn).mp h
      exact ⟨true, .give isReturn (sound.expression lt inner).expression ends⟩
    · obtain ⟨value, mid, inner, rfl, ⟨semicolon, rfl, ends⟩ | ⟨rfl, _⟩⟩ :=
        (yields_expressionStatement isLet isReturn).mp h
      · have chain := sound.nextExpression lt inner
        exact ⟨true, .closed chain.expression ends⟩
      · have chain := sound.nextExpression lt inner
        exact ⟨false, .opened chain.expression⟩

theorem nextStatements {nodes : List Node} (le : items.length ≤ size)
    (h : (Parser.statements finish items).Yields nodes rest) :
    Statements .plain items nodes rest := by
  by_cases ends : items = [] ∨ Next (· = .rbrace) items
  · obtain ⟨rfl, rfl⟩ := (yields_statements_of_end ends).mp h
    exact .nil
  · obtain ⟨t, inner, rfl, opened⟩ := opened_of_yields_statements h ends
    obtain ⟨first, mid, more, one, tail, rfl⟩ := (yields_statements opened).mp h
    obtain ⟨closed, derived⟩ := sound.statement le one
    have shorter := one.length_le
    exact .cons derived (fun _ => trivial) (sound.statements (Nat.lt_of_le_of_lt shorter le) tail)

end Sound

theorem sound (finish : Position) (size : Nat) : Sound finish size := by
  -- An induction on the derivation is not to be had: it is what the parser's steps have to build.
  induction size with
  | zero => constructor <;> exact fun lt => absurd lt (Nat.not_lt_zero _)
  | succ size ih =>
    constructor
    · exact fun lt => ih.nextExpression (Nat.le_of_lt_succ lt)
    · exact fun lt => ih.nextOperators (Nat.le_of_lt_succ lt)
    · exact fun lt => ih.nextArguments (Nat.le_of_lt_succ lt)
    · exact fun lt => ih.nextStatements (Nat.le_of_lt_succ lt)

/-- Every statement that is yielded is derived from the items that were read for it. -/
theorem derived_of_statement {t : Token} {items rest : List Item} {node : Node}
    (h : (statement finish t items).Yields node rest) :
    ∃ closed, Statement .plain closed (.token t :: items) node rest :=
  (sound finish _).statement (Nat.le_refl _) h

/-- A source whose turns are all statements is a program. -/
theorem program_of_turns {items : List Item} {nodes : List Node}
    (all : (turns finish items).1 = nodes.map .statement)
    (ends : (turns finish items).2 = .endOfSource) : Program .plain items nodes := by
  fun_induction turns finish items generalizing nodes with
  | case1 =>
    obtain rfl : nodes = [] := by simpa using all
    exact .nil
  | case2 => contradiction
  | case3 t rest node mid suffix eq ih =>
    cases nodes with
    | nil => simp at all
    | cons first more =>
      obtain ⟨same, tail⟩ := List.cons.inj all
      obtain rfl := Turn.statement.inj same
      obtain ⟨closed, derived⟩ := derived_of_statement ⟨suffix, eq⟩
      exact .cons derived (fun _ => trivial) (ih tail ends)
  | case4 => cases nodes <;> simp at all
  | case5 => contradiction

end MonkeySyntax.Parser
