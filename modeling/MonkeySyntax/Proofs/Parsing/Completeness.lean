import MonkeySyntax.Parser.Program
import MonkeySyntax.Proofs.Grammar
import MonkeySyntax.Proofs.Parsing.Yields

/-!
# The parser reads what the grammar derives

What the greedy grammar derives is parsed, with the tree of the derivation. The statements about
operands are in terms of the operators behind them: parsing comes to those with the operand's tree.
`turns_of_program` is the result for a whole source.
-/

namespace MonkeySyntax.Parser

open Grammar Reply

variable {finish : Position}

/-- Parsing from `start` comes to the operators at `rest`, with `left` before them. -/
def ComesTo (finish : Position) (power : Precedence) (start : List Item) (left : Node)
    (rest : List Item) : Prop :=
  ∀ v r, (operators finish power left rest).Yields v r →
    (expression finish power start).Yields v r

theorem comesTo_of_yields {power : Precedence} {t : Token} {inner rest : List Item} {node : Node}
    (first : (operand finish t inner).Yields node rest) :
    ComesTo finish power (.token t :: inner) node rest := by
  intro v r tail
  exact yields_expression.mpr ⟨t, inner, node, rest, rfl, first, tail⟩

/-- Parsing comes to what is behind an operand, if that goes on neither a call nor a conditional. -/
def ComesBehind (finish : Position) (start : List Item) (operand : Node)
    (rest : List Item) : Prop :=
  Next (fun kind => kind ≠ .elseKeyword ∧ kind ≠ .lparen) rest →
    ∀ power : Precedence, power.weaker .call → ComesTo finish power start operand rest

def ComesAlong (finish : Position) (start : List Item) (links : List Link)
    (rest : List Item) : Prop :=
  match links with
  | [] => start = rest
  | (op, operand) :: links => ∃ inner mid, start = .token op :: inner ∧
      op.kind.isBinaryOperator ∧ ComesBehind finish inner operand mid ∧
        ComesAlong finish mid links rest

theorem ComesAlong.split {start rest : List Item} {before after : List Link} {op : Token}
    {operand : Node} (h : ComesAlong finish start (before ++ (op, operand) :: after) rest) :
    ∃ inner mid, ComesAlong finish start before (.token op :: inner) ∧
      op.kind.isBinaryOperator ∧ ComesBehind finish inner operand mid ∧
        ComesAlong finish mid after rest := by
  induction before generalizing start with
  | nil =>
    obtain ⟨inner, mid, rfl, h⟩ := h
    exact ⟨inner, mid, rfl, h⟩
  | cons link before ih =>
    obtain ⟨first, next, rfl, binary, behind, tail⟩ := h
    obtain ⟨inner, mid, along, h⟩ := ih tail
    exact ⟨inner, mid, ⟨first, next, rfl, binary, behind, along⟩, h⟩

/-- Parsing at a power that is weaker than all the links comes to the tree of the whole chain. -/
theorem comesTo_of_groups {first tree : Node} {links : List Link} (groups : Groups first links tree)
    {power : Precedence} {start mid rest : List Item} (weaker : power.weaker .call)
    (behind : ComesBehind finish start first mid) (along : ComesAlong finish mid links rest)
    (all : ∀ link ∈ links, power.weaker link.1.kind.precedence)
    (next : Next (fun kind => (kind ≠ .elseKeyword ∧ kind ≠ .lparen) ∧
      ∀ link ∈ links, kind.precedence.value ≤ link.1.kind.precedence.value) rest) :
    ComesTo finish power start tree rest := by
  induction groups generalizing power start mid rest with
  | operand =>
    obtain rfl : mid = rest := along
    exact behind (next.imp fun _ h => h.1) power weaker
  | root _ _ before after ihLeft ihRight =>
    rename_i first left operand right linksBefore linksAfter op _ _
    obtain ⟨inner, last, alongLeft, binary, behindRight, alongRight⟩ := along.split
    have weakerOp : power.weaker op.kind.precedence := all (op, operand) (by simp)
    have opWeaker := (Kind.weaker_of_isBinaryOperator binary).2.2
    have nextOp : Next (fun kind => (kind ≠ .elseKeyword ∧ kind ≠ .lparen) ∧
        ∀ link ∈ linksBefore, kind.precedence.value ≤ link.1.kind.precedence.value)
        (.token op :: inner) := ⟨Kind.ne_of_isBinaryOperator binary, before⟩
    have stops : Next (fun kind => op.kind.precedence.weaker kind.precedence = false) rest :=
      next.imp fun _ h => Precedence.not_weaker_iff.mpr (h.2 (op, operand) (by simp))
    -- The parser meets the operators from the left: the left tree is what it has at the root.
    intro v r h
    apply ihLeft weaker behind alongLeft (fun link member => all link (by simp [member])) nextOp
    rw [yields_operators_binary weakerOp binary]
    refine ⟨right, rest, ?_, h⟩
    apply ihRight opWeaker behindRight alongRight
    · exact fun link member => Precedence.weaker_iff.mpr (after link member)
    · exact next.imp fun kind h => ⟨h.1, fun link member => h.2 link (by simp [member])⟩
    · exact (yields_operators_of_next stops).mpr ⟨rfl, rfl⟩

theorem yields_of_parameters {start rest : List Item} {names : List Node}
    (h : Parameters start names rest) (closes : Next (· = .rparen) rest) :
    (parameters finish start).Yields names rest := by
  induction h with
  | none => exact (yields_parameters_of_next closes).mpr ⟨rfl, rfl⟩
  | last isName =>
    refine (yields_parameters (by simp [isName])).mpr ⟨_, _, rfl, isName, .inl ⟨rfl, rfl, ?_⟩⟩
    exact closes.imp fun kind h => by rw [h]; decide
  | cons isName isComma _ ih =>
    exact (yields_parameters (by simp [isName])).mpr
      ⟨_, _, rfl, isName, .inr ⟨_, _, _, rfl, isComma, ih closes, rfl⟩⟩

theorem ends_of_kind {t : Token} {kind : Kind} {rest : List Item} (h : t.kind = kind)
    (lowest : kind.precedence = .lowest) (notElse : kind ≠ .elseKeyword) :
    Next (fun kind => kind.precedence = .lowest ∧ kind ≠ .elseKeyword) (.token t :: rest) := by
  rw [next_token, h]
  exact ⟨lowest, notElse⟩

/-- Behind a statement without semicolon stands neither a semicolon nor an alternative: statements
begin with neither. -/
theorem next_of_statements {start rest : List Item} {nodes : List Node}
    (h : Statements .greedy start nodes rest) (lowest : Dialect.greedy.mayFollow start)
    (ends : rest = [] ∨ Next (· = .rbrace) rest) :
    Next (fun kind => (kind.precedence = .lowest ∧ kind ≠ .elseKeyword) ∧ kind ≠ .semicolon)
      start := by
  rcases h.head with rfl | head
  · rcases ends with rfl | closes
    · rw [next_nil]
      decide
    · exact closes.imp fun kind h => by rw [h]; decide
  · match start, head, lowest with
    | .token t :: _, head, lowest =>
      have other := Kind.ne_of_startsStatement head
      exact ⟨⟨lowest, other.2.1⟩, other.2.2⟩

mutual

theorem comesBehind_of_operand {start rest : List Item} {node : Node} :
    Operand .greedy start node rest → ComesBehind finish start node rest
  | .unary isPrefix inner => by
    intro next power weaker
    apply comesTo_of_yields
    refine (yields_operand_unary isPrefix).mpr ⟨_, ?_, rfl⟩
    refine comesBehind_of_operand inner next .unary rfl _ _ ?_
    refine (yields_operators_of_next (next.imp ?_)).mpr ⟨rfl, rfl⟩
    intro kind h
    have := h.2
    revert this
    cases kind <;> decide
  | .applied inner => fun next _ weaker =>
    comesTo_of_applied inner (next.imp fun _ h => h.1) weaker

theorem comesTo_of_applied {start rest : List Item} {node : Node} {power : Precedence} :
    Applied .greedy start node rest → Next (· ≠ .elseKeyword) rest → power.weaker .call →
      ComesTo finish power start node rest
  | .primary inner, next, _ => comesTo_of_primary inner next
  | .call callee opens values closes, _, weaker => by
    intro v r h
    refine comesTo_of_applied callee (by simp [opens]) weaker v r ?_
    exact (yields_operators_call weaker opens).mpr
      ⟨_, _, _, yields_of_arguments values closes, closes, h⟩

theorem comesTo_of_primary {start rest : List Item} {node : Node} {power : Precedence} :
    Primary .greedy start node rest → Next (· ≠ .elseKeyword) rest →
      ComesTo finish power start node rest
  | .identifier kind, _ => comesTo_of_yields ((yields_operand_identifier kind).mpr ⟨rfl, rfl⟩)
  | .integer kind ⟨short, small⟩, _ =>
    comesTo_of_yields ((yields_operand_integer kind).mpr ⟨short, small, rfl, rfl⟩)
  | .true kind, _ => comesTo_of_yields ((yields_operand_true kind).mpr ⟨rfl, rfl⟩)
  | .false kind, _ => comesTo_of_yields ((yields_operand_false kind).mpr ⟨rfl, rfl⟩)
  | .group opens inner closes, _ => by
    have grouped := yields_of_expression inner (ends_of_kind closes rfl (by decide))
    exact comesTo_of_yields ((yields_operand_group opens).mpr ⟨_, grouped, closes⟩)
  | .conditional kind opens condition closes consequence, next => by
    have tested := yields_of_expression condition (ends_of_kind closes rfl (by decide))
    have taken := yields_of_block consequence
    apply comesTo_of_yields
    rw [yields_operand_conditional kind]
    exact ⟨_, _, _, _, _, _, _, none, rfl, opens, tested, closes, taken, ⟨rfl, next⟩, rfl⟩
  | .conditionalElse kind opens condition closes consequence isElse alternative, next => by
    have tested := yields_of_expression condition (ends_of_kind closes rfl (by decide))
    have taken := yields_of_block consequence
    have otherwise := yields_of_block alternative
    apply comesTo_of_yields
    rw [yields_operand_conditional kind]
    exact ⟨_, _, _, _, _, _, _, some _, rfl, opens, tested, closes, taken,
      ⟨_, _, rfl, isElse, otherwise⟩, rfl⟩
  | .function kind opens names closes body, _ => by
    have named : (parameters finish _).Yields _ _ := yields_of_parameters names closes
    have taken := yields_of_block body
    apply comesTo_of_yields
    rw [yields_operand_function kind]
    exact ⟨_, _, _, _, _, _, rfl, opens, named, closes, taken, rfl⟩

theorem comesAlong_of_links {start rest : List Item} {links : List Link} :
    Links .greedy start links rest → ComesAlong finish start links rest
  | .nil => rfl
  | .cons binary operand tail =>
    ⟨_, _, rfl, binary, comesBehind_of_operand operand, comesAlong_of_links tail⟩

theorem yields_of_expression {start rest : List Item} {node : Node} :
    Expression .greedy start node rest →
      Next (fun kind => kind.precedence = .lowest ∧ kind ≠ .elseKeyword) rest →
        (expression finish .lowest start).Yields node rest
  | .chain first links groups, next => by
    have all := links.binary
    refine comesTo_of_groups groups rfl (comesBehind_of_operand first) (comesAlong_of_links links)
      ?_ ?_ node rest ((yields_operators_of_next ?_).mpr ⟨rfl, rfl⟩)
    · exact fun link member => (Kind.weaker_of_isBinaryOperator (all link member)).1
    · refine next.imp fun kind h => ⟨⟨h.2, ?_⟩, fun link _ => ?_⟩
      · rintro rfl
        exact absurd h.1 (by decide)
      · rw [h.1]
        exact Precedence.lowest_value_le _
    · exact next.imp fun kind h => by rw [h.1]; rfl

theorem yields_of_arguments {start rest : List Item} {values : List Node} :
    Arguments .greedy start values rest → Next (· = .rparen) rest →
      (arguments finish start).Yields values rest
  | .none, closes => (yields_arguments_of_next closes).mpr ⟨rfl, rfl⟩
  | .last value, closes => by
    have opened := value.head.imp fun _ h => (Kind.ne_of_startsOperand h).1
    refine (yields_arguments opened).mpr ⟨_, _, yields_of_expression value ?_, .inl ⟨rfl, rfl, ?_⟩⟩
    · exact closes.imp fun kind h => by rw [h]; decide
    · exact closes.imp fun kind h => by rw [h]; decide
  | .cons value isComma tail, closes => by
    have opened := value.head.imp fun _ h => (Kind.ne_of_startsOperand h).1
    exact (yields_arguments opened).mpr ⟨_, _,
      yields_of_expression value (ends_of_kind isComma rfl (by decide)),
      .inr ⟨_, _, _, rfl, isComma, yields_of_arguments tail closes, rfl⟩⟩

theorem yields_of_block {start rest : List Item} {node : Node} :
    Block .greedy start node rest → (block finish start).Yields node rest
  | .braces opens body closes => yields_block.mpr
    ⟨_, _, _, _, rfl, opens, yields_of_statements body (.inr closes), closes, rfl⟩

theorem yields_of_statement {closed : Bool} {start rest : List Item} {node : Node} :
    Statement .greedy closed start node rest →
      (closed = false → Next (fun kind =>
        (kind.precedence = .lowest ∧ kind ≠ .elseKeyword) ∧ kind ≠ .semicolon) rest) →
      ∃ t inner, start = .token t :: inner ∧ (statement finish t inner).Yields node rest
  | .bind isLet isName isAssign value ends, _ => by
    have bound := yields_of_expression value (ends_of_kind ends rfl (by decide))
    refine ⟨_, _, rfl, (yields_letStatement isLet).mpr ?_⟩
    exact ⟨_, _, _, _, _, rfl, isName, isAssign, bound, ends, rfl⟩
  | .give isReturn value ends, _ => by
    have given := yields_of_expression value (ends_of_kind ends rfl (by decide))
    exact ⟨_, _, rfl, (yields_returnStatement isReturn).mpr ⟨_, _, given, ends, rfl⟩⟩
  | .closed value ends, _ => by
    obtain ⟨_, notLet, notReturn⟩ := Kind.ne_of_startsOperand value.head
    have whole := yields_of_expression value (ends_of_kind ends rfl (by decide))
    refine ⟨_, _, rfl, (yields_expressionStatement notLet notReturn).mpr ?_⟩
    exact ⟨_, _, whole, rfl, .inl ⟨_, rfl, ends⟩⟩
  | .opened value, next => by
    obtain ⟨_, notLet, notReturn⟩ := Kind.ne_of_startsOperand value.head
    have whole := yields_of_expression value ((next rfl).imp fun _ h => h.1)
    refine ⟨_, _, rfl, (yields_expressionStatement notLet notReturn).mpr ?_⟩
    exact ⟨_, _, whole, rfl, .inr ⟨rfl, (next rfl).imp fun _ h => h.2⟩⟩

theorem yields_of_statements {start rest : List Item} {nodes : List Node} :
    Statements .greedy start nodes rest → rest = [] ∨ Next (· = .rbrace) rest →
      (statements finish start).Yields nodes rest
  | .nil, ends => (yields_statements_of_end ends).mpr ⟨rfl, rfl⟩
  | .cons first follows more, ends => by
    obtain ⟨t, inner, rfl, one⟩ := yields_of_statement first fun opened =>
      next_of_statements more (follows opened) ends
    have opened : t.kind ≠ .rbrace := (Kind.ne_of_startsStatement first.head).1
    exact (yields_statements opened).mpr ⟨_, _, _, one, yields_of_statements more ends, rfl⟩

end

/-- A program takes one turn for each of its statements. -/
theorem turns_of_program {items : List Item} {nodes : List Node} (h : Program .greedy items nodes) :
    turns finish items = (nodes.map .statement, .endOfSource) := by
  induction nodes generalizing items with
  | nil =>
    cases h
    exact turns_nil finish
  | cons node nodes ih =>
    cases h with
    | cons first follows more =>
      obtain ⟨t, inner, rfl, _, one⟩ := yields_of_statement first fun opened =>
        next_of_statements more (follows opened) (.inl rfl)
      rw [turns, one]
      dsimp only
      rw [ih more]
      rfl

end MonkeySyntax.Parser
