import MonkeySyntax.Node
import MonkeySyntax.Proofs.Grammar.Greedy
import MonkeySyntax.Proofs.Lexing.Items

/-!
# Well-formed trees

The trees that a source can have, by what stands where: expressions, blocks and statements. Whatever
the grammar derives from the items of a source is well formed.
-/

namespace MonkeySyntax

namespace Node

/-- A name in the list of a function's parameters. -/
inductive IsParameter : Node → Prop
  | identifier {t : Token} {name : Text} : isName name → IsParameter (.identifier t name)

mutual

inductive IsExpression : Node → Prop
  | identifier {t : Token} {name : Text} : isName name → IsExpression (.identifier t name)
  | integer {t : Token} {value : Int} : 0 ≤ value → value ≤ Parser.maxInteger →
      IsExpression (.integer t value)
  | boolean {t : Token} {value : Bool} : IsExpression (.boolean t value)
  | unary {t : Token} {kind : Kind} {operator : Text} {right : Node} : kind.isPrefixOperator →
      operator = kind.spelling → IsExpression right → IsExpression (.unary t operator right)
  | binary {t : Token} {kind : Kind} {operator : Text} {left right : Node} :
      kind.isBinaryOperator → operator = kind.spelling → IsExpression left → IsExpression right →
      IsExpression (.binary t left operator right)
  | conditional {t : Token} {condition consequence : Node} : IsExpression condition →
      IsBlock consequence → IsExpression (.conditional t condition consequence none)
  | conditionalElse {t : Token} {condition consequence alternative : Node} :
      IsExpression condition → IsBlock consequence → IsBlock alternative →
      IsExpression (.conditional t condition consequence (some alternative))
  | function {t : Token} {names : List Node} {body : Node} : (∀ name ∈ names, IsParameter name) →
      IsBlock body → IsExpression (.function t names body)
  | call {t : Token} {callee : Node} {values : List Node} : IsExpression callee →
      (∀ value ∈ values, IsExpression value) → IsExpression (.call t callee values)

inductive IsBlock : Node → Prop
  | braces {t : Token} {body : List Node} : (∀ statement ∈ body, IsStatement statement) →
      IsBlock (.block t body)

inductive IsStatement : Node → Prop
  | bind {t u : Token} {name : Text} {value : Node} : isName name → IsExpression value →
      IsStatement (.letStatement t (.identifier u name) value)
  | give {t : Token} {value : Node} : IsExpression value → IsStatement (.returnStatement t value)
  | expression {t : Token} {value : Node} : IsExpression value →
      IsStatement (.expressionStatement t value)

end

inductive IsProgram : Node → Prop
  | statements {nodes : List Node} : (∀ statement ∈ nodes, IsStatement statement) →
      IsProgram (.program nodes)

/-- A node that may stand below a program. -/
inductive IsPart (node : Node) : Prop
  | parameter : IsParameter node → IsPart node
  | expression : IsExpression node → IsPart node
  | block : IsBlock node → IsPart node
  | statement : IsStatement node → IsPart node

theorem IsPart.children {node : Node} (isPart : IsPart node) :
    ∀ child ∈ node.children, IsPart child := by
  cases isPart with
  | parameter isParameter =>
    cases isParameter
    simp [Node.children]
  | expression isExpression =>
    cases isExpression with
    | identifier | integer | boolean => simp [Node.children]
    | unary _ _ right => simpa [Node.children] using expression right
    | binary _ _ left right => simpa [Node.children] using ⟨expression left, expression right⟩
    | conditional condition consequence =>
      simpa [Node.children] using ⟨expression condition, block consequence⟩
    | conditionalElse condition consequence alternative =>
      simpa [Node.children] using ⟨expression condition, block consequence, block alternative⟩
    | function names body =>
      intro child isChild
      rcases List.mem_append.mp isChild with isName | isBody
      · exact parameter (names child isName)
      · exact List.mem_singleton.mp isBody ▸ block body
    | call callee values =>
      exact List.forall_mem_cons.mpr ⟨expression callee, fun value isValue =>
        expression (values value isValue)⟩
  | block isBlock =>
    obtain ⟨statements⟩ := isBlock
    exact fun child isChild => statement (statements child isChild)
  | statement isStatement =>
    cases isStatement with
    | bind isName value =>
      simpa [Node.children] using ⟨expression (.identifier isName), expression value⟩
    | give value | expression value => simpa [Node.children] using expression value

end Node

namespace Grammar

open Node

/-- A name is written as one, and an operator as it is spelled. -/
def Spelled (t : Token) : Prop :=
  (t.kind = .ident → isName t.literal) ∧
    (t.kind.isBinaryOperator ∨ t.kind.isPrefixOperator → t.literal = t.kind.spelling)

theorem spelled_items {cursor : Cursor} {t : Token} (member : .token t ∈ cursor.items) :
    Spelled t := by
  obtain ⟨c, text, position, isFirst⟩ := Cursor.first_of_mem_items member
  cases found : Lexeme.first c text with
  | badName => simp [found, Lexeme.at] at isFirst
  | token kind literal =>
    rw [found] at isFirst
    cases isFirst
    constructor
    · rintro rfl
      exact Lexeme.isName_of_ident found
    · exact Lexeme.literal_of_operator found

/-- A tree that groups expressions with binary operators is an expression. -/
theorem isExpression_of_groups {first tree : Node} {links : List Link}
    (groups : Groups first links tree) (isFirst : IsExpression first)
    (each : ∀ link ∈ links, link.1.kind.isBinaryOperator ∧
      link.1.literal = link.1.kind.spelling ∧ IsExpression link.2) : IsExpression tree := by
  induction groups with
  | operand => exact isFirst
  | @root _ _ operand _ _ _ op _ _ _ _ ihLeft ihRight =>
    obtain ⟨isBinary, spelling, isOperand⟩ := each (op, operand) (by simp)
    refine .binary isBinary spelling (ihLeft isFirst ?_) (ihRight isOperand ?_)
    · exact fun link member => each link (by simp [member])
    · exact fun link member => each link (by simp [member])

theorem isParameter_of_parameters {start rest : List Item} {names : List Node} :
    Parameters start names rest → Every Spelled start → ∀ name ∈ names, IsParameter name
  | .none, _ => by simp
  | .last isName, spelled => by
    have name := (spelled _ List.mem_cons_self).1 isName
    exact List.forall_mem_singleton.mpr (.identifier name)
  | .cons isName _ tail, spelled => by
    have name := (spelled _ List.mem_cons_self).1 isName
    have others := isParameter_of_parameters tail (spelled.behind (.trans .token .token))
    exact List.forall_mem_cons.mpr ⟨.identifier name, others⟩

mutual

theorem isExpression_of_expression {start rest : List Item} {tree : Node} :
    Expression .plain start tree rest → Every Spelled start → IsExpression tree
  | .chain first links groups, spelled =>
    isExpression_of_groups groups (isExpression_of_operand first spelled)
      (isExpression_of_links links (spelled.behind first.spans))

theorem isExpression_of_links {start rest : List Item} {links : List Link} :
    Links .plain start links rest → Every Spelled start →
      ∀ link ∈ links, link.1.kind.isBinaryOperator ∧ link.1.literal = link.1.kind.spelling ∧
        IsExpression link.2
  | .nil, _ => by simp
  | .cons isBinary operand tail, spelled => by
    have spelling := (spelled _ List.mem_cons_self).2 (.inl isBinary)
    have behind := spelled.behind .token
    have isOperand := isExpression_of_operand operand behind
    have others := isExpression_of_links tail (behind.behind operand.spans)
    exact List.forall_mem_cons.mpr ⟨⟨isBinary, spelling, isOperand⟩, others⟩

theorem isExpression_of_operand {start rest : List Item} {node : Node} :
    Operand .plain start node rest → Every Spelled start → IsExpression node
  | .unary isPrefix inner, spelled =>
    .unary isPrefix ((spelled _ List.mem_cons_self).2 (.inr isPrefix))
      (isExpression_of_operand inner (spelled.behind .token))
  | .applied inner, spelled => isExpression_of_applied inner spelled

theorem isExpression_of_applied {start rest : List Item} {node : Node} :
    Applied .plain start node rest → Every Spelled start → IsExpression node
  | .primary inner, spelled => isExpression_of_primary inner spelled
  | .call callee _ values _, spelled =>
    .call (isExpression_of_applied callee spelled)
      (isExpression_of_arguments values (spelled.behind (callee.spans.trans .token)))

theorem isExpression_of_arguments {start rest : List Item} {values : List Node} :
    Arguments .plain start values rest → Every Spelled start → ∀ value ∈ values, IsExpression value
  | .none, _ => by simp
  | .last value, spelled =>
    List.forall_mem_singleton.mpr (isExpression_of_expression value spelled)
  | .cons value _ tail, spelled => by
    have others := isExpression_of_arguments tail (spelled.behind (value.spans.trans .token))
    exact List.forall_mem_cons.mpr ⟨isExpression_of_expression value spelled, others⟩

theorem isExpression_of_primary {start rest : List Item} {node : Node} :
    Primary .plain start node rest → Every Spelled start → IsExpression node
  | .identifier isName, spelled => .identifier ((spelled _ List.mem_cons_self).1 isName)
  | .integer _ small, _ => .integer (Int.natCast_nonneg _) (Int.ofNat_le.mpr small)
  | .true _, _ | .false _, _ => .boolean
  | .group _ inner _, spelled => isExpression_of_expression inner (spelled.behind .token)
  | .conditional _ _ condition _ consequence, spelled => by
    have inner := spelled.behind (.trans .token .token)
    have after := inner.behind (condition.spans.trans .token)
    exact .conditional (isExpression_of_expression condition inner)
      (isBlock_of_block consequence after)
  | .conditionalElse _ _ condition _ consequence _ alternative, spelled => by
    have inner := spelled.behind (.trans .token .token)
    have after := inner.behind (condition.spans.trans .token)
    have other := after.behind (consequence.spans.trans .token)
    exact .conditionalElse (isExpression_of_expression condition inner)
      (isBlock_of_block consequence after) (isBlock_of_block alternative other)
  | .function _ _ names _ body, spelled => by
    have inner := spelled.behind (.trans .token .token)
    have after := inner.behind (names.spans.trans .token)
    exact .function (isParameter_of_parameters names inner) (isBlock_of_block body after)

theorem isBlock_of_block {start rest : List Item} {node : Node} :
    Block .plain start node rest → Every Spelled start → IsBlock node
  | .braces _ body _, spelled => .braces (isStatement_of_statements body (spelled.behind .token))

theorem isStatement_of_statement {closed : Bool} {start rest : List Item} {node : Node} :
    Statement .plain closed start node rest → Every Spelled start → IsStatement node
  | .bind _ isName _ value _, spelled => by
    have name := (spelled _ (by simp)).1 isName
    have inner := spelled.behind (.trans .token (.trans .token .token))
    exact .bind name (isExpression_of_expression value inner)
  | .give _ value _, spelled => .give (isExpression_of_expression value (spelled.behind .token))
  | .closed value _, spelled => .expression (isExpression_of_expression value spelled)
  | .opened value, spelled => .expression (isExpression_of_expression value spelled)

theorem isStatement_of_statements {start rest : List Item} {nodes : List Node} :
    Statements .plain start nodes rest → Every Spelled start →
      ∀ statement ∈ nodes, IsStatement statement
  | .nil, _ => by simp
  | .cons first _ more, spelled => by
    have others := isStatement_of_statements more (spelled.behind first.spans)
    exact List.forall_mem_cons.mpr ⟨isStatement_of_statement first spelled, others⟩

end

end Grammar

end MonkeySyntax
