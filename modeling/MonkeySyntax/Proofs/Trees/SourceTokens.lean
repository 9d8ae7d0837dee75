import MonkeySyntax.Node.Outline
import MonkeySyntax.Parser.Statement
import MonkeySyntax.Proofs.Lexing.Lexemes

/-!
# The tokens of a tree

`sourceTokens` lists the tokens of a tree in the order of the source, and `FitsToken` says which
token a node may have. `All` is for what holds of every node of a tree, those that `preorder` lists.
-/

namespace MonkeySyntax.Node

mutual

/-- The tokens in the order of the source: an operator stands between its operands, and the
parenthesis of a call behind what is called. An expression statement begins with a token of its
expression or with a parenthesis around it, and has no other of its own. -/
def sourceTokens : Node → List Token
  | identifier t _ | integer t _ | boolean t _ => [t]
  | unary t _ right => t :: sourceTokens right
  | binary t left _ right => sourceTokens left ++ t :: sourceTokens right
  | letStatement t name value => t :: (sourceTokens name ++ sourceTokens value)
  | returnStatement t value => t :: sourceTokens value
  | expressionStatement _ expression => sourceTokens expression
  | block t statements => t :: sourceTokensEach statements
  | conditional t condition consequence alternative =>
    t :: (sourceTokens condition ++ sourceTokens consequence ++ sourceTokensIfAny alternative)
  | function t parameters body => t :: (sourceTokensEach parameters ++ sourceTokens body)
  | call t callee arguments => sourceTokens callee ++ t :: sourceTokensEach arguments
  | program statements => sourceTokensEach statements

def sourceTokensEach : List Node → List Token
  | [] => []
  | node :: rest => sourceTokens node ++ sourceTokensEach rest

def sourceTokensIfAny : Option Node → List Token
  | none => []
  | some node => sourceTokens node

end

/-- The token of a node is of the node's kind, and its text is what the node holds. -/
def FitsToken : Node → Prop
  | identifier t name => t.kind = .ident ∧ t.literal = name ∧ isName name
  | integer t value =>
    t.kind = .int ∧ value = Decimal.value t.literal ∧ 0 ≤ value ∧ value ≤ Parser.maxInteger
  | boolean t value => t.kind = if value then .trueKeyword else .falseKeyword
  | unary t operator _ =>
    t.kind.isPrefixOperator ∧ t.literal = operator ∧ operator = t.kind.spelling
  | binary t _ operator _ =>
    t.kind.isBinaryOperator ∧ t.literal = operator ∧ operator = t.kind.spelling
  | letStatement t _ _ => t.kind = .letKeyword
  | returnStatement t _ => t.kind = .returnKeyword
  | block t _ => t.kind = .lbrace
  | conditional t _ _ _ => t.kind = .ifKeyword
  | function t _ _ => t.kind = .fnKeyword
  | call t _ _ => t.kind = .lparen
  | expressionStatement .. | program _ => True

/-- A property of every node of a tree. -/
inductive All (property : Node → Prop) : Node → Prop
  | node {node : Node} : property node → (∀ child ∈ node.children, All property child) →
      All property node

theorem All.of_mem_preorderFrom {property : Node → Prop} {root node : Node} {depth level : Nat}
    (all : All property root) (member : (level, node) ∈ root.preorderFrom depth) : property node := by
  induction all generalizing depth with
  | node here _ ih =>
    rw [preorderFrom_eq] at member
    rcases List.mem_cons.mp member with same | member
    · cases same
      exact here
    · obtain ⟨child, isChild, member⟩ := List.mem_flatMap.mp member
      exact ih child isChild member

end MonkeySyntax.Node
