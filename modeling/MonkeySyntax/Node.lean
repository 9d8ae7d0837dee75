import MonkeySyntax.Token

/-!
# Syntax trees

The nodes of a program, each with the token that introduced it, and equality of trees wherever their
tokens stand. `sizeOf_lt_of_mem_children` says that a child is smaller than its node.
-/

namespace MonkeySyntax

/-- A syntax tree. Any node may stand below any other; which trees a source can have is a matter of
the parser. -/
inductive Node where
  | identifier (token : Token) (name : Text)
  | integer (token : Token) (value : Int)
  | boolean (token : Token) (value : Bool)
  | unary (token : Token) (operator : Text) (right : Node)
  | binary (token : Token) (left : Node) (operator : Text) (right : Node)
  | letStatement (token : Token) (name : Node) (value : Node)
  | returnStatement (token : Token) (value : Node)
  | expressionStatement (token : Token) (expression : Node)
  | block (token : Token) (statements : List Node)
  | conditional (token : Token) (condition consequence : Node) (alternative : Option Node)
  | function (token : Token) (parameters : List Node) (body : Node)
  | call (token : Token) (callee : Node) (arguments : List Node)
  | program (statements : List Node)

instance : Inhabited Node := ⟨.program []⟩

inductive NodeKind where
  | identifier | integer | boolean | unary | binary
  | letStatement | returnStatement | expressionStatement | block
  | conditional | function | call | program
deriving DecidableEq

def NodeKind.name : NodeKind → Text
  | identifier => "MonkeyASTIdentifier".toList
  | integer => "MonkeyASTInteger".toList
  | boolean => "MonkeyASTBoolean".toList
  | unary => "MonkeyASTPrefix".toList
  | binary => "MonkeyASTInfix".toList
  | letStatement => "MonkeyASTLetStatement".toList
  | returnStatement => "MonkeyASTReturnStatement".toList
  | expressionStatement => "MonkeyASTExpressionStatement".toList
  | block => "MonkeyASTBlockStatement".toList
  | conditional => "MonkeyASTIf".toList
  | function => "MonkeyASTFunction".toList
  | call => "MonkeyASTCall".toList
  | program => "MonkeyASTProgram".toList

namespace Node

def kind : Node → NodeKind
  | identifier .. => .identifier
  | integer .. => .integer
  | boolean .. => .boolean
  | unary .. => .unary
  | binary .. => .binary
  | letStatement .. => .letStatement
  | returnStatement .. => .returnStatement
  | expressionStatement .. => .expressionStatement
  | block .. => .block
  | conditional .. => .conditional
  | function .. => .function
  | call .. => .call
  | program .. => .program

/-- The token that introduced a node; a program has none. -/
def token? : Node → Option Token
  | identifier t _ | integer t _ | boolean t _ | unary t _ _ | binary t _ _ _
  | letStatement t _ _ | returnStatement t _ | expressionStatement t _ | block t _
  | conditional t _ _ _ | function t _ _ | call t _ _ => some t
  | program _ => none

def children : Node → List Node
  | identifier .. | integer .. | boolean .. => []
  | unary _ _ right => [right]
  | binary _ left _ right => [left, right]
  | letStatement _ name value => [name, value]
  | returnStatement _ value => [value]
  | expressionStatement _ expression => [expression]
  | block _ statements => statements
  | conditional _ condition consequence alternative =>
    condition :: consequence :: alternative.toList
  | function _ parameters body => parameters ++ [body]
  | call _ callee arguments => callee :: arguments
  | program statements => statements

theorem sizeOf_lt_of_mem_children {child node : Node} (h : child ∈ node.children) :
    sizeOf child < sizeOf node := by
  cases node with
  | identifier | integer | boolean => simp [children] at h
  | unary | returnStatement | expressionStatement =>
    simp only [children, List.mem_singleton] at h
    subst h
    simp +arith
  | binary | letStatement =>
    simp only [children, List.mem_cons, List.not_mem_nil, or_false] at h
    rcases h with rfl | rfl <;> simp +arith
  | block | program =>
    have := List.sizeOf_lt_of_mem h
    simp +arith [children] at this ⊢
    omega
  | conditional _ _ _ alternative =>
    simp only [children, List.mem_cons, Option.mem_toList] at h
    rcases h with rfl | rfl | h
    · simp +arith
    · simp +arith
    · cases alternative with
      | none => simp at h
      | some node =>
        simp only [Option.some.injEq] at h
        subst h
        simp +arith
  | function =>
    simp only [children, List.mem_append, List.mem_singleton] at h
    rcases h with h | rfl
    · have := List.sizeOf_lt_of_mem h
      simp +arith
      omega
    · simp +arith
  | call =>
    simp only [children, List.mem_cons] at h
    rcases h with rfl | h
    · simp +arith
    · have := List.sizeOf_lt_of_mem h
      simp +arith
      omega

/-- A property of every tree, from the children of a node to the node. -/
@[elab_as_elim]
theorem childrenInduction {motive : Node → Prop} (node : Node)
    (step : ∀ node, (∀ child ∈ node.children, motive child) → motive node) : motive node :=
  step node fun child isChild =>
    have := sizeOf_lt_of_mem_children isChild
    childrenInduction child step
termination_by node

/-- The text of the token that introduced a node; for a program, that of its first statement. -/
def tokenLiteral : Node → Text
  | program [] => []
  | program (statement :: _) => statement.tokenLiteral
  | node => (node.token?.map Token.literal).getD []

mutual

/-- Whether two trees are equal, their tokens left aside. -/
def same : Node → Node → Bool
  | identifier _ a, identifier _ b => a == b
  | integer _ a, integer _ b => a == b
  | boolean _ a, boolean _ b => a == b
  | unary _ a r, unary _ b s => a == b && same r s
  | binary _ l a r, binary _ k b s => same l k && a == b && same r s
  | letStatement _ n v, letStatement _ m w => same n m && same v w
  | returnStatement _ v, returnStatement _ w => same v w
  | expressionStatement _ e, expressionStatement _ f => same e f
  | block _ xs, block _ ys => sameAll xs ys
  | conditional _ c k none, conditional _ d j none => same c d && same k j
  | conditional _ c k (some a), conditional _ d j (some b) => same c d && same k j && same a b
  | function _ xs e, function _ ys f => sameAll xs ys && same e f
  | call _ f xs, call _ g ys => same f g && sameAll xs ys
  | program xs, program ys => sameAll xs ys
  | _, _ => false

def sameAll : List Node → List Node → Bool
  | [], [] => true
  | a :: xs, b :: ys => same a b && sameAll xs ys
  | _, _ => false

end

mutual

theorem same_refl : (node : Node) → node.same node = true
  | identifier .. | integer .. | boolean .. => by simp [same]
  | unary _ _ r => by simp [same, same_refl r]
  | binary _ l _ r => by simp [same, same_refl l, same_refl r]
  | letStatement _ n v => by simp [same, same_refl n, same_refl v]
  | returnStatement _ v => by simp [same, same_refl v]
  | expressionStatement _ e => by simp [same, same_refl e]
  | block _ xs => by simp [same, sameAll_refl xs]
  | conditional _ c k none => by simp [same, same_refl c, same_refl k]
  | conditional _ c k (some a) => by simp [same, same_refl c, same_refl k, same_refl a]
  | function _ xs e => by simp [same, sameAll_refl xs, same_refl e]
  | call _ f xs => by simp [same, same_refl f, sameAll_refl xs]
  | program xs => by simp [same, sameAll_refl xs]

theorem sameAll_refl : (nodes : List Node) → sameAll nodes nodes = true
  | [] => by simp [sameAll]
  | a :: xs => by simp [sameAll, same_refl a, sameAll_refl xs]

end

end Node

end MonkeySyntax
