import MonkeySyntax.Node

/-!
# Canonical source

A tree as source text in one fixed layout. Operators are always in parentheses, so the text shows
which operands they have. `renderEach_eq_map` says that lists are rendered member by member.
-/

namespace MonkeySyntax.Node

/-- Whether a node is an operator with its operands, which brings its own parentheses. -/
def isOperation : Node → Bool
  | unary .. | binary .. => true
  | _ => false

/-- Whether a node is an expression in the place of a statement. -/
def isExpressionStatement : Node → Bool
  | expressionStatement .. => true
  | _ => false

/-- Statements in a row, given with their texts. An expression that another statement follows needs
a semicolon, because it brings none. -/
def sequenced : List (Node × Text) → Text
  | [] => []
  | [(_, text)] => text
  | (statement, text) :: next :: rest =>
    text ++ (if statement.isExpressionStatement then [';', ' '] else [' ']) ++
      sequenced (next :: rest)

/-! ### The form of each kind of node, given the texts of its parts -/

namespace Form

def boolean (value : Bool) : Text := if value then "true".toList else "false".toList

def unary (operator right : Text) : Text := '(' :: operator ++ right ++ [')']

def binary (left operator right : Text) : Text :=
  '(' :: left ++ ' ' :: operator ++ ' ' :: right ++ [')']

def letStatement (name value : Text) : Text :=
  "let ".toList ++ name ++ " = ".toList ++ value ++ [';']

def returnStatement (value : Text) : Text := "return ".toList ++ value ++ [';']

/-- A block without statements has no space between its braces. -/
def block (statements : List (Node × Text)) : Text :=
  if statements.isEmpty then ['{', '}'] else '{' :: ' ' :: sequenced statements ++ [' ', '}']

/-- A condition is in parentheses once, its own or those of the conditional. -/
def condition (condition : Node) (text : Text) : Text :=
  if condition.isOperation then text else '(' :: text ++ [')']

def conditional (condition consequence : Text) (alternative : Option Text) : Text :=
  "if ".toList ++ condition ++ ' ' :: consequence ++
    match alternative with
    | none => []
    | some text => " else ".toList ++ text

def listed (texts : List Text) : Text := joined [',', ' '] texts

def function (parameters : List Text) (body : Text) : Text :=
  "fn(".toList ++ listed parameters ++ [')', ' '] ++ body

def call (callee : Text) (arguments : List Text) : Text :=
  callee ++ '(' :: listed arguments ++ [')']

end Form

mutual

/-- The canonical source of a tree. -/
def render : Node → Text
  | identifier _ name => name
  | integer _ value => Decimal.ofInt value
  | boolean _ value => Form.boolean value
  | unary _ operator right => Form.unary operator (render right)
  | binary _ left operator right => Form.binary (render left) operator (render right)
  | letStatement _ name value => Form.letStatement (render name) (render value)
  | returnStatement _ value => Form.returnStatement (render value)
  | expressionStatement _ expression => render expression
  | block _ statements => Form.block (statements.zip (renderEach statements))
  | conditional _ condition consequence none =>
    Form.conditional (Form.condition condition (render condition)) (render consequence) none
  | conditional _ condition consequence (some alternative) =>
    Form.conditional (Form.condition condition (render condition)) (render consequence)
      (some (render alternative))
  | function _ parameters body => Form.function (renderEach parameters) (render body)
  | call _ callee arguments => Form.call (render callee) (renderEach arguments)
  | program statements => sequenced (statements.zip (renderEach statements))

def renderEach : List Node → List Text
  | [] => []
  | node :: rest => render node :: renderEach rest

end

theorem renderEach_eq_map (nodes : List Node) : renderEach nodes = nodes.map render := by
  induction nodes with
  | nil => rfl
  | cons node rest ih => simp [renderEach, ih]

def renderStatements (statements : List Node) : Text :=
  sequenced (statements.map fun statement => (statement, statement.render))

theorem zip_renderEach (nodes : List Node) :
    nodes.zip (renderEach nodes) = nodes.map fun node => (node, node.render) := by
  induction nodes with
  | nil => rfl
  | cons node rest ih => simp [renderEach, ih]

theorem render_program (statements : List Node) :
    (program statements).render = renderStatements statements := by
  rw [render, zip_renderEach, renderStatements]

end MonkeySyntax.Node
