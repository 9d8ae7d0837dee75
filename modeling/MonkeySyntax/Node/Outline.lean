import MonkeySyntax.Node.Render

/-!
# Tree dumps

A tree as an outline: one line for each node, indented by its depth. `outlineBefore_eq` and
`preorderFrom_eq` say how a node's lines and listing come from those of its children.
-/

namespace MonkeySyntax.Node

/-- What an outline shows of a node besides its kind. -/
def detail : Node → Text
  | identifier _ name => name
  | integer _ value => Decimal.ofInt value
  | boolean _ value => Form.boolean value
  | unary _ operator _ => operator
  | binary _ _ operator _ => operator
  | letStatement _ name _ => name.render
  | _ => []

/-- The label of a node: its kind, its detail, and its place when that is known. -/
def label (node : Node) : Text :=
  let detail := if node.detail = [] then [] else ':' :: ' ' :: node.detail
  let place := match node.token? with
    | none => []
    | some token =>
      if token.position.line = 0 then []
      else
        " (line ".toList ++ Decimal.ofInt token.position.line ++
          ", column ".toList ++ Decimal.ofInt token.position.column ++ [')']
  node.kind.name ++ detail ++ place

/-- The nodes that stand below a node in an outline: a statement that binds a name shows the name
itself. -/
def shownChildren : Node → List Node
  | letStatement _ _ value => [value]
  | node => node.children

theorem mem_children_of_mem_shownChildren {child node : Node} (h : child ∈ node.shownChildren) :
    child ∈ node.children := by
  cases node with
  | letStatement => simp only [shownChildren, children, List.mem_cons] at h ⊢; exact .inr h
  | _ => exact h

def line (depth : Nat) (node : Node) : Text :=
  List.replicate (2 * depth) ' ' ++ (node.label ++ ['\n'])

/-- The lines of the outline of a node at a depth, before the text that follows them. -/
def outlineBefore (depth : Nat) (node : Node) (after : Text) : Text :=
  node.line depth ++
    node.shownChildren.attach.foldr (fun child text => outlineBefore (depth + 1) child.1 text) after
termination_by node
decreasing_by exact sizeOf_lt_of_mem_children (mem_children_of_mem_shownChildren child.2)

def outline (node : Node) : Text := outlineBefore 0 node []

theorem outlineBefore_eq (depth : Nat) (node : Node) (after : Text) :
    outlineBefore depth node after =
      node.line depth ++ node.shownChildren.foldr (outlineBefore (depth + 1)) after := by
  rw [outlineBefore]
  simp

/-- The nodes of a tree with their depths, each before the nodes below it. -/
def preorderFrom (depth : Nat) (node : Node) : List (Nat × Node) :=
  (depth, node) :: node.children.attach.flatMap fun child => preorderFrom (depth + 1) child.1
termination_by node
decreasing_by exact sizeOf_lt_of_mem_children child.2

def preorder (node : Node) : List (Nat × Node) := preorderFrom 0 node

theorem preorderFrom_eq (depth : Nat) (node : Node) :
    preorderFrom depth node =
      (depth, node) :: node.children.flatMap (preorderFrom (depth + 1)) := by
  rw [preorderFrom]
  simp

end MonkeySyntax.Node
