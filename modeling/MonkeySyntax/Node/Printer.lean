import MonkeySyntax.Node.Outline

/-!
# Printers

A printer writes the outlines of trees, one after another. It keeps how deep it is and the lines
that it has written, and starts afresh with each tree. `visit_eq` says what it does with a node,
whatever its kind.
-/

namespace MonkeySyntax

structure Printer where
  level : Int := 0
  lines : List Text := []

namespace Printer

def deeper (printer : Printer) : Printer := { printer with level := printer.level + 1 }

def shallower (printer : Printer) : Printer := { printer with level := printer.level - 1 }

@[simp] theorem shallower_deeper (printer : Printer) : printer.deeper.shallower = printer := by
  simp [deeper, shallower]

/-- Writes the line of a node: its kind, a detail if there is one, and its place if that is known. -/
def emit (printer : Printer) (node : Node) (detail : Text := []) : Printer :=
  let label := node.kind.name
  let label := if detail = [] then label else label ++ [':', ' '] ++ detail
  let label := match node.token? with
    | none => label
    | some token =>
      if token.position.line = 0 then label
      else
        label ++ " (line ".toList ++ Decimal.ofInt token.position.line ++
          ", column ".toList ++ Decimal.ofInt token.position.column ++ [')']
  { printer with
    lines := printer.lines ++ [List.replicate (2 * printer.level.toNat) ' ' ++ label] }

mutual

/-- Writes the lines of a tree. A statement that binds a name has the name in its line, and a leaf
or an operator what it says. -/
def visit (printer : Printer) (node : Node) : Printer :=
  match _ : node with
  | .identifier _ name => printer.emit node name
  | .integer _ value => printer.emit node (Decimal.ofInt value)
  | .boolean .. => printer.emit node node.render
  | .unary _ operator _ | .binary _ _ operator _ =>
    (printer.emit node operator).visitChildren node
  | .letStatement _ name value =>
    ((printer.emit node name.render).deeper.visit value).shallower
  | _ => (printer.emit node).visitChildren node
termination_by (sizeOf node, 1)
decreasing_by all_goals (subst_vars; decreasing_tactic)

/-- Writes the lines of the children of a node one level deeper. -/
def visitChildren (printer : Printer) (node : Node) : Printer :=
  (node.children.attach.foldl (fun printer child => printer.visit child.1) printer.deeper).shallower
termination_by (sizeOf node, 0)
decreasing_by exact .left _ _ (Node.sizeOf_lt_of_mem_children child.2)

end

theorem visitChildren_eq (printer : Printer) (node : Node) :
    visitChildren printer node = (node.children.foldl visit printer.deeper).shallower := by
  rw [visitChildren]
  simp

theorem visit_eq (printer : Printer) (node : Node) :
    printer.visit node =
      (node.shownChildren.foldl visit (printer.emit node node.detail).deeper).shallower := by
  cases node with
  | identifier | integer | letStatement =>
    simp [visit, Node.shownChildren, Node.children, Node.detail]
  | boolean => simp [visit, Node.shownChildren, Node.children, Node.detail, Node.render]
  | _ => simp [visit, visitChildren_eq, Node.shownChildren, Node.detail]

/-- The outline of a tree, and the printer afterwards. -/
def format (printer : Printer) (root : Node) : Text × Printer :=
  let printer := visit { printer with level := 0, lines := [] } root
  (printer.lines.flatMap fun line => line ++ ['\n'], printer)

/-- The outlines of trees that one printer formats one after another, each with the printer
afterwards. -/
def formatEach (printer : Printer) : List Node → List (Text × Printer)
  | [] => []
  | root :: roots => printer.format root :: (printer.format root).2.formatEach roots

end Printer

end MonkeySyntax
