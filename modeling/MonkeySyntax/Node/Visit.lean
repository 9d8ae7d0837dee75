import MonkeySyntax.Node

/-!
# Visits

Visiting a tree with handlers for some of its nodes, which are chosen by the kind of a node and may
act. A handled node is not descended into, and any other node is replaced by what its children
yield: `visit_of_handles` and `visit_of_not_handles`.
-/

namespace MonkeySyntax

/-- What a visit yields: a handler's result, or the list of what the children of a node yield. -/
inductive Yield (α : Type) where
  | handled (result : α)
  | children (results : List (Yield α))

mutual

def Yield.results {α : Type} : Yield α → List α
  | .handled result => [result]
  | .children yields => Yield.resultsOfAll yields

def Yield.resultsOfAll {α : Type} : List (Yield α) → List α
  | [] => []
  | yield :: rest => yield.results ++ Yield.resultsOfAll rest

end

/-- A visitor: the kinds of nodes that it has handlers for, by name, and what these do with a node. -/
structure Visitor (m : Type → Type) (α : Type) where
  handles : Text → Bool
  handle : Node → m α

namespace Visitor

/-- Visits a tree: a handler acts on a node that there is one for, and the children of any other are
visited one after another. -/
def visit {m : Type → Type} [Monad m] {α : Type} (visitor : Visitor m α) (node : Node) :
    m (Yield α) :=
  if visitor.handles node.kind.name then Yield.handled <$> visitor.handle node
  else Yield.children <$> node.children.attach.mapM fun child => visitor.visit child.1
termination_by node
decreasing_by exact Node.sizeOf_lt_of_mem_children child.2

section

variable {m : Type → Type} [Monad m] {α : Type} {visitor : Visitor m α} {node : Node}

theorem visit_of_handles (h : visitor.handles node.kind.name) :
    visitor.visit node = Yield.handled <$> visitor.handle node := by
  rw [visit, if_pos h]

theorem visit_of_not_handles [LawfulMonad m] (h : visitor.handles node.kind.name = false) :
    visitor.visit node = Yield.children <$> node.children.mapM visitor.visit := by
  rw [visit, if_neg (by simp [h])]
  simp [List.mapM_subtype]

end

end Visitor

end MonkeySyntax
