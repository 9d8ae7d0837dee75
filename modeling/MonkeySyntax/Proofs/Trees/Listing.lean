import Mathlib.Data.List.Basic
import MonkeySyntax.Proofs.Trees.SourceTokens

/-!
# Listings

The nodes that have a line in the outline of a tree: all in preorder, but for the names of statements
that bind one (`preorderFrom_eq_listedFrom`). The outline is their lines (`outline_eq_lines`).
-/

namespace MonkeySyntax.Node

/-- The nodes of a tree that have a line of their own in its outline, with their depths, each before
those below it. -/
def listedFrom (depth : Nat) (node : Node) : List (Nat × Node) :=
  (depth, node) :: node.shownChildren.attach.flatMap fun child => listedFrom (depth + 1) child.1
termination_by node
decreasing_by exact sizeOf_lt_of_mem_children (mem_children_of_mem_shownChildren child.2)

def listed (root : Node) : List (Nat × Node) := listedFrom 0 root

theorem listedFrom_eq (depth : Nat) (node : Node) :
    listedFrom depth node =
      (depth, node) :: node.shownChildren.flatMap (listedFrom (depth + 1)) := by
  rw [listedFrom]
  simp

/-- The lines of the listed nodes. -/
def lines (entries : List (Nat × Node)) : Text :=
  entries.flatMap fun (depth, node) => node.line depth

theorem lines_cons (depth : Nat) (node : Node) (entries : List (Nat × Node)) :
    lines ((depth, node) :: entries) = node.line depth ++ lines entries :=
  List.flatMap_cons

theorem lines_append (entries more : List (Nat × Node)) :
    lines (entries ++ more) = lines entries ++ lines more :=
  List.flatMap_append

theorem outlineBefore_eq_lines (depth : Nat) (node : Node) (after : Text) :
    outlineBefore depth node after = lines (listedFrom depth node) ++ after := by
  induction node using childrenInduction generalizing depth after with
  | step node ih =>
    have below : ∀ nodes : List Node, (∀ child ∈ nodes, child ∈ node.children) →
        nodes.foldr (outlineBefore (depth + 1)) after =
          lines (nodes.flatMap (listedFrom (depth + 1))) ++ after := by
      intro nodes areChildren
      induction nodes with
      | nil => rfl
      | cons child nodes tail =>
        obtain ⟨isChild, others⟩ := List.forall_mem_cons.mp areChildren
        rw [List.foldr_cons, tail others, ih child isChild, List.flatMap_cons, lines_append,
          List.append_assoc]
    rw [outlineBefore_eq, below _ fun _ => mem_children_of_mem_shownChildren, listedFrom_eq,
      lines_cons, List.append_assoc]

theorem outline_eq_lines (root : Node) : root.outline = lines root.listed := by
  rw [outline, outlineBefore_eq_lines, List.append_nil, listed]

/-! ### Which nodes are listed -/

/-- The nodes directly below a node that have no line of their own. -/
def unlisted : Node → List Node
  | letStatement _ name _ => [name]
  | _ => []

theorem children_eq (node : Node) : node.children = node.unlisted ++ node.shownChildren := by
  cases node <;> rfl

/-- What a statement binds is a name. -/
def BindsName : Node → Prop
  | letStatement _ name _ => ∃ t text, name = .identifier t text
  | _ => True

theorem preorderFrom_unlisted {node name : Node} (binds : node.BindsName)
    (isName : name ∈ node.unlisted) (depth : Nat) : name.preorderFrom depth = [(depth, name)] := by
  cases node with
  | letStatement =>
    obtain ⟨t, text, rfl⟩ := binds
    obtain rfl := List.mem_singleton.mp isName
    rw [preorderFrom_eq]
    rfl
  | _ => contradiction

/-- Preorder goes through the listed nodes, and behind a statement that binds a name through that
name. -/
theorem preorderFrom_eq_listedFrom {node : Node} (binds : All BindsName node) (depth : Nat) :
    node.preorderFrom depth = (node.listedFrom depth).flatMap fun (level, node) =>
      (level, node) :: node.unlisted.map fun name => (level + 1, name) := by
  induction binds generalizing depth with
  | @node node here below ih =>
    have names : node.unlisted.flatMap (preorderFrom (depth + 1)) =
        node.unlisted.map fun name => (depth + 1, name) := by
      rw [List.map_eq_flatMap]
      exact List.flatMap_congr fun name isName => preorderFrom_unlisted here isName (depth + 1)
    rw [preorderFrom_eq, children_eq, List.flatMap_append, names, listedFrom_eq, List.flatMap_cons,
      List.flatMap_assoc, List.cons_append]
    congr 2
    exact List.flatMap_congr fun child isChild =>
      ih child (mem_children_of_mem_shownChildren isChild) (depth + 1)

theorem mem_preorderFrom_of_mem_listedFrom {node : Node} {depth : Nat} {entry : Nat × Node}
    (member : entry ∈ node.listedFrom depth) : entry ∈ node.preorderFrom depth := by
  induction node using childrenInduction generalizing depth with
  | step node ih =>
    rw [listedFrom_eq] at member
    rw [preorderFrom_eq]
    rcases List.mem_cons.mp member with rfl | member
    · exact List.mem_cons_self
    · obtain ⟨child, isShown, member⟩ := List.mem_flatMap.mp member
      have isChild := mem_children_of_mem_shownChildren isShown
      exact List.mem_cons_of_mem _ (List.mem_flatMap.mpr ⟨child, isChild, ih child isChild member⟩)

theorem le_of_mem_preorderFrom {root node : Node} {depth level : Nat}
    (member : (level, node) ∈ root.preorderFrom depth) : depth ≤ level := by
  induction root using childrenInduction generalizing depth with
  | step root ih =>
    rw [preorderFrom_eq] at member
    rcases List.mem_cons.mp member with same | member
    · cases same
      exact Nat.le_refl _
    · obtain ⟨child, isChild, member⟩ := List.mem_flatMap.mp member
      exact Nat.le_of_succ_le (ih child isChild member)

/-- Only the root stands at depth zero. -/
theorem eq_of_mem_preorder {root node : Node} (member : (0, node) ∈ root.preorder) :
    node = root := by
  rw [preorder, preorderFrom_eq] at member
  rcases List.mem_cons.mp member with same | member
  · cases same
    rfl
  · obtain ⟨child, _, member⟩ := List.mem_flatMap.mp member
    exact absurd (le_of_mem_preorderFrom member) (Nat.not_succ_le_zero 0)

end MonkeySyntax.Node
