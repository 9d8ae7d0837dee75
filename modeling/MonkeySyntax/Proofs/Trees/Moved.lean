import MonkeySyntax.Cursor
import MonkeySyntax.Proofs.Trees.Bare

/-!
# Items and trees that stand elsewhere

An item is moved by changing its place, and a tree by moving its tokens. Nothing else changes: a
moved tree is the same tree (`bare_moved`).
-/

namespace MonkeySyntax

def Token.moved (move : Position → Position) (token : Token) : Token :=
  { token with position := move token.position }

def Item.moved (move : Position → Position) : Item → Item
  | .token t => .token (t.moved move)
  | .badName literal position => .badName literal (move position)

namespace Node

variable (move : Position → Position)

mutual

def moved : Node → Node
  | identifier t name => identifier (t.moved move) name
  | integer t value => integer (t.moved move) value
  | boolean t value => boolean (t.moved move) value
  | unary t operator right => unary (t.moved move) operator (moved right)
  | binary t left operator right => binary (t.moved move) (moved left) operator (moved right)
  | letStatement t name value => letStatement (t.moved move) (moved name) (moved value)
  | returnStatement t value => returnStatement (t.moved move) (moved value)
  | expressionStatement t expression => expressionStatement (t.moved move) (moved expression)
  | block t statements => block (t.moved move) (movedEach statements)
  | conditional t condition consequence alternative =>
    conditional (t.moved move) (moved condition) (moved consequence) (movedIfAny alternative)
  | function t parameters body => function (t.moved move) (movedEach parameters) (moved body)
  | call t callee arguments => call (t.moved move) (moved callee) (movedEach arguments)
  | program statements => program (movedEach statements)

def movedEach : List Node → List Node
  | [] => []
  | node :: rest => moved node :: movedEach rest

def movedIfAny : Option Node → Option Node
  | none => none
  | some node => some (moved node)

end

theorem movedEach_eq_map (nodes : List Node) : movedEach move nodes = nodes.map (moved move) := by
  induction nodes with
  | nil => rfl
  | cons node nodes ih => rw [movedEach, ih, List.map_cons]

theorem bareEach_append (nodes more : List Node) :
    bareEach (nodes ++ more) = bareEach nodes ++ bareEach more := by
  induction nodes with
  | nil => rfl
  | cons node nodes ih => rw [List.cons_append, bareEach, bareEach, ih, List.cons_append]

mutual

theorem bare_moved : (node : Node) → (node.moved move).bare = node.bare
  | identifier .. | integer .. | boolean .. => rfl
  | unary _ _ r => by simp only [moved, bare, bare_moved r]
  | binary _ l _ r => by simp only [moved, bare, bare_moved l, bare_moved r]
  | letStatement _ n v => by simp only [moved, bare, bare_moved n, bare_moved v]
  | returnStatement _ v => by simp only [moved, bare, bare_moved v]
  | expressionStatement _ e => by simp only [moved, bare, bare_moved e]
  | block _ xs => by simp only [moved, bare, bareEach_moved xs]
  | conditional _ c k none => by
    simp only [moved, movedIfAny, bare, bareIfAny, bare_moved c, bare_moved k]
  | conditional _ c k (some a) => by
    simp only [moved, movedIfAny, bare, bareIfAny, bare_moved c, bare_moved k, bare_moved a]
  | function _ xs e => by simp only [moved, bare, bareEach_moved xs, bare_moved e]
  | call _ f xs => by simp only [moved, bare, bare_moved f, bareEach_moved xs]
  | program xs => by simp only [moved, bare, bareEach_moved xs]

theorem bareEach_moved : (nodes : List Node) → bareEach (movedEach move nodes) = bareEach nodes
  | [] => rfl
  | a :: xs => by simp only [movedEach, bareEach, bare_moved a, bareEach_moved xs]

end

mutual

theorem moved_id : (node : Node) → node.moved id = node
  | identifier .. | integer .. | boolean .. => rfl
  | unary _ _ r => by simp only [moved, moved_id r]; rfl
  | binary _ l _ r => by simp only [moved, moved_id l, moved_id r]; rfl
  | letStatement _ n v => by simp only [moved, moved_id n, moved_id v]; rfl
  | returnStatement _ v => by simp only [moved, moved_id v]; rfl
  | expressionStatement _ e => by simp only [moved, moved_id e]; rfl
  | block _ xs => by simp only [moved, movedEach_id xs]; rfl
  | conditional _ c k none => by simp only [moved, movedIfAny, moved_id c, moved_id k]; rfl
  | conditional _ c k (some a) => by
    simp only [moved, movedIfAny, moved_id c, moved_id k, moved_id a]
    rfl
  | function _ xs e => by simp only [moved, movedEach_id xs, moved_id e]; rfl
  | call _ f xs => by simp only [moved, moved_id f, movedEach_id xs]; rfl
  | program xs => by simp only [moved, movedEach_id xs]

theorem movedEach_id : (nodes : List Node) → movedEach id nodes = nodes
  | [] => rfl
  | a :: xs => by simp only [movedEach, moved_id a, movedEach_id xs]

end

end Node

end MonkeySyntax
