import Mathlib.Data.List.Basic
import MonkeySyntax.Node.Outline
import MonkeySyntax.Node.Visit

/-!
# What a visit does

A visitor acts on the handled nodes that stand below no other handled node, each once and in
preorder, and what it yields is the tree cut at these nodes (`visit_cuts`).
-/

namespace MonkeySyntax

namespace Node

/-! ### Nodes and what they stand below -/

/-- The nodes of a tree in preorder, each with the nodes that it stands below. -/
def lineageFrom (above : List Node) (node : Node) : List (List Node × Node) :=
  (above, node) :: node.children.attach.flatMap fun child => lineageFrom (above ++ [node]) child.1
termination_by node
decreasing_by exact sizeOf_lt_of_mem_children child.2

def lineage (root : Node) : List (List Node × Node) := lineageFrom [] root

theorem lineageFrom_eq (above : List Node) (node : Node) :
    lineageFrom above node =
      (above, node) :: node.children.flatMap (lineageFrom (above ++ [node])) := by
  rw [lineageFrom]
  simp

/-- Going down the lineage is going through the preorder: a node is as deep as there are nodes
above it. -/
theorem preorderFrom_eq_map_lineageFrom (above : List Node) (node : Node) :
    preorderFrom above.length node =
      (lineageFrom above node).map fun (above, node) => (above.length, node) := by
  induction node using childrenInduction generalizing above with
  | step node ih =>
    rw [preorderFrom_eq, lineageFrom_eq, List.map_cons, List.map_flatMap]
    refine congrArg _ (List.flatMap_congr fun child isChild => ?_)
    rw [← ih child isChild, List.length_append, List.length_singleton]

theorem lineageFrom_append (above more : List Node) (node : Node) :
    lineageFrom (above ++ more) node =
      (lineageFrom more node).map fun (behind, node) => (above ++ behind, node) := by
  induction node using childrenInduction generalizing more with
  | step node ih =>
    rw [lineageFrom_eq, lineageFrom_eq more, List.map_cons, List.map_flatMap]
    refine congrArg _ (List.flatMap_congr fun child isChild => ?_)
    rw [List.append_assoc, ih child isChild]

/-- The handled nodes that stand below no other handled node, in preorder. -/
def outermost (handled : Node → Bool) (root : Node) : List Node :=
  (root.lineage.filter fun (above, node) => handled node && above.all (!handled ·)).map Prod.snd

variable {handled : Node → Bool} {root : Node}

theorem outermost_of_handled (here : handled root) : root.outermost handled = [root] := by
  have below : (root.children.flatMap (lineageFrom ([] ++ [root]))).filter
      (fun (above, node) => handled node && above.all (!handled ·)) = [] := by
    rw [List.filter_eq_nil_iff]
    intro entry member
    obtain ⟨child, _, member⟩ := List.mem_flatMap.mp member
    rw [List.nil_append, ← List.append_nil [root], lineageFrom_append] at member
    obtain ⟨inner, _, rfl⟩ := List.mem_map.mp member
    simp [here]
  rw [outermost, lineage, lineageFrom_eq, List.filter_cons_of_pos (by simp [here]), below]
  rfl

theorem outermost_of_not_handled (here : handled root = false) :
    root.outermost handled = root.children.flatMap (outermost handled) := by
  rw [outermost, lineage, lineageFrom_eq, List.filter_cons_of_neg (by simp [here]),
    List.filter_flatMap, List.map_flatMap]
  refine List.flatMap_congr fun child _ => ?_
  rw [List.nil_append, ← List.append_nil [root], lineageFrom_append, List.filter_map, List.map_map]
  simp [outermost, lineage, Function.comp_def, here]

end Node

/-! ### Answers and where they go -/

mutual

/-- What becomes of a tree that is cut at its handled nodes, given their answers in preorder: an
answer stands for its node, and any other node is replaced by what becomes of its children. -/
inductive Cut {α : Type} (handled : Node → Bool) : Node → List α → Yield α → Prop
  | handled {node : Node} {answer : α} : handled node →
      Cut handled node [answer] (.handled answer)
  | children {node : Node} {answers : List α} {yields : List (Yield α)} : handled node = false →
      CutEach handled node.children answers yields → Cut handled node answers (.children yields)

inductive CutEach {α : Type} (handled : Node → Bool) :
    List Node → List α → List (Yield α) → Prop
  | nil : CutEach handled [] [] []
  | cons {node : Node} {nodes : List Node} {answers more : List α} {yield : Yield α}
      {yields : List (Yield α)} : Cut handled node answers yield →
      CutEach handled nodes more yields →
      CutEach handled (node :: nodes) (answers ++ more) (yield :: yields)

end

mutual

/-- A cut tree has every answer, and in preorder. -/
theorem Cut.results {α : Type} {handled : Node → Bool} {node : Node} {answers : List α}
    {yield : Yield α} : Cut handled node answers yield → yield.results = answers
  | .handled _ => rfl
  | .children _ each => each.results

theorem CutEach.results {α : Type} {handled : Node → Bool} {nodes : List Node} {answers : List α}
    {yields : List (Yield α)} : CutEach handled nodes answers yields →
      Yield.resultsOfAll yields = answers
  | .nil => rfl
  | .cons first others => by rw [Yield.resultsOfAll, first.results, others.results]

end

variable {m : Type → Type} [Monad m] [LawfulMonad m] {α β γ : Type}

/-- What is done with the answers matters only where there is one to each question. -/
theorem mapM_bind_congr {questions : List β} {ask : β → m α} {next other : List α → m γ}
    (agree : ∀ answers, answers.length = questions.length → next answers = other answers) :
    questions.mapM ask >>= next = questions.mapM ask >>= other := by
  induction questions generalizing next other with
  | nil => simp [agree [] rfl]
  | cons question questions ih =>
    simp only [List.mapM_cons, bind_assoc, pure_bind]
    exact bind_congr fun answer => ih fun answers length => agree _ (by simp [length])

namespace Visitor

variable {visitor : Visitor m α}

def handlesNode (visitor : Visitor m α) (node : Node) : Bool := visitor.handles node.kind.name

/-- An action asks the handlers about some nodes, one after another, and does nothing else; its
result is right for the answers. -/
def Asks (visitor : Visitor m α) (nodes : List Node) (action : m γ) (right : List α → γ → Prop) :
    Prop :=
  ∃ result : List α → γ, action = result <$> nodes.mapM visitor.handle ∧
    ∀ answers, answers.length = nodes.length → right answers (result answers)

theorem asks_handled {node : Node} (here : visitor.handlesNode node) :
    visitor.Asks [node] (visitor.visit node) (Cut visitor.handlesNode node) := by
  refine ⟨fun answers => answers.head?.elim (.children []) .handled, ?_, ?_⟩
  · rw [visit_of_handles here]
    simp
  · intro answers length
    obtain ⟨answer, rfl⟩ := List.length_eq_one_iff.mp length
    exact .handled here

theorem Asks.children {node : Node} {nodes : List Node} {action : m (List (Yield α))}
    (asks : visitor.Asks nodes action (CutEach visitor.handlesNode node.children))
    (here : visitor.handlesNode node = false) :
    visitor.Asks nodes (Yield.children <$> action) (Cut visitor.handlesNode node) := by
  obtain ⟨result, rfl, right⟩ := asks
  refine ⟨fun answers => .children (result answers), ?_, ?_⟩
  · rw [Functor.map_map]
  · exact fun answers length => .children here (right answers length)

theorem Asks.cons {node : Node} {nodes asked others : List Node} {first : m (Yield α)}
    {rest : m (List (Yield α))} (asks : visitor.Asks asked first (Cut visitor.handlesNode node))
    (asksOthers : visitor.Asks others rest (CutEach visitor.handlesNode nodes)) :
    visitor.Asks (asked ++ others) (do return (← first) :: (← rest))
      (CutEach visitor.handlesNode (node :: nodes)) := by
  obtain ⟨result, rfl, right⟩ := asks
  obtain ⟨results, rfl, rights⟩ := asksOthers
  refine ⟨fun answers => result (answers.take asked.length) :: results (answers.drop asked.length),
    ?_, ?_⟩
  · simp only [List.mapM_append, map_eq_pure_bind, bind_assoc, pure_bind]
    refine mapM_bind_congr fun answers length => bind_congr fun more => ?_
    rw [List.take_left' length, List.drop_left' length]
  · intro answers length
    rw [List.length_append] at length
    have here := right (answers.take asked.length) (by rw [List.length_take]; omega)
    have behind := rights (answers.drop asked.length) (by rw [List.length_drop]; omega)
    have both := CutEach.cons here behind
    rwa [List.take_append_drop] at both

theorem asks_each {nodes : List Node} (each : ∀ node ∈ nodes,
      visitor.Asks (node.outermost visitor.handlesNode) (visitor.visit node)
        (Cut visitor.handlesNode node)) :
    visitor.Asks (nodes.flatMap (Node.outermost visitor.handlesNode)) (nodes.mapM visitor.visit)
      (CutEach visitor.handlesNode nodes) := by
  induction nodes with
  | nil =>
    refine ⟨fun _ => [], by simp, ?_⟩
    intro answers length
    rw [List.length_eq_zero_iff.mp length]
    exact .nil
  | cons node nodes ih =>
    obtain ⟨first, others⟩ := List.forall_mem_cons.mp each
    rw [List.flatMap_cons, List.mapM_cons]
    exact first.cons (ih others)

theorem asks_visit (visitor : Visitor m α) (root : Node) :
    visitor.Asks (root.outermost visitor.handlesNode) (visitor.visit root)
      (Cut visitor.handlesNode root) := by
  induction root using Node.childrenInduction with
  | step node ih =>
    cases here : visitor.handlesNode node with
    | true =>
      rw [Node.outermost_of_handled here]
      exact asks_handled here
    | false =>
      rw [Node.outermost_of_not_handled here, visit_of_not_handles here]
      exact (asks_each ih).children here

/-- A visit asks the handlers about the outermost nodes that there are handlers for, about each once
and in preorder, and yields the tree cut at these nodes with the answers in their places. -/
theorem visit_cuts (visitor : Visitor m α) (root : Node) :
    (root.lineage.map fun (above, node) => (above.length, node)) = root.preorder ∧
      visitor.Asks (root.outermost visitor.handlesNode) (visitor.visit root)
        (Cut visitor.handlesNode root) :=
  ⟨(Node.preorderFrom_eq_map_lineageFrom [] root).symm, asks_visit visitor root⟩

/-- Handlers that keep a log are not asked about the operand of a handled operator. -/
theorem visit_cuts_logging :
    let visitor : Visitor (StateM (List Text)) Text :=
      { handles := fun name => name == NodeKind.identifier.name || name == NodeKind.unary.name
        handle := fun node => do modify (· ++ [node.render]); return node.kind.name }
    let t : Token := ⟨.ident, ['a'], ⟨1, 1⟩⟩
    let root : Node := .letStatement t (.identifier t ['a'])
      (.call t (.unary t ['-'] (.identifier t ['b'])) [.integer t 1, .identifier t ['c']])
    visitor.Asks [.identifier t ['a'], .unary t ['-'] (.identifier t ['b']), .identifier t ['c']]
      (visitor.visit root) (Cut visitor.handlesNode root) := by
  intro visitor t root
  have kinds (kind : NodeKind) :
      visitor.handles kind.name = (kind = .identifier || kind = .unary) := by
    cases kind <;> decide +kernel
  have asks := (visit_cuts visitor root).2
  simpa [Node.outermost_of_handled, Node.outermost_of_not_handled, handlesNode, kinds, Node.kind,
    Node.children, root] using asks

end Visitor

end MonkeySyntax
