import MonkeySyntax.Node.Printer
import MonkeySyntax.Proofs.Trees.Listing

/-!
# One printer for many trees

However often a printer has been used, it formats a tree to the lines of its listed nodes, and
afterwards it is back where it began (`formatEach_eq`). What it does with one node is `visit_step`,
with a whole tree `visit_eq_append`.
-/

namespace MonkeySyntax

namespace Node

/-- The line of a node without its end. -/
def entry (depth : Nat) (node : Node) : Text := List.replicate (2 * depth) ' ' ++ node.label

def entries (listed : List (Nat × Node)) : List Text :=
  listed.map fun (depth, node) => node.entry depth

theorem entry_append_lineFeed (depth : Nat) (node : Node) :
    node.entry depth ++ ['\n'] = node.line depth :=
  List.append_assoc ..

end Node

namespace Printer

open Node

/-- A printer that has written more lines. -/
def append (printer : Printer) (written : List Text) : Printer :=
  { printer with lines := printer.lines ++ written }

theorem append_append (printer : Printer) (first others : List Text) :
    (printer.append first).append others = printer.append (first ++ others) := by
  simp [append]

theorem shallower_append (printer : Printer) (written : List Text) :
    (printer.append written).shallower = printer.shallower.append written := rfl

theorem emit_detail {printer : Printer} {depth : Nat} (level : printer.level = depth)
    (node : Node) : printer.emit node node.detail = printer.append [node.entry depth] := by
  have label : (printer.emit node node.detail).lines =
      printer.lines ++ [List.replicate (2 * depth) ' ' ++ node.label] := by
    have indent : printer.level.toNat = depth := by rw [level]; rfl
    rw [emit, Node.label, indent]
    cases node.token? with
    | none => by_cases empty : node.detail = [] <;> simp [empty]
    | some token =>
      by_cases empty : node.detail = [] <;> by_cases unknown : token.position.line = 0 <;>
        simp [empty, unknown]
  rw [append, Node.entry, ← label]
  rfl

/-- What a printer does with a node that stands at a depth, given what it does with those below. -/
theorem visit_step {printer : Printer} {depth : Nat} {node : Node} (level : printer.level = depth)
    (below : ∀ child ∈ node.shownChildren, ∀ printer : Printer, printer.level = ↑(depth + 1) →
      printer.visit child = printer.append (entries (child.listedFrom (depth + 1)))) :
    printer.visit node = printer.append (entries (node.listedFrom depth)) := by
  have each : ∀ nodes : List Node, (∀ child ∈ nodes, child ∈ node.shownChildren) →
      ∀ printer : Printer, printer.level = ↑(depth + 1) → nodes.foldl visit printer =
        printer.append (entries (nodes.flatMap (listedFrom (depth + 1)))) := by
    intro nodes areShown
    induction nodes with
    | nil => simp [append, entries]
    | cons child nodes ih =>
      intro printer deep
      obtain ⟨isShown, others⟩ := List.forall_mem_cons.mp areShown
      rw [List.foldl_cons, below child isShown printer deep, ih others (printer.append _) deep,
        append_append, List.flatMap_cons, entries, entries, ← List.map_append, ← entries]
  have deep : (printer.append [node.entry depth]).deeper.level = ↑(depth + 1) := by
    simp [deeper, append, level]
  rw [visit_eq, emit_detail level, each _ (fun _ shown => shown) _ deep, shallower_append,
    shallower_deeper, append_append, listedFrom_eq, entries, entries, List.map_cons,
    List.singleton_append]

/-- A tree that is visited at a depth leaves its lines, and the printer at that depth. -/
theorem visit_eq_append {printer : Printer} {depth : Nat} (level : printer.level = depth)
    (node : Node) : printer.visit node = printer.append (entries (node.listedFrom depth)) := by
  induction node using childrenInduction generalizing printer depth with
  | step node ih =>
    exact visit_step level fun child isShown printer deep =>
      ih child (mem_children_of_mem_shownChildren isShown) deep

/-- Each tree is begun at the margin, and with no lines. -/
theorem format_eq (printer : Printer) (root : Node) :
    printer.format root = (Node.lines root.listed, ⟨0, entries root.listed⟩) := by
  rw [format, @visit_eq_append _ 0 rfl]
  simp [append, entries, List.flatMap_map, entry_append_lineFeed, Node.lines, listed]

theorem format_eq_outline (printer : Printer) (root : Node) :
    (printer.format root).1 = root.outline := by
  rw [format_eq, outline_eq_lines]

/-- Trees that one printer formats one after another, each to its own listing: a line for each node,
as far in as it is deep, but a statement shows the name that it binds in its own line. The printer
is back at the margin after each. -/
theorem formatEach_eq (printer : Printer) {roots : List Node}
    (binds : ∀ root ∈ roots, All BindsName root) :
    ((printer.formatEach roots).map fun (text, after) => (text, after.level)) =
        (roots.map fun root => (root.listed.flatMap fun (depth, node) =>
          List.replicate (2 * depth) ' ' ++ (node.label ++ ['\n']), 0)) ∧
      ∀ root ∈ roots, root.preorder = root.listed.flatMap fun (depth, node) =>
        (depth, node) :: node.unlisted.map fun name => (depth + 1, name) := by
  constructor
  · clear binds
    induction roots generalizing printer with
    | nil => rfl
    | cons root roots ih =>
      rw [formatEach, List.map_cons, ih, List.map_cons, format_eq]
      rfl
  · exact fun root member => preorderFrom_eq_listedFrom (binds root member) 0

/-- A printer that was left deep in another tree writes two trees. -/
theorem formatEach_eq_used :
    let t : Token := ⟨.ident, [], {}⟩
    let negated : Node := .unary t ['-'] (.identifier t ['x'])
    let function : Node := .function t [.identifier t ['x']] negated
    let roots : List Node :=
      [.letStatement t (.identifier t ['f']) function, .integer ⟨.int, ['1'], ⟨2, 3⟩⟩ 1]
    let outlines : List (List String) :=
      [["MonkeyASTLetStatement: f", "  MonkeyASTFunction", "    MonkeyASTIdentifier: x",
        "    MonkeyASTPrefix: -", "      MonkeyASTIdentifier: x"],
        ["MonkeyASTInteger: 1 (line 2, column 3)"]]
    (∀ root ∈ roots, All BindsName root) ∧
      ((formatEach ⟨7, ["left over".toList]⟩ roots).map fun (text, after) => (text, after.level)) =
        outlines.map fun lines => (lines.flatMap fun line => line.toList ++ ['\n'], 0) := by
  intro t negated function roots outlines
  have name (text : Text) : All BindsName (.identifier t text) := .node trivial (by simp [children])
  have inNegated : All BindsName negated := .node trivial (by simp [negated, children, name])
  have inFunction : All BindsName function :=
    .node trivial (by simp [function, children, name, inNegated])
  have inStatement : All BindsName (.letStatement t (.identifier t ['f']) function) :=
    .node ⟨t, _, rfl⟩ (by simp [children, name, inFunction])
  have inNumber (t : Token) (n : Int) : All BindsName (.integer t n) :=
    .node trivial (by simp [children])
  have binds : ∀ root ∈ roots, All BindsName root := by
    simp [roots, inStatement, inNumber]
  refine ⟨binds, (formatEach_eq _ binds).1.trans ?_⟩
  simp only [roots, function, negated, listed, listedFrom_eq, shownChildren, children,
    List.map_cons, List.map_nil, List.flatMap_cons, List.flatMap_nil, List.cons_append,
    List.nil_append, List.append_nil]
  decide +kernel

end Printer

end MonkeySyntax
