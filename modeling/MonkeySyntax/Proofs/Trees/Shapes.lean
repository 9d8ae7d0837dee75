import MonkeySyntax.Proofs.Text.Delimited
import MonkeySyntax.Proofs.Trees.Bare
import MonkeySyntax.Proofs.Trees.Listing

/-!
# Trees from their listings

The depths, kinds and details of the listed nodes tell a tree from all others, as long as what a
statement binds is a name (`same_iff_shapes`): how deep a node stands says what it stands below.
-/

namespace MonkeySyntax

/-- What an outline shows of a node, but for its place. -/
structure Shape where
  depth : Nat
  kind : NodeKind
  detail : Text

namespace Node

def shape (depth : Nat) (node : Node) : Shape := ⟨depth, node.kind, node.detail⟩

def shapes (entries : List (Nat × Node)) : List Shape :=
  entries.map fun (depth, node) => node.shape depth

theorem shapes_append (entries more : List (Nat × Node)) :
    shapes (entries ++ more) = shapes entries ++ shapes more :=
  List.map_append

theorem shapes_listedFrom (depth : Nat) (node : Node) :
    shapes (node.listedFrom depth) =
      node.shape depth :: shapes (node.shownChildren.flatMap (listedFrom (depth + 1))) := by
  rw [listedFrom_eq]
  rfl

/-! ### Equal trees have equal shapes -/

theorem bareEach_eq_map (nodes : List Node) : bareEach nodes = nodes.map bare := by
  induction nodes with
  | nil => rfl
  | cons node nodes ih => rw [bareEach, ih, List.map_cons]

theorem shape_bare (depth : Nat) (node : Node) : node.bare.shape depth = node.shape depth := by
  cases node with
  | letStatement => simp [shape, bare, kind, detail, render_bare]
  | _ => rfl

theorem shownChildren_bare (node : Node) : node.bare.shownChildren = node.shownChildren.map bare := by
  cases node with
  | conditional _ _ _ alternative => cases alternative <;> rfl
  | _ => simp [bare, shownChildren, children, bareEach_eq_map]

theorem shapes_bare (depth : Nat) (node : Node) :
    shapes (node.bare.listedFrom depth) = shapes (node.listedFrom depth) := by
  induction node using childrenInduction generalizing depth with
  | step node ih =>
    rw [shapes_listedFrom, shapes_listedFrom, shape_bare, shownChildren_bare, List.flatMap_map,
      shapes, List.map_flatMap, shapes, List.map_flatMap]
    refine congrArg _ (List.flatMap_congr fun child isShown => ?_)
    exact ih child (mem_children_of_mem_shownChildren isShown) (depth + 1)

/-! ### Equal shapes have equal trees -/

theorem boolean_inj : ∀ {a b : Bool}, Form.boolean a = Form.boolean b → a = b := by decide

/-- A name that is bound is its own detail. -/
theorem name_eq_of_binds {t : Token} {name value : Node}
    (binds : (letStatement t name value).BindsName) :
    name.bare = identifier blank (letStatement t name value).detail := by
  obtain ⟨u, text, rfl⟩ := binds
  simp [bare, detail, render]

theorem bare_eq_of_shownChildren {a b : Node} (aBinds : a.BindsName) (bBinds : b.BindsName)
    (kinds : a.kind = b.kind) (details : a.detail = b.detail)
    (below : a.shownChildren.map bare = b.shownChildren.map bare) : a.bare = b.bare := by
  cases a with
  | letStatement =>
    cases b with
    | letStatement =>
      have values := List.singleton_inj.mp below
      rw [bare, bare, name_eq_of_binds aBinds, name_eq_of_binds bBinds, details, values]
    | _ => contradiction
  | conditional _ _ _ some =>
    cases b with
    | conditional _ _ _ other =>
      cases some <;> cases other <;> simp_all [bare, bareIfAny, shownChildren, children]
    | _ => contradiction
  | function =>
    cases b with
    | function =>
      -- The body is the last child, however many parameters there are.
      simp only [shownChildren, children, List.map_append, List.map_singleton] at below
      obtain ⟨names, bodies⟩ := List.append_inj' below rfl
      rw [bare, bare, bareEach_eq_map, bareEach_eq_map, names, List.singleton_inj.mp bodies]
    | _ => contradiction
  | integer =>
    cases b with
    | integer => rw [bare, bare, Decimal.ofInt_inj details]
    | _ => contradiction
  | boolean =>
    cases b with
    | boolean => rw [bare, bare, boolean_inj details]
    | _ => contradiction
  | _ =>
    cases b <;> first
      | contradiction
      | simp_all [bare, detail, shownChildren, children, bareEach_eq_map]

/-- Shapes that do not go on below a depth. -/
def Stops (depth : Nat) (rest : List Shape) : Prop := ∀ shape ∈ rest.head?, shape.depth ≤ depth

theorem Stops.succ {depth : Nat} {rest : List Shape} (stops : Stops depth rest) :
    Stops (depth + 1) rest :=
  fun shape isFirst => Nat.le_succ_of_le (stops shape isFirst)

theorem stops_flatMap {depth : Nat} {nodes : List Node} {rest : List Shape}
    (stops : Stops depth rest) :
    Stops depth (shapes (nodes.flatMap (listedFrom depth)) ++ rest) := by
  cases nodes with
  | nil => exact stops
  | cons node nodes =>
    rw [List.flatMap_cons, shapes_append, shapes_listedFrom]
    intro shape isFirst
    obtain rfl := Option.some.inj isFirst
    exact Nat.le_refl _

/-- The shapes of a tree tell it from the other trees in which names are bound, and where its
listing ends. -/
def Told (a : Node) : Prop :=
  ∀ ⦃b : Node⦄ ⦃depth : Nat⦄ ⦃r s : List Shape⦄, All BindsName b → Stops depth r → Stops depth s →
    shapes (a.listedFrom depth) ++ r = shapes (b.listedFrom depth) ++ s → a.bare = b.bare ∧ r = s

/-- Trees side by side: what stops above their depth begins no further one. -/
theorem told_each {xs ys : List Node} {depth : Nat} {r s : List Shape} (told : ∀ x ∈ xs, x.Told)
    (binds : ∀ y ∈ ys, All BindsName y) (rStops : Stops depth r) (sStops : Stops depth s)
    (eq : shapes (xs.flatMap (listedFrom (depth + 1))) ++ r =
      shapes (ys.flatMap (listedFrom (depth + 1))) ++ s) :
    xs.map bare = ys.map bare ∧ r = s := by
  -- A further tree begins deeper than anything that stops.
  have goesOn (y : Node) (more : List Shape) {rest : List Shape} (stops : Stops depth rest) :
      rest ≠ shapes (y.listedFrom (depth + 1)) ++ more := by
    rintro rfl
    rw [shapes_listedFrom] at stops
    exact Nat.not_succ_le_self depth (stops _ rfl)
  induction xs generalizing ys with
  | nil =>
    cases ys with
    | nil => exact ⟨rfl, eq⟩
    | cons y ys =>
      rw [List.flatMap_cons, shapes_append, List.append_assoc] at eq
      exact absurd eq (goesOn y _ rStops)
  | cons x xs ih =>
    obtain ⟨first, others⟩ := List.forall_mem_cons.mp told
    cases ys with
    | nil =>
      rw [List.flatMap_cons, shapes_append, List.append_assoc] at eq
      exact absurd eq.symm (goesOn x _ sStops)
    | cons y ys =>
      obtain ⟨firstBinds, othersBind⟩ := List.forall_mem_cons.mp binds
      simp only [List.flatMap_cons, shapes_append, List.append_assoc] at eq
      obtain ⟨same, behind⟩ := first firstBinds (stops_flatMap rStops.succ)
        (stops_flatMap sStops.succ) eq
      obtain ⟨sames, rest⟩ := ih others othersBind behind
      exact ⟨by rw [List.map_cons, List.map_cons, same, sames], rest⟩

theorem told_of_binds {a : Node} (binds : All BindsName a) : a.Told := by
  induction binds with
  | @node a here below ih =>
    rintro b depth r s ⟨bHere, bBelow⟩ rStops sStops eq
    rw [shapes_listedFrom, shapes_listedFrom, List.cons_append, List.cons_append] at eq
    obtain ⟨first, behind⟩ := List.cons.inj eq
    obtain ⟨children, rest⟩ := told_each
      (fun child isShown => ih child (mem_children_of_mem_shownChildren isShown))
      (fun child isShown => bBelow child (mem_children_of_mem_shownChildren isShown))
      rStops sStops behind
    have kinds := congrArg Shape.kind first
    have details := congrArg Shape.detail first
    exact ⟨bare_eq_of_shownChildren here bHere kinds details children, rest⟩

theorem same_iff_shapes {a b : Node} (aBinds : All BindsName a) (bBinds : All BindsName b) :
    a.same b ↔ shapes a.listed = shapes b.listed := by
  rw [same_iff]
  constructor
  · intro same
    rw [listed, listed, ← shapes_bare 0 a, same, shapes_bare]
  · intro eq
    have ends : Stops 0 [] := by simp [Stops]
    exact (told_of_binds aBinds bBinds ends ends (congrArg (· ++ []) eq)).1

end Node

end MonkeySyntax
