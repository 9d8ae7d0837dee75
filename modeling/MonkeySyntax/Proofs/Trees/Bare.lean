import MonkeySyntax.Node.Render

/-!
# Trees without their tokens

Two trees are the same wherever their tokens stand if they are equal once all tokens are blank.
Rendering looks at no token.
-/

namespace MonkeySyntax.Node

/-- The token of every node of a bare tree. -/
def blank : Token := ⟨.illegal, [], {}⟩

mutual

/-- The tree with its tokens made blank. -/
def bare : Node → Node
  | identifier _ name => identifier blank name
  | integer _ value => integer blank value
  | boolean _ value => boolean blank value
  | unary _ operator right => unary blank operator (bare right)
  | binary _ left operator right => binary blank (bare left) operator (bare right)
  | letStatement _ name value => letStatement blank (bare name) (bare value)
  | returnStatement _ value => returnStatement blank (bare value)
  | expressionStatement _ expression => expressionStatement blank (bare expression)
  | block _ statements => block blank (bareEach statements)
  | conditional _ condition consequence alternative =>
    conditional blank (bare condition) (bare consequence) (bareIfAny alternative)
  | function _ parameters body => function blank (bareEach parameters) (bare body)
  | call _ callee arguments => call blank (bare callee) (bareEach arguments)
  | program statements => program (bareEach statements)

def bareEach : List Node → List Node
  | [] => []
  | node :: rest => bare node :: bareEach rest

def bareIfAny : Option Node → Option Node
  | none => none
  | some node => some (bare node)

end

theorem bareEach_cons_eq {a b : Node} {xs ys : List Node} (first : a.bare = b.bare)
    (rest : bareEach xs = bareEach ys) : bareEach (a :: xs) = bareEach (b :: ys) := by
  simp only [bareEach, first, rest]

mutual

theorem same_iff : (a b : Node) → (a.same b ↔ a.bare = b.bare)
  | identifier .., b | integer .., b | boolean .., b => by cases b <;> simp [same, bare]
  | unary _ _ r, b => by
    cases b with
    | unary _ _ s => simp [same, bare, same_iff r s]
    | _ => simp [same, bare]
  | binary _ l _ r, b => by
    cases b with
    | binary _ k _ s => simp [same, bare, same_iff l k, same_iff r s, and_assoc]
    | _ => simp [same, bare]
  | letStatement _ n v, b => by
    cases b with
    | letStatement _ m w => simp [same, bare, same_iff n m, same_iff v w]
    | _ => simp [same, bare]
  | returnStatement _ v, b => by
    cases b with
    | returnStatement _ w => simp [same, bare, same_iff v w]
    | _ => simp [same, bare]
  | expressionStatement _ e, b => by
    cases b with
    | expressionStatement _ f => simp [same, bare, same_iff e f]
    | _ => simp [same, bare]
  | block _ xs, b => by
    cases b with
    | block _ ys => simp [same, bare, sameAll_iff xs ys]
    | _ => simp [same, bare]
  | conditional _ c k none, b => by
    cases b with
    | conditional _ d j other =>
      cases other <;> simp [same, bare, bareIfAny, same_iff c d, same_iff k j]
    | _ => simp [same, bare]
  | conditional _ c k (some a), b => by
    cases b with
    | conditional _ d j other =>
      cases other with
      | none => simp [same, bare, bareIfAny]
      | some b =>
        simp [same, bare, bareIfAny, same_iff c d, same_iff k j, same_iff a b, and_assoc]
    | _ => simp [same, bare]
  | function _ xs e, b => by
    cases b with
    | function _ ys f => simp [same, bare, sameAll_iff xs ys, same_iff e f]
    | _ => simp [same, bare]
  | call _ f xs, b => by
    cases b with
    | call _ g ys => simp [same, bare, same_iff f g, sameAll_iff xs ys]
    | _ => simp [same, bare]
  | program xs, b => by
    cases b with
    | program ys => simp [same, bare, sameAll_iff xs ys]
    | _ => simp [same, bare]

theorem sameAll_iff : (xs ys : List Node) → (sameAll xs ys ↔ bareEach xs = bareEach ys)
  | [], [] => by simp [sameAll]
  | [], _ :: _ => by simp [sameAll, bareEach]
  | _ :: _, [] => by simp [sameAll, bareEach]
  | a :: xs, b :: ys => by simp [sameAll, bareEach, same_iff a b, sameAll_iff xs ys]

end

/-! ### Rendering -/

theorem isOperation_bare (node : Node) : node.bare.isOperation = node.isOperation := by
  cases node <;> rfl

theorem isExpressionStatement_bare (node : Node) :
    node.bare.isExpressionStatement = node.isExpressionStatement := by
  cases node <;> rfl

/-- Statements in a row differ in their texts and in where a semicolon is needed. -/
theorem sequenced_bareEach (nodes : List Node) (texts : List Text) :
    sequenced ((bareEach nodes).zip texts) = sequenced (nodes.zip texts) := by
  induction nodes generalizing texts with
  | nil => rfl
  | cons node nodes ih =>
    cases texts with
    | nil => rfl
    | cons text texts =>
      have tail := ih texts
      cases nodes with
      | nil => rfl
      | cons next nodes =>
        cases texts with
        | nil => rfl
        | cons other texts =>
          simp only [bareEach, List.zip_cons_cons, sequenced, isExpressionStatement_bare] at tail ⊢
          rw [tail]

mutual

theorem render_bare : (node : Node) → node.bare.render = node.render
  | identifier .. | integer .. | boolean .. => by simp [bare, render]
  | unary _ _ r => by simp [bare, render, render_bare r]
  | binary _ l _ r => by simp [bare, render, render_bare l, render_bare r]
  | letStatement _ n v => by simp [bare, render, render_bare n, render_bare v]
  | returnStatement _ v => by simp [bare, render, render_bare v]
  | expressionStatement _ e => by simp [bare, render, render_bare e]
  | block _ xs => by
    rw [bare, render, render, renderEach_bareEach xs, Form.block, Form.block, sequenced_bareEach]
    cases xs <;> rfl
  | conditional _ c k none => by
    simp [bare, bareIfAny, render, Form.condition, isOperation_bare, render_bare c, render_bare k]
  | conditional _ c k (some a) => by
    simp [bare, bareIfAny, render, Form.condition, isOperation_bare, render_bare c, render_bare k,
      render_bare a]
  | function _ xs e => by simp [bare, render, renderEach_bareEach xs, render_bare e]
  | call _ f xs => by simp [bare, render, render_bare f, renderEach_bareEach xs]
  | program xs => by simp [bare, render, renderEach_bareEach xs, sequenced_bareEach]

theorem renderEach_bareEach : (nodes : List Node) → renderEach (bareEach nodes) = renderEach nodes
  | [] => rfl
  | a :: xs => by simp [bareEach, renderEach, render_bare a, renderEach_bareEach xs]

end

theorem render_eq_of_same {a b : Node} (same : a.same b) : a.render = b.render := by
  rw [← render_bare a, (same_iff a b).mp same, render_bare]

end MonkeySyntax.Node
