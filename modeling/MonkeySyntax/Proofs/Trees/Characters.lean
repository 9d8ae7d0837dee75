import MonkeySyntax.Proofs.Trees.Rendered

/-!
# The characters of a rendered tree

A source ends at its first NUL. The text of a well-formed tree has none, so it is read to its end.
-/

namespace MonkeySyntax

def NoNul (text : Text) : Prop := '\x00' ∉ text

namespace NoNul

theorem of_all {p : Char → Bool} {text : Text} (all : ∀ c ∈ text, p c) (other : p '\x00' = false) :
    NoNul text := by
  intro member
  rw [all _ member] at other
  contradiction

@[simp] theorem nil : NoNul [] := List.not_mem_nil

@[simp] theorem cons_iff {c : Char} {text : Text} :
    NoNul (c :: text) ↔ c ≠ '\x00' ∧ NoNul text := by
  simp [NoNul, eq_comm]

@[simp] theorem append_iff {a b : Text} : NoNul (a ++ b) ↔ NoNul a ∧ NoNul b := by
  simp [NoNul]

theorem joined {separator : Text} {texts : List Text} (noNul : NoNul separator)
    (each : ∀ text ∈ texts, NoNul text) : NoNul (joined separator texts) := by
  induction texts with
  | nil => exact nil
  | cons text texts ih =>
    obtain ⟨first, others⟩ := List.forall_mem_cons.mp each
    cases texts with
    | nil => exact first
    | cons next texts =>
      rw [MonkeySyntax.joined, append_iff, append_iff]
      exact ⟨⟨first, noNul⟩, ih others⟩

theorem sequenced {statements : List (Node × Text)} (each : ∀ entry ∈ statements, NoNul entry.2) :
    NoNul (Node.sequenced statements) := by
  induction statements with
  | nil => exact nil
  | cons entry statements ih =>
    obtain ⟨first, others⟩ := List.forall_mem_cons.mp each
    cases statements with
    | nil => exact first
    | cons next statements =>
      rw [Node.sequenced, append_iff, append_iff]
      refine ⟨⟨first, ?_⟩, ih others⟩
      split <;> simp

end NoNul

theorem noNul_of_isName {name : Text} (isName : isName name) : NoNul name :=
  .of_all (isWordChar_of_isName isName) rfl

theorem noNul_spelling (kind : Kind) : NoNul kind.spelling := by
  unfold NoNul
  cases kind <;> decide

namespace Node

theorem noNul_renderEach {nodes : List Node} (each : ∀ node ∈ nodes, NoNul node.render) :
    ∀ text ∈ renderEach nodes, NoNul text := by
  rw [renderEach_eq_map]
  intro text member
  obtain ⟨node, listed, rfl⟩ := List.mem_map.mp member
  exact each node listed

theorem noNul_statements {nodes : List Node} (each : ∀ node ∈ nodes, NoNul node.render) :
    NoNul (sequenced (nodes.zip (renderEach nodes))) := by
  rw [zip_renderEach]
  refine .sequenced fun entry member => ?_
  obtain ⟨node, listed, rfl⟩ := List.mem_map.mp member
  exact each node listed

theorem noNul_of_isParameter {name : Node} : IsParameter name → NoNul name.render
  | .identifier isName => by
    rw [render]
    exact noNul_of_isName isName

theorem noNul_condition {node : Node} (noNul : NoNul node.render) :
    NoNul (Form.condition node node.render) := by
  rw [Form.condition]
  split <;> simp [noNul]

mutual

theorem noNul_of_isExpression {node : Node} : IsExpression node → NoNul node.render
  | .identifier isName => by
    rw [render]
    exact noNul_of_isName isName
  | .integer nonneg _ => by
    obtain ⟨n, rfl⟩ := Int.eq_ofNat_of_zero_le nonneg
    rw [render]
    exact .of_all (Decimal.isDigit_of_mem_ofNat (n := n)) rfl
  | @IsExpression.boolean _ value => by
    rw [render]
    cases value
    · exact (by decide : '\x00' ∉ Form.boolean false)
    · exact (by decide : '\x00' ∉ Form.boolean true)
  | .unary _ spelling operand => by
    rw [render, spelling, Form.unary]
    simp [noNul_spelling, noNul_of_isExpression operand]
  | .binary _ spelling left right => by
    rw [render, spelling, Form.binary]
    simp [noNul_spelling, noNul_of_isExpression left, noNul_of_isExpression right]
  | .conditional condition consequence => by
    have test := noNul_condition (noNul_of_isExpression condition)
    rw [render, ← List.append_nil (Form.conditional _ _ _), Form.conditional_append]
    simp [test, noNul_of_isBlock consequence]
  | .conditionalElse condition consequence alternative => by
    have test := noNul_condition (noNul_of_isExpression condition)
    rw [render, ← List.append_nil (Form.conditional _ _ _), Form.conditionalElse_append]
    simp [test, noNul_of_isBlock consequence, noNul_of_isBlock alternative]
  | .function names body => by
    have listed : NoNul (Form.listed (renderEach _)) :=
      .joined (by simp) (noNul_renderEach fun name member =>
        noNul_of_isParameter (names name member))
    rw [render, ← List.append_nil (Form.function _ _), Form.function_append]
    simp [listed, noNul_of_isBlock body]
  | .call callee values => by
    have listed : NoNul (Form.listed (renderEach _)) :=
      .joined (by simp) (noNul_renderEach fun value member =>
        noNul_of_isExpression (values value member))
    rw [render, Form.call]
    simp [noNul_of_isExpression callee, listed]

theorem noNul_of_isBlock {node : Node} : IsBlock node → NoNul node.render
  | .braces body => by
    have inner := noNul_statements fun node member => noNul_of_isStatement (body node member)
    rw [render, Form.block]
    split
    · simp
    · simp [inner]

theorem noNul_of_isStatement {node : Node} : IsStatement node → NoNul node.render
  | .bind isName value => by
    rw [render, render, ← List.append_nil (Form.letStatement _ _), Form.letStatement_append]
    simp [noNul_of_isName isName, noNul_of_isExpression value]
  | .give value => by
    rw [render, ← List.append_nil (Form.returnStatement _), Form.returnStatement_append]
    simp [noNul_of_isExpression value]
  | .expression value => by
    rw [render]
    exact noNul_of_isExpression value

end

end Node

end MonkeySyntax
