import MonkeySyntax.Proofs.Grammar

/-!
# Parts of a source

A derivation reads the items that it is made of and nothing behind them. So what is derived in front
of some items is derived in front of any others, and alone (`Statement.alone`).
-/

namespace MonkeySyntax.Grammar

/-- The items in front of those that are left are a part, whatever stands behind them. -/
def Part (part : List Item → List Item → Prop) (start rest : List Item) : Prop :=
  ∃ segment, start = segment ++ rest ∧ ∀ tail, part (segment ++ tail) tail

namespace Part

variable {p q : List Item → List Item → Prop} {start mid rest : List Item} {t : Token}

theorem imp (h : Part p start rest) (f : ∀ {a b}, p a b → q a b) : Part q start rest := by
  obtain ⟨segment, split, part⟩ := h
  exact ⟨segment, split, fun tail => f (part tail)⟩

theorem none (h : ∀ {a}, p a a) : Part p rest rest := ⟨[], rfl, fun _ => h⟩

theorem token : Part (fun a b => a = .token t :: b) (.token t :: rest) rest :=
  ⟨[.token t], rfl, fun _ => rfl⟩

theorem andThen (first : Part p start mid) (more : Part q mid rest) :
    Part (fun a c => ∃ b, p a b ∧ q b c) start rest := by
  obtain ⟨before, rfl, first⟩ := first
  obtain ⟨behind, rfl, more⟩ := more
  refine ⟨before ++ behind, (List.append_assoc ..).symm, fun tail => ⟨behind ++ tail, ?_, more tail⟩⟩
  rw [List.append_assoc]
  exact first _

/-- A part that cannot be empty begins with the first item. -/
theorem head {item : Item} (h : Part p (item :: start) rest) (some : ¬ p [] []) :
    Part (fun a b => ∃ inner, a = item :: inner ∧ p a b) (item :: start) rest := by
  obtain ⟨segment, split, part⟩ := h
  cases segment with
  | nil => exact absurd (part []) some
  | cons first segment =>
    obtain ⟨rfl, tail⟩ := List.cons.inj split
    exact ⟨item :: segment, split, fun tail => ⟨segment ++ tail, rfl, part tail⟩⟩

end Part

theorem not_expression_nil {dialect : Dialect} {rest : List Item} {tree : Node} :
    ¬ Expression dialect [] tree rest := by
  intro derived
  exact Bool.false_ne_true (next_nil.mp derived.head)

theorem Parameters.part {start rest : List Item} {names : List Node} :
    Parameters start names rest → Part (Parameters · names ·) start rest
  | .none => .none .none
  | .last isName => Part.token.imp fun eq => eq ▸ .last isName
  | .cons isName isComma tail =>
    (Part.token.andThen (Part.token.andThen tail.part)).imp fun ⟨_, here, _, next, tail⟩ => by
      subst here next
      exact .cons isName isComma tail

mutual

theorem Expression.part {start rest : List Item} {tree : Node} :
    Expression .plain start tree rest → Part (Expression .plain · tree ·) start rest
  | .chain first links groups =>
    (first.part.andThen links.part).imp fun ⟨_, first, links⟩ => .chain first links groups

theorem Links.part {start rest : List Item} {links : List Link} :
    Links .plain start links rest → Part (Links .plain · links ·) start rest
  | .nil => .none .nil
  | .cons binary operand more =>
    (Part.token.andThen (operand.part.andThen more.part)).imp fun ⟨_, here, _, operand, more⟩ => by
      subst here
      exact .cons binary operand more

theorem Operand.part {start rest : List Item} {node : Node} :
    Operand .plain start node rest → Part (Operand .plain · node ·) start rest
  | .unary isPrefix inner =>
    (Part.token.andThen inner.part).imp fun ⟨_, here, inner⟩ => by
      subst here
      exact .unary isPrefix inner
  | .applied inner => inner.part.imp .applied

theorem Applied.part {start rest : List Item} {node : Node} :
    Applied .plain start node rest → Part (Applied .plain · node ·) start rest
  | .primary inner => inner.part.imp .primary
  | .call callee isOpen values closes =>
    (callee.part.andThen (Part.token.andThen (values.part.andThen .token))).imp
      fun ⟨_, callee, _, here, _, values, last⟩ => by
        subst here last
        exact .call callee isOpen values closes

theorem Arguments.part {start rest : List Item} {values : List Node} :
    Arguments .plain start values rest → Part (Arguments .plain · values ·) start rest
  | .none => .none .none
  | .last value => value.part.imp .last
  | .cons value isComma more =>
    (value.part.andThen (Part.token.andThen more.part)).imp fun ⟨_, value, _, here, more⟩ => by
      subst here
      exact .cons value isComma more

theorem Primary.part {start rest : List Item} {node : Node} :
    Primary .plain start node rest → Part (Primary .plain · node ·) start rest
  | .identifier kind => Part.token.imp fun eq => eq ▸ .identifier kind
  | .integer kind inRange => Part.token.imp fun eq => eq ▸ .integer kind inRange
  | .true kind => Part.token.imp fun eq => eq ▸ .true kind
  | .false kind => Part.token.imp fun eq => eq ▸ .false kind
  | .group isOpen inner closes =>
    (Part.token.andThen (inner.part.andThen .token)).imp fun ⟨_, here, _, inner, last⟩ => by
      subst here last
      exact .group isOpen inner closes
  | .conditional isIf isOpen condition closes consequence =>
    (Part.token.andThen (Part.token.andThen (condition.part.andThen
      (Part.token.andThen consequence.part)))).imp
        fun ⟨_, here, _, next, _, condition, _, last, consequence⟩ => by
          subst here next last
          exact .conditional isIf isOpen condition closes consequence
  | .conditionalElse isIf isOpen condition closes consequence isElse alternative =>
    (Part.token.andThen (Part.token.andThen (condition.part.andThen (Part.token.andThen
      (consequence.part.andThen (Part.token.andThen alternative.part)))))).imp
        fun ⟨_, here, _, next, _, condition, _, last, _, consequence, _, word, alternative⟩ => by
          subst here next last word
          exact .conditionalElse isIf isOpen condition closes consequence isElse alternative
  | .function isFn isOpen names closes body =>
    (Part.token.andThen (Part.token.andThen (names.part.andThen
      (Part.token.andThen body.part)))).imp fun ⟨_, here, _, next, _, names, _, last, body⟩ => by
        subst here next last
        exact .function isFn isOpen names closes body

theorem Block.part {start rest : List Item} {node : Node} :
    Block .plain start node rest → Part (Block .plain · node ·) start rest
  | .braces isOpen body closes =>
    (Part.token.andThen (body.part.andThen .token)).imp fun ⟨_, here, _, body, last⟩ => by
      subst here last
      exact .braces isOpen body closes

theorem Statement.part {closed : Bool} {start rest : List Item} {node : Node} :
    Statement .plain closed start node rest → Part (Statement .plain closed · node ·) start rest
  | .bind isLet isName isAssign value ends =>
    (Part.token.andThen (Part.token.andThen (Part.token.andThen
      (value.part.andThen .token)))).imp fun ⟨_, here, _, next, _, third, _, value, last⟩ => by
        subst here next third last
        exact .bind isLet isName isAssign value ends
  | .give isReturn value ends =>
    (Part.token.andThen (value.part.andThen .token)).imp fun ⟨_, here, _, value, last⟩ => by
      subst here last
      exact .give isReturn value ends
  | .closed value ends =>
    ((value.part.head not_expression_nil).andThen .token).imp fun ⟨_, ⟨_, here, value⟩, last⟩ => by
      subst here last
      exact .closed value ends
  | .opened value =>
    (value.part.head not_expression_nil).imp fun ⟨_, here, value⟩ => by
      subst here
      exact .opened value

theorem Statements.part {start rest : List Item} {nodes : List Node} :
    Statements .plain start nodes rest → Part (Statements .plain · nodes ·) start rest
  | .nil => .none .nil
  | .cons first _ more =>
    (first.part.andThen more.part).imp fun ⟨_, first, more⟩ =>
      .cons first (fun _ => trivial) more

end

/-- A statement is derived alone from the items that it is derived from. -/
theorem Statement.alone {closed : Bool} {segment rest : List Item} {node : Node}
    (derived : Statement .plain closed (segment ++ rest) node rest) :
    Statement .plain closed segment node [] := by
  obtain ⟨part, split, behind⟩ := derived.part
  rw [List.append_cancel_right split, ← List.append_nil part]
  exact behind []

end MonkeySyntax.Grammar
