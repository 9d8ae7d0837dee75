import Mathlib
import MonkeySyntax.Proofs.Parsing.OnLexers

/-!
# Expressions at two powers

A loop that leaves the weaker operators has done the beginning of what a loop does that takes them.
So an expression at a weak power is the expression at a strong one, and the weaker operators behind
it: `expression_factors`.
-/

namespace MonkeySyntax

namespace Parser

variable {finish : Position} {low high : Precedence}

theorem operators_of_not_weaker {power : Precedence} {left : Node} {t : Token} {rest : List Item}
    (stops : power.weaker t.kind.precedence = false) :
    operators finish power left (.token t :: rest) =
      .done left (.token t :: rest) List.suffix_rfl := by
  rw [operators, if_neg (Bool.eq_false_iff.mp stops)]

theorem operators_factor (le : low.value ≤ high.value) (left : Node) (items : List Item) :
    operators finish low left items =
      (operators finish high left items).andThen fun left rest _ =>
        operators finish low left rest := by
  match items with
  | [] =>
    rw [operators, operators, Reply.andThen_done, operators]
    rfl
  | .badName literal position :: rest =>
    rw [operators, operators]
    rfl
  | .token t :: rest =>
    cases strong : high.weaker t.kind.precedence with
    | false =>
      rw [operators_of_not_weaker strong, Reply.andThen_done, Reply.widen_rfl]
    | true =>
      have weaker : low.weaker t.kind.precedence :=
        Precedence.weaker_iff.mpr (Nat.lt_of_le_of_lt le (Precedence.weaker_iff.mp strong))
      rw [operators_of_weaker weaker, operators_of_weaker strong, Reply.andThen_widen,
        Reply.andThen_assoc]
      refine congrArg _ (Reply.andThen_congr fun left more suffix => ?_)
      exact operators_factor le left more
termination_by items.length
decreasing_by exact Nat.lt_succ_of_le suffix.length_le

theorem next_of_yields_operators {power : Precedence} {left v : Node} {items r : List Item}
    (yields : (operators finish power left items).Yields v r) :
    Next (fun kind => power.weaker kind.precedence = false) r := by
  -- Going on where the loop has ended at the same power does nothing.
  have again : operators finish power left items =
      (operators finish power left items).andThen fun left rest _ =>
        operators finish power left rest := operators_factor (Nat.le_refl power.value) left items
  obtain ⟨suffix, ended⟩ := yields
  rw [ended, Reply.andThen_done] at again
  have goesOn : (operators finish power v r).Yields v r := by
    rw [← Reply.yields_widen (h := suffix), ← again]
    exact Reply.yields_done.mpr ⟨rfl, rfl⟩
  rcases operators_cases goesOn with stops | ⟨t, rest, rfl, weaker, _⟩
  · exact stops
  · rw [operators_of_weaker weaker, Reply.yields_widen] at goesOn
    exact absurd goesOn.length_le (Nat.not_succ_le_self _)

end Parser

namespace Lexer

variable {lexer : Lexer} {α : Type} {low high : Precedence}

theorem operators_factor (le : low.value ≤ high.value) (left : Node) :
    lexer.operators low left =
      (lexer.operators high left).andThen fun left lexer => lexer.operators low left := by
  have factor := fun finish items => @Parser.operators_factor finish low high le left items
  unfold operators
  rw [← take_andThen fun left finish items => Parser.operators finish low left items, take,
    factor]
  rfl

theorem expression_factor (le : low.value ≤ high.value) (t : Token) :
    lexer.expression low t =
      (lexer.expression high t).andThen fun left lexer => lexer.operators low left := by
  unfold expression
  rw [Step.andThen_assoc]
  exact congrArg _ (funext fun left => funext fun lexer => operators_factor le left)

/-! ### What a step leaves -/

theorem look_of_next {property : Kind → Prop} (next : Next property lexer.cursor.items) :
    ∃ t, lexer.look = ⟨.ok t, [], lexer⟩ ∧ property t.kind := by
  match ahead : lexer.cursor.items, next with
  | [], next => exact ⟨_, look_of_nil ahead, next⟩
  | .token t :: rest, next => exact ⟨t, look_of_token ahead, next⟩

section

variable {parse : Position → (items : List Item) → Reply α items}

theorem take_ok {value : α} (returns : (lexer.take parse).outcome = .ok value) :
    (lexer.take parse).events = [] ∧
      (parse lexer.cursor.finish.position lexer.cursor.items).Yields value
        (lexer.take parse).lexer.cursor.items := by
  unfold take at returns ⊢
  generalize parse lexer.cursor.finish.position lexer.cursor.items = reply at returns ⊢
  cases reply with
  | failed fault rest suffix => contradiction
  | done other rest suffix =>
    obtain rfl : other = value := Except.ok.inj returns
    exact ⟨rfl, Reply.yields_done.mpr ⟨rfl, items_skip_of_suffix suffix⟩⟩

theorem items_skip_suffix (n : Nat) : (lexer.skip n).cursor.items <:+ lexer.cursor.items := by
  rw [items_skip]
  exact List.drop_suffix ..

theorem items_take_suffix : (lexer.take parse).lexer.cursor.items <:+ lexer.cursor.items := by
  unfold take
  cases parse lexer.cursor.finish.position lexer.cursor.items with
  | done value rest suffix => exact items_skip_suffix _
  | failed fault rest suffix =>
    have same : (lexer.reportFault fault).2.cursor = lexer.cursor := by
      unfold reportFault
      split
      · exact cursor_report ..
      · rfl
    exact (items_skip_suffix _).trans ⟨[], congrArg Cursor.items same⟩

end

theorem items_andThen_suffix {β ε : Type} {step : Step (Except ε α)}
    {next : α → Lexer → Step (Except ε β)}
    (each : ∀ value lexer, (next value lexer).lexer.cursor.items <:+ lexer.cursor.items) :
    (step.andThen next).lexer.cursor.items <:+ step.lexer.cursor.items := by
  unfold Step.andThen
  split
  · exact each ..
  · exact List.suffix_rfl

theorem items_operand_suffix (t : Token) :
    (lexer.operand t).lexer.cursor.items <:+ lexer.cursor.items := by
  unfold operand
  split
  · exact items_take_suffix
  · exact List.suffix_rfl

theorem items_expression_suffix (power : Precedence) (t : Token) :
    (lexer.expression power t).lexer.cursor.items <:+ lexer.cursor.items :=
  (items_andThen_suffix fun _ _ => items_take_suffix).trans (items_operand_suffix t)

theorem operand_ok {t : Token} {left : Node} (returns : (lexer.operand t).outcome = .ok left) :
    (lexer.operand t).events = [] := by
  unfold operand at returns ⊢
  split
  · rename_i starts
    rw [if_pos starts] at returns
    exact (take_ok returns).1
  · rfl

/-- An expression that is returned ends where the loop over its operators ends. -/
theorem expression_ok {power : Precedence} {t : Token} {e : Node}
    (returns : (lexer.expression power t).outcome = .ok e) :
    ∃ left behind, lexer.expression power t = operators power left behind := by
  cases first : (lexer.operand t).outcome with
  | error fault =>
    rw [expression, Step.andThen_error first] at returns
    contradiction
  | ok left => exact ⟨left, _, Step.andThen_ok first (operand_ok first)⟩

/-- An expression that fails at a strong power fails at a weak one, with the same fault and lexer.
One that is returned ends in front of an operator that is left for a weaker power, and the
expression at the weaker power is what the loop makes of it from there. Either way the tokens read
at the strong power are the first of those read at the weak one. -/
theorem expression_factors (lexer : Lexer) (t : Token) (le : low.value ≤ high.value) :
    (∀ fault, (lexer.expression high t).outcome = .error fault →
      lexer.expression low t = lexer.expression high t) ∧
    (∀ e, (lexer.expression high t).outcome = .ok e →
      (∃ next, (lexer.expression high t).lexer.look =
          ⟨.ok next, [], (lexer.expression high t).lexer⟩ ∧
        (next.kind = .eof ∨ next.kind = .semicolon ∨
          next.kind.precedence.value ≤ high.value)) ∧
      lexer.expression low t = (lexer.expression high t).lexer.operators low e) ∧
    ∃ first more,
      lexer.cursor.items = first ++ (lexer.expression high t).lexer.cursor.items ∧
      lexer.cursor.items = first ++ more ++ (lexer.expression low t).lexer.cursor.items := by
  have factor := lexer.expression_factor le t
  refine ⟨fun fault fails => ?_, fun e returns => ?_, ?_⟩
  · rw [factor, Step.andThen_error fails, ← fails]
  · obtain ⟨left, start, eq⟩ := expression_ok returns
    rw [factor, eq]
    rw [eq] at returns
    obtain ⟨quiet, yields⟩ := take_ok returns
    obtain ⟨next, look, stops⟩ := look_of_next (Parser.next_of_yields_operators yields)
    exact ⟨⟨next, look, .inr (.inr (Precedence.not_weaker_iff.mp stops))⟩,
      Step.andThen_ok returns quiet⟩
  · obtain ⟨first, tight⟩ := lexer.items_expression_suffix high t
    have suffix : (lexer.expression low t).lexer.cursor.items <:+
        (lexer.expression high t).lexer.cursor.items := by
      rw [factor]
      exact items_andThen_suffix fun _ _ => items_take_suffix
    obtain ⟨more, loose⟩ := suffix
    exact ⟨first, more, tight.symm, by rw [List.append_assoc, loose, tight]⟩

/-- The first factor, and the product that it begins. -/
theorem factor_of_product :
    ((ofSource "* b".toList).expression .product ⟨.ident, ['a'], ⟨1, 0⟩⟩).outcome =
        .ok (.identifier ⟨.ident, ['a'], ⟨1, 0⟩⟩ ['a']) ∧
      (ofSource "* b".toList).expression .lowest ⟨.ident, ['a'], ⟨1, 0⟩⟩ =
        ((ofSource "* b".toList).expression .product ⟨.ident, ['a'], ⟨1, 0⟩⟩).lexer.operators
          .lowest (.identifier ⟨.ident, ['a'], ⟨1, 0⟩⟩ ['a']) := by
  have weaker : Precedence.lowest.value ≤ Precedence.product.value := by decide
  have ahead : (ofSource "* b".toList).cursor.items =
      [.token ⟨.asterisk, ['*'], ⟨1, 1⟩⟩, .token ⟨.ident, ['b'], ⟨1, 3⟩⟩] := by cbv
  have returns : ((ofSource "* b".toList).expression .product ⟨.ident, ['a'], ⟨1, 0⟩⟩).outcome =
      .ok (.identifier ⟨.ident, ['a'], ⟨1, 0⟩⟩ ['a']) := by
    rw [expression_eq_take (by decide), take, ahead]
    cbv
  exact ⟨returns, ((expression_factors _ _ weaker).2.1 _ returns).2⟩

end Lexer

end MonkeySyntax
