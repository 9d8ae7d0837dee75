import MonkeySyntax.Cursor
import MonkeySyntax.Precedence

/-!
# The next token

`Next` states a property of the kind of the next token, by which the parser takes its decisions. The
kinds that can begin an operand are told apart here.
-/

namespace MonkeySyntax

/-- The next token is of a kind with a property; the end of the source counts as an end token, and a
bad name is no token. -/
def Next (property : Kind → Prop) : List Item → Prop
  | [] => property .eof
  | .token t :: _ => property t.kind
  | .badName .. :: _ => False

@[simp] theorem next_nil {property : Kind → Prop} : Next property [] ↔ property .eof := .rfl

@[simp] theorem next_token {property : Kind → Prop} {t : Token} {rest : List Item} :
    Next property (.token t :: rest) ↔ property t.kind := .rfl

@[simp] theorem not_next_badName {property : Kind → Prop} {literal : Text} {position : Position}
    {rest : List Item} : ¬ Next property (.badName literal position :: rest) := id

theorem Next.imp {p q : Kind → Prop} (h : ∀ kind, p kind → q kind) {items : List Item}
    (next : Next p items) : Next q items := by
  match items, next with
  | [], next => exact h _ next
  | .token _ :: _, next => exact h _ next

namespace Precedence

variable {a b c : Precedence}

theorem not_weaker_lowest (power : Precedence) : power.weaker .lowest = false := by
  cases power <;> rfl

theorem weaker_iff : a.weaker b ↔ a.value < b.value := by simp [weaker]

theorem not_weaker_iff : a.weaker b = false ↔ b.value ≤ a.value := by simp [weaker]

theorem weaker_trans (h : a.weaker b) (h' : b.weaker c) : a.weaker c :=
  weaker_iff.mpr (Nat.lt_trans (weaker_iff.mp h) (weaker_iff.mp h'))

end Precedence

namespace Kind

/-- Whether a token stands before an operand as its operator. -/
def isPrefixOperator : Kind → Bool
  | bang | minus | increment | decrement => true
  | _ => false

/-- Whether an operand can begin with a token. -/
def startsOperand : Kind → Bool
  | ident | int | trueKeyword | falseKeyword | lparen | ifKeyword | fnKeyword => true
  | kind => kind.isPrefixOperator

/-- Whether a statement can begin with a token. -/
def startsStatement : Kind → Bool
  | letKeyword | returnKeyword => true
  | kind => kind.startsOperand

/-- A binary operator binds more strongly than nothing and less strongly than a prefix operator. -/
theorem weaker_of_isBinaryOperator {kind : Kind} (h : kind.isBinaryOperator) :
    Precedence.lowest.weaker kind.precedence ∧ kind.precedence.weaker .unary ∧
      kind.precedence.weaker .call := by
  cases kind <;> first | decide | contradiction

/-- Only binary operators and calls bind at all. -/
theorem isBinaryOperator_of_weaker {power : Precedence} {kind : Kind}
    (weaker : power.weaker kind.precedence) (notCall : kind ≠ .lparen) : kind.isBinaryOperator := by
  cases binary : kind.isBinaryOperator with
  | true => rfl
  | false =>
    rw [precedence_eq_lowest_iff.mpr ⟨binary, notCall⟩, Precedence.not_weaker_lowest] at weaker
    contradiction

theorem ne_of_isBinaryOperator {kind : Kind} (h : kind.isBinaryOperator) :
    kind ≠ .elseKeyword ∧ kind ≠ .lparen := by
  cases kind <;> first | decide | contradiction

theorem startsOperand_cases {kind : Kind} (h : kind.startsOperand) :
    kind.isPrefixOperator ∨ kind = .ident ∨ kind = .int ∨ kind = .trueKeyword ∨
      kind = .falseKeyword ∨ kind = .lparen ∨ kind = .ifKeyword ∨ kind = .fnKeyword := by
  cases kind <;> first | decide | contradiction

theorem startsStatement_of_startsOperand {kind : Kind} (h : kind.startsOperand) :
    kind.startsStatement := by
  cases kind <;> first | rfl | contradiction

theorem ne_of_startsStatement {kind : Kind} (h : kind.startsStatement) :
    kind ≠ .rbrace ∧ kind ≠ .elseKeyword ∧ kind ≠ .semicolon := by
  cases kind <;> first | decide | contradiction

theorem ne_of_startsOperand {kind : Kind} (h : kind.startsOperand) :
    kind ≠ .rparen ∧ kind ≠ .letKeyword ∧ kind ≠ .returnKeyword := by
  cases kind <;> first | decide | contradiction

end Kind

end MonkeySyntax
