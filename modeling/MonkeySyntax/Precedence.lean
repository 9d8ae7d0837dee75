import MonkeySyntax.Token

/-!
# Precedence

How strongly operators bind. `precedence_eq_lowest_iff` says which tokens do not continue an
expression.
-/

namespace MonkeySyntax

/-- The binding powers, weakest first. -/
inductive Precedence where
  | lowest | equals | lessGreater | sum | product | unary | call
deriving DecidableEq

namespace Precedence

def value : Precedence → Nat
  | lowest => 1
  | equals => 2
  | lessGreater => 3
  | sum => 4
  | product => 5
  | unary => 6
  | call => 7

def name : Precedence → Text
  | lowest => "LOWEST".toList
  | equals => "EQUALS".toList
  | lessGreater => "LESSGREATER".toList
  | sum => "SUM".toList
  | product => "PRODUCT".toList
  | unary => "PREFIX".toList
  | call => "CALL".toList

def weaker (a b : Precedence) : Bool := a.value < b.value

theorem lowest_value_le (p : Precedence) : lowest.value ≤ p.value := by cases p <;> decide

end Precedence

namespace Kind

def precedence : Kind → Precedence
  | eq | notEq => .equals
  | lt | gt | ltEq | gtEq => .lessGreater
  | plus | minus => .sum
  | asterisk | slash => .product
  | lparen => .call
  | _ => .lowest

/-- Whether a token joins two operands. -/
def isBinaryOperator : Kind → Bool
  | plus | minus | asterisk | slash | eq | notEq | lt | gt | ltEq | gtEq => true
  | _ => false

theorem precedence_eq_lowest_iff {kind : Kind} :
    kind.precedence = .lowest ↔ kind.isBinaryOperator = false ∧ kind ≠ .lparen := by
  cases kind <;> decide

end Kind

end MonkeySyntax
