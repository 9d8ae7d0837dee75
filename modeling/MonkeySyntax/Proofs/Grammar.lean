import MonkeySyntax.Parser.Statement
import MonkeySyntax.Proofs.Lookahead

/-!
# The grammar

Which items are an expression, a statement or a program, and of which tree. Every relation stands
between the items before a part and those behind it, so a bad name is part of nothing. The rules are

    program   = stmt*
    stmt      = LET IDENT '=' expr ';' | RETURN expr ';' | expr [';']
    expr      = operand (binop operand)*
    operand   = ('!' | '-' | '++' | '--') operand | primary ('(' args ')')*
    primary   = IDENT | INT | TRUE | FALSE | '(' expr ')' | IF '(' expr ')' block [ELSE block]
              | FUNCTION '(' params ')' block
    block     = '{' stmt* '}'
    args      = empty or expr (',' expr)* [',']
    params    = empty or IDENT (',' IDENT)* [',']
-/

namespace MonkeySyntax.Grammar

/-- What the rules leave open. -/
structure Dialect where
  /-- The numerals that are integers. -/
  isInteger : Text → Prop
  /-- What may follow a statement that has no semicolon. -/
  mayFollow : List Item → Prop

namespace Dialect

/-- An integer is at most the greatest one, and a statement may be followed by anything. -/
def plain : Dialect where
  isInteger numeral := Decimal.value numeral ≤ Parser.maxInteger
  mayFollow _ := True

/-- A numeral must also be convertible, and a statement ends only where no token goes on with it. -/
def greedy : Dialect where
  isInteger numeral :=
    numeral.length ≤ Decimal.maxDigits ∧ Decimal.value numeral ≤ Parser.maxInteger
  mayFollow := Next fun kind => kind.precedence = .lowest

end Dialect

/-- An operator with the operand behind it. -/
abbrev Link := Token × Node

/-- The tree of a first operand and links. At its root stands the rightmost of the weakest
operators, over the trees of what is before it and of what is behind it. -/
inductive Groups : Node → List Link → Node → Prop
  | operand {first : Node} : Groups first [] first
  | root {first left operand right : Node} {before after : List Link} {op : Token} :
      Groups first before left → Groups operand after right →
      (∀ link ∈ before, op.kind.precedence.value ≤ link.1.kind.precedence.value) →
      (∀ link ∈ after, op.kind.precedence.value < link.1.kind.precedence.value) →
      Groups first (before ++ (op, operand) :: after) (.binary op left op.literal right)

/-- `params`: names with commas between them, and perhaps one behind the last. -/
inductive Parameters : List Item → List Node → List Item → Prop
  | none {rest : List Item} : Parameters rest [] rest
  | last {t : Token} {rest : List Item} : t.kind = .ident →
      Parameters (.token t :: rest) [.identifier t t.literal] rest
  | cons {t comma : Token} {mid rest : List Item} {names : List Node} :
      t.kind = .ident → comma.kind = .comma → Parameters mid names rest →
      Parameters (.token t :: .token comma :: mid) (.identifier t t.literal :: names) rest

section

variable (dialect : Dialect)

mutual

/-- `expr`: an operand and links. -/
inductive Expression : List Item → Node → List Item → Prop
  | chain {start mid rest : List Item} {first tree : Node} {links : List Link} :
      Operand start first mid → Links mid links rest → Groups first links tree →
      Expression start tree rest

/-- `(binop operand)*`. -/
inductive Links : List Item → List Link → List Item → Prop
  | nil {rest : List Item} : Links rest [] rest
  | cons {op : Token} {start mid rest : List Item} {operand : Node} {links : List Link} :
      op.kind.isBinaryOperator → Operand start operand mid → Links mid links rest →
      Links (.token op :: start) ((op, operand) :: links) rest

/-- `operand`: a prefix operator before an operand, or what may be called. -/
inductive Operand : List Item → Node → List Item → Prop
  | unary {op : Token} {start rest : List Item} {operand : Node} :
      op.kind.isPrefixOperator → Operand start operand rest →
      Operand (.token op :: start) (.unary op op.literal operand) rest
  | applied {start rest : List Item} {node : Node} : Applied start node rest →
      Operand start node rest

/-- `primary ('(' args ')')*`. -/
inductive Applied : List Item → Node → List Item → Prop
  | primary {start rest : List Item} {node : Node} : Primary start node rest →
      Applied start node rest
  | call {opens closes : Token} {start mid rest : List Item} {callee : Node}
      {values : List Node} :
      Applied start callee (.token opens :: mid) → opens.kind = .lparen →
      Arguments mid values (.token closes :: rest) → closes.kind = .rparen →
      Applied start (.call opens callee values) rest

/-- `args`: expressions with commas between them, and perhaps one behind the last. -/
inductive Arguments : List Item → List Node → List Item → Prop
  | none {rest : List Item} : Arguments rest [] rest
  | last {start rest : List Item} {value : Node} : Expression start value rest →
      Arguments start [value] rest
  | cons {comma : Token} {start mid rest : List Item} {value : Node} {values : List Node} :
      Expression start value (.token comma :: mid) → comma.kind = .comma →
      Arguments mid values rest → Arguments start (value :: values) rest

/-- `primary`. -/
inductive Primary : List Item → Node → List Item → Prop
  | identifier {t : Token} {rest : List Item} : t.kind = .ident →
      Primary (.token t :: rest) (.identifier t t.literal) rest
  | integer {t : Token} {rest : List Item} : t.kind = .int → dialect.isInteger t.literal →
      Primary (.token t :: rest) (.integer t (Decimal.value t.literal)) rest
  | true {t : Token} {rest : List Item} : t.kind = .trueKeyword →
      Primary (.token t :: rest) (.boolean t Bool.true) rest
  | false {t : Token} {rest : List Item} : t.kind = .falseKeyword →
      Primary (.token t :: rest) (.boolean t Bool.false) rest
  | group {opens closes : Token} {start rest : List Item} {inner : Node} :
      opens.kind = .lparen → Expression start inner (.token closes :: rest) →
      closes.kind = .rparen → Primary (.token opens :: start) inner rest
  | conditional {t opens closes : Token} {start mid rest : List Item}
      {condition consequence : Node} :
      t.kind = .ifKeyword → opens.kind = .lparen →
      Expression start condition (.token closes :: mid) → closes.kind = .rparen →
      Block mid consequence rest →
      Primary (.token t :: .token opens :: start)
        (.conditional t condition consequence Option.none) rest
  | conditionalElse {t opens closes word : Token} {start mid other rest : List Item}
      {condition consequence alternative : Node} :
      t.kind = .ifKeyword → opens.kind = .lparen →
      Expression start condition (.token closes :: mid) → closes.kind = .rparen →
      Block mid consequence (.token word :: other) → word.kind = .elseKeyword →
      Block other alternative rest →
      Primary (.token t :: .token opens :: start)
        (.conditional t condition consequence (some alternative)) rest
  | function {t opens closes : Token} {start mid rest : List Item} {names : List Node}
      {body : Node} :
      t.kind = .fnKeyword → opens.kind = .lparen →
      Parameters start names (.token closes :: mid) → closes.kind = .rparen →
      Block mid body rest →
      Primary (.token t :: .token opens :: start) (.function t names body) rest

/-- `block`. -/
inductive Block : List Item → Node → List Item → Prop
  | braces {opens closes : Token} {start rest : List Item} {body : List Node} :
      opens.kind = .lbrace → Statements start body (.token closes :: rest) →
      closes.kind = .rbrace → Block (.token opens :: start) (.block opens body) rest

/-- `stmt`, and whether a semicolon ends it. -/
inductive Statement : Bool → List Item → Node → List Item → Prop
  | bind {t name assign semicolon : Token} {start rest : List Item} {value : Node} :
      t.kind = .letKeyword → name.kind = .ident → assign.kind = .assign →
      Expression start value (.token semicolon :: rest) → semicolon.kind = .semicolon →
      Statement Bool.true (.token t :: .token name :: .token assign :: start)
        (.letStatement t (.identifier name name.literal) value) rest
  | give {t semicolon : Token} {start rest : List Item} {value : Node} :
      t.kind = .returnKeyword → Expression start value (.token semicolon :: rest) →
      semicolon.kind = .semicolon →
      Statement Bool.true (.token t :: start) (.returnStatement t value) rest
  | closed {t semicolon : Token} {start rest : List Item} {value : Node} :
      Expression (.token t :: start) value (.token semicolon :: rest) →
      semicolon.kind = .semicolon →
      Statement Bool.true (.token t :: start) (.expressionStatement t value) rest
  | opened {t : Token} {start rest : List Item} {value : Node} :
      Expression (.token t :: start) value rest →
      Statement Bool.false (.token t :: start) (.expressionStatement t value) rest

/-- `stmt*`. -/
inductive Statements : List Item → List Node → List Item → Prop
  | nil {rest : List Item} : Statements rest [] rest
  | cons {closed : Bool} {start mid rest : List Item} {first : Node} {more : List Node} :
      Statement closed start first mid → (closed = Bool.false → dialect.mayFollow mid) →
      Statements mid more rest → Statements start (first :: more) rest

end

/-- `program`: all the items of a source. -/
def Program (items : List Item) (statements : List Node) : Prop :=
  Statements dialect items statements []

/-! ### First tokens and links -/

variable {dialect} {start rest : List Item} {node : Node}

theorem Primary.head (h : Primary dialect start node rest) :
    Next (fun kind => kind.startsOperand ∧ kind.isPrefixOperator = Bool.false) start := by
  cases h with
  | identifier kind | integer kind | true kind | false kind | group kind | conditional kind
  | conditionalElse kind | function kind => rw [next_token, kind]; exact ⟨rfl, rfl⟩

theorem Applied.head {start rest : List Item} {node : Node} : Applied dialect start node rest →
    Next (fun kind => kind.startsOperand ∧ kind.isPrefixOperator = Bool.false) start
  | .primary h => h.head
  | .call h _ _ _ => h.head

theorem Operand.head (h : Operand dialect start node rest) :
    Next (fun kind => kind.startsOperand) start := by
  cases h with
  | @unary op _ _ _ isPrefix =>
    rw [next_token]
    revert isPrefix
    cases op.kind <;> decide
  | applied h => exact h.head.imp fun _ h => h.1

theorem Expression.head (h : Expression dialect start node rest) :
    Next (fun kind => kind.startsOperand) start := by
  cases h with
  | chain first => exact first.head

theorem Links.binary {start rest : List Item} {links : List Link} :
    Links dialect start links rest → ∀ link ∈ links, link.1.kind.isBinaryOperator
  | .nil => by simp
  | .cons binary _ tail => List.forall_mem_cons.mpr ⟨binary, tail.binary⟩

theorem Links.append {start mid rest : List Item} {before after : List Link} :
    Links dialect start before mid → Links dialect mid after rest →
      Links dialect start (before ++ after) rest
  | .nil, tail => tail
  | .cons binary operand more, tail => .cons binary operand (more.append tail)

theorem Statement.head {closed : Bool} (h : Statement dialect closed start node rest) :
    Next (fun kind => kind.startsStatement) start := by
  cases h with
  | bind kind | give kind => rw [next_token, kind]; rfl
  | closed value | opened value =>
    exact value.head.imp fun _ => Kind.startsStatement_of_startsOperand

theorem Statements.head {nodes : List Node} (h : Statements dialect start nodes rest) :
    start = rest ∨ Next (fun kind => kind.startsStatement) start := by
  cases h with
  | nil => exact .inl rfl
  | cons first => exact .inr first.head

end

end MonkeySyntax.Grammar
