import MonkeySyntax.Node
import MonkeySyntax.Parser.Reply
import MonkeySyntax.Precedence

/-!
# Statements and expressions

The parser of one statement, by operator precedence. Every function takes the items that are left
and the place where the source ends, and replies with a tree or a fault and what is left then. A bad
name is a fault wherever it is met; one that was only looked at stays unread.
-/

namespace MonkeySyntax

namespace Parser

/-- The greatest integer that a source may write. -/
def maxInteger : Nat := 0x7fffffffffffffff

section

variable (finish : Position)

/-- Refuses the next token, and leaves it unread: a bad name for what it is, any other because it is
not of the wanted kind. -/
def refuse {α : Type} (wanted : Kind) : (items : List Item) → Reply α items
  | [] => .failed (.problem (.unexpected [wanted] .eof) finish) [] List.suffix_rfl
  | .badName literal position :: rest =>
    .failed (.problem (.badName literal) position) (.badName literal position :: rest)
      List.suffix_rfl
  | .token t :: rest =>
    .failed (.problem (.unexpected [wanted] t.kind) t.position) (.token t :: rest)
      List.suffix_rfl

/-- Requires the next token to be of a kind, and reads it. -/
def expect (kind : Kind) : (items : List Item) → Reply Token items
  | .token t :: rest =>
    if t.kind = kind then .done t rest (List.suffix_cons ..)
    else refuse finish kind (.token t :: rest)
  | items => refuse finish kind items

/-- Reads the next token if it is of a kind, and says whether it was. -/
def accept (kind : Kind) : (items : List Item) → Reply Bool items
  | [] => .done false [] List.suffix_rfl
  | .badName literal position :: rest =>
    .failed (.problem (.badName literal) position) (.badName literal position :: rest)
      List.suffix_rfl
  | .token t :: rest =>
    if t.kind = kind then .done true rest (List.suffix_cons ..)
    else .done false (.token t :: rest) List.suffix_rfl

def integer (t : Token) (rest : List Item) : Reply Node rest :=
  if t.literal.length > Decimal.maxDigits then
    .failed (.tooLong ⟨t.literal.length⟩) rest List.suffix_rfl
  else if Decimal.value t.literal > maxInteger then
    .failed (.problem (.overflow t.literal) t.position) rest List.suffix_rfl
  else .done (.integer t (Decimal.value t.literal)) rest List.suffix_rfl

/-- The names of a parameter list, up to its closing parenthesis. A comma may follow the last. -/
def parameters : (items : List Item) → Reply (List Node) items
  | .token t :: rest =>
    if t.kind = .rparen then .done [] (.token t :: rest) List.suffix_rfl
    else if t.kind = .ident then
      ((accept .comma rest).andThen fun more left _ =>
        if more then
          (parameters left).andThen fun names left _ =>
            .done (.identifier t t.literal :: names) left List.suffix_rfl
        else .done [.identifier t t.literal] left List.suffix_rfl).widen (List.suffix_cons ..)
    else refuse finish .ident (.token t :: rest)
  | items => refuse finish .ident items
termination_by items => items.length
decreasing_by
  rename_i h
  have := h.length_le
  simp +arith [this]

mutual

/-- An expression whose operators all bind more strongly than `power`. The first item is read
whatever it is. -/
def expression (power : Precedence) : (items : List Item) → Reply Node items.tail
  | [] => .failed (.problem (.noOperand []) finish) [] List.suffix_rfl
  | .badName literal position :: rest =>
    .failed (.problem (.badName literal) position) rest List.suffix_rfl
  | .token t :: rest =>
    (operand t rest).andThen fun left items _ => operators power left items
termination_by items => 5 * items.length
decreasing_by all_goals grind [List.IsSuffix.length_le]

def operand (t : Token) (items : List Item) : Reply Node items :=
  match t.kind with
  | .ident => .done (.identifier t t.literal) items List.suffix_rfl
  | .int => integer t items
  | .trueKeyword => .done (.boolean t true) items List.suffix_rfl
  | .falseKeyword => .done (.boolean t false) items List.suffix_rfl
  | .bang | .minus | .increment | .decrement =>
    (expression .unary items).ofTail.andThen fun right items _ =>
      .done (.unary t t.literal right) items List.suffix_rfl
  | .lparen =>
    (expression .lowest items).ofTail.andThen fun inner items _ =>
      (expect finish .rparen items).andThen fun _ items _ => .done inner items List.suffix_rfl
  | .ifKeyword =>
    (expect finish .lparen items).andThen fun _ items _ =>
    (expression .lowest items).ofTail.andThen fun condition items _ =>
    (expect finish .rparen items).andThen fun _ items _ =>
    (block items).andThen fun consequence items _ =>
    (accept .elseKeyword items).andThen fun more items _ =>
      if more then
        (block items).andThen fun alternative items _ =>
          .done (.conditional t condition consequence (some alternative)) items List.suffix_rfl
      else .done (.conditional t condition consequence none) items List.suffix_rfl
  | .fnKeyword =>
    (expect finish .lparen items).andThen fun _ items _ =>
    (parameters finish items).andThen fun names items _ =>
    (expect finish .rparen items).andThen fun _ items _ =>
    (block items).andThen fun body items _ =>
      .done (.function t names body) items List.suffix_rfl
  | .illegal => .failed (.problem (.illegal t.literal) t.position) items List.suffix_rfl
  | _ => .failed (.problem (.noOperand t.literal) t.position) items List.suffix_rfl
termination_by 5 * items.length + 4
decreasing_by all_goals grind [List.IsSuffix.length_le]

/-- Goes on with an expression as long as the next operator binds more strongly than `power`. -/
def operators (power : Precedence) (left : Node) : (items : List Item) → Reply Node items
  | [] => .done left [] List.suffix_rfl
  | .badName literal position :: rest =>
    .failed (.problem (.badName literal) position) (.badName literal position :: rest)
      List.suffix_rfl
  | .token t :: rest =>
    if power.weaker t.kind.precedence then
      Reply.widen (List.suffix_cons ..) <|
        if t.kind = .lparen then
          (arguments rest).andThen fun values items _ =>
          (expect finish .rparen items).andThen fun _ items _ =>
            operators power (.call t left values) items
        else if t.kind.isBinaryOperator then
          (expression t.kind.precedence rest).ofTail.andThen fun right items _ =>
            operators power (.binary t left t.literal right) items
        else .failed (.problem (.noOperator t.literal) t.position) rest List.suffix_rfl
    else .done left (.token t :: rest) List.suffix_rfl
termination_by items => 5 * items.length
decreasing_by all_goals grind [List.IsSuffix.length_le]

/-- The arguments of a call, up to its closing parenthesis. A comma may stand after the last. -/
def arguments : (items : List Item) → Reply (List Node) items
  | .badName literal position :: rest =>
    .failed (.problem (.badName literal) position) (.badName literal position :: rest)
      List.suffix_rfl
  | [] => (expression .lowest []).andThen fun first items _ => .done [first] items List.suffix_rfl
  | .token t :: rest =>
    if t.kind = .rparen then .done [] (.token t :: rest) List.suffix_rfl
    else
      Reply.ofTail <|
        (expression .lowest (.token t :: rest)).andThen fun first items _ =>
        (accept .comma items).andThen fun more items _ =>
          if more then
            (arguments items).andThen fun values items _ =>
              .done (first :: values) items List.suffix_rfl
          else .done [first] items List.suffix_rfl
termination_by items => 5 * items.length + 1
decreasing_by all_goals grind [List.IsSuffix.length_le]

def block (items : List Item) : Reply Node items :=
  (expect finish .lbrace items).andThen fun t items _ =>
  (statements items).andThen fun body items _ =>
  (expect finish .rbrace items).andThen fun _ items _ =>
    .done (.block t body) items List.suffix_rfl
termination_by 5 * items.length + 3
decreasing_by all_goals grind [List.IsSuffix.length_le]

def statements : (items : List Item) → Reply (List Node) items
  | [] => .done [] [] List.suffix_rfl
  | .badName literal position :: rest =>
    .failed (.problem (.badName literal) position) (.badName literal position :: rest)
      List.suffix_rfl
  | .token t :: rest =>
    if t.kind = .rbrace then .done [] (.token t :: rest) List.suffix_rfl
    else
      Reply.ofTail <|
        (statement t rest).andThen fun first items _ =>
        (statements items).andThen fun more items _ =>
          .done (first :: more) items List.suffix_rfl
termination_by items => 5 * items.length + 2
decreasing_by all_goals grind [List.IsSuffix.length_le]

def statement (t : Token) (rest : List Item) : Reply Node rest :=
  if t.kind = .letKeyword then
    (expect finish .ident rest).andThen fun name items _ =>
    (expect finish .assign items).andThen fun _ items _ =>
    (expression .lowest items).ofTail.andThen fun value items _ =>
    (expect finish .semicolon items).andThen fun _ items _ =>
      .done (.letStatement t (.identifier name name.literal) value) items List.suffix_rfl
  else if t.kind = .returnKeyword then
    (expression .lowest rest).ofTail.andThen fun value items _ =>
    (expect finish .semicolon items).andThen fun _ items _ =>
      .done (.returnStatement t value) items List.suffix_rfl
  else
    (expression .lowest (.token t :: rest)).andThen fun value items _ =>
    (accept .semicolon items).andThen fun _ items _ =>
      .done (.expressionStatement t value) items List.suffix_rfl
termination_by 5 * rest.length + 6
decreasing_by all_goals grind [List.IsSuffix.length_le]

end

end

end Parser

end MonkeySyntax
