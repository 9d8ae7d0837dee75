import MonkeySyntax.Proofs.Lexing.Spellings
import MonkeySyntax.Proofs.Trees.Bare
import MonkeySyntax.Proofs.Trees.WellFormed

/-!
# What a rendered tree is derived as

The text of a well-formed tree has a greedy derivation, and its tree is that one up to tokens. An
expression is rendered as something that may be called wherever it stands, so what comes behind it
can only go on with it as a call.
-/

namespace MonkeySyntax

open Grammar Node

/-! ### Delimiters -/

namespace Lexed

variable {tail : Text} {items : List Item} {c : Char} {kind : Kind}

theorem delimiter (lexed : Lexed (c :: tail) items) (isKind : Kind.ofChar? c = some kind)
    (lonely : ∀ d, Kind.ofPair? c d = none) :
    ∃ t more, items = .token t :: more ∧ t.kind = kind ∧ Lexed tail more := by
  obtain ⟨t, more, same, kind, _, behind⟩ := lexed.single isKind fun d _ => lonely d
  exact ⟨t, more, same, kind, behind⟩

theorem lparen (lexed : Lexed ('(' :: tail) items) :
    ∃ t more, items = .token t :: more ∧ t.kind = .lparen ∧ Lexed tail more :=
  lexed.delimiter rfl fun _ => rfl

theorem rparen (lexed : Lexed (')' :: tail) items) :
    ∃ t more, items = .token t :: more ∧ t.kind = .rparen ∧ Lexed tail more :=
  lexed.delimiter rfl fun _ => rfl

theorem lbrace (lexed : Lexed ('{' :: tail) items) :
    ∃ t more, items = .token t :: more ∧ t.kind = .lbrace ∧ Lexed tail more :=
  lexed.delimiter rfl fun _ => rfl

theorem rbrace (lexed : Lexed ('}' :: tail) items) :
    ∃ t more, items = .token t :: more ∧ t.kind = .rbrace ∧ Lexed tail more :=
  lexed.delimiter rfl fun _ => rfl

theorem semicolon (lexed : Lexed (';' :: tail) items) :
    ∃ t more, items = .token t :: more ∧ t.kind = .semicolon ∧ Lexed tail more :=
  lexed.delimiter rfl fun _ => rfl

theorem comma (lexed : Lexed (',' :: tail) items) :
    ∃ t more, items = .token t :: more ∧ t.kind = .comma ∧ Lexed tail more :=
  lexed.delimiter rfl fun _ => rfl

theorem assign (lexed : Lexed ('=' :: ' ' :: tail) items) :
    ∃ t more, items = .token t :: more ∧ t.kind = .assign ∧ Lexed tail more := by
  obtain ⟨t, more, same, kind, _, behind⟩ := lexed.single rfl fun d member => by
    obtain rfl := Option.some.inj member
    rfl
  exact ⟨t, more, same, kind, behind.layout rfl⟩

end Lexed

/-! ### Forms and what comes behind them -/

-- A form that holds a literal is opened by `change`: its equation would spell the literal out.
namespace Node.Form

variable (tail : Text)

theorem unary_append (operator right : Text) :
    unary operator right ++ tail = '(' :: (operator ++ (right ++ ')' :: tail)) := by
  simp [unary]

theorem binary_append (left operator right : Text) :
    binary left operator right ++ tail =
      '(' :: (left ++ ' ' :: (operator ++ ' ' :: (right ++ ')' :: tail))) := by
  simp [binary]

theorem letStatement_append (name value : Text) :
    letStatement name value ++ tail =
      "let".toList ++ ' ' :: (name ++ ' ' :: '=' :: ' ' :: (value ++ ';' :: tail)) := by
  change "let ".toList ++ name ++ " = ".toList ++ value ++ [';'] ++ tail = _
  simp

theorem returnStatement_append (value : Text) :
    returnStatement value ++ tail = "return".toList ++ ' ' :: (value ++ ';' :: tail) := by
  change "return ".toList ++ value ++ [';'] ++ tail = _
  simp

theorem conditional_append (condition consequence : Text) :
    conditional condition consequence none ++ tail =
      "if".toList ++ ' ' :: (condition ++ ' ' :: (consequence ++ tail)) := by
  change "if ".toList ++ condition ++ ' ' :: consequence ++ [] ++ tail = _
  simp

theorem conditionalElse_append (condition consequence alternative : Text) :
    conditional condition consequence (some alternative) ++ tail =
      "if".toList ++ ' ' :: (condition ++ ' ' :: (consequence ++
        ' ' :: ("else".toList ++ ' ' :: (alternative ++ tail)))) := by
  change "if ".toList ++ condition ++ ' ' :: consequence ++ (" else ".toList ++ alternative) ++
    tail = _
  simp

theorem function_append (parameters : List Text) (body : Text) :
    function parameters body ++ tail =
      "fn".toList ++ '(' :: (listed parameters ++ ')' :: ' ' :: (body ++ tail)) := by
  change "fn(".toList ++ listed parameters ++ [')', ' '] ++ body ++ tail = _
  simp

theorem call_append (callee : Text) (arguments : List Text) :
    call callee arguments ++ tail = callee ++ '(' :: (listed arguments ++ ')' :: tail) := by
  simp [call]

theorem listed_append (text next : Text) (texts : List Text) :
    listed (text :: next :: texts) ++ tail =
      text ++ ',' :: ' ' :: (listed (next :: texts) ++ tail) := by
  simp [listed, joined]

end Node.Form

/-! ### Expressions -/

/-- The text is derived as the node, with all its parentheses. -/
def WrittenApplied (text : Text) (node : Node) : Prop :=
  ∀ tail items, Lexed (text ++ tail) items → Breaks tail →
    ∃ again rest, Applied .greedy items again rest ∧ again.bare = node.bare ∧ Lexed tail rest

/-- The text is derived as the node between a pair of parentheses. -/
def WrittenGroup (text : Text) (node : Node) : Prop :=
  ∀ tail items, Lexed (text ++ tail) items →
    ∃ opens mid again closes rest, items = .token opens :: mid ∧ opens.kind = .lparen ∧
      Expression .greedy mid again (.token closes :: rest) ∧ closes.kind = .rparen ∧
        again.bare = node.bare ∧ Lexed tail rest

theorem Grammar.Applied.expression {dialect : Dialect} {start rest : List Item} {node : Node}
    (applied : Applied dialect start node rest) : Expression dialect start node rest :=
  .chain (.applied applied) .nil .operand

theorem WrittenGroup.applied {text : Text} {node : Node} (written : WrittenGroup text node) :
    WrittenApplied text node := by
  intro tail items lexed _
  obtain ⟨opens, mid, again, closes, rest, rfl, isOpen, inner, isClose, same, behind⟩ :=
    written tail items lexed
  exact ⟨again, rest, .primary (.group isOpen inner isClose), same, behind⟩

theorem WrittenApplied.group {text : Text} {node : Node} (written : WrittenApplied text node) :
    WrittenGroup ('(' :: text ++ [')']) node := by
  intro tail items lexed
  have lexed : Lexed ('(' :: (text ++ ')' :: tail)) items := by simpa using lexed
  obtain ⟨opens, mid, rfl, isOpen, lexed⟩ := lexed.lparen
  obtain ⟨again, after, applied, same, lexed⟩ := written (')' :: tail) mid lexed (by simp; decide)
  obtain ⟨closes, rest, rfl, isClose, behind⟩ := lexed.rparen
  exact ⟨opens, mid, again, closes, rest, rfl, isOpen, applied.expression, isClose, same, behind⟩

/-- A node is read back from its text, wherever the text stands and in the place of a condition. -/
structure Written (node : Node) : Prop where
  opens : Opens node.render
  applied : WrittenApplied node.render node
  condition : WrittenGroup (Form.condition node node.render) node

theorem written_of_applied {node : Node} (opens : Opens node.render)
    (applied : WrittenApplied node.render node) (single : node.isOperation = false) :
    Written node := by
  refine ⟨opens, applied, ?_⟩
  rw [Form.condition, if_neg (by simp [single])]
  exact applied.group

theorem written_of_group {node : Node} (group : WrittenGroup node.render node)
    (opens : Opens node.render) (operation : node.isOperation) : Written node := by
  refine ⟨opens, group.applied, ?_⟩
  rw [Form.condition, if_pos operation]
  exact group

theorem written_identifier {t : Token} {name : Text} (isName : isName name) :
    Written (.identifier t name) := by
  refine written_of_applied ?_ ?_ rfl
  · match name with
    | c :: rest =>
      simp only [MonkeySyntax.isName, Bool.and_eq_true] at isName
      exact ⟨c, rest, by rw [render], .inl (isWordChar_of_isLetter isName.1.1)⟩
  · intro tail items lexed breaks
    rw [render] at lexed
    obtain ⟨u, rest, rfl, kind, literal, behind⟩ := lexed.name isName breaks
    refine ⟨_, rest, .primary (.identifier kind), ?_, behind⟩
    rw [bare, bare, literal]

theorem written_integer {t : Token} {value : Int} (nonneg : 0 ≤ value)
    (small : value ≤ Parser.maxInteger) : Written (.integer t value) := by
  obtain ⟨n, rfl⟩ := Int.eq_ofNat_of_zero_le nonneg
  have small : n ≤ Parser.maxInteger := Int.ofNat_le.mp small
  have text : (Node.integer t n).render = Decimal.ofNat n := by
    rw [render]
    rfl
  have digits := Decimal.isDigit_of_mem_ofNat (n := n)
  refine written_of_applied ?_ ?_ rfl
  · rw [text]
    obtain ⟨c, rest, starts⟩ := List.exists_cons_of_ne_nil (Decimal.ofNat_ne_nil n)
    rw [starts] at digits ⊢
    exact ⟨c, rest, rfl, .inl (isWordChar_of_isDigit (digits c List.mem_cons_self))⟩
  · intro tail items lexed breaks
    rw [text] at lexed
    obtain ⟨u, rest, rfl, kind, literal, behind⟩ :=
      lexed.numeral (Decimal.ofNat_ne_nil n) digits breaks
    have value : Decimal.value u.literal = n := by rw [literal, Decimal.value_ofNat]
    have length : u.literal.length ≤ 19 := by
      rw [literal]
      exact Decimal.length_ofNat_le (Nat.lt_of_le_of_lt small (by decide))
    have isInteger : Dialect.greedy.isInteger u.literal :=
      ⟨Nat.le_trans length (by decide), by rwa [value]⟩
    refine ⟨_, rest, .primary (.integer kind isInteger), ?_, behind⟩
    rw [bare, bare, value]

theorem written_boolean {t : Token} {value : Bool} : Written (.boolean t value) := by
  refine written_of_applied ?_ ?_ rfl
  · rw [render]
    cases value with
    | true => exact ⟨'t', "rue".toList, rfl, .inl rfl⟩
    | false => exact ⟨'f', "alse".toList, rfl, .inl rfl⟩
  · intro tail items lexed breaks
    rw [render] at lexed
    cases value with
    | true =>
      obtain ⟨u, rest, rfl, kind, behind⟩ :=
        lexed.keyword .trueKeyword (by decide) breaks
      exact ⟨_, rest, .primary (.true kind), rfl, behind⟩
    | false =>
      obtain ⟨u, rest, rfl, kind, behind⟩ :=
        lexed.keyword .falseKeyword (by decide) breaks
      exact ⟨_, rest, .primary (.false kind), rfl, behind⟩

section

variable {t : Token} {kind : Kind} {left right : Node}

theorem written_unary (isPrefix : kind.isPrefixOperator) (operand : Written right) :
    Written (.unary t kind.spelling right) := by
  refine written_of_group ?_ ⟨'(', _, by rw [render]; rfl, .inr rfl⟩ rfl
  intro tail items lexed
  rw [render, Form.unary_append] at lexed
  obtain ⟨opens, mid, rfl, isOpen, lexed⟩ := lexed.lparen
  obtain ⟨op, inner, rfl, rfl, literal, lexed⟩ :=
    lexed.prefixOperator isPrefix (operand.opens.append _)
  obtain ⟨again, after, applied, same, lexed⟩ :=
    operand.applied (')' :: tail) inner lexed (by simp; decide)
  obtain ⟨closes, rest, rfl, isClose, behind⟩ := lexed.rparen
  refine ⟨opens, _, .unary op op.literal again, closes, rest, rfl, isOpen, ?_, isClose, ?_, behind⟩
  · exact .chain (.unary isPrefix (.applied applied)) .nil .operand
  · rw [bare, bare, literal, same]

theorem written_binary (isBinary : kind.isBinaryOperator) (first : Written left)
    (second : Written right) : Written (.binary t left kind.spelling right) := by
  refine written_of_group ?_ ⟨'(', _, by rw [render]; rfl, .inr rfl⟩ rfl
  intro tail items lexed
  rw [render, Form.binary_append] at lexed
  obtain ⟨opens, mid, rfl, isOpen, lexed⟩ := lexed.lparen
  obtain ⟨l, after, appliedLeft, sameLeft, lexed⟩ := first.applied _ mid lexed (by simp; decide)
  obtain ⟨op, inner, rfl, rfl, literal, lexed⟩ := (lexed.layout rfl).binaryOperator isBinary
  obtain ⟨r, last, appliedRight, sameRight, lexed⟩ :=
    second.applied (')' :: tail) inner lexed (by simp; decide)
  obtain ⟨closes, rest, rfl, isClose, behind⟩ := lexed.rparen
  have groups : Groups l ([] ++ (op, r) :: []) (.binary op l op.literal r) :=
    .root .operand .operand (by simp) (by simp)
  have links : Links .greedy (.token op :: inner) [(op, r)] (.token closes :: rest) :=
    .cons isBinary (.applied appliedRight) .nil
  refine ⟨opens, mid, .binary op l op.literal r, closes, rest, rfl, isOpen,
    .chain (.applied appliedLeft) links groups, isClose, ?_, behind⟩
  rw [bare, bare, literal, sameLeft, sameRight]

end

/-! ### Lists -/

theorem arguments_of_written {values : List Node} (each : ∀ value ∈ values, Written value)
    (tail : Text) (items : List Item)
    (lexed : Lexed (Form.listed (renderEach values) ++ ')' :: tail) items) :
    ∃ again closes rest, Arguments .greedy items again (.token closes :: rest) ∧
      closes.kind = .rparen ∧ bareEach again = bareEach values ∧ Lexed tail rest := by
  induction values generalizing items with
  | nil =>
    obtain ⟨closes, rest, rfl, isClose, behind⟩ := lexed.rparen
    exact ⟨[], closes, rest, .none, isClose, rfl, behind⟩
  | cons value values ih =>
    obtain ⟨written, others⟩ := List.forall_mem_cons.mp each
    cases values with
    | nil =>
      obtain ⟨again, after, applied, same, lexed⟩ := written.applied _ items lexed (by simp; decide)
      obtain ⟨closes, rest, rfl, isClose, behind⟩ := lexed.rparen
      exact ⟨[again], closes, rest, .last applied.expression, isClose, bareEach_cons_eq same rfl,
        behind⟩
    | cons next values =>
      rw [renderEach, renderEach, Form.listed_append, ← renderEach] at lexed
      obtain ⟨again, after, applied, same, lexed⟩ := written.applied _ items lexed (by simp; decide)
      obtain ⟨comma, mid, rfl, isComma, lexed⟩ := lexed.comma
      obtain ⟨more, closes, rest, arguments, isClose, sameMore, behind⟩ :=
        ih others mid (lexed.layout rfl)
      exact ⟨again :: more, closes, rest, .cons applied.expression isComma arguments, isClose,
        bareEach_cons_eq same sameMore, behind⟩

theorem parameters_of_written {names : List Node} (each : ∀ name ∈ names, IsParameter name)
    (tail : Text) (items : List Item)
    (lexed : Lexed (Form.listed (renderEach names) ++ ')' :: tail) items) :
    ∃ again closes rest, Parameters items again (.token closes :: rest) ∧
      closes.kind = .rparen ∧ bareEach again = bareEach names ∧ Lexed tail rest := by
  induction names generalizing items with
  | nil =>
    obtain ⟨closes, rest, rfl, isClose, behind⟩ := lexed.rparen
    exact ⟨[], closes, rest, .none, isClose, rfl, behind⟩
  | cons name names ih =>
    obtain ⟨parameter, others⟩ := List.forall_mem_cons.mp each
    obtain @⟨u, name, isName⟩ := parameter
    have same : ∀ {t : Token}, t.literal = name →
        (Node.identifier t t.literal).bare = (Node.identifier u name).bare := by
      rintro t rfl
      rfl
    cases names with
    | nil =>
      have lexed : Lexed (name ++ ')' :: tail) items := by
        simpa [renderEach, render, Form.listed, joined] using lexed
      obtain ⟨t, after, rfl, kind, literal, lexed⟩ := lexed.name isName (by simp; decide)
      obtain ⟨closes, rest, rfl, isClose, behind⟩ := lexed.rparen
      exact ⟨_, closes, rest, .last kind, isClose, bareEach_cons_eq (same literal) rfl, behind⟩
    | cons next names =>
      rw [renderEach, renderEach, Form.listed_append, render, ← renderEach] at lexed
      obtain ⟨t, after, rfl, kind, literal, lexed⟩ := lexed.name isName (by simp; decide)
      obtain ⟨comma, mid, rfl, isComma, lexed⟩ := lexed.comma
      obtain ⟨more, closes, rest, parameters, isClose, sameMore, behind⟩ :=
        ih others mid (lexed.layout rfl)
      exact ⟨_, closes, rest, .cons kind isComma parameters, isClose,
        bareEach_cons_eq (same literal) sameMore, behind⟩

/-! ### Blocks and statements -/

/-- A block is read back from its text. -/
def WrittenBlock (node : Node) : Prop :=
  ∀ tail items, Lexed (node.render ++ tail) items →
    ∃ again rest, Block .greedy items again rest ∧ again.bare = node.bare ∧ Lexed tail rest

/-- A statement is read back from its text, with its semicolon or as the last one. -/
structure WrittenStatement (node : Node) : Prop where
  closed : ∀ tail items,
    Lexed (node.render ++ (if node.isExpressionStatement then [';'] else []) ++ tail) items →
      ∃ again rest, Statement .greedy true items again rest ∧ again.bare = node.bare ∧
        Lexed tail rest
  last : ∀ tail items, Lexed (node.render ++ tail) items → Breaks tail →
    ∃ closed again rest, Statement .greedy closed items again rest ∧ again.bare = node.bare ∧
      Lexed tail rest

theorem written_expressionStatement {t : Token} {value : Node} (written : Written value) :
    WrittenStatement (.expressionStatement t value) := by
  have starts : ∀ {items again rest}, Applied .greedy items again rest →
      ∃ u inner, items = .token u :: inner := by
    intro items again rest applied
    match items, applied.head with
    | .token u :: inner, _ => exact ⟨u, inner, rfl⟩
    | [], head => exact absurd head.1 (by decide)
  constructor
  · intro tail items lexed
    have lexed : Lexed (value.render ++ ';' :: tail) items := by
      simpa [render, isExpressionStatement] using lexed
    obtain ⟨again, after, applied, same, lexed⟩ := written.applied _ items lexed (by simp; decide)
    obtain ⟨semicolon, rest, rfl, ends, behind⟩ := lexed.semicolon
    obtain ⟨u, inner, rfl⟩ := starts applied
    refine ⟨.expressionStatement u again, rest, .closed applied.expression ends, ?_, behind⟩
    rw [bare, bare, same]
  · intro tail items lexed breaks
    rw [render] at lexed
    obtain ⟨again, rest, applied, same, behind⟩ := written.applied tail items lexed breaks
    obtain ⟨u, inner, rfl⟩ := starts applied
    refine ⟨false, .expressionStatement u again, rest, .opened applied.expression, ?_, behind⟩
    rw [bare, bare, same]

/-- A statement that brings its own semicolon is closed wherever it stands. -/
theorem writtenStatement_of_closed {node : Node} (other : node.isExpressionStatement = false)
    (closed : ∀ tail items, Lexed (node.render ++ tail) items →
      ∃ again rest, Statement .greedy true items again rest ∧ again.bare = node.bare ∧
        Lexed tail rest) : WrittenStatement node := by
  constructor
  · intro tail items lexed
    rw [if_neg (by simp [other]), List.append_nil] at lexed
    exact closed tail items lexed
  · intro tail items lexed _
    obtain ⟨again, rest, statement⟩ := closed tail items lexed
    exact ⟨true, again, rest, statement⟩

theorem written_letStatement {t u : Token} {name : Text} {value : Node} (isName : isName name)
    (written : Written value) : WrittenStatement (.letStatement t (.identifier u name) value) := by
  refine writtenStatement_of_closed rfl fun tail items lexed => ?_
  rw [render, render, Form.letStatement_append] at lexed
  obtain ⟨word, mid, rfl, isLet, lexed⟩ :=
    lexed.keyword .letKeyword (by decide) (by simp; decide)
  obtain ⟨v, after, rfl, isIdent, literal, lexed⟩ :=
    (lexed.layout rfl).name isName (by simp; decide)
  obtain ⟨assign, inner, rfl, isAssign, lexed⟩ := (lexed.layout rfl).assign
  obtain ⟨again, last, applied, same, lexed⟩ := written.applied _ inner lexed (by simp; decide)
  obtain ⟨semicolon, rest, rfl, ends, behind⟩ := lexed.semicolon
  refine ⟨_, rest, .bind isLet isIdent isAssign applied.expression ends, ?_, behind⟩
  rw [bare, bare, bare, bare, literal, same]

theorem written_returnStatement {t : Token} {value : Node} (written : Written value) :
    WrittenStatement (.returnStatement t value) := by
  refine writtenStatement_of_closed rfl fun tail items lexed => ?_
  rw [render, Form.returnStatement_append] at lexed
  obtain ⟨word, mid, rfl, isReturn, lexed⟩ :=
    lexed.keyword .returnKeyword (by decide) (by simp; decide)
  obtain ⟨again, last, applied, same, lexed⟩ :=
    written.applied _ mid (lexed.layout rfl) (by simp; decide)
  obtain ⟨semicolon, rest, rfl, ends, behind⟩ := lexed.semicolon
  refine ⟨_, rest, .give isReturn applied.expression ends, ?_, behind⟩
  rw [bare, bare, same]

/-- Statements in a row are read back before a text that no statement goes on with. -/
theorem statements_of_written {nodes : List Node} (each : ∀ node ∈ nodes, WrittenStatement node)
    {tail : Text} (breaks : Breaks tail)
    (stops : ∀ rest, Lexed tail rest → Dialect.greedy.mayFollow rest) (items : List Item)
    (lexed : Lexed (sequenced (nodes.zip (renderEach nodes)) ++ tail) items) :
    ∃ again rest, Statements .greedy items again rest ∧ bareEach again = bareEach nodes ∧
      Lexed tail rest := by
  induction nodes generalizing items with
  | nil => exact ⟨[], items, .nil, rfl, lexed⟩
  | cons node nodes ih =>
    obtain ⟨written, others⟩ := List.forall_mem_cons.mp each
    cases nodes with
    | nil =>
      have lexed : Lexed (node.render ++ tail) items := by
        simpa [renderEach, sequenced] using lexed
      obtain ⟨closed, again, rest, statement, same, behind⟩ := written.last tail items lexed breaks
      exact ⟨[again], rest, .cons statement (fun _ => stops rest behind) .nil,
        bareEach_cons_eq same rfl, behind⟩
    | cons next nodes =>
      -- Here every statement is closed, by its own semicolon or by the one that is put behind it.
      have lexed : Lexed (node.render ++ (if node.isExpressionStatement then [';'] else []) ++
          ' ' :: (sequenced ((next :: nodes).zip (renderEach (next :: nodes))) ++ tail)) items := by
        cases expression : node.isExpressionStatement <;>
          simpa [renderEach, sequenced, expression] using lexed
      obtain ⟨again, mid, statement, same, lexed⟩ := written.closed _ items lexed
      obtain ⟨more, rest, statements, sameMore, behind⟩ := ih others mid (lexed.layout rfl)
      exact ⟨again :: more, rest, .cons statement (by simp) statements,
        bareEach_cons_eq same sameMore, behind⟩

theorem written_block {t : Token} {nodes : List Node}
    (each : ∀ node ∈ nodes, WrittenStatement node) : WrittenBlock (.block t nodes) := by
  intro tail items lexed
  rw [render] at lexed
  cases nodes with
  | nil =>
    obtain ⟨opens, mid, rfl, isOpen, lexed⟩ := Lexed.lbrace lexed
    obtain ⟨closes, rest, rfl, isClose, behind⟩ := Lexed.rbrace lexed
    exact ⟨.block opens [], rest, .braces isOpen .nil isClose, rfl, behind⟩
  | cons node nodes =>
    have lexed : Lexed ('{' :: ' ' ::
        (sequenced ((node :: nodes).zip (renderEach (node :: nodes))) ++ ' ' :: '}' :: tail))
        items := by
      simpa [Form.block, renderEach] using lexed
    obtain ⟨opens, mid, rfl, isOpen, lexed⟩ := lexed.lbrace
    have stops : ∀ rest, Lexed (' ' :: '}' :: tail) rest → Dialect.greedy.mayFollow rest := by
      intro rest lexed
      obtain ⟨closes, after, rfl, isClose, _⟩ := (lexed.layout rfl).rbrace
      change closes.kind.precedence = .lowest
      rw [isClose]
      rfl
    obtain ⟨again, after, statements, same, lexed⟩ :=
      statements_of_written each (by simp; decide) stops mid (lexed.layout rfl)
    obtain ⟨closes, rest, rfl, isClose, behind⟩ := (lexed.layout rfl).rbrace
    refine ⟨.block opens again, rest, .braces isOpen statements isClose, ?_, behind⟩
    rw [bare, bare, same]

/-! ### Compound expressions -/

section

variable {t : Token} {condition consequence alternative : Node}

theorem opens_conditional {other : Option Node} :
    Opens (Node.conditional t condition consequence other).render := by
  cases other <;> exact ⟨'i', _, by rw [render]; rfl, .inl rfl⟩

theorem written_conditional (isCondition : Written condition)
    (isConsequence : WrittenBlock consequence) :
    Written (.conditional t condition consequence none) := by
  refine written_of_applied opens_conditional ?_ rfl
  intro tail items lexed _
  rw [render, Form.conditional_append] at lexed
  obtain ⟨word, mid, rfl, isIf, lexed⟩ := lexed.keyword .ifKeyword (by decide) (by simp; decide)
  obtain ⟨opens, inner, c, closes, after, rfl, isOpen, tested, isClose, sameCondition, lexed⟩ :=
    isCondition.condition _ mid (lexed.layout rfl)
  obtain ⟨k, rest, taken, sameConsequence, behind⟩ :=
    isConsequence tail after (lexed.layout rfl)
  refine ⟨.conditional word c k none, rest,
    .primary (.conditional isIf isOpen tested isClose taken), ?_, behind⟩
  rw [bare, bare, sameCondition, sameConsequence]

theorem written_conditionalElse (isCondition : Written condition)
    (isConsequence : WrittenBlock consequence) (isAlternative : WrittenBlock alternative) :
    Written (.conditional t condition consequence (some alternative)) := by
  refine written_of_applied opens_conditional ?_ rfl
  intro tail items lexed _
  rw [render, Form.conditionalElse_append] at lexed
  obtain ⟨word, mid, rfl, isIf, lexed⟩ := lexed.keyword .ifKeyword (by decide) (by simp; decide)
  obtain ⟨opens, inner, c, closes, after, rfl, isOpen, tested, isClose, sameCondition, lexed⟩ :=
    isCondition.condition _ mid (lexed.layout rfl)
  obtain ⟨k, last, taken, sameConsequence, lexed⟩ := isConsequence _ after (lexed.layout rfl)
  obtain ⟨other, mid, rfl, isElse, lexed⟩ :=
    (lexed.layout rfl).keyword .elseKeyword (by decide) (by simp; decide)
  obtain ⟨a, rest, otherwise, sameAlternative, behind⟩ := isAlternative tail mid (lexed.layout rfl)
  refine ⟨.conditional word c k (some a), rest,
    .primary (.conditionalElse isIf isOpen tested isClose taken isElse otherwise), ?_, behind⟩
  rw [bare, bare, bareIfAny, bareIfAny, sameCondition, sameConsequence, sameAlternative]

theorem written_function {names : List Node} {body : Node}
    (each : ∀ name ∈ names, IsParameter name) (isBody : WrittenBlock body) :
    Written (.function t names body) := by
  refine written_of_applied ⟨'f', _, by rw [render]; rfl, .inl rfl⟩ ?_ rfl
  intro tail items lexed _
  rw [render, Form.function_append] at lexed
  obtain ⟨word, mid, rfl, isFn, lexed⟩ := lexed.keyword .fnKeyword (by decide) (by simp; decide)
  obtain ⟨opens, inner, rfl, isOpen, lexed⟩ := lexed.lparen
  obtain ⟨again, closes, after, parameters, isClose, sameNames, lexed⟩ :=
    parameters_of_written each _ inner lexed
  obtain ⟨b, rest, block, sameBody, behind⟩ := isBody tail after (lexed.layout rfl)
  refine ⟨.function word again b, rest, .primary (.function isFn isOpen parameters isClose block),
    ?_, behind⟩
  rw [bare, bare, sameNames, sameBody]

theorem written_call {callee : Node} {values : List Node} (isCallee : Written callee)
    (each : ∀ value ∈ values, Written value) : Written (.call t callee values) := by
  have opens : Opens (Node.call t callee values).render := by
    rw [render, Form.call, List.append_assoc]
    exact isCallee.opens.append _
  refine written_of_applied opens ?_ rfl
  intro tail items lexed _
  rw [render, Form.call_append] at lexed
  obtain ⟨f, mid, applied, sameCallee, lexed⟩ := isCallee.applied _ items lexed (by simp; decide)
  obtain ⟨opens, inner, rfl, isOpen, lexed⟩ := lexed.lparen
  obtain ⟨again, closes, rest, arguments, isClose, sameValues, behind⟩ :=
    arguments_of_written each tail inner lexed
  refine ⟨.call opens f again, rest, .call applied isOpen arguments isClose, ?_, behind⟩
  rw [bare, bare, sameCallee, sameValues]

end

/-! ### Well-formed trees -/

mutual

theorem written_of_isExpression {node : Node} : IsExpression node → Written node
  | .identifier isName => written_identifier isName
  | .integer nonneg small => written_integer nonneg small
  | .boolean => written_boolean
  | .unary isPrefix spelling operand => by
    rw [spelling]
    exact written_unary isPrefix (written_of_isExpression operand)
  | .binary isBinary spelling left right => by
    rw [spelling]
    exact written_binary isBinary (written_of_isExpression left) (written_of_isExpression right)
  | .conditional condition consequence =>
    written_conditional (written_of_isExpression condition) (written_of_isBlock consequence)
  | .conditionalElse condition consequence alternative =>
    written_conditionalElse (written_of_isExpression condition) (written_of_isBlock consequence)
      (written_of_isBlock alternative)
  | .function names body => written_function names (written_of_isBlock body)
  | .call callee values =>
    written_call (written_of_isExpression callee)
      fun value member => written_of_isExpression (values value member)

theorem written_of_isBlock {node : Node} : IsBlock node → WrittenBlock node
  | .braces body => written_block fun node member => written_of_isStatement (body node member)

theorem written_of_isStatement {node : Node} : IsStatement node → WrittenStatement node
  | .bind isName value => written_letStatement isName (written_of_isExpression value)
  | .give value => written_returnStatement (written_of_isExpression value)
  | .expression value => written_expressionStatement (written_of_isExpression value)

end

/-- The text of well-formed statements is a program, of the same trees up to tokens. -/
theorem program_of_rendered {nodes : List Node} (each : ∀ node ∈ nodes, IsStatement node)
    (items : List Item) (lexed : Lexed (Node.program nodes).render items) :
    ∃ again, Program .greedy items again ∧ bareEach again = bareEach nodes := by
  rw [render] at lexed
  have stops : ∀ rest, Lexed [] rest → Dialect.greedy.mayFollow rest := by
    intro rest lexed
    rw [lexed.nil]
    rfl
  obtain ⟨again, rest, statements, same, behind⟩ :=
    statements_of_written (fun node member => written_of_isStatement (each node member)) breaks_nil
      stops items (by rwa [List.append_nil])
  rw [behind.nil] at statements
  exact ⟨again, statements, same⟩

end MonkeySyntax
