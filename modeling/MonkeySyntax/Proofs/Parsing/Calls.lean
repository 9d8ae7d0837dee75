import MonkeySyntax.Parser.Program

/-!
# The calls that parsing makes

The parser goes down into expressions, statements and blocks, and goes round in five loops. A `Call`
is one such descent or one turn of a loop; `body` is what it does itself, with a place in it for
every further call that it makes. `eval_body` says that the answers of the parser are what the
bodies make of each other's answers.
-/

namespace MonkeySyntax.Parser

/-- A descent of the parser, with the token in hand, or a turn of one of its loops; either with the
items that are unread then. -/
inductive Call where
  /-- A turn of the loop over a whole source. It reads its token first. -/
  | turn (items : List Item)
  | statement (t : Token) (items : List Item)
  | expression (power : Precedence) (t : Token) (items : List Item)
  | operators (power : Precedence) (left : Node) (items : List Item)
  | arguments (items : List Item)
  | parameters (items : List Item)
  | block (brace : Token) (items : List Item)
  | statements (items : List Item)

namespace Call

@[reducible] def Answer : Call → Type
  | turn _ => List Turn × Ending
  | statement _ items | expression _ _ items | operators _ _ items | block _ items =>
    Reply Node items
  | arguments items | parameters items | statements items => Reply (List Node) items

def unread : Call → List Item
  | turn items | statement _ items | expression _ _ items | operators _ _ items
  | arguments items | parameters items | block _ items | statements items => items

end Call

/-- A computation that may make calls and goes on with their answers. -/
inductive Run (α : Type) where
  | ret (value : α)
  | call (c : Call) (next : c.Answer → Run α)

namespace Run

variable {α β : Type} {bound : List Item}

def map (f : α → β) : Run α → Run β
  | ret value => ret (f value)
  | call c next => call c fun answer => (next answer).map f

def done (value : α) (items : List Item) : Run (Reply α items) :=
  ret (.done value items List.suffix_rfl)

def failed (fault : Fault) (items : List Item) : Run (Reply α items) :=
  ret (.failed fault items List.suffix_rfl)

def behind (item : Item) (run : Run (Reply α bound)) : Run (Reply α (item :: bound)) :=
  run.map (.widen (List.suffix_cons item bound))

def ofTail (run : Run (Reply α bound.tail)) : Run (Reply α bound) := run.map .ofTail

/-- Goes on behind a part that was parsed; a fault ends it all. -/
def andThen (run : Run (Reply α bound))
    (next : (value : α) → (rest : List Item) → rest <:+ bound → Run (Reply β rest)) :
    Run (Reply β bound) :=
  match run with
  | ret (.done value rest suffix) => (next value rest suffix).map (Reply.widen suffix)
  | ret (.failed fault rest suffix) => ret (.failed fault rest suffix)
  | call c go => call c fun answer => (go answer).andThen next

/-- What a computation comes to, given the answers of all calls. -/
def eval (answers : (c : Call) → c.Answer) : Run α → α
  | ret value => value
  | call c next => (next (answers c)).eval answers

/-- What a computation comes to if all calls that it makes are answered. -/
def evalSome (answers : (c : Call) → Option c.Answer) : Run α → Option α
  | ret value => some value
  | call c next =>
    match answers c with
    | some answer => (next answer).evalSome answers
    | none => none

/-- The calls that a computation makes, in order. -/
def calls (answers : (c : Call) → c.Answer) : Run α → List Call
  | ret _ => []
  | call c next => c :: (next (answers c)).calls answers

variable (answers : (c : Call) → c.Answer)

@[simp] theorem eval_map (f : α → β) (run : Run α) :
    (run.map f).eval answers = f (run.eval answers) := by
  induction run with
  | ret value => rfl
  | call c next ih => exact ih _

@[simp] theorem eval_done (value : α) (items : List Item) :
    (done value items).eval answers = .done value items List.suffix_rfl := rfl

@[simp] theorem eval_failed (fault : Fault) (items : List Item) :
    (failed fault items : Run (Reply α items)).eval answers =
      .failed fault items List.suffix_rfl := rfl

@[simp] theorem eval_behind (item : Item) (run : Run (Reply α bound)) :
    (run.behind item).eval answers = (run.eval answers).widen (List.suffix_cons item bound) :=
  eval_map ..

@[simp] theorem eval_ofTail (run : Run (Reply α bound.tail)) :
    run.ofTail.eval answers = (run.eval answers).ofTail :=
  eval_map ..

@[simp] theorem calls_map (f : α → β) (run : Run α) :
    (run.map f).calls answers = run.calls answers := by
  induction run with
  | ret value => rfl
  | call c next ih => exact congrArg (c :: ·) (ih _)

@[simp] theorem eval_andThen (run : Run (Reply α bound))
    (next : (value : α) → (rest : List Item) → rest <:+ bound → Run (Reply β rest)) :
    (run.andThen next).eval answers =
      (run.eval answers).andThen fun value rest suffix => (next value rest suffix).eval answers := by
  induction run with
  | ret reply =>
    cases reply with
    | done value rest suffix => exact eval_map answers _ _
    | failed fault rest suffix => rfl
  | call c go ih => exact ih _

@[simp] theorem eval_ite (condition : Prop) [Decidable condition] (run other : Run α) :
    (if condition then run else other).eval answers =
      if condition then run.eval answers else other.eval answers :=
  apply_ite (Run.eval answers) condition run other

end Run

section

variable (finish : Position)

/-! ### Bodies -/

/-- The token that is read at the end of a source. -/
def endToken : Token := ⟨.eof, [], finish⟩

/-- Reads a token, whatever it is, and descends into an expression with it in hand. -/
def readExpression (power : Precedence) : (items : List Item) → Run (Reply Node items.tail)
  | [] => .call (.expression power (endToken finish) []) .ret
  | .badName literal position :: rest => .failed (.problem (.badName literal) position) rest
  | .token t :: rest => .call (.expression power t rest) .ret

def readBlock (items : List Item) : Run (Reply Node items) :=
  (Run.ret (expect finish .lbrace items)).andThen fun brace items _ =>
    .call (.block brace items) .ret

def operandBody (t : Token) (items : List Item) : Run (Reply Node items) :=
  match t.kind with
  | .ident => .done (.identifier t t.literal) items
  | .int => .ret (integer t items)
  | .trueKeyword => .done (.boolean t true) items
  | .falseKeyword => .done (.boolean t false) items
  | .bang | .minus | .increment | .decrement =>
    (readExpression finish .unary items).ofTail.andThen fun right items _ =>
      .done (.unary t t.literal right) items
  | .lparen =>
    (readExpression finish .lowest items).ofTail.andThen fun inner items _ =>
    (Run.ret (expect finish .rparen items)).andThen fun _ items _ => .done inner items
  | .ifKeyword =>
    (Run.ret (expect finish .lparen items)).andThen fun _ items _ =>
    (readExpression finish .lowest items).ofTail.andThen fun condition items _ =>
    (Run.ret (expect finish .rparen items)).andThen fun _ items _ =>
    (readBlock finish items).andThen fun consequence items _ =>
    (Run.ret (accept .elseKeyword items)).andThen fun more items _ =>
      if more then
        (readBlock finish items).andThen fun alternative items _ =>
          .done (.conditional t condition consequence (some alternative)) items
      else .done (.conditional t condition consequence none) items
  | .fnKeyword =>
    (Run.ret (expect finish .lparen items)).andThen fun _ items _ =>
    (Run.call (.parameters items) .ret).andThen fun names items _ =>
    (Run.ret (expect finish .rparen items)).andThen fun _ items _ =>
    (readBlock finish items).andThen fun body items _ =>
      .done (.function t names body) items
  | .illegal => .failed (.problem (.illegal t.literal) t.position) items
  | _ => .failed (.problem (.noOperand t.literal) t.position) items

def operatorsBody (power : Precedence) (left : Node) : (items : List Item) → Run (Reply Node items)
  | [] => .done left []
  | .badName literal position :: rest =>
    .failed (.problem (.badName literal) position) (.badName literal position :: rest)
  | .token t :: rest =>
    if power.weaker t.kind.precedence then
      Run.behind (.token t) <|
        if t.kind = .lparen then
          (Run.call (.arguments rest) .ret).andThen fun values items _ =>
          (Run.ret (expect finish .rparen items)).andThen fun _ items _ =>
            .call (.operators power (.call t left values) items) .ret
        else if t.kind.isBinaryOperator then
          (readExpression finish t.kind.precedence rest).ofTail.andThen fun right items _ =>
            .call (.operators power (.binary t left t.literal right) items) .ret
        else .failed (.problem (.noOperator t.literal) t.position) rest
    else .done left (.token t :: rest)

def argumentsBody : (items : List Item) → Run (Reply (List Node) items)
  | .badName literal position :: rest =>
    .failed (.problem (.badName literal) position) (.badName literal position :: rest)
  | [] =>
    (readExpression finish .lowest []).andThen fun first items _ => .done [first] items
  | .token t :: rest =>
    if t.kind = .rparen then .done [] (.token t :: rest)
    else
      Run.ofTail <|
        (readExpression finish .lowest (.token t :: rest)).andThen fun first items _ =>
        (Run.ret (accept .comma items)).andThen fun more items _ =>
          if more then
            (Run.call (.arguments items) .ret).andThen fun values items _ =>
              .done (first :: values) items
          else .done [first] items

def parametersBody : (items : List Item) → Run (Reply (List Node) items)
  | .token t :: rest =>
    if t.kind = .rparen then .done [] (.token t :: rest)
    else if t.kind = .ident then
      Run.behind (.token t) <|
        (Run.ret (accept .comma rest)).andThen fun more left _ =>
          if more then
            (Run.call (.parameters left) .ret).andThen fun names left _ =>
              .done (.identifier t t.literal :: names) left
          else .done [.identifier t t.literal] left
    else .ret (refuse finish .ident (.token t :: rest))
  | items => .ret (refuse finish .ident items)

def blockBody (brace : Token) (items : List Item) : Run (Reply Node items) :=
  (Run.call (.statements items) .ret).andThen fun body items _ =>
  (Run.ret (expect finish .rbrace items)).andThen fun _ items _ =>
    .done (.block brace body) items

def statementsBody : (items : List Item) → Run (Reply (List Node) items)
  | [] => .done [] []
  | .badName literal position :: rest =>
    .failed (.problem (.badName literal) position) (.badName literal position :: rest)
  | .token t :: rest =>
    if t.kind = .rbrace then .done [] (.token t :: rest)
    else
      Run.behind (.token t) <|
        (Run.call (.statement t rest) .ret).andThen fun first items _ =>
        (Run.call (.statements items) .ret).andThen fun more items _ =>
          .done (first :: more) items

def statementBody (t : Token) (items : List Item) : Run (Reply Node items) :=
  if t.kind = .letKeyword then
    (Run.ret (expect finish .ident items)).andThen fun name items _ =>
    (Run.ret (expect finish .assign items)).andThen fun _ items _ =>
    (readExpression finish .lowest items).ofTail.andThen fun value items _ =>
    (Run.ret (expect finish .semicolon items)).andThen fun _ items _ =>
      .done (.letStatement t (.identifier name name.literal) value) items
  else if t.kind = .returnKeyword then
    (readExpression finish .lowest items).ofTail.andThen fun value items _ =>
    (Run.ret (expect finish .semicolon items)).andThen fun _ items _ =>
      .done (.returnStatement t value) items
  else
    (Run.call (.expression .lowest t items) .ret).andThen fun value items _ =>
    (Run.ret (accept .semicolon items)).andThen fun _ items _ =>
      .done (.expressionStatement t value) items

def turnBody : List Item → Run (List Turn × Ending)
  | [] => .ret ([], .endOfSource)
  | .badName literal position :: rest => .ret ([], .badName literal position rest)
  | .token t :: rest =>
    .call (.statement t rest) fun
      | .done node rest _ => (Run.call (.turn rest) .ret).map fun later =>
          (.statement node :: later.1, later.2)
      | .failed (.problem cause position) rest _ => (Run.call (.turn rest) .ret).map fun later =>
          (.problem cause position :: later.1, later.2)
      | .failed (.tooLong numeral) rest _ => .ret ([], .tooLong numeral rest)

def body : (c : Call) → Run c.Answer
  | .turn items => turnBody items
  | .statement t items => statementBody finish t items
  | .expression power t items => (operandBody finish t items).andThen fun left items _ =>
      .call (.operators power left items) .ret
  | .operators power left items => operatorsBody finish power left items
  | .arguments items => argumentsBody finish items
  | .parameters items => parametersBody finish items
  | .block brace items => blockBody finish brace items
  | .statements items => statementsBody items

/-- What the parser answers to a call. -/
def answer : (c : Call) → c.Answer
  | .turn items => turns finish items
  | .statement t items => statement finish t items
  | .expression power t items => (operand finish t items).andThen fun left items _ =>
      operators finish power left items
  | .operators power left items => operators finish power left items
  | .arguments items => arguments finish items
  | .parameters items => parameters finish items
  | .block brace items => (statements finish items).andThen fun body items _ =>
      (expect finish .rbrace items).andThen fun _ items _ =>
        .done (.block brace body) items List.suffix_rfl
  | .statements items => statements finish items

/-! ### What the bodies come to -/

theorem eval_readExpression (power : Precedence) (items : List Item) :
    (readExpression finish power items).eval (answer finish) = expression finish power items := by
  cases items with
  | nil =>
    rw [expression]
    show (operand finish (endToken finish) []).andThen _ = _
    rw [operand, endToken]
    rfl
  | cons item rest =>
    cases item with
    | badName literal position =>
      rw [expression]
      rfl
    | token t =>
      rw [expression]
      rfl

theorem eval_readBlock (items : List Item) :
    (readBlock finish items).eval (answer finish) = block finish items := by
  rw [readBlock, Run.eval_andThen, block]
  rfl

theorem eval_operandBody (t : Token) (items : List Item) :
    (operandBody finish t items).eval (answer finish) = operand finish t items := by
  rw [operand, operandBody]
  cases t.kind <;>
    simp only [Run.eval_andThen, Run.eval_ofTail, Run.eval_ite, Run.eval_done, Run.eval_failed,
      Run.eval, eval_readExpression, eval_readBlock, answer]

theorem eval_operatorsBody (power : Precedence) (left : Node) (items : List Item) :
    (operatorsBody finish power left items).eval (answer finish) =
      operators finish power left items := by
  cases items with
  | nil => rw [operators]; rfl
  | cons item rest =>
    cases item with
    | badName literal position => rw [operators]; rfl
    | token t =>
      rw [operators, operatorsBody]
      simp only [Run.eval_andThen, Run.eval_behind, Run.eval_ofTail, Run.eval_ite, Run.eval_done,
        Run.eval_failed, Run.eval, eval_readExpression, answer]

theorem eval_argumentsBody (items : List Item) :
    (argumentsBody finish items).eval (answer finish) = arguments finish items := by
  cases items with
  | nil =>
    rw [arguments, argumentsBody]
    exact (Run.eval_andThen ..).trans (by rw [eval_readExpression]; rfl)
  | cons item rest =>
    cases item with
    | badName literal position => rw [arguments]; rfl
    | token t =>
      rw [arguments, argumentsBody]
      simp only [Run.eval_andThen, Run.eval_ofTail, Run.eval_ite, Run.eval_done, Run.eval,
        eval_readExpression, answer]

theorem eval_parametersBody (items : List Item) :
    (parametersBody finish items).eval (answer finish) = parameters finish items := by
  cases items with
  | nil =>
    rw [parameters]
    · rfl
    · intro t rest same
      contradiction
  | cons item rest =>
    cases item with
    | badName literal position =>
      rw [parameters]
      · rfl
      · intro t rest same
        cases same
    | token t =>
      rw [parameters, parametersBody]
      simp only [Run.eval_andThen, Run.eval_behind, Run.eval_ite, Run.eval_done, Run.eval, answer]

theorem eval_statementsBody (items : List Item) :
    (statementsBody items).eval (answer finish) = statements finish items := by
  cases items with
  | nil => rw [statements]; rfl
  | cons item rest =>
    cases item with
    | badName literal position => rw [statements]; rfl
    | token t =>
      rw [statements, statementsBody]
      simp only [Run.eval_andThen, Run.eval_behind, Run.eval_ite, Run.eval_done, Run.eval, answer]
      rfl

/-- An expression that stands for a statement starts with the token that the statement was given. -/
theorem eval_statementBody (t : Token) (items : List Item) :
    (statementBody finish t items).eval (answer finish) = statement finish t items := by
  rw [statement, statementBody]
  simp only [Run.eval_andThen, Run.eval_ofTail, Run.eval_ite, Run.eval_done, Run.eval,
    eval_readExpression, answer]
  rw [expression]
  rfl

theorem eval_turnBody (items : List Item) :
    (turnBody items).eval (answer finish) = turns finish items := by
  cases items with
  | nil => rw [turns]; rfl
  | cons item rest =>
    cases item with
    | badName literal position => rw [turns]; rfl
    | token t =>
      rw [turns, turnBody, Run.eval, answer]
      split <;> rename_i reply <;> rw [reply] <;> rfl

/-- The answers are what the bodies make of them. -/
theorem eval_body (c : Call) : (body finish c).eval (answer finish) = answer finish c := by
  cases c with
  | turn items => exact eval_turnBody finish items
  | statement t items => exact eval_statementBody finish t items
  | expression power t items =>
    rw [body, Run.eval_andThen, eval_operandBody]
    rfl
  | operators power left items => exact eval_operatorsBody finish power left items
  | arguments items => exact eval_argumentsBody finish items
  | parameters items => exact eval_parametersBody finish items
  | block brace items =>
    rw [body, blockBody]
    simp only [Run.eval_andThen, Run.eval_done, Run.eval, answer]
  | statements items => exact eval_statementsBody finish items

end

end MonkeySyntax.Parser
