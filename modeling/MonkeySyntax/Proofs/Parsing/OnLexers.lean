import MonkeySyntax.Lexer
import MonkeySyntax.Proofs.Lexing.Places
import MonkeySyntax.Proofs.Parsing.Calls
import MonkeySyntax.Proofs.Parsing.Yields

/-!
# Parsing on lexers

The parser replies to the items that a lexer has left; on the lexer itself it looks at a token,
reads it and goes on. An expression is an operand, read behind the token in hand, and the loop over
its operators. `operators_eq` is a turn of that loop, in looks and reads.
-/

namespace MonkeySyntax

/-! ### Steps one after another -/

/-- Goes on with what a step returns, from the lexer that it leaves; a fault ends it all. -/
def Step.andThen {α β ε : Type} (step : Step (Except ε α))
    (next : α → Lexer → Step (Except ε β)) : Step (Except ε β) :=
  match step.outcome with
  | .ok value =>
    { next value step.lexer with events := step.events ++ (next value step.lexer).events }
  | .error e => ⟨.error e, step.events, step.lexer⟩

namespace Step

variable {α β γ ε : Type} {step : Step (Except ε α)} {next : α → Lexer → Step (Except ε β)}

theorem andThen_ok {value : α} (returns : step.outcome = .ok value) (quiet : step.events = []) :
    step.andThen next = next value step.lexer := by
  unfold andThen
  rw [returns, quiet]
  rfl

theorem andThen_error {e : ε} (fails : step.outcome = .error e) :
    step.andThen next = ⟨.error e, step.events, step.lexer⟩ := by
  unfold andThen
  rw [fails]

theorem andThen_assoc {last : β → Lexer → Step (Except ε γ)} :
    (step.andThen next).andThen last =
      step.andThen fun value lexer => (next value lexer).andThen last := by
  obtain ⟨outcome, events, lexer⟩ := step
  cases outcome with
  | error e => rfl
  | ok value =>
    cases returned : (next value lexer).outcome with
    | error e => simp only [andThen, returned]
    | ok other => simp only [andThen, returned, List.append_assoc]

end Step

namespace Reply

variable {α β γ : Type} {bound wider widest : List Item}

theorem widen_widen (reply : Reply α bound) (h : bound <:+ wider) (h' : wider <:+ widest) :
    (reply.widen h).widen h' = reply.widen (h.trans h') := by
  cases reply <;> rfl

theorem widen_rfl (reply : Reply α bound) : reply.widen List.suffix_rfl = reply := by
  cases reply <;> rfl

theorem andThen_widen (reply : Reply α bound) (h : bound <:+ wider)
    (next : α → (rest : List Item) → Reply β rest) :
    ((reply.widen h).andThen fun value rest _ => next value rest) =
      (reply.andThen fun value rest _ => next value rest).widen h := by
  cases reply with
  | done value rest suffix => exact (widen_widen _ suffix h).symm
  | failed fault rest suffix => rfl

theorem andThen_congr {reply : Reply α bound}
    {next other : (value : α) → (rest : List Item) → rest <:+ bound → Reply β rest}
    (same : ∀ value rest suffix, next value rest suffix = other value rest suffix) :
    reply.andThen next = reply.andThen other := by
  cases reply with
  | done value rest suffix => exact congrArg (widen suffix) (same value rest suffix)
  | failed fault rest suffix => rfl

theorem andThen_assoc (reply : Reply α bound) (next : α → (rest : List Item) → Reply β rest)
    (last : β → (rest : List Item) → Reply γ rest) :
    ((reply.andThen fun value rest _ => next value rest).andThen fun value rest _ =>
        last value rest) =
      reply.andThen fun value rest _ =>
        (next value rest).andThen fun value rest _ => last value rest := by
  cases reply with
  | done value rest suffix => exact andThen_widen _ suffix last
  | failed fault rest suffix => rfl

end Reply

namespace Cursor

theorem readMany_add (m n : Nat) (cursor : Cursor) :
    cursor.readMany (m + n) = (cursor.readMany m).readMany n := by
  induction n with
  | zero => rfl
  | succ n ih => rw [← Nat.add_assoc, readMany_succ, ih, readMany_succ]

theorem finish_readMany (n : Nat) (cursor : Cursor) :
    (cursor.readMany n).finish = cursor.finish := by
  obtain ⟨m, eq⟩ := cursor.exists_readMany_eq_pass n
  rw [eq, finish_pass]

theorem item_of_items_nil {cursor : Cursor} (ends : cursor.items = []) :
    cursor.read.1 = .token ⟨.eof, [], cursor.finish.position⟩ := by
  by_cases more : cursor.skipLayout.rest = []
  · rw [read_of_ends more]
  · rw [items_eq_cons more] at ends
    contradiction

theorem item_of_items_cons {cursor : Cursor} {item : Item} {rest : List Item}
    (ahead : cursor.items = item :: rest) : cursor.read.1 = item := by
  by_cases more : cursor.skipLayout.rest = []
  · rw [items_eq_nil more] at ahead
    contradiction
  · rw [items_eq_cons more] at ahead
    exact (List.cons.inj ahead).1

end Cursor

namespace Lexer

variable {lexer : Lexer}

/-- Reads items without a look at them. -/
def skip (n : Nat) (lexer : Lexer) : Lexer := { lexer with cursor := lexer.cursor.readMany n }

theorem skip_skip (m n : Nat) : (lexer.skip m).skip n = lexer.skip (m + n) := by
  simp only [skip, Cursor.readMany_add]

theorem items_skip (n : Nat) : (lexer.skip n).cursor.items = lexer.cursor.items.drop n :=
  Cursor.items_readMany ..

theorem items_skip_of_suffix {rest : List Item} (suffix : rest <:+ lexer.cursor.items) :
    (lexer.skip (lexer.cursor.items.length - rest.length)).cursor.items = rest := by
  rw [items_skip]
  exact (List.suffix_iff_eq_drop.mp suffix).symm

theorem finish_skip (n : Nat) : (lexer.skip n).cursor.finish = lexer.cursor.finish :=
  Cursor.finish_readMany ..

end Lexer

/-- A problem that is found is the fault of what was parsed. -/
def Error.fault (e : Error) : Fault := .problem e.cause e.position

namespace Fault

/-- The item that is reported when parsing stops. -/
def item? : Fault → Option Item
  | .problem (.badName literal) position => some (.badName literal position)
  | _ => none

/-- Whether the end token was read for an operand. No other token is without text. -/
def readsEnd : Fault → Bool
  | .problem (.noOperand []) _ => true
  | _ => false

end Fault

namespace Lexer

variable {lexer : Lexer} {α β : Type} {bound wider : List Item}

def reportFault (lexer : Lexer) (fault : Fault) : List Event × Lexer :=
  match fault.item? with
  | some item => lexer.report item
  | none => ([], lexer)

theorem reportFault_skip (n : Nat) (fault : Fault) :
    (lexer.skip n).reportFault fault =
      ((lexer.reportFault fault).1, (lexer.reportFault fault).2.skip n) := by
  unfold reportFault report
  repeat' split
  all_goals first | rfl | contradiction

/-- What the lexer comes to with a reply. The cursor is moved behind the items that were read, and a
bad name that was met is reported. -/
def reached (lexer : Lexer) : Reply α bound → Step (Except Fault α)
  | .done value rest _ => ⟨.ok value, [], lexer.skip (bound.length - rest.length)⟩
  | .failed fault rest _ =>
    ⟨.error fault, (lexer.reportFault fault).1, (lexer.reportFault fault).2.skip
      (if fault.readsEnd then bound.length + 1 else bound.length - rest.length)⟩

/-- Parses a part of what the lexer has left. -/
def take (parse : Position → (items : List Item) → Reply α items) (lexer : Lexer) :
    Step (Except Fault α) :=
  lexer.reached (parse lexer.cursor.finish.position lexer.cursor.items)

theorem reached_widen (reply : Reply α bound) (h : bound <:+ wider) :
    lexer.reached (reply.widen h) =
      (lexer.skip (wider.length - bound.length)).reached reply := by
  have le := h.length_le
  cases reply with
  | done value rest suffix =>
    have shorter := suffix.length_le
    simp only [Reply.widen, reached, skip_skip]
    congr 2
    omega
  | failed fault rest suffix =>
    have shorter := suffix.length_le
    simp only [Reply.widen, reached, reportFault_skip, skip_skip]
    congr 2
    split <;> omega

/-! ### Parts -/

section

variable {parse : Position → (items : List Item) → Reply α items}

theorem take_of_suffix {rest : List Item} (suffix : rest <:+ lexer.cursor.items) :
    (lexer.skip (lexer.cursor.items.length - rest.length)).take parse =
      (lexer.skip (lexer.cursor.items.length - rest.length)).reached
        (parse lexer.cursor.finish.position rest) := by
  rw [take, finish_skip, items_skip_of_suffix suffix]

/-- One part behind the other is read from the lexer that the first has left. -/
theorem take_andThen (next : α → Position → (items : List Item) → Reply β items) :
    lexer.take (fun finish items =>
        (parse finish items).andThen fun value rest _ => next value finish rest) =
      (lexer.take parse).andThen fun value lexer => lexer.take (next value) := by
  rw [take, take]
  cases parse lexer.cursor.finish.position lexer.cursor.items with
  | failed fault rest suffix => rfl
  | done value rest suffix =>
    rw [Reply.andThen_done, reached_widen, Step.andThen_ok rfl rfl]
    exact (take_of_suffix suffix).symm

theorem take_done (value : α) :
    lexer.take (fun _ items => .done value items List.suffix_rfl) = ⟨.ok value, [], lexer⟩ := by
  rw [take, reached, Nat.sub_self]
  rfl

/-- A part whose first item is read whatever it is. -/
theorem take_behind {item : Item} {rest : List Item} (ahead : lexer.cursor.items = item :: rest)
    (next : Position → (items : List Item) → Reply α items)
    (same : ∀ finish, parse finish (item :: rest) =
      (next finish rest).widen (List.suffix_cons item rest)) :
    lexer.take parse = (lexer.skip 1).take next := by
  have left : (lexer.skip 1).cursor.items = rest := by
    rw [items_skip, ahead, List.drop_one, List.tail_cons]
  rw [take, take, left, ahead, same, reached_widen, finish_skip, List.length_cons,
    Nat.add_sub_cancel_left]

end

/-! ### Tokens -/

/-- Looks at the next token. -/
def look (lexer : Lexer) : Step (Except Fault Token) :=
  ⟨lexer.peek.outcome.mapError Error.fault, lexer.peek.events, lexer.peek.lexer⟩

/-- Reads the next token, whatever it is. -/
def read (lexer : Lexer) : Step (Except Fault Token) :=
  ⟨lexer.next.outcome.mapError Error.fault, lexer.next.events, lexer.next.lexer⟩

section

variable {t : Token} {literal : Text} {position : Position} {rest : List Item}

theorem look_eq {item : Item} (ahead : lexer.cursor.read.1 = item) :
    lexer.look = ⟨(outcomeOf lexer.filename item).mapError Error.fault,
      (lexer.report item).1, (lexer.report item).2⟩ := by
  subst ahead
  rw [← lexer.filename_report lexer.cursor.read.1]
  rfl

theorem read_eq {item : Item} (ahead : lexer.cursor.read.1 = item) :
    lexer.read = ⟨(outcomeOf lexer.filename item).mapError Error.fault,
      (lexer.report item).1, (lexer.report item).2.skip 1⟩ := by
  subst ahead
  rw [← lexer.filename_report lexer.cursor.read.1, skip, cursor_report]
  rfl

theorem look_of_nil (ends : lexer.cursor.items = []) :
    lexer.look = ⟨.ok (Parser.endToken lexer.cursor.finish.position), [], lexer⟩ :=
  look_eq (Cursor.item_of_items_nil ends)

theorem read_of_nil (ends : lexer.cursor.items = []) :
    lexer.read = ⟨.ok (Parser.endToken lexer.cursor.finish.position), [], lexer.skip 1⟩ :=
  read_eq (Cursor.item_of_items_nil ends)

theorem look_of_token (ahead : lexer.cursor.items = .token t :: rest) :
    lexer.look = ⟨.ok t, [], lexer⟩ :=
  look_eq (Cursor.item_of_items_cons ahead)

theorem read_of_token (ahead : lexer.cursor.items = .token t :: rest) :
    lexer.read = ⟨.ok t, [], lexer.skip 1⟩ :=
  read_eq (Cursor.item_of_items_cons ahead)

theorem look_of_badName (ahead : lexer.cursor.items = .badName literal position :: rest) :
    lexer.look = ⟨.error (.problem (.badName literal) position),
      (lexer.report (.badName literal position)).1,
      (lexer.report (.badName literal position)).2⟩ :=
  look_eq (Cursor.item_of_items_cons ahead)

theorem read_of_badName (ahead : lexer.cursor.items = .badName literal position :: rest) :
    lexer.read = ⟨.error (.problem (.badName literal) position),
      (lexer.report (.badName literal position)).1,
      (lexer.report (.badName literal position)).2.skip 1⟩ :=
  read_eq (Cursor.item_of_items_cons ahead)

/-- A token of a source has a text. -/
theorem literal_ne_nil_of_mem_items (member : .token t ∈ lexer.cursor.items) : t.literal ≠ [] := by
  obtain ⟨c, text, position, eq⟩ := Cursor.first_of_mem_items member
  obtain ⟨r, consumed, _⟩ := Lexeme.consumed_first c text
  cases isFirst : Lexeme.first c text with
  | badName => rw [isFirst] at eq; contradiction
  | token kind literal =>
    rw [isFirst] at eq consumed
    cases eq
    exact List.ne_nil_of_length_pos (by rw [show literal = c :: r from consumed]; simp)

end

end Lexer

/-! ### Expressions -/

/-- A token that ends a statement or the source binds nothing. -/
theorem Kind.value_le_of_stops {kind : Kind} {power : Precedence}
    (stops : kind = .semicolon ∨ kind = .eof ∨ kind.precedence.value ≤ power.value) :
    kind.precedence.value ≤ power.value := by
  rcases stops with rfl | rfl | le
  · exact power.lowest_value_le
  · exact power.lowest_value_le
  · exact le

namespace Parser

section

variable (finish : Position)

/-- Applies an operator that was read to the operand before it. -/
def operation (left : Node) (operator : Token) (items : List Item) : Reply Node items :=
  if operator.kind = .lparen then
    (arguments finish items).andThen fun values items _ =>
    (expect finish .rparen items).andThen fun _ items _ =>
      .done (.call operator left values) items List.suffix_rfl
  else if operator.kind.isBinaryOperator then
    (expression finish operator.kind.precedence items).ofTail.andThen fun right items _ =>
      .done (.binary operator left operator.literal right) items List.suffix_rfl
  else .failed (.problem (.noOperator operator.literal) operator.position) items List.suffix_rfl

variable {finish}

/-- The loop over operators applies one that binds strongly enough, and goes on. -/
theorem operators_of_weaker {power : Precedence} {left : Node} {t : Token} {rest : List Item}
    (weaker : power.weaker t.kind.precedence) :
    operators finish power left (.token t :: rest) =
      ((operation finish left t rest).andThen fun left items _ =>
        operators finish power left items).widen (List.suffix_cons ..) := by
  rw [operators, if_pos weaker, operation]
  congr 1
  split
  · simp only [Reply.andThen_assoc, Reply.andThen_done, Reply.widen_rfl]
  · split
    · simp only [Reply.andThen_assoc, Reply.andThen_done, Reply.widen_rfl]
    · rfl

end

end Parser

namespace Lexer

/-- Descends into an operand with its first token in hand. -/
def operand (t : Token) (lexer : Lexer) : Step (Except Fault Node) :=
  if t.kind.startsOperand then lexer.take fun finish items => Parser.operand finish t items
  else
    ⟨.error (.problem (if t.kind = .illegal then .illegal t.literal else .noOperand t.literal)
      t.position), [], lexer⟩

/-- Applies an operator that was read to the operand before it. -/
def operation (left : Node) (operator : Token) (lexer : Lexer) : Step (Except Fault Node) :=
  lexer.take fun finish items => Parser.operation finish left operator items

/-- Goes on with the operators behind an operand. -/
def operators (power : Precedence) (left : Node) (lexer : Lexer) : Step (Except Fault Node) :=
  lexer.take fun finish items => Parser.operators finish power left items

/-- An expression with its first token in hand, as long as its operators bind more strongly than
`power`. -/
def expression (power : Precedence) (t : Token) (lexer : Lexer) : Step (Except Fault Node) :=
  (lexer.operand t).andThen fun left lexer => lexer.operators power left

variable {lexer : Lexer} {power : Precedence} {t : Token}

theorem operand_eq_take (hasText : t.literal ≠ []) :
    lexer.operand t = lexer.take fun finish items => Parser.operand finish t items := by
  unfold operand
  split
  · rfl
  · rename_i refused
    rw [take, Parser.operand_of_not_startsOperand (Bool.eq_false_iff.mpr refused)]
    split
    · simp [reached, reportFault, Fault.item?, Fault.readsEnd, skip, Cursor.readMany]
    · simp [reached, reportFault, Fault.item?, Fault.readsEnd, skip, Cursor.readMany, hasText]

theorem expression_eq_take (hasText : t.literal ≠ []) :
    lexer.expression power t = lexer.take fun finish items =>
      (Parser.operand finish t items).andThen fun left items _ =>
        Parser.operators finish power left items := by
  rw [expression, operand_eq_take hasText]
  exact (take_andThen fun left finish items => Parser.operators finish power left items).symm

/-- Where an operand is due, a token is read and the expression that it starts. -/
theorem take_expression :
    lexer.take (fun finish items => (Parser.expression finish power items).ofTail) =
      lexer.read.andThen fun t lexer => lexer.expression power t := by
  cases ahead : lexer.cursor.items with
  | nil =>
    rw [read_of_nil ahead, take, ahead, Parser.expression]
    rfl
  | cons item rest =>
    cases item with
    | badName literal position =>
      rw [read_of_badName ahead, take, ahead, Parser.expression]
      simp [Reply.ofTail, Reply.widen, reached, reportFault, Fault.item?, Fault.readsEnd,
        Step.andThen]
    | token t =>
      have hasText : t.literal ≠ [] :=
        literal_ne_nil_of_mem_items (ahead ▸ List.mem_cons_self)
      rw [read_of_token ahead, Step.andThen_ok rfl rfl, expression_eq_take hasText]
      exact take_behind ahead _ fun finish => by rw [Parser.expression]; rfl

theorem operation_of_binary {operator : Token} {left : Node}
    (binary : operator.kind.isBinaryOperator) :
    lexer.operation left operator =
      lexer.read.andThen fun t lexer =>
        (lexer.expression operator.kind.precedence t).andThen fun right lexer =>
          ⟨.ok (.binary operator left operator.literal right), [], lexer⟩ := by
  have notCall := (Kind.ne_of_isBinaryOperator binary).2
  rw [← Step.andThen_assoc, ← take_expression, operation]
  simp only [Parser.operation, if_neg notCall, if_pos binary, ← take_done]
  exact take_andThen fun right _ items =>
    Reply.done (Node.binary operator left operator.literal right) items List.suffix_rfl

/-- A turn of the loop over operators. The next token is only looked at, and read if it binds more
strongly than `power`. -/
theorem operators_eq (left : Node) :
    lexer.operators power left =
      lexer.look.andThen fun t lexer =>
        if t.kind = .semicolon ∨ t.kind = .eof ∨ t.kind.precedence.value ≤ power.value then
          ⟨.ok left, [], lexer⟩
        else
          lexer.read.andThen fun operator lexer =>
            (lexer.operation left operator).andThen fun left lexer =>
              lexer.operators power left := by
  cases ahead : lexer.cursor.items with
  | nil =>
    rw [look_of_nil ahead, operators, take, ahead, Parser.operators]
    rfl
  | cons item rest =>
    cases item with
    | badName literal position =>
      rw [look_of_badName ahead, operators, take, ahead, Parser.operators]
      simp [reached, reportFault, Fault.item?, Fault.readsEnd, Step.andThen, skip, Cursor.readMany]
    | token t =>
      rw [look_of_token ahead, Step.andThen_ok rfl rfl]
      cases weaker : power.weaker t.kind.precedence with
      | true =>
        have goesOn : ¬ (t.kind = .semicolon ∨ t.kind = .eof ∨
            t.kind.precedence.value ≤ power.value) := fun stops =>
          Nat.not_lt.mpr (Kind.value_le_of_stops stops) (Precedence.weaker_iff.mp weaker)
        rw [if_neg goesOn, read_of_token ahead, Step.andThen_ok rfl rfl]
        exact (take_behind ahead _ fun finish => Parser.operators_of_weaker weaker).trans
          (take_andThen fun left finish items => Parser.operators finish power left items)
      | false =>
        have loose := Precedence.not_weaker_iff.mp weaker
        rw [if_pos (.inr (.inr loose)), operators, take, ahead, Parser.operators,
          if_neg (Bool.eq_false_iff.mp weaker)]
        simp [reached, skip, Cursor.readMany]

end Lexer

end MonkeySyntax
