import MonkeySyntax.Proofs.Parsing.Yields

/-!
# What parsing reads

Parsing takes the items one after another: it reads tokens, and integers only if they are in range,
up to the value that it yields or to a fault. `Stops` lists the faults with the items they occur at,
and `reads_statement` says that the parser does nothing else.
-/

namespace MonkeySyntax.Parser

def Readable (t : Token) : Prop :=
  t.kind = .int → t.literal.length ≤ Decimal.maxDigits ∧ Decimal.value t.literal ≤ maxInteger

variable (finish : Position)

/-- Parsing stops at items with a fault, and leaves some of them. -/
inductive Stops : List Item → Fault → List Item → Prop
  | unexpected {wanted : Kind} {t : Token} {rest : List Item} : t.kind ≠ wanted →
      Stops (.token t :: rest) (.problem (.unexpected [wanted] t.kind) t.position)
        (.token t :: rest)
  | unexpectedEnd {wanted : Kind} : wanted ≠ .eof →
      Stops [] (.problem (.unexpected [wanted] .eof) finish) []
  | badNameAhead {literal : Text} {position : Position} {rest : List Item} :
      Stops (.badName literal position :: rest) (.problem (.badName literal) position)
        (.badName literal position :: rest)
  | badName {literal : Text} {position : Position} {rest : List Item} :
      Stops (.badName literal position :: rest) (.problem (.badName literal) position) rest
  | noOperand {t : Token} {rest : List Item} : t.kind.startsOperand = false → t.kind ≠ .illegal →
      Stops (.token t :: rest) (.problem (.noOperand t.literal) t.position) rest
  | noOperandAtEnd : Stops [] (.problem (.noOperand []) finish) []
  | illegal {t : Token} {rest : List Item} : t.kind = .illegal →
      Stops (.token t :: rest) (.problem (.illegal t.literal) t.position) rest
  | overflow {t : Token} {rest : List Item} : t.kind = .int →
      t.literal.length ≤ Decimal.maxDigits → maxInteger < Decimal.value t.literal →
      Stops (.token t :: rest) (.problem (.overflow t.literal) t.position) rest
  | tooLong {t : Token} {rest : List Item} : t.kind = .int →
      Decimal.maxDigits < t.literal.length →
      Stops (.token t :: rest) (.tooLong ⟨t.literal.length⟩) rest

/-- Parsing reads readable tokens, up to a fault if there is one. -/
inductive Reads : List Item → Option Fault → List Item → Prop
  | done {items : List Item} : Reads items none items
  | token {t : Token} {rest left : List Item} {fault : Option Fault} : Readable t →
      Reads rest fault left → Reads (.token t :: rest) fault left
  | fault {items left : List Item} {fault : Fault} : Stops finish items fault left →
      Reads items (some fault) left

variable {finish}

theorem Reads.trans {start mid left : List Item} {fault : Option Fault} :
    Reads finish start none mid → Reads finish mid fault left → Reads finish start fault left
  | .done, more => more
  | .token readable tail, more => .token readable (tail.trans more)

end MonkeySyntax.Parser

namespace MonkeySyntax.Reply

open MonkeySyntax.Parser

variable {α β : Type} {bound wider start : List Item} {finish : Position}

/-- The reply is what comes of reading items. -/
def Reads (finish : Position) (start : List Item) : Reply α bound → Prop
  | done _ rest _ => Parser.Reads finish start none rest
  | failed fault rest _ => Parser.Reads finish start (some fault) rest

@[simp] theorem reads_widen {h : bound <:+ wider} {reply : Reply α bound} :
    (reply.widen h).Reads finish start ↔ reply.Reads finish start := by
  cases reply <;> rfl

@[simp] theorem reads_ofTail {reply : Reply α bound.tail} :
    reply.ofTail.Reads finish start ↔ reply.Reads finish start := reads_widen

theorem Reads.andThen {reply : Reply α bound}
    {next : (value : α) → (rest : List Item) → rest <:+ bound → Reply β rest}
    (first : reply.Reads finish start)
    (more : ∀ value rest suffix, (next value rest suffix).Reads finish rest) :
    (reply.andThen next).Reads finish start := by
  cases reply with
  | done value rest suffix =>
    rw [andThen_done, reads_widen]
    have tail := more value rest suffix
    cases eq : next value rest suffix with
    | done => rw [eq] at tail; exact Parser.Reads.trans first tail
    | failed => rw [eq] at tail; exact Parser.Reads.trans first tail
  | failed fault rest suffix => exact first

theorem reads_done {value : α} {rest : List Item} {suffix : rest <:+ bound} :
    (done value rest suffix).Reads finish rest :=
  Parser.Reads.done

end MonkeySyntax.Reply

namespace MonkeySyntax.Parser

open Reply

variable {finish : Position}

theorem reads_refuse_token {α : Type} {wanted : Kind} {t : Token} {rest : List Item}
    (other : t.kind ≠ wanted) :
    (refuse finish wanted (.token t :: rest) : Reply α _).Reads finish (.token t :: rest) :=
  .fault (.unexpected other)

theorem reads_expect {kind : Kind} (notEnd : kind ≠ .eof) (notInt : kind ≠ .int)
    (items : List Item) : (expect finish kind items).Reads finish items := by
  match items with
  | [] => exact .fault (.unexpectedEnd notEnd)
  | .badName .. :: _ => exact .fault .badNameAhead
  | .token t :: rest =>
    rw [expect]
    by_cases isWanted : t.kind = kind
    · rw [if_pos isWanted]
      exact .token (fun isInt => absurd (isWanted.symm.trans isInt) notInt) .done
    · rw [if_neg isWanted]
      exact reads_refuse_token isWanted

theorem reads_accept {kind : Kind} (notInt : kind ≠ .int) (items : List Item) :
    (accept kind items).Reads finish items := by
  match items with
  | [] => exact .done
  | .badName .. :: _ => exact .fault .badNameAhead
  | .token t :: rest =>
    rw [accept]
    by_cases isWanted : t.kind = kind
    · rw [if_pos isWanted]
      exact .token (fun isInt => absurd (isWanted.symm.trans isInt) notInt) .done
    · rw [if_neg isWanted]
      exact .done

theorem reads_integer {t : Token} (isInt : t.kind = .int) (rest : List Item) :
    (integer t rest).Reads finish (.token t :: rest) := by
  unfold integer
  split
  · rename_i tooLong
    exact .fault (.tooLong isInt tooLong)
  · rename_i short
    split
    · rename_i tooGreat
      exact .fault (.overflow isInt (Nat.not_lt.mp short) tooGreat)
    · rename_i small
      exact .token (fun _ => ⟨Nat.not_lt.mp short, Nat.not_lt.mp small⟩) .done

/-- A token that is no integer is read, whatever comes behind it. -/
theorem reads_cons {α : Type} {t : Token} {rest : List Item} {bound : List Item}
    {reply : Reply α bound} (notInt : t.kind ≠ .int) (behind : reply.Reads finish rest) :
    reply.Reads finish (.token t :: rest) := by
  cases reply with
  | done => exact .token (fun isInt => absurd isInt notInt) behind
  | failed => exact .token (fun isInt => absurd isInt notInt) behind

theorem reads_parameters : (items : List Item) → (parameters finish items).Reads finish items
  | [] => by
    rw [parameters]
    · exact .fault (.unexpectedEnd (by decide))
    · simp
  | .badName .. :: _ => by
    rw [parameters]
    · exact .fault .badNameAhead
    · simp
  | .token t :: rest => by
    rw [parameters]
    by_cases closes : t.kind = .rparen
    · rw [if_pos closes]
      exact .done
    · rw [if_neg closes]
      by_cases name : t.kind = .ident
      · rw [if_pos name, reads_widen]
        refine reads_cons (by rw [name]; decide) ?_
        refine (reads_accept (by decide) rest).andThen fun more left _ => ?_
        cases more with
        | true =>
          rw [if_pos rfl]
          exact (reads_parameters left).andThen fun _ _ _ => reads_done
        | false =>
          rw [if_neg Bool.false_ne_true]
          exact .done
      · rw [if_neg name]
        exact reads_refuse_token name
termination_by items => items.length
decreasing_by grind [List.IsSuffix.length_le]

-- The measures are those of the parser, whose calls these lemmas follow one by one.
mutual

theorem reads_expression (power : Precedence) :
    (items : List Item) → (expression finish power items).Reads finish items
  | [] => by
    rw [expression]
    exact .fault .noOperandAtEnd
  | .badName .. :: _ => by
    rw [expression]
    exact .fault .badName
  | .token t :: rest => by
    rw [expression]
    exact (reads_operand t rest).andThen fun left items _ => reads_operators power left items
termination_by items => 5 * items.length
decreasing_by all_goals grind [List.IsSuffix.length_le]

theorem reads_operand (t : Token) (items : List Item) :
    (operand finish t items).Reads finish (.token t :: items) := by
  by_cases starts : t.kind.startsOperand
  · rcases Kind.startsOperand_cases starts with
      isPrefix | isName | isInt | isTrue | isFalse | isOpen | isIf | isFn
    · rw [operand_unary isPrefix]
      refine reads_cons (fun isInt => by rw [isInt] at isPrefix; contradiction) ?_
      exact (reads_ofTail.mpr (reads_expression .unary items)).andThen fun _ _ _ => reads_done
    · rw [operand]
      simp only [isName]
      exact reads_cons (by rw [isName]; decide) reads_done
    · rw [operand]
      simp only [isInt]
      exact reads_integer isInt items
    · rw [operand]
      simp only [isTrue]
      exact reads_cons (by rw [isTrue]; decide) reads_done
    · rw [operand]
      simp only [isFalse]
      exact reads_cons (by rw [isFalse]; decide) reads_done
    · rw [operand]
      simp only [isOpen]
      refine reads_cons (by rw [isOpen]; decide) ?_
      refine (reads_ofTail.mpr (reads_expression .lowest items)).andThen fun inner items _ => ?_
      exact (reads_expect (by decide) (by decide) items).andThen fun _ _ _ => reads_done
    · rw [operand]
      simp only [isIf]
      refine reads_cons (by rw [isIf]; decide) ?_
      refine (reads_expect (by decide) (by decide) items).andThen fun _ items _ => ?_
      refine (reads_ofTail.mpr (reads_expression .lowest items)).andThen fun condition items _ => ?_
      refine (reads_expect (by decide) (by decide) items).andThen fun _ items _ => ?_
      refine (reads_block items).andThen fun consequence items _ => ?_
      refine (reads_accept (by decide) items).andThen fun more items _ => ?_
      cases more with
      | true =>
        rw [if_pos rfl]
        exact (reads_block items).andThen fun _ _ _ => reads_done
      | false =>
        rw [if_neg Bool.false_ne_true]
        exact reads_done
    · rw [operand]
      simp only [isFn]
      refine reads_cons (by rw [isFn]; decide) ?_
      refine (reads_expect (by decide) (by decide) items).andThen fun _ items _ => ?_
      refine (reads_parameters items).andThen fun names items _ => ?_
      refine (reads_expect (by decide) (by decide) items).andThen fun _ items _ => ?_
      exact (reads_block items).andThen fun _ _ _ => reads_done
  · have refused := Bool.eq_false_iff.mpr starts
    rw [operand_of_not_startsOperand refused]
    by_cases illegal : t.kind = .illegal
    · rw [if_pos illegal]
      exact .fault (.illegal illegal)
    · rw [if_neg illegal]
      exact .fault (.noOperand refused illegal)
termination_by 5 * items.length + 4
decreasing_by all_goals grind [List.IsSuffix.length_le]

theorem reads_operators (power : Precedence) (left : Node) :
    (items : List Item) → (operators finish power left items).Reads finish items
  | [] => by
    rw [operators]
    exact .done
  | .badName .. :: _ => by
    rw [operators]
    exact .fault .badNameAhead
  | .token t :: rest => by
    rw [operators]
    by_cases weaker : power.weaker t.kind.precedence
    · rw [if_pos weaker, reads_widen]
      have notInt : t.kind ≠ .int := by
        intro isInt
        rw [isInt] at weaker
        exact absurd weaker (Bool.eq_false_iff.mp (Precedence.not_weaker_lowest power))
      refine reads_cons notInt ?_
      by_cases call : t.kind = .lparen
      · rw [if_pos call]
        refine (reads_arguments rest).andThen fun values items _ => ?_
        refine (reads_expect (by decide) (by decide) items).andThen fun _ items _ => ?_
        exact reads_operators power (.call t left values) items
      · rw [if_neg call]
        rw [if_pos (Kind.isBinaryOperator_of_weaker weaker call)]
        refine (reads_ofTail.mpr (reads_expression t.kind.precedence rest)).andThen ?_
        exact fun right items _ => reads_operators power (.binary t left t.literal right) items
    · rw [if_neg weaker]
      exact .done
termination_by items => 5 * items.length
decreasing_by all_goals grind [List.IsSuffix.length_le]

theorem reads_arguments : (items : List Item) → (arguments finish items).Reads finish items
  | .badName .. :: _ => by
    rw [arguments]
    exact .fault .badNameAhead
  | [] => by
    rw [arguments]
    exact (reads_expression .lowest []).andThen fun _ _ _ => reads_done
  | .token t :: rest => by
    rw [arguments]
    by_cases closes : t.kind = .rparen
    · rw [if_pos closes]
      exact .done
    · rw [if_neg closes, reads_ofTail]
      refine (reads_expression .lowest (.token t :: rest)).andThen fun first items _ => ?_
      refine (reads_accept (by decide) items).andThen fun more items _ => ?_
      cases more with
      | true =>
        rw [if_pos rfl]
        exact (reads_arguments items).andThen fun _ _ _ => reads_done
      | false =>
        rw [if_neg Bool.false_ne_true]
        exact reads_done
termination_by items => 5 * items.length + 1
decreasing_by all_goals grind [List.IsSuffix.length_le]

theorem reads_block (items : List Item) : (block finish items).Reads finish items := by
  rw [block]
  refine (reads_expect (by decide) (by decide) items).andThen fun t items _ => ?_
  refine (reads_statements items).andThen fun body items _ => ?_
  exact (reads_expect (by decide) (by decide) items).andThen fun _ _ _ => reads_done
termination_by 5 * items.length + 3
decreasing_by all_goals grind [List.IsSuffix.length_le]

theorem reads_statements : (items : List Item) → (statements finish items).Reads finish items
  | [] => by
    rw [statements]
    exact .done
  | .badName .. :: _ => by
    rw [statements]
    exact .fault .badNameAhead
  | .token t :: rest => by
    rw [statements]
    by_cases closes : t.kind = .rbrace
    · rw [if_pos closes]
      exact .done
    · rw [if_neg closes]
      refine reads_ofTail.mpr ((reads_statement t rest).andThen fun first items _ => ?_)
      exact (reads_statements items).andThen fun _ _ _ => reads_done
termination_by items => 5 * items.length + 2
decreasing_by all_goals grind [List.IsSuffix.length_le]

/-- Whatever comes of a statement, it comes of reading items. -/
theorem reads_statement (t : Token) (rest : List Item) :
    (statement finish t rest).Reads finish (.token t :: rest) := by
  by_cases isLet : t.kind = .letKeyword
  · rw [statement, if_pos isLet]
    refine reads_cons (by rw [isLet]; decide) ?_
    refine (reads_expect (by decide) (by decide) rest).andThen fun name items _ => ?_
    refine (reads_expect (by decide) (by decide) items).andThen fun _ items _ => ?_
    refine (reads_ofTail.mpr (reads_expression .lowest items)).andThen fun value items _ => ?_
    exact (reads_expect (by decide) (by decide) items).andThen fun _ _ _ => reads_done
  · by_cases isReturn : t.kind = .returnKeyword
    · rw [(statement.eq_1 finish t rest).trans ((if_neg isLet).trans (if_pos isReturn))]
      refine reads_cons (by rw [isReturn]; decide) ?_
      refine (reads_ofTail.mpr (reads_expression .lowest rest)).andThen fun value items _ => ?_
      exact (reads_expect (by decide) (by decide) items).andThen fun _ _ _ => reads_done
    · rw [(statement.eq_1 finish t rest).trans ((if_neg isLet).trans (if_neg isReturn))]
      refine (reads_expression .lowest (.token t :: rest)).andThen fun value items _ => ?_
      exact (reads_accept (by decide) items).andThen fun _ _ _ => reads_done
termination_by 5 * rest.length + 6
decreasing_by all_goals grind [List.IsSuffix.length_le]

end

end MonkeySyntax.Parser
