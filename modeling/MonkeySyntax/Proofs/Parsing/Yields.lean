import MonkeySyntax.Parser.Statement
import MonkeySyntax.Proofs.Lookahead

/-!
# What a part of a statement yields

`Reply.Yields` says that parsing ended without a fault, with a value and the items that are left.
There is one inversion lemma for each function of the parser, in both directions, and nothing else
unfolds these functions when only successful parses are at issue.
-/

namespace MonkeySyntax

namespace Reply

variable {α β : Type} {bound wider : List Item}

/-- The reply is a value, and `rest` is left. -/
def Yields (reply : Reply α bound) (value : α) (rest : List Item) : Prop :=
  ∃ suffix, reply = .done value rest suffix

theorem Yields.suffix {reply : Reply α bound} {value : α} {rest : List Item}
    (h : reply.Yields value rest) : rest <:+ bound := by
  obtain ⟨suffix, _⟩ := h
  exact suffix

theorem Yields.length_le {reply : Reply α bound} {value : α} {rest : List Item}
    (h : reply.Yields value rest) : rest.length ≤ bound.length :=
  h.suffix.length_le

@[simp] theorem yields_done {value v : α} {rest r : List Item} {suffix : rest <:+ bound} :
    (done value rest suffix).Yields v r ↔ v = value ∧ r = rest := by
  constructor
  · rintro ⟨_, h⟩
    cases h
    exact ⟨rfl, rfl⟩
  · rintro ⟨rfl, rfl⟩
    exact ⟨suffix, rfl⟩

@[simp] theorem not_yields_failed {fault : Fault} {rest r : List Item} {suffix : rest <:+ bound}
    {v : α} : ¬ (failed fault rest suffix).Yields v r := by
  rintro ⟨_, h⟩
  cases h

@[simp] theorem yields_widen {h : bound <:+ wider} {reply : Reply α bound} {v : α}
    {r : List Item} : (reply.widen h).Yields v r ↔ reply.Yields v r := by
  cases reply <;> simp [widen]

@[simp] theorem yields_ofTail {reply : Reply α bound.tail} {v : α} {r : List Item} :
    reply.ofTail.Yields v r ↔ reply.Yields v r := yields_widen

@[simp] theorem yields_andThen {reply : Reply α bound}
    {next : (value : α) → (rest : List Item) → rest <:+ bound → Reply β rest} {v : β}
    {r : List Item} :
    (reply.andThen next).Yields v r ↔
      ∃ value rest suffix, reply.Yields value rest ∧ (next value rest suffix).Yields v r := by
  cases reply with
  | done value rest suffix =>
    rw [andThen_done, yields_widen]
    constructor
    · intro h
      exact ⟨value, rest, suffix, yields_done.mpr ⟨rfl, rfl⟩, h⟩
    · rintro ⟨value, rest, _, first, h⟩
      obtain ⟨rfl, rfl⟩ := yields_done.mp first
      exact h
  | failed fault rest suffix => simp [andThen_failed]

end Reply

namespace Parser

open Reply

variable {finish : Position}

/-! ### Single tokens -/

@[simp] theorem not_yields_refuse {α : Type} {wanted : Kind} {items r : List Item} {v : α} :
    ¬ (refuse finish wanted items).Yields v r := by
  unfold refuse
  split <;> simp

@[simp] theorem yields_expect {kind : Kind} {items r : List Item} {t : Token} :
    (expect finish kind items).Yields t r ↔ items = .token t :: r ∧ t.kind = kind := by
  unfold expect
  split
  · rename_i u rest
    by_cases h : u.kind = kind
    · rw [if_pos h, yields_done]
      constructor
      · rintro ⟨rfl, rfl⟩
        exact ⟨rfl, h⟩
      · rintro ⟨same, _⟩
        cases same
        exact ⟨rfl, rfl⟩
    · rw [if_neg h]
      simp only [not_yields_refuse, false_iff, not_and]
      intro same
      cases same
      exact h
  · rename_i h
    simp only [not_yields_refuse, false_iff, not_and]
    intro same
    exact (h t r same).elim

theorem yields_accept_true {kind : Kind} {items r : List Item} :
    (accept kind items).Yields true r ↔ ∃ t, items = .token t :: r ∧ t.kind = kind := by
  unfold accept
  split
  · simp
  · simp
  · rename_i t rest
    split
    · rename_i h
      rw [yields_done]
      constructor
      · rintro ⟨_, rfl⟩
        exact ⟨t, rfl, h⟩
      · rintro ⟨_, same, _⟩
        cases same
        exact ⟨rfl, rfl⟩
    · rename_i h
      simp only [yields_done, Bool.true_eq_false, false_and, false_iff]
      rintro ⟨_, same, wanted⟩
      cases same
      exact h wanted

theorem yields_accept_false {kind : Kind} {items r : List Item} (notEnd : kind ≠ .eof) :
    (accept kind items).Yields false r ↔ r = items ∧ Next (· ≠ kind) items := by
  unfold accept
  split
  · simp [notEnd.symm]
  · simp
  · rename_i t rest
    split
    · rename_i h
      simp [h]
    · rename_i h
      simp [h]

theorem yields_integer {t : Token} {rest r : List Item} {v : Node} :
    (integer t rest).Yields v r ↔
      t.literal.length ≤ Decimal.maxDigits ∧ Decimal.value t.literal ≤ maxInteger ∧
        v = .integer t (Decimal.value t.literal) ∧ r = rest := by
  unfold integer
  split
  · rename_i tooLong
    simp only [not_yields_failed, false_iff]
    exact fun h => Nat.not_lt.mpr h.1 tooLong
  · rename_i short
    split
    · rename_i tooGreat
      simp only [not_yields_failed, false_iff]
      exact fun h => Nat.not_lt.mpr h.2.1 tooGreat
    · rename_i small
      rw [yields_done]
      exact ⟨fun h => ⟨Nat.not_lt.mp short, Nat.not_lt.mp small, h⟩, fun h => h.2.2⟩

/-! ### Expressions -/

theorem yields_expression {power : Precedence} {items r : List Item} {v : Node} :
    (expression finish power items).Yields v r ↔
      ∃ t rest left mid, items = .token t :: rest ∧ (operand finish t rest).Yields left mid ∧
        (operators finish power left mid).Yields v r := by
  match items with
  | [] => simp [expression]
  | .badName .. :: _ => simp [expression]
  | .token t :: rest =>
    rw [expression]
    refine yields_andThen.trans ⟨?_, ?_⟩
    · rintro ⟨left, mid, _, first, h⟩
      exact ⟨t, rest, left, mid, rfl, first, h⟩
    · rintro ⟨_, _, left, mid, same, first, h⟩
      cases same
      exact ⟨left, mid, first.suffix, first, h⟩

theorem length_lt_of_expression {power : Precedence} {items r : List Item} {v : Node}
    (h : (expression finish power items).Yields v r) : r.length < items.length := by
  obtain ⟨t, rest, left, mid, rfl, first, tail⟩ := yields_expression.mp h
  exact Nat.lt_succ_of_le (Nat.le_trans tail.length_le first.length_le)

theorem yields_operators_of_next {power : Precedence} {left v : Node} {items r : List Item}
    (h : Next (fun kind => power.weaker kind.precedence = false) items) :
    (operators finish power left items).Yields v r ↔ v = left ∧ r = items := by
  match items, h with
  | [], _ => simp [operators]
  | .token t :: rest, h =>
    rw [operators, if_neg (by simpa using h), yields_done]

theorem yields_operators_call {power : Precedence} {left v : Node} {t : Token}
    {rest r : List Item} (weaker : power.weaker .call) (call : t.kind = .lparen) :
    (operators finish power left (.token t :: rest)).Yields v r ↔
      ∃ values close after, (arguments finish rest).Yields values (.token close :: after) ∧
        close.kind = .rparen ∧ (operators finish power (.call t left values) after).Yields v r := by
  rw [operators, if_pos (by rw [call]; exact weaker), yields_widen, if_pos call]
  simp only [yields_andThen, yields_expect]
  constructor
  · rintro ⟨values, _, _, first, close, after, _, ⟨rfl, closes⟩, h⟩
    exact ⟨values, close, after, first, closes, h⟩
  · rintro ⟨values, close, after, first, closes, h⟩
    exact ⟨values, _, first.suffix, first, close, after, List.suffix_cons .., ⟨rfl, closes⟩, h⟩

theorem yields_operators_binary {power : Precedence} {left v : Node} {t : Token}
    {rest r : List Item} (weaker : power.weaker t.kind.precedence)
    (binary : t.kind.isBinaryOperator) :
    (operators finish power left (.token t :: rest)).Yields v r ↔
      ∃ right mid, (expression finish t.kind.precedence rest).Yields right mid ∧
        (operators finish power (.binary t left t.literal right) mid).Yields v r := by
  have notCall : t.kind ≠ .lparen := by
    intro call
    rw [call] at binary
    contradiction
  rw [operators, if_pos weaker, yields_widen, if_neg notCall, if_pos binary]
  simp only [yields_andThen, yields_ofTail]
  constructor
  · rintro ⟨right, mid, _, first, h⟩
    exact ⟨right, mid, first, h⟩
  · rintro ⟨right, mid, first, h⟩
    exact ⟨right, mid, first.suffix.trans (List.tail_suffix rest), first, h⟩

/-- What the operators yield: they end at once, or go on with a call or a binary operator. -/
theorem operators_cases {power : Precedence} {left v : Node} {items r : List Item}
    (h : (operators finish power left items).Yields v r) :
    Next (fun kind => power.weaker kind.precedence = false) items ∨
      ∃ t rest, items = .token t :: rest ∧ power.weaker t.kind.precedence ∧
        (t.kind = .lparen ∨ t.kind.isBinaryOperator) := by
  match items with
  | [] => exact .inl (Precedence.not_weaker_lowest power)
  | .badName .. :: _ => simp [operators] at h
  | .token t :: rest =>
    by_cases weaker : power.weaker t.kind.precedence
    · refine .inr ⟨t, rest, rfl, weaker, ?_⟩
      by_cases call : t.kind = .lparen
      · exact .inl call
      · exact .inr (Kind.isBinaryOperator_of_weaker weaker call)
    · exact .inl (Bool.eq_false_iff.mpr weaker)

/-! ### Operands -/

section

variable {t : Token} {items r : List Item} {v : Node}

theorem yields_operand_identifier (h : t.kind = .ident) :
    (operand finish t items).Yields v r ↔ v = .identifier t t.literal ∧ r = items := by
  rw [operand]
  simp only [h, yields_done]

theorem yields_operand_integer (h : t.kind = .int) :
    (operand finish t items).Yields v r ↔
      t.literal.length ≤ Decimal.maxDigits ∧ Decimal.value t.literal ≤ maxInteger ∧
        v = .integer t (Decimal.value t.literal) ∧ r = items := by
  rw [operand]
  simp only [h, yields_integer]

theorem yields_operand_true (h : t.kind = .trueKeyword) :
    (operand finish t items).Yields v r ↔ v = .boolean t true ∧ r = items := by
  rw [operand]
  simp only [h, yields_done]

theorem yields_operand_false (h : t.kind = .falseKeyword) :
    (operand finish t items).Yields v r ↔ v = .boolean t false ∧ r = items := by
  rw [operand]
  simp only [h, yields_done]

theorem operand_unary (h : t.kind.isPrefixOperator) :
    operand finish t items = (expression finish .unary items).ofTail.andThen fun right items _ =>
      .done (.unary t t.literal right) items List.suffix_rfl := by
  have unary : ∀ kind : Kind, kind.isPrefixOperator →
      kind = .bang ∨ kind = .minus ∨ kind = .increment ∨ kind = .decrement := by
    intro kind
    cases kind <;> decide
  rw [operand]
  rcases unary _ h with h | h | h | h <;> simp only [h]

theorem yields_operand_unary (h : t.kind.isPrefixOperator) :
    (operand finish t items).Yields v r ↔
      ∃ right, (expression finish .unary items).Yields right r ∧
        v = .unary t t.literal right := by
  rw [operand_unary h]
  simp only [yields_andThen, yields_ofTail, yields_done]
  constructor
  · rintro ⟨right, _, _, inner, rfl, rfl⟩
    exact ⟨right, inner, rfl⟩
  · rintro ⟨right, inner, rfl⟩
    exact ⟨right, r, inner.suffix.trans (List.tail_suffix _), inner, rfl, rfl⟩

theorem yields_operand_group (h : t.kind = .lparen) :
    (operand finish t items).Yields v r ↔
      ∃ close, (expression finish .lowest items).Yields v (.token close :: r) ∧
        close.kind = .rparen := by
  rw [operand]
  simp only [h, yields_andThen, yields_ofTail, yields_expect, yields_done]
  constructor
  · rintro ⟨_, _, _, inner, close, _, _, ⟨rfl, closes⟩, rfl, rfl⟩
    exact ⟨close, inner, closes⟩
  · rintro ⟨close, inner, closes⟩
    exact ⟨v, _, inner.suffix.trans (List.tail_suffix _), inner, close, r, List.suffix_cons ..,
      ⟨rfl, closes⟩, rfl, rfl⟩

theorem yields_operand_function (h : t.kind = .fnKeyword) :
    (operand finish t items).Yields v r ↔
      ∃ opens rest names close after body, items = .token opens :: rest ∧ opens.kind = .lparen ∧
        (parameters finish rest).Yields names (.token close :: after) ∧ close.kind = .rparen ∧
          (block finish after).Yields body r ∧ v = .function t names body := by
  rw [operand]
  simp only [h, yields_andThen, yields_expect, yields_done]
  constructor
  · rintro ⟨opens, rest, _, ⟨rfl, isOpen⟩, names, _, _, inner, close, after, _, ⟨rfl, closes⟩,
      body, _, _, block, rfl, rfl⟩
    exact ⟨opens, rest, names, close, after, body, rfl, isOpen, inner, closes, block, rfl⟩
  · rintro ⟨opens, rest, names, close, after, body, rfl, isOpen, inner, closes, block, rfl⟩
    exact ⟨opens, rest, List.suffix_cons .., ⟨rfl, isOpen⟩, names, _, inner.suffix, inner, close,
      after, List.suffix_cons .., ⟨rfl, closes⟩, body, r, block.suffix, block, rfl, rfl⟩

/-- What a conditional yields behind the block that is taken when its condition holds. -/
def ElsePart (finish : Position) (items : List Item) (alternative : Option Node)
    (r : List Item) : Prop :=
  match alternative with
  | none => r = items ∧ Next (· ≠ .elseKeyword) items
  | some node => ∃ t rest, items = .token t :: rest ∧ t.kind = .elseKeyword ∧
      (block finish rest).Yields node r

theorem yields_operand_conditional (h : t.kind = .ifKeyword) :
    (operand finish t items).Yields v r ↔
      ∃ opens rest condition close after consequence mid alternative,
        items = .token opens :: rest ∧ opens.kind = .lparen ∧
        (expression finish .lowest rest).Yields condition (.token close :: after) ∧
        close.kind = .rparen ∧ (block finish after).Yields consequence mid ∧
        ElsePart finish mid alternative r ∧
          v = .conditional t condition consequence alternative := by
  rw [operand]
  simp only [h, yields_andThen, yields_expect, yields_ofTail]
  constructor
  · rintro ⟨opens, rest, _, ⟨rfl, isOpen⟩, condition, _, _, inner, close, after, _, ⟨rfl, closes⟩,
      consequence, mid, _, block, more, _, _, next, tail⟩
    cases more with
    | true =>
      obtain ⟨word, rfl, isElse⟩ := yields_accept_true.mp next
      rw [if_pos rfl, yields_andThen] at tail
      obtain ⟨alternative, _, _, other, built⟩ := tail
      obtain ⟨rfl, rfl⟩ := yields_done.mp built
      exact ⟨opens, rest, condition, close, after, consequence, _, some alternative, rfl, isOpen,
        inner, closes, block, ⟨word, _, rfl, isElse, other⟩, rfl⟩
    | false =>
      rw [if_neg Bool.false_ne_true, yields_done] at tail
      obtain ⟨rfl, rfl⟩ := tail
      exact ⟨opens, rest, condition, close, after, consequence, mid, none, rfl, isOpen, inner,
        closes, block, (yields_accept_false (by decide)).mp next, rfl⟩
  · rintro ⟨opens, rest, condition, close, after, consequence, mid, alternative, rfl, isOpen, inner,
      closes, block, tail, rfl⟩
    refine ⟨opens, rest, List.suffix_cons .., ⟨rfl, isOpen⟩, condition, _,
      inner.suffix.trans (List.tail_suffix _), inner, close, after, List.suffix_cons ..,
      ⟨rfl, closes⟩, consequence, mid, block.suffix, block, ?_⟩
    cases alternative with
    | some alternative =>
      obtain ⟨word, after, rfl, isElse, other⟩ := tail
      refine ⟨true, after, List.suffix_cons .., yields_accept_true.mpr ⟨word, rfl, isElse⟩, ?_⟩
      rw [if_pos rfl, yields_andThen]
      exact ⟨alternative, r, other.suffix, other, yields_done.mpr ⟨rfl, rfl⟩⟩
    | none =>
      obtain ⟨rfl, stops⟩ := tail
      refine ⟨false, r, List.suffix_rfl, (yields_accept_false (by decide)).mpr ⟨rfl, stops⟩, ?_⟩
      rw [if_neg Bool.false_ne_true, yields_done]
      exact ⟨rfl, rfl⟩

theorem operand_of_not_startsOperand (h : t.kind.startsOperand = false) :
    operand finish t items = .failed (.problem
      (if t.kind = .illegal then .illegal t.literal else .noOperand t.literal) t.position)
        items List.suffix_rfl := by
  rw [operand]
  split <;> simp_all [Kind.startsOperand, Kind.isPrefixOperator]

theorem not_yields_operand (h : t.kind.startsOperand = false) :
    ¬ (operand finish t items).Yields v r := by
  rw [operand_of_not_startsOperand h]
  exact not_yields_failed

end

/-! ### Lists -/

theorem yields_parameters_of_next {items r : List Item} {v : List Node}
    (closes : Next (· = .rparen) items) :
    (parameters finish items).Yields v r ↔ v = [] ∧ r = items := by
  match items, closes with
  | .token t :: rest, closes => rw [parameters, if_pos (next_token.mp closes), yields_done]

theorem yields_arguments_of_next {items r : List Item} {v : List Node}
    (closes : Next (· = .rparen) items) :
    (arguments finish items).Yields v r ↔ v = [] ∧ r = items := by
  match items, closes with
  | .token t :: rest, closes => rw [arguments, if_pos (next_token.mp closes), yields_done]

/-- Behind a member, a list ends or goes on behind a comma. -/
theorem yields_listTail {α : Type} {first : α} {items r : List Item} {v : List α}
    {list : (items : List Item) → Reply (List α) items} :
    ((accept .comma items).andThen fun more items _ =>
        if more then
          (list items).andThen fun others items _ => .done (first :: others) items List.suffix_rfl
        else .done [first] items List.suffix_rfl).Yields v r ↔
      (v = [first] ∧ r = items ∧ Next (· ≠ .comma) items) ∨
        ∃ comma after others, items = .token comma :: after ∧ comma.kind = .comma ∧
          (list after).Yields others r ∧ v = first :: others := by
  rw [yields_andThen]
  constructor
  · rintro ⟨more, after, _, next, h⟩
    cases more with
    | true =>
      obtain ⟨comma, rfl, isComma⟩ := yields_accept_true.mp next
      rw [if_pos rfl, yields_andThen] at h
      obtain ⟨others, _, _, tail, built⟩ := h
      obtain ⟨rfl, rfl⟩ := yields_done.mp built
      exact .inr ⟨comma, after, others, rfl, isComma, tail, rfl⟩
    | false =>
      obtain ⟨rfl, stops⟩ := (yields_accept_false (by decide)).mp next
      rw [if_neg Bool.false_ne_true, yields_done] at h
      exact .inl ⟨h.1, h.2, stops⟩
  · rintro (⟨rfl, rfl, stops⟩ | ⟨comma, after, others, rfl, isComma, tail, rfl⟩)
    · refine ⟨false, r, List.suffix_rfl, (yields_accept_false (by decide)).mpr ⟨rfl, stops⟩, ?_⟩
      exact yields_done.mpr ⟨rfl, rfl⟩
    · refine ⟨true, after, List.suffix_cons .., yields_accept_true.mpr ⟨comma, rfl, isComma⟩, ?_⟩
      rw [if_pos rfl, yields_andThen]
      exact ⟨others, r, tail.suffix, tail, yields_done.mpr ⟨rfl, rfl⟩⟩

/-- Parameters that are not at their end yield a name, and more behind a comma. -/
theorem yields_parameters {items r : List Item} {v : List Node}
    (opened : Next (· ≠ .rparen) items) :
    (parameters finish items).Yields v r ↔
      ∃ t mid, items = .token t :: mid ∧ t.kind = .ident ∧
        ((v = [.identifier t t.literal] ∧ r = mid ∧ Next (· ≠ .comma) mid) ∨
          ∃ comma after names, mid = .token comma :: after ∧ comma.kind = .comma ∧
            (parameters finish after).Yields names r ∧
              v = .identifier t t.literal :: names) := by
  match items, opened with
  | [], _ => simp [parameters]
  | .token t :: rest, opened =>
    rw [parameters, if_neg opened]
    by_cases name : t.kind = .ident
    · rw [if_pos name, yields_widen, yields_listTail]
      constructor
      · intro tail
        exact ⟨t, rest, rfl, name, tail⟩
      · rintro ⟨_, _, same, _, tail⟩
        cases same
        exact tail
    · rw [if_neg name]
      simp only [not_yields_refuse, false_iff]
      rintro ⟨_, _, same, isName, _⟩
      cases same
      exact name isName

/-- Arguments that are not at their end yield an expression, and more behind a comma. -/
theorem yields_arguments {items r : List Item} {v : List Node}
    (opened : Next (· ≠ .rparen) items) :
    (arguments finish items).Yields v r ↔
      ∃ first mid, (expression finish .lowest items).Yields first mid ∧
        ((v = [first] ∧ r = mid ∧ Next (· ≠ .comma) mid) ∨
          ∃ comma after values, mid = .token comma :: after ∧ comma.kind = .comma ∧
            (arguments finish after).Yields values r ∧ v = first :: values) := by
  match items, opened with
  | [], _ => simp [arguments, expression]
  | .token t :: rest, opened =>
    rw [arguments, if_neg opened, yields_ofTail, yields_andThen]
    constructor
    · rintro ⟨first, mid, _, value, tail⟩
      exact ⟨first, mid, value, yields_listTail.mp tail⟩
    · rintro ⟨first, mid, value, tail⟩
      exact ⟨first, mid, value.suffix, value, yields_listTail.mpr tail⟩

/-! ### Blocks and statements -/

theorem yields_block {items r : List Item} {v : Node} :
    (block finish items).Yields v r ↔
      ∃ opens rest body close, items = .token opens :: rest ∧ opens.kind = .lbrace ∧
        (statements finish rest).Yields body (.token close :: r) ∧ close.kind = .rbrace ∧
          v = .block opens body := by
  rw [block]
  simp only [yields_andThen, yields_expect, yields_done]
  constructor
  · rintro ⟨opens, _, _, ⟨rfl, brace⟩, body, _, _, inner, close, _, _, ⟨rfl, closes⟩, rfl, rfl⟩
    exact ⟨opens, _, body, close, rfl, brace, inner, closes, rfl⟩
  · rintro ⟨opens, rest, body, close, rfl, brace, inner, closes, rfl⟩
    exact ⟨opens, rest, List.suffix_cons .., ⟨rfl, brace⟩, body, _, inner.suffix, inner, close, r,
      List.suffix_cons .., ⟨rfl, closes⟩, rfl, rfl⟩

theorem yields_statements_of_end {items r : List Item} {v : List Node}
    (ends : items = [] ∨ Next (· = .rbrace) items) :
    (statements finish items).Yields v r ↔ v = [] ∧ r = items := by
  match items, ends with
  | [], _ => rw [statements, yields_done]
  | .token t :: rest, .inr closes => rw [statements, if_pos (next_token.mp closes), yields_done]

theorem yields_statements {t : Token} {rest r : List Item} {v : List Node}
    (opened : t.kind ≠ .rbrace) :
    (statements finish (.token t :: rest)).Yields v r ↔
      ∃ first mid more, (statement finish t rest).Yields first mid ∧
        (statements finish mid).Yields more r ∧ v = first :: more := by
  rw [statements, if_neg opened]
  refine yields_ofTail.trans (yields_andThen.trans ⟨?_, ?_⟩)
  · rintro ⟨first, mid, _, one, tail⟩
    obtain ⟨more, _, _, others, built⟩ := yields_andThen.mp tail
    obtain ⟨rfl, rfl⟩ := yields_done.mp built
    exact ⟨first, mid, more, one, others, rfl⟩
  · rintro ⟨first, mid, more, one, others, rfl⟩
    exact ⟨first, mid, one.suffix, one,
      yields_andThen.mpr ⟨more, r, others.suffix, others, yields_done.mpr ⟨rfl, rfl⟩⟩⟩

theorem yields_letStatement {t : Token} {rest r : List Item} {v : Node}
    (isLet : t.kind = .letKeyword) :
    (statement finish t rest).Yields v r ↔
      ∃ name assign after value semicolon, rest = .token name :: .token assign :: after ∧
        name.kind = .ident ∧ assign.kind = .assign ∧
        (expression finish .lowest after).Yields value (.token semicolon :: r) ∧
        semicolon.kind = .semicolon ∧
          v = .letStatement t (.identifier name name.literal) value := by
  rw [statement, if_pos isLet]
  simp only [yields_andThen, yields_expect, yields_ofTail, yields_done]
  constructor
  · rintro ⟨name, _, _, ⟨rfl, isName⟩, assign, after, _, ⟨rfl, isAssign⟩, value, _, _, inner,
      semicolon, _, _, ⟨rfl, ends⟩, rfl, rfl⟩
    exact ⟨name, assign, after, value, semicolon, rfl, isName, isAssign, inner, ends, rfl⟩
  · rintro ⟨name, assign, after, value, semicolon, rfl, isName, isAssign, inner, ends, rfl⟩
    exact ⟨name, _, List.suffix_cons .., ⟨rfl, isName⟩, assign, after, List.suffix_cons ..,
      ⟨rfl, isAssign⟩, value, _, inner.suffix.trans (List.tail_suffix _), inner, semicolon, r,
      List.suffix_cons .., ⟨rfl, ends⟩, rfl, rfl⟩

theorem yields_returnStatement {t : Token} {rest r : List Item} {v : Node}
    (isReturn : t.kind = .returnKeyword) :
    (statement finish t rest).Yields v r ↔
      ∃ value semicolon, (expression finish .lowest rest).Yields value (.token semicolon :: r) ∧
        semicolon.kind = .semicolon ∧ v = .returnStatement t value := by
  have notLet : t.kind ≠ .letKeyword := by rw [isReturn]; decide
  rw [(statement.eq_1 finish t rest).trans ((if_neg notLet).trans (if_pos isReturn))]
  simp only [yields_andThen, yields_expect, yields_ofTail, yields_done]
  constructor
  · rintro ⟨value, _, _, inner, semicolon, _, _, ⟨rfl, ends⟩, rfl, rfl⟩
    exact ⟨value, semicolon, inner, ends, rfl⟩
  · rintro ⟨value, semicolon, inner, ends, rfl⟩
    exact ⟨value, _, inner.suffix.trans (List.tail_suffix _), inner, semicolon, r,
      List.suffix_cons .., ⟨rfl, ends⟩, rfl, rfl⟩

/-- An expression in the place of a statement takes a semicolon with it if there is one. -/
theorem yields_expressionStatement {t : Token} {rest r : List Item} {v : Node}
    (notLet : t.kind ≠ .letKeyword) (notReturn : t.kind ≠ .returnKeyword) :
    (statement finish t rest).Yields v r ↔
      ∃ value mid, (expression finish .lowest (.token t :: rest)).Yields value mid ∧
        v = .expressionStatement t value ∧
        ((∃ semicolon, mid = .token semicolon :: r ∧ semicolon.kind = .semicolon) ∨
          (r = mid ∧ Next (· ≠ .semicolon) mid)) := by
  rw [(statement.eq_1 finish t rest).trans ((if_neg notLet).trans (if_neg notReturn))]
  refine yields_andThen.trans ⟨?_, ?_⟩
  · rintro ⟨value, mid, _, inner, tail⟩
    obtain ⟨found, _, _, next, built⟩ := yields_andThen.mp tail
    obtain ⟨rfl, rfl⟩ := yields_done.mp built
    refine ⟨value, mid, inner, rfl, ?_⟩
    cases found with
    | true => exact .inl (yields_accept_true.mp next)
    | false => exact .inr ((yields_accept_false (by decide)).mp next)
  · rintro ⟨value, mid, inner, rfl, closed | opened⟩
    · have next := yields_accept_true.mpr closed
      exact ⟨value, mid, inner.suffix, inner,
        yields_andThen.mpr ⟨true, r, next.suffix, next, yields_done.mpr ⟨rfl, rfl⟩⟩⟩
    · have next : (accept .semicolon mid).Yields false r :=
        (yields_accept_false (by decide)).mpr opened
      exact ⟨value, mid, inner.suffix, inner,
        yields_andThen.mpr ⟨false, r, next.suffix, next, yields_done.mpr ⟨rfl, rfl⟩⟩⟩

end Parser

end MonkeySyntax
