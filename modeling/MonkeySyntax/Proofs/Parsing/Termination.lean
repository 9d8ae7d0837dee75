import MonkeySyntax.Proofs.Lexing.Operations
import MonkeySyntax.Proofs.Parsing.Calls
import MonkeySyntax.Proofs.Parsing.Yields

/-!
# Termination

Reading a token advances a lexer unless nothing but layout is left, and every call that the parser
makes starts behind an item that was read meanwhile, but for an expression that is handed the end
token and fails at once. Three calls take over the token in hand and nothing else; they lead to no
call of their own kind. `terminates` draws the bound from that.
-/

namespace MonkeySyntax

namespace Parser

/-- At least one item was read on the way. -/
def Consumes (before after : List Item) : Prop := after <:+ before ∧ after.length < before.length

namespace Consumes

variable {before middle after : List Item}

theorem of_cons {item : Item} (suffix : after <:+ before) : Consumes (item :: before) after :=
  ⟨suffix.trans (List.suffix_cons ..), Nat.lt_succ_of_le suffix.length_le⟩

theorem of_suffix (suffix : middle <:+ before) (consumes : Consumes middle after) :
    Consumes before after :=
  ⟨consumes.1.trans suffix, Nat.lt_of_lt_of_le consumes.2 suffix.length_le⟩

theorem trans_suffix (consumes : Consumes before middle) (suffix : after <:+ middle) :
    Consumes before after :=
  ⟨suffix.trans consumes.1, Nat.lt_of_le_of_lt suffix.length_le consumes.2⟩

end Consumes

/-- A call that takes over the token in hand, or, behind an operand, what it left. Nothing need be
read in between. -/
inductive Hands : Call → Call → Prop
  | statement (t : Token) (items : List Item) :
      Hands (.statement t items) (.expression .lowest t items)
  | operand (power : Precedence) (t : Token) (left : Node) {items rest : List Item} :
      rest <:+ items → Hands (.expression power t items) (.operators power left rest)
  | block (brace : Token) (items : List Item) : Hands (.block brace items) (.statements items)

/-- Handing over goes down in rank, so that it leads to no call of the same kind. -/
def Call.rank : Call → Nat
  | statement .. => 2
  | expression .. | block .. => 1
  | turn .. | operators .. | arguments .. | parameters .. | statements .. => 0

theorem Hands.rank_lt {c d : Call} (hands : Hands c d) : d.rank < c.rank := by
  cases hands <;> simp [Call.rank]

theorem Hands.suffix {c d : Call} (hands : Hands c d) : d.unread <:+ c.unread := by
  cases hands with
  | statement | block => exact List.suffix_rfl
  | operand _ _ _ suffix => exact suffix

section

variable (finish : Position)

/-- An expression that is handed the end token. -/
def HandedEnd (c : Call) : Prop := ∃ power, c = .expression power (endToken finish) []

/-- How far a call has come that another one makes. -/
inductive Further (c d : Call) : Prop
  | handedEnd : HandedEnd finish d → Further c d
  | consumes : Consumes c.unread d.unread → Further c d
  | hands : Hands c d → Further c d

/-- One call makes another one. -/
def Calls (c d : Call) : Prop := d ∈ (body finish c).calls (answer finish)

end

/-! ### Calls that a computation makes -/

/-- All calls that a computation makes are of a sort. -/
def Run.All (finish : Position) (sort : Call → Prop) {α : Type} (run : Run α) : Prop :=
  ∀ d ∈ run.calls (answer finish), sort d

namespace Run.All

variable {finish : Position} {sort : Call → Prop} {α β : Type} {bound : List Item}

theorem ret (value : α) : (Run.ret value).All finish sort := nofun

theorem call {c : Call} (isSort : sort c) : (Run.call c .ret).All finish sort := by
  intro d member
  obtain rfl := List.mem_singleton.mp member
  exact isSort

theorem map {run : Run α} (all : run.All finish sort) (f : α → β) :
    (run.map f).All finish sort := by
  intro d member
  rw [calls_map] at member
  exact all d member

theorem done (value : α) (items : List Item) :
    (Run.done value items).All finish sort := ret _

theorem failed (fault : Fault) (items : List Item) :
    (Run.failed fault items : Run (Reply α items)).All finish sort := ret _

theorem behind {run : Run (Reply α bound)} (all : run.All finish sort) (item : Item) :
    (run.behind item).All finish sort := all.map _

theorem ofTail {run : Run (Reply α bound.tail)} (all : run.All finish sort) :
    run.ofTail.All finish sort := all.map _

theorem andThen {run : Run (Reply α bound)}
    {next : (value : α) → (rest : List Item) → rest <:+ bound → Run (Reply β rest)}
    (first : run.All finish sort)
    (second : ∀ value rest suffix, (run.eval (answer finish)).Yields value rest →
      (next value rest suffix).All finish sort) :
    (run.andThen next).All finish sort := by
  induction run with
  | ret reply =>
    cases reply with
    | done value rest suffix => exact (second value rest suffix ⟨suffix, rfl⟩).map _
    | failed fault rest suffix => exact ret _
  | call c go ih =>
    intro d member
    rcases List.mem_cons.mp member with rfl | member
    · exact first _ List.mem_cons_self
    · exact ih _ (fun d member => first d (List.mem_cons_of_mem _ member)) second d member

/-- Requiring a token makes no call, and reads the token. -/
theorem behindExpect {kind : Kind} {items : List Item}
    {next : (t : Token) → (rest : List Item) → rest <:+ items → Run (Reply β rest)}
    (behind : ∀ t rest suffix, Consumes items rest → (next t rest suffix).All finish sort) :
    ((Run.ret (expect finish kind items)).andThen next).All finish sort := by
  refine (ret _).andThen fun t rest suffix yields => behind t rest suffix ?_
  obtain ⟨rfl, _⟩ := yields_expect.mp yields
  exact .of_cons List.suffix_rfl

theorem ite {condition : Prop} [Decidable condition] {run other : Run α}
    (holds : condition → run.All finish sort) (fails : ¬condition → other.All finish sort) :
    (if condition then run else other).All finish sort := by
  split
  · exact holds ‹_›
  · exact fails ‹_›

end Run.All

/-! ### How far each call gets -/

section

variable {finish : Position} {c : Call}

theorem all_readExpression {items : List Item} (power : Precedence)
    (suffix : items <:+ c.unread) :
    (readExpression finish power items).All finish (Further finish c) := by
  cases items with
  | nil => exact .call (.handedEnd ⟨power, rfl⟩)
  | cons item rest =>
    cases item with
    | badName literal position => exact .failed _ _
    | token t => exact .call (.consumes (.of_suffix suffix (.of_cons List.suffix_rfl)))

theorem all_readBlock {items : List Item} (suffix : items <:+ c.unread) :
    (readBlock finish items).All finish (Further finish c) :=
  .behindExpect fun _ _ _ consumes => .call (.consumes (.of_suffix suffix consumes))

theorem all_operandBody (t : Token) {items : List Item} (suffix : items <:+ c.unread) :
    (operandBody finish t items).All finish (Further finish c) := by
  -- The cases stand in the order of the definition; those not named here make no call.
  unfold operandBody
  split
  case h_5 | h_6 | h_7 | h_8 =>
    exact (all_readExpression _ suffix).ofTail.andThen fun _ _ _ _ => .done _ _
  case h_9 =>
    refine (all_readExpression .lowest suffix).ofTail.andThen fun inner rest _ _ => ?_
    exact .behindExpect fun _ _ _ _ => .done _ _
  case h_10 =>
    refine .behindExpect fun _ _ opened _ => ?_
    refine (all_readExpression .lowest (opened.trans suffix)).ofTail.andThen fun _ _ inside _ => ?_
    refine .behindExpect fun _ _ closed _ => ?_
    have suffix := ((closed.trans inside).trans opened).trans suffix
    refine (all_readBlock suffix).andThen fun _ _ inBlock _ => ?_
    refine (Run.All.ret _).andThen fun more _ atElse _ => .ite (fun _ => ?_) fun _ => .done _ _
    exact (all_readBlock ((atElse.trans inBlock).trans suffix)).andThen fun _ _ _ _ => .done _ _
  case h_11 =>
    refine .behindExpect fun _ _ opened consumes => ?_
    refine (Run.All.call (.consumes (.of_suffix suffix consumes))).andThen fun _ _ inside _ => ?_
    refine .behindExpect fun _ _ closed _ => ?_
    have suffix := ((closed.trans inside).trans opened).trans suffix
    exact (all_readBlock suffix).andThen fun _ _ _ _ => .done _ _
  all_goals exact .ret _

theorem all_operatorsBody (power : Precedence) (left : Node) (items : List Item) :
    (operatorsBody finish power left items).All finish
      (Further finish (.operators power left items)) := by
  cases items with
  | nil => exact .ret _
  | cons item rest =>
    cases item with
    | badName literal position => exact .failed _ _
    | token t =>
      refine .ite (fun _ => ?_) fun _ => .done _ _
      have read {after : List Item} (suffix : after <:+ rest) : Consumes (.token t :: rest) after :=
        .of_cons suffix
      refine (Run.All.ite (fun _ => ?_) fun _ => .ite (fun _ => ?_) fun _ => .failed _ _).behind _
      · refine (Run.All.call (.consumes (read List.suffix_rfl))).andThen fun _ _ inside _ => ?_
        exact .behindExpect fun _ _ closed _ => .call (.consumes (read (closed.trans inside)))
      · refine (all_readExpression _ (List.suffix_cons ..)).ofTail.andThen fun _ _ inside _ => ?_
        exact .call (.consumes (read inside))

theorem all_argumentsBody (items : List Item) :
    (argumentsBody finish items).All finish (Further finish (.arguments items)) := by
  cases items with
  | nil => exact (all_readExpression _ List.suffix_rfl).andThen fun _ _ _ _ => .done _ _
  | cons item rest =>
    cases item with
    | badName literal position => exact .failed _ _
    | token t =>
      refine .ite (fun _ => .done _ _) fun _ => Run.All.ofTail ?_
      refine (all_readExpression _ List.suffix_rfl).andThen fun _ _ inside _ => ?_
      refine (Run.All.ret _).andThen fun more _ comma _ => .ite (fun _ => ?_) fun _ => .done _ _
      exact (Run.All.call (.consumes (.of_cons (comma.trans inside)))).andThen
        fun _ _ _ _ => .done _ _

theorem all_parametersBody (items : List Item) :
    (parametersBody finish items).All finish (Further finish (.parameters items)) := by
  cases items with
  | nil => exact .ret _
  | cons item rest =>
    cases item with
    | badName literal position => exact .failed _ _
    | token t =>
      refine .ite (fun _ => .done _ _) fun _ => .ite (fun _ => Run.All.behind ?_ _) fun _ => .ret _
      refine (Run.All.ret _).andThen fun more _ comma _ => .ite (fun _ => ?_) fun _ => .done _ _
      exact (Run.All.call (.consumes (.of_cons comma))).andThen fun _ _ _ _ => .done _ _

theorem all_statementsBody (items : List Item) :
    (statementsBody items).All finish (Further finish (.statements items)) := by
  cases items with
  | nil => exact .ret _
  | cons item rest =>
    cases item with
    | badName literal position => exact .failed _ _
    | token t =>
      refine .ite (fun _ => .done _ _) fun _ => Run.All.behind ?_ _
      refine (Run.All.call (.consumes (.of_cons List.suffix_rfl))).andThen fun _ _ first _ => ?_
      exact (Run.All.call (.consumes (.of_cons first))).andThen fun _ _ _ _ => .done _ _

theorem all_statementBody (t : Token) (items : List Item) :
    (statementBody finish t items).All finish (Further finish (.statement t items)) := by
  refine .ite (fun _ => ?_) fun _ => .ite (fun _ => ?_) fun _ => ?_
  · refine .behindExpect fun _ _ name _ => .behindExpect fun _ _ assign _ => ?_
    have suffix : _ <:+ (Call.statement t items).unread := assign.trans name
    refine (all_readExpression _ suffix).ofTail.andThen fun _ _ _ _ => ?_
    exact .behindExpect fun _ _ _ _ => .done _ _
  · refine (all_readExpression _ List.suffix_rfl).ofTail.andThen fun _ _ _ _ => ?_
    exact .behindExpect fun _ _ _ _ => .done _ _
  · refine (Run.All.call (.hands (.statement t items))).andThen fun _ _ _ _ => ?_
    exact (Run.All.ret _).andThen fun _ _ _ _ => .done _ _

/-- The loop over a source goes on with what a statement left, whether it was parsed or not. -/
theorem all_turnBody (items : List Item) :
    (turnBody items).All finish (Further finish (.turn items)) := by
  cases items with
  | nil => exact .ret _
  | cons item rest =>
    cases item with
    | badName literal position => exact .ret _
    | token t =>
      intro d member
      rcases List.mem_cons.mp member with rfl | member
      · exact .consumes (.of_cons List.suffix_rfl)
      · have next {after : List Item} (suffix : after <:+ rest) :
            (Run.call (.turn after) .ret).All finish (Further finish (.turn (.token t :: rest))) :=
          .call (.consumes (.of_cons suffix))
        cases reply : answer finish (.statement t rest) with
        | done node after suffix =>
          rw [reply] at member
          exact (next suffix).map _ d member
        | failed fault after suffix =>
          rw [reply] at member
          cases fault with
          | problem cause position => exact (next suffix).map _ d member
          | tooLong numeral => contradiction

/-- What a call makes of others starts behind an item that was read meanwhile, is handed the end
token, or takes over the token in hand. -/
theorem all_body (c : Call) : (body finish c).All finish (Further finish c) := by
  cases c with
  | turn items => exact all_turnBody items
  | statement t items => exact all_statementBody t items
  | expression power t items =>
    have operand : (operandBody finish t items).All finish
        (Further finish (.expression power t items)) :=
      all_operandBody t List.suffix_rfl
    refine operand.andThen fun left rest suffix _ => ?_
    exact .call (.hands (.operand power t left suffix))
  | operators power left items => exact all_operatorsBody power left items
  | arguments items => exact all_argumentsBody items
  | parameters items => exact all_parametersBody items
  | block brace items =>
    refine (Run.All.call (.hands (.block brace items))).andThen fun _ _ _ _ => ?_
    exact .behindExpect fun _ _ _ _ => .done _ _
  | statements items => exact all_statementsBody items

theorem further_of_calls {d : Call} (calls : Calls finish c d) : Further finish c d :=
  all_body c d calls

/-- An expression that is handed the end token fails at once, and makes no call. -/
theorem body_of_handedEnd (power : Precedence) :
    body finish (.expression power (endToken finish) []) =
      .ret (.failed (.problem (.noOperand []) finish) [] List.suffix_rfl) := rfl

theorem not_calls_of_handedEnd {d : Call} (handed : HandedEnd finish c) : ¬ Calls finish c d := by
  obtain ⟨power, rfl⟩ := handed
  rw [Calls, body_of_handedEnd]
  exact nofun

/-! ### Chains of calls -/

/-- However many calls are in between, a call comes back to one of its rank or above only behind an
item that was read meanwhile, or with the end token in hand. -/
theorem further_of_chain {d : Call} (chain : Relation.TransGen (Calls finish) c d) :
    HandedEnd finish d ∨ Consumes c.unread d.unread ∨
      d.unread <:+ c.unread ∧ d.rank < c.rank := by
  induction chain with
  | single calls =>
    obtain handed | consumes | hands := further_of_calls calls
    · exact .inl handed
    · exact .inr (.inl consumes)
    · exact .inr (.inr ⟨hands.suffix, hands.rank_lt⟩)
  | tail _ calls ih =>
    obtain handed | before := ih
    · exact absurd calls (not_calls_of_handedEnd handed)
    obtain handed | consumes | hands := further_of_calls calls
    · exact .inl handed
    · obtain consumed | ⟨suffix, _⟩ := before
      · exact .inr (.inl (consumed.trans_suffix consumes.1))
      · exact .inr (.inl (.of_suffix suffix consumes))
    · obtain consumed | ⟨suffix, rank⟩ := before
      · exact .inr (.inl (consumed.trans_suffix hands.suffix))
      · exact .inr (.inr ⟨hands.suffix.trans suffix, Nat.lt_trans hands.rank_lt rank⟩)

/-! ### A bound on the depth -/

theorem evalSome_of_calls {α : Type} {answers : (c : Call) → c.Answer}
    {known : (c : Call) → Option c.Answer} (run : Run α)
    (agree : ∀ d ∈ run.calls answers, known d = some (answers d)) :
    run.evalSome known = some (run.eval answers) := by
  induction run with
  | ret value => rfl
  | call c next ih =>
    rw [Run.evalSome, agree c List.mem_cons_self]
    exact ih _ fun d member => agree d (List.mem_cons_of_mem _ member)

end

/-- Parsing with no more than a number of calls inside each other. -/
def within (finish : Position) : Nat → (c : Call) → Option c.Answer
  | 0, _ => none
  | n + 1, c => (body finish c).evalSome (within finish n)

/-- The calls that may be inside each other: three for each item, and those that hand over. -/
def Call.depth (c : Call) : Nat := 3 * c.unread.length + c.rank + 2

theorem Call.rank_le (c : Call) : c.rank ≤ 2 := by
  cases c <;> simp [rank]

theorem within_eq_some {finish : Position} {c : Call} {n : Nat} (enough : c.depth ≤ n) :
    within finish n c = some (answer finish c) := by
  induction n generalizing c with
  | zero => exact absurd enough (by simp [Call.depth])
  | succ n ih =>
    rw [within, ← eval_body finish c]
    refine evalSome_of_calls _ fun d member => ?_
    unfold Call.depth at enough
    obtain ⟨power, rfl⟩ | ⟨suffix, shorter⟩ | hands := further_of_calls member
    · have more : n ≠ 0 := by omega
      obtain ⟨m, rfl⟩ := Nat.exists_eq_succ_of_ne_zero more
      rw [within, ← eval_body, body_of_handedEnd]
      rfl
    · have rank := d.rank_le
      exact ih (by unfold Call.depth; omega)
    · have rank := hands.rank_lt
      have length := hands.suffix.length_le
      exact ih (by unfold Call.depth; omega)

end Parser

/-! ### Lexers -/

namespace Lexer

variable (lexer : Lexer)

/-- Reading a token or a bad name moves the lexer on. -/
theorem next_advances (more : lexer.cursor.skipLayout.rest ≠ []) :
    lexer.next.lexer.cursor.rest.length < lexer.cursor.rest.length ∧
      lexer.cursor.position < lexer.next.lexer.cursor.position := by
  rw [cursor_next]
  have between := Cursor.position_read more
  exact ⟨Cursor.length_rest_read_lt more, between.1.trans_le between.2⟩

theorem next_of_ends (ends : lexer.cursor.skipLayout.rest = []) :
    lexer.next.outcome = .ok (Parser.endToken lexer.cursor.finish.position) ∧
      lexer.next.lexer.cursor.rest = [] := by
  rw [outcome_next, cursor_next, Cursor.read_of_ends ends]
  exact ⟨rfl, Cursor.rest_finish _⟩

end Lexer

theorem Cursor.length_items_le (cursor : Cursor) : cursor.items.length ≤ cursor.rest.length := by
  fun_induction items cursor with
  | case1 => exact Nat.zero_le _
  | case2 cursor more shorter ih => exact Nat.lt_of_le_of_lt ih shorter

namespace Shared

variable {shared : Shared} {run : Nat}

theorem ended_after_of_ended (ended : (shared.runs run).ended) (n : Nat) :
    ((shared.after (List.replicate n (.step run))).runs run).ended := by
  induction n with
  | zero => exact ended
  | succ n ih =>
    rw [List.replicate_succ, after, perform_of_ended ended]
    exact ih

/-- A run over the tokens of a lexer is over after as many steps as there are items, and one. -/
theorem ended_after {n : Nat} (enough : shared.lexer.cursor.items.length < n) :
    ((shared.after (List.replicate n (.step run))).runs run).ended := by
  induction n generalizing shared with
  | zero => contradiction
  | succ n ih =>
    cases state : (shared.runs run).ended with
    | true => exact ended_after_of_ended state (n + 1)
    | false =>
      have active : ∀ other, Operation.step run = .step other →
          (shared.runs other).ended = false := by
        intro other same
        rw [← Operation.step.inj same, state]
      obtain ⟨behind, performed, came, runs⟩ := perform_of_active active
      have isOver := runs run
      rw [if_pos rfl] at isOver
      rw [List.replicate_succ, after, performed]
      by_cases ends : shared.lexer.cursor.skipLayout.rest = []
      · refine ended_after_of_ended ?_ n
        rw [isOver, Cursor.read_of_ends ends]
        rfl
      · rw [Cursor.items_eq_cons ends, List.length_cons] at enough
        refine ih ?_
        rw [came.cursor, if_neg nofun]
        exact Nat.lt_of_succ_lt_succ enough

end Shared

namespace Parser

/-- Reading and parsing what a lexer has left come to an end. -/
structure Terminates (lexer : Lexer) : Prop where
  advances : lexer.cursor.skipLayout.rest ≠ [] →
    lexer.next.lexer.cursor.rest.length < lexer.cursor.rest.length ∧
      lexer.cursor.position < lexer.next.lexer.cursor.position
  stays : lexer.cursor.skipLayout.rest = [] →
    lexer.next.outcome = .ok (endToken lexer.cursor.finish.position) ∧
      lexer.next.lexer.cursor.rest = []
  /-- A run over the tokens is over after one step more than there are characters, whatever else was
  done with the lexer before. -/
  tokens {shared : Shared} {run n : Nat} : shared.lexer = lexer → lexer.cursor.rest.length < n →
    ((shared.after (List.replicate n (.step run))).runs run).ended
  further {c d : Call} : Calls lexer.cursor.finish.position c d →
    Further lexer.cursor.finish.position c d
  /-- In particular a descent or a turn that leads to one of its kind again has read an item in
  between, unless that one fails at once. -/
  recurs {c d : Call} : Relation.TransGen (Calls lexer.cursor.finish.position) c d →
    c.rank ≤ d.rank → HandedEnd lexer.cursor.finish.position d ∨ Consumes c.unread d.unread
  failsAtOnce (power : Precedence) :
    body lexer.cursor.finish.position
      (.expression power (endToken lexer.cursor.finish.position) []) =
      .ret (.failed (.problem (.noOperand []) lexer.cursor.finish.position) [] List.suffix_rfl)
  /-- At the end of the source no loop goes on and nothing is descended into again. -/
  atEnd {c d : Call} : c.unread = [] → Calls lexer.cursor.finish.position c d →
    HandedEnd lexer.cursor.finish.position d ∨ Hands c d
  /-- Parsing the whole needs no more calls inside each other than these. -/
  returns {n : Nat} : 3 * lexer.cursor.rest.length + 2 ≤ n →
    within lexer.cursor.finish.position n (.turn lexer.cursor.items) =
      some (turns lexer.cursor.finish.position lexer.cursor.items)

theorem terminates (lexer : Lexer) : Terminates lexer where
  advances := lexer.next_advances
  stays := lexer.next_of_ends
  tokens := by
    rintro shared run n rfl enough
    exact Shared.ended_after (Nat.lt_of_le_of_lt (Cursor.length_items_le _) enough)
  further := further_of_calls
  recurs := by
    intro c d chain rank
    obtain handed | consumes | ⟨_, lower⟩ := further_of_chain chain
    · exact .inl handed
    · exact .inr consumes
    · exact absurd rank (Nat.not_le_of_lt lower)
  failsAtOnce := body_of_handedEnd
  atEnd := by
    intro c d used calls
    obtain handed | ⟨_, shorter⟩ | hands := further_of_calls calls
    · exact .inl handed
    · rw [used] at shorter
      contradiction
    · exact .inr hands
  returns := by
    intro n enough
    have length := lexer.cursor.length_items_le
    have deep : (Call.turn lexer.cursor.items).depth ≤ n := by
      simp only [Call.depth, Call.unread, Call.rank]
      omega
    exact within_eq_some deep

end Parser

end MonkeySyntax
