import MonkeySyntax.Proofs.Lexing.Places
import MonkeySyntax.Proofs.Trees.SourceTokens
import MonkeySyntax.Proofs.Trees.WellFormed

/-!
# The tokens that a derivation keeps

Of the tokens that a part reads, its tree keeps some, in their order (`Passes`): what is left out are
delimiters and the parentheses of a group. Each node keeps a token that fits it, and an expression
statement the one that it begins with (`Keeps`).
-/

namespace MonkeySyntax.Grammar

open Node

/-- The tokens stand in their order among the items that are read. -/
def Passes (tokens : List Token) (start rest : List Item) : Prop :=
  ∃ read, start = read ++ rest ∧ (tokens.map .token).Sublist read

namespace Passes

variable {tokens before behind : List Token} {start mid rest : List Item}

theorem nothing (suffix : rest <:+ start) : Passes [] start rest := by
  obtain ⟨read, rfl⟩ := suffix
  exact ⟨read, rfl, List.nil_sublist read⟩

theorem token {t : Token} : Passes [t] (.token t :: rest) rest :=
  ⟨[.token t], rfl, List.Sublist.refl _⟩

theorem append (first : Passes before start mid) (more : Passes behind mid rest) :
    Passes (before ++ behind) start rest := by
  obtain ⟨read, rfl, first⟩ := first
  obtain ⟨readBehind, rfl, more⟩ := more
  refine ⟨read ++ readBehind, (List.append_assoc ..).symm, ?_⟩
  rw [List.map_append]
  exact first.append more

theorem cons {t : Token} (more : Passes behind mid rest) :
    Passes (t :: behind) (.token t :: mid) rest :=
  token.append more

theorem skip {t : Token} (more : Passes tokens mid rest) : Passes tokens (.token t :: mid) rest :=
  (nothing (List.suffix_cons ..)).append more

theorem ends {t : Token} (first : Passes tokens start (.token t :: rest)) :
    Passes tokens start rest := by
  rw [← List.append_nil tokens]
  exact first.append (nothing (List.suffix_cons ..))

theorem sublist (passes : Passes tokens start rest) : (tokens.map .token).Sublist start := by
  obtain ⟨read, rfl, kept⟩ := passes
  exact kept.trans (List.sublist_append_left read rest)

end Passes

theorem sourceTokens_of_groups {first tree : Node} {links : List Link}
    (groups : Groups first links tree) : tree.sourceTokens =
      first.sourceTokens ++ links.flatMap fun link => link.1 :: link.2.sourceTokens := by
  induction groups with
  | operand => exact (List.append_nil _).symm
  | root _ _ _ _ ihLeft ihRight =>
    rw [sourceTokens, ihLeft, ihRight, List.flatMap_append, List.flatMap_cons, List.append_assoc]
    rfl

theorem Parameters.passes {start rest : List Item} {names : List Node} :
    Parameters start names rest → Passes (sourceTokensEach names) start rest
  | .none => .nothing List.suffix_rfl
  | .last _ => .token
  | .cons _ _ tail => .cons tail.passes.skip

section

variable {dialect : Dialect}

-- What a constructor reads besides its parts is kept by `cons`, or left out by `skip` and `ends`.
mutual

theorem Expression.passes {start rest : List Item} {tree : Node} :
    Expression dialect start tree rest → Passes tree.sourceTokens start rest
  | .chain first links groups => by
    rw [sourceTokens_of_groups groups]
    exact first.passes.append links.passes

theorem Links.passes {start rest : List Item} {links : List Link} :
    Links dialect start links rest →
      Passes (links.flatMap fun link => link.1 :: link.2.sourceTokens) start rest
  | .nil => .nothing List.suffix_rfl
  | .cons _ operand tail => by
    rw [List.flatMap_cons]
    exact .cons (operand.passes.append tail.passes)

theorem Operand.passes {start rest : List Item} {node : Node} :
    Operand dialect start node rest → Passes node.sourceTokens start rest
  | .unary _ inner => by
    rw [sourceTokens]
    exact .cons inner.passes
  | .applied inner => inner.passes

theorem Applied.passes {start rest : List Item} {node : Node} :
    Applied dialect start node rest → Passes node.sourceTokens start rest
  | .primary inner => inner.passes
  | .call callee _ values _ => by
    rw [sourceTokens]
    exact callee.passes.append (.cons values.passes.ends)

theorem Arguments.passes {start rest : List Item} {values : List Node} :
    Arguments dialect start values rest → Passes (sourceTokensEach values) start rest
  | .none => .nothing List.suffix_rfl
  | .last value => by
    rw [sourceTokensEach, sourceTokensEach, List.append_nil]
    exact value.passes
  | .cons value _ tail => by
    rw [sourceTokensEach]
    exact value.passes.append tail.passes.skip

theorem Primary.passes {start rest : List Item} {node : Node} :
    Primary dialect start node rest → Passes node.sourceTokens start rest
  | .identifier _ | .integer _ _ | .true _ | .false _ => by
    rw [sourceTokens]
    exact .token
  | .group _ inner _ => inner.passes.ends.skip
  | .conditional _ _ condition _ consequence => by
    rw [sourceTokens, sourceTokensIfAny, List.append_nil]
    exact .cons (condition.passes.ends.append consequence.passes).skip
  | .conditionalElse _ _ condition _ consequence _ alternative => by
    rw [sourceTokens, sourceTokensIfAny]
    have both := condition.passes.ends.append consequence.passes.ends
    exact .cons (both.append alternative.passes).skip
  | .function _ _ names _ body => by
    rw [sourceTokens]
    exact .cons (names.passes.ends.append body.passes).skip

theorem Block.passes {start rest : List Item} {node : Node} :
    Block dialect start node rest → Passes node.sourceTokens start rest
  | .braces _ body _ => by
    rw [sourceTokens]
    exact .cons body.passes.ends

theorem Statement.passes {closed : Bool} {start rest : List Item} {node : Node} :
    Statement dialect closed start node rest → Passes node.sourceTokens start rest
  | .bind _ _ _ value _ => by
    rw [sourceTokens, sourceTokens]
    exact .cons (.cons value.passes.ends.skip)
  | .give _ value _ => by
    rw [sourceTokens]
    exact .cons value.passes.ends
  | .closed value _ => by
    rw [sourceTokens]
    exact value.passes.ends
  | .opened value => by
    rw [sourceTokens]
    exact value.passes

theorem Statements.passes {start rest : List Item} {nodes : List Node} :
    Statements dialect start nodes rest → Passes (sourceTokensEach nodes) start rest
  | .nil => .nothing List.suffix_rfl
  | .cons first _ more => by
    rw [sourceTokensEach]
    exact first.passes.append more.passes

end

end

/-! ### Every node -/

theorem sourceTokens_ne_nil {node : Node} (isExpression : IsExpression node) :
    node.sourceTokens ≠ [] := by
  cases isExpression <;> simp [sourceTokens]

/-- A statement of the items that is an expression begins with a token, which is the first of the
expression or stands before all of them. -/
def BeginsStatement (items : List Item) (t : Token) (expression : Node) : Prop :=
  ∃ closed inner rest, .token t :: inner <:+ items ∧
    Statement .plain closed (.token t :: inner) (.expressionStatement t expression) rest ∧
    ∃ first more, expression.sourceTokens = first :: more ∧ t.position ≤ first.position

/-- What a node keeps of the items: a token that fits it, and for an expression statement the one
that it begins with. -/
structure Keeps (items : List Item) (node : Node) : Prop where
  token : ∃ t, node.token? = some t ∧ .token t ∈ items
  fits : node.FitsToken
  begins (t : Token) (expression : Node) : node = .expressionStatement t expression →
    BeginsStatement items t expression

theorem all_of_groups {property : Node → Prop} {first tree : Node} {links : List Link}
    (groups : Groups first links tree) (isFirst : All property first)
    (operands : ∀ link ∈ links, All property link.2)
    (root : ∀ link ∈ links, ∀ left right,
      property (.binary link.1 left link.1.literal right)) : All property tree := by
  induction groups with
  | operand => exact isFirst
  | @root _ _ operand _ before after op _ _ _ _ ihLeft ihRight =>
    have left := ihLeft isFirst
      (fun link member => operands link (List.mem_append_left _ member))
      (fun link member => root link (List.mem_append_left _ member))
    have right := ihRight (operands (op, operand) (by simp))
      (fun link member => operands link (by simp [member]))
      (fun link member => root link (by simp [member]))
    refine .node (root (op, operand) (by simp) _ _) ?_
    exact List.forall_mem_cons.mpr ⟨left, List.forall_mem_singleton.mpr right⟩

/-- Where a derivation starts within the items of a source. -/
structure Within (items start : List Item) : Prop where
  suffix : start <:+ items
  spelled : Every Spelled items
  rising : items.Pairwise fun a b => a.position < b.position

namespace Within

variable {items start rest : List Item} {t : Token}

theorem behind (within : Within items start) (spans : Spans start rest) : Within items rest :=
  { within with suffix := spans.suffix.trans within.suffix }

theorem member (within : Within items (.token t :: rest)) : .token t ∈ items :=
  within.suffix.subset List.mem_cons_self

theorem spelledFrom (within : Within items start) : Every Spelled start :=
  fun t member => within.spelled t (within.suffix.subset member)

theorem identifier (within : Within items (.token t :: rest)) (isName : t.kind = .ident) :
    All (Keeps items) (.identifier t t.literal) := by
  have name := (within.spelled t within.member).1 isName
  exact .node ⟨⟨t, rfl, within.member⟩, ⟨isName, rfl, name⟩, nofun⟩ nofun

theorem begins (within : Within items (.token t :: start)) {closed : Bool} {value : Node}
    (derived : Statement .plain closed (.token t :: start) (.expressionStatement t value) rest)
    (isExpression : IsExpression value) : BeginsStatement items t value := by
  obtain ⟨first, more, eq⟩ := List.exists_cons_of_ne_nil (sourceTokens_ne_nil isExpression)
  refine ⟨closed, start, rest, within.suffix, derived, first, more, eq, ?_⟩
  have kept := derived.passes.sublist
  rw [sourceTokens, eq] at kept
  rcases List.mem_cons.mp (kept.subset List.mem_cons_self) with same | later
  · cases same
    exact le_rfl
  · have rising := within.rising.sublist within.suffix.sublist
    exact (List.rel_of_pairwise_cons rising later).le

theorem expressionStatement (within : Within items (.token t :: start)) {closed : Bool}
    {value : Node}
    (derived : Statement .plain closed (.token t :: start) (.expressionStatement t value) rest)
    (isExpression : IsExpression value) (inner : All (Keeps items) value) :
    All (Keeps items) (.expressionStatement t value) := by
  refine .node ⟨⟨t, rfl, within.member⟩, trivial, ?_⟩ (List.forall_mem_singleton.mpr inner)
  rintro _ _ ⟨⟩
  exact within.begins derived isExpression

end Within

variable {items : List Item}

theorem Parameters.keeps {start rest : List Item} {names : List Node} :
    Parameters start names rest → Within items start → ∀ name ∈ names, All (Keeps items) name
  | .none, _ => by simp
  | .last isName, within => List.forall_mem_singleton.mpr (within.identifier isName)
  | .cons isName _ tail, within => by
    have others := tail.keeps (within.behind (.trans .token .token))
    exact List.forall_mem_cons.mpr ⟨within.identifier isName, others⟩

mutual

theorem Expression.keeps {start rest : List Item} {tree : Node} :
    Expression .plain start tree rest → Within items start → All (Keeps items) tree
  | .chain first links groups, within => by
    have each := links.keeps (within.behind first.spans)
    refine all_of_groups groups (first.keeps within) (fun link member => (each link member).2) ?_
    exact fun link member left right => (each link member).1 left right

theorem Links.keeps {start rest : List Item} {links : List Link} :
    Links .plain start links rest → Within items start → ∀ link ∈ links,
      (∀ left right, Keeps items (.binary link.1 left link.1.literal right)) ∧
        All (Keeps items) link.2
  | .nil, _ => by simp
  | .cons isBinary operand tail, within => by
    have spelling := (within.spelled _ within.member).2 (.inl isBinary)
    have behind := within.behind .token
    have others := tail.keeps (behind.behind operand.spans)
    refine List.forall_mem_cons.mpr ⟨⟨fun left right => ?_, operand.keeps behind⟩, others⟩
    exact ⟨⟨_, rfl, within.member⟩, ⟨isBinary, rfl, spelling⟩, nofun⟩

theorem Operand.keeps {start rest : List Item} {node : Node} :
    Operand .plain start node rest → Within items start → All (Keeps items) node
  | .unary isPrefix inner, within => by
    have spelling := (within.spelled _ within.member).2 (.inr isPrefix)
    have operand := inner.keeps (within.behind .token)
    refine .node ⟨⟨_, rfl, within.member⟩, ⟨isPrefix, rfl, spelling⟩, nofun⟩ ?_
    exact List.forall_mem_singleton.mpr operand
  | .applied inner, within => inner.keeps within

theorem Applied.keeps {start rest : List Item} {node : Node} :
    Applied .plain start node rest → Within items start → All (Keeps items) node
  | .primary inner, within => inner.keeps within
  | .call callee isOpen values _, within => by
    have behind := within.behind callee.spans
    have arguments := values.keeps (behind.behind .token)
    refine .node ⟨⟨_, rfl, behind.member⟩, isOpen, nofun⟩ ?_
    exact List.forall_mem_cons.mpr ⟨callee.keeps within, arguments⟩

theorem Arguments.keeps {start rest : List Item} {values : List Node} :
    Arguments .plain start values rest → Within items start → ∀ value ∈ values, All (Keeps items) value
  | .none, _ => by simp
  | .last value, within => List.forall_mem_singleton.mpr (value.keeps within)
  | .cons value _ tail, within => by
    have others := tail.keeps (within.behind (value.spans.trans .token))
    exact List.forall_mem_cons.mpr ⟨value.keeps within, others⟩

theorem Primary.keeps {start rest : List Item} {node : Node} :
    Primary .plain start node rest → Within items start → All (Keeps items) node
  | .identifier isName, within => within.identifier isName
  | .integer isInt small, within => by
    refine .node ⟨⟨_, rfl, within.member⟩, ⟨isInt, rfl, ?_, ?_⟩, nofun⟩ nofun
    · exact Int.natCast_nonneg _
    · exact Int.ofNat_le.mpr small
  | .true kind, within | .false kind, within =>
    .node ⟨⟨_, rfl, within.member⟩, kind, nofun⟩ nofun
  | .group _ inner _, within => inner.keeps (within.behind .token)
  | .conditional isIf _ condition _ consequence, within => by
    have inner := within.behind (.trans .token .token)
    have after := inner.behind (condition.spans.trans .token)
    refine .node ⟨⟨_, rfl, within.member⟩, isIf, nofun⟩ ?_
    exact List.forall_mem_cons.mpr ⟨condition.keeps inner,
      List.forall_mem_singleton.mpr (consequence.keeps after)⟩
  | .conditionalElse isIf _ condition _ consequence _ alternative, within => by
    have inner := within.behind (.trans .token .token)
    have after := inner.behind (condition.spans.trans .token)
    have other := after.behind (consequence.spans.trans .token)
    refine .node ⟨⟨_, rfl, within.member⟩, isIf, nofun⟩ ?_
    exact List.forall_mem_cons.mpr ⟨condition.keeps inner, List.forall_mem_cons.mpr
      ⟨consequence.keeps after, List.forall_mem_singleton.mpr (alternative.keeps other)⟩⟩
  | .function isFn _ names _ body, within => by
    have inner := within.behind (.trans .token .token)
    have after := inner.behind (names.spans.trans .token)
    refine .node ⟨⟨_, rfl, within.member⟩, isFn, nofun⟩ ?_
    exact List.forall_mem_append.mpr ⟨names.keeps inner,
      List.forall_mem_singleton.mpr (body.keeps after)⟩

theorem Block.keeps {start rest : List Item} {node : Node} :
    Block .plain start node rest → Within items start → All (Keeps items) node
  | .braces isOpen body _, within => by
    have statements := body.keeps (within.behind .token)
    exact .node ⟨⟨_, rfl, within.member⟩, isOpen, nofun⟩ statements

theorem Statement.keeps {closed : Bool} {start rest : List Item} {node : Node} :
    Statement .plain closed start node rest → Within items start → All (Keeps items) node
  | .bind isLet isName _ value _, within => by
    have name := (within.behind .token).identifier isName
    have inner := within.behind (.trans .token (.trans .token .token))
    refine .node ⟨⟨_, rfl, within.member⟩, isLet, nofun⟩ ?_
    exact List.forall_mem_cons.mpr ⟨name, List.forall_mem_singleton.mpr (value.keeps inner)⟩
  | .give isReturn value _, within => by
    have inner := value.keeps (within.behind .token)
    refine .node ⟨⟨_, rfl, within.member⟩, isReturn, nofun⟩ ?_
    exact List.forall_mem_singleton.mpr inner
  | .closed value ends, within => by
    have isExpression := isExpression_of_expression value within.spelledFrom
    exact within.expressionStatement (.closed value ends) isExpression (value.keeps within)
  | .opened value, within => by
    have isExpression := isExpression_of_expression value within.spelledFrom
    exact within.expressionStatement (.opened value) isExpression (value.keeps within)

theorem Statements.keeps {start rest : List Item} {nodes : List Node} :
    Statements .plain start nodes rest → Within items start → ∀ node ∈ nodes, All (Keeps items) node
  | .nil, _ => by simp
  | .cons first _ more, within => by
    have others := more.keeps (within.behind first.spans)
    exact List.forall_mem_cons.mpr ⟨first.keeps within, others⟩

end

end MonkeySyntax.Grammar
