import MonkeySyntax.Proofs.Grammar

/-!
# Greedy derivations

A statement without semicolon leaves open where it ends: `a (b)` and `a -b` are two statements, or
one. Two such statements join into one, so that whatever the grammar derives, it derives with
statements that go on as far as they can, from the same items but not with the same trees.
-/

namespace MonkeySyntax.Grammar

/-! ### Links and trees -/

theorem Groups.insert {first tree : Node} {links : List Link} (groups : Groups first links tree)
    (op : Token) (operand : Node) : ∃ tree, Groups first (links ++ [(op, operand)]) tree := by
  induction groups with
  | operand => exact ⟨_, .root .operand .operand (by simp) (by simp)⟩
  | @root first left right grown before after root groupsLeft groupsRight atLeast stronger _ ih =>
    -- A weaker operator becomes the root, and a stronger one goes into the tree on the right.
    by_cases weakest : op.kind.precedence.value ≤ root.kind.precedence.value
    · refine ⟨_, .root (.root groupsLeft groupsRight atLeast stronger) .operand ?_ (by simp)⟩
      intro link member
      rcases List.mem_append.mp member with member | member
      · exact Nat.le_trans weakest (atLeast link member)
      · rcases List.mem_cons.mp member with rfl | member
        · exact weakest
        · exact Nat.le_trans weakest (Nat.le_of_lt (stronger link member))
    · obtain ⟨tree, grown⟩ := ih
      rw [List.append_assoc, List.cons_append]
      refine ⟨_, .root groupsLeft grown atLeast ?_⟩
      intro link member
      rcases List.mem_append.mp member with member | member
      · exact stronger link member
      · rw [List.mem_singleton.mp member]
        exact Nat.lt_of_not_le weakest

theorem Groups.extend {first tree : Node} {before : List Link} (groups : Groups first before tree)
    (links : List Link) : ∃ tree, Groups first (before ++ links) tree := by
  induction links generalizing before tree with
  | nil => exact ⟨tree, by rwa [List.append_nil]⟩
  | cons link links ih =>
    obtain ⟨grown, groups⟩ := groups.insert link.1 link.2
    rw [List.append_cons]
    exact ih groups

theorem exists_groups (first : Node) (links : List Link) : ∃ tree, Groups first links tree :=
  Groups.operand.extend links

/-! ### The tokens of a derivation -/

/-- Nothing but tokens stands before the items that are left. -/
def Spans (start rest : List Item) : Prop :=
  ∃ tokens : List Token, start = tokens.map .token ++ rest

namespace Spans

variable {start mid rest : List Item}

theorem refl : Spans rest rest := ⟨[], rfl⟩

theorem token {t : Token} : Spans (.token t :: rest) rest := ⟨[t], rfl⟩

theorem trans (first : Spans start mid) (more : Spans mid rest) : Spans start rest := by
  obtain ⟨before, rfl⟩ := first
  obtain ⟨after, rfl⟩ := more
  exact ⟨before ++ after, by rw [List.map_append, List.append_assoc]⟩

theorem suffix (spans : Spans start rest) : rest <:+ start := by
  obtain ⟨tokens, rfl⟩ := spans
  exact List.suffix_append ..

end Spans

/-- All tokens among the items have a property. -/
def Every (property : Token → Prop) (items : List Item) : Prop :=
  ∀ t, .token t ∈ items → property t

theorem Every.behind {property : Token → Prop} {items rest : List Item}
    (every : Every property items) (spans : Spans items rest) : Every property rest :=
  fun t member => every t (spans.suffix.subset member)

/-- All numerals can be converted. -/
abbrev Short : List Item → Prop :=
  Every fun t => t.kind = .int → t.literal.length ≤ Decimal.maxDigits

theorem Parameters.spans {start rest : List Item} {names : List Node} :
    Parameters start names rest → Spans start rest
  | .none => .refl
  | .last _ => .token
  | .cons _ _ tail => .trans .token (.trans .token tail.spans)

section

variable {dialect : Dialect}

mutual

theorem Expression.spans {start rest : List Item} {tree : Node} :
    Expression dialect start tree rest → Spans start rest
  | .chain first links _ => first.spans.trans links.spans

theorem Links.spans {start rest : List Item} {links : List Link} :
    Links dialect start links rest → Spans start rest
  | .nil => .refl
  | .cons _ operand tail => .trans .token (operand.spans.trans tail.spans)

theorem Operand.spans {start rest : List Item} {node : Node} :
    Operand dialect start node rest → Spans start rest
  | .unary _ inner => .trans .token inner.spans
  | .applied inner => inner.spans

theorem Applied.spans {start rest : List Item} {node : Node} :
    Applied dialect start node rest → Spans start rest
  | .primary inner => inner.spans
  | .call callee _ values _ =>
    callee.spans.trans (.trans .token (values.spans.trans .token))

theorem Arguments.spans {start rest : List Item} {values : List Node} :
    Arguments dialect start values rest → Spans start rest
  | .none => .refl
  | .last value => value.spans
  | .cons value _ tail => value.spans.trans (.trans .token tail.spans)

theorem Primary.spans {start rest : List Item} {node : Node} :
    Primary dialect start node rest → Spans start rest
  | .identifier _ | .integer _ _ | .true _ | .false _ => .token
  | .group _ inner _ => .trans .token (inner.spans.trans .token)
  | .conditional _ _ condition _ consequence =>
    .trans .token (.trans .token (condition.spans.trans (.trans .token consequence.spans)))
  | .conditionalElse _ _ condition _ consequence _ alternative =>
    .trans .token (.trans .token (condition.spans.trans (.trans .token
      (consequence.spans.trans (.trans .token alternative.spans)))))
  | .function _ _ names _ body =>
    .trans .token (.trans .token (names.spans.trans (.trans .token body.spans)))

theorem Block.spans {start rest : List Item} {node : Node} :
    Block dialect start node rest → Spans start rest
  | .braces _ body _ => .trans .token (body.spans.trans .token)

theorem Statement.spans {closed : Bool} {start rest : List Item} {node : Node} :
    Statement dialect closed start node rest → Spans start rest
  | .bind _ _ _ value _ =>
    .trans .token (.trans .token (.trans .token (value.spans.trans .token)))
  | .give _ value _ => .trans .token (value.spans.trans .token)
  | .closed value _ => value.spans.trans .token
  | .opened value => value.spans

theorem Statements.spans {start rest : List Item} {nodes : List Node} :
    Statements dialect start nodes rest → Spans start rest
  | .nil => .refl
  | .cons first _ more => first.spans.trans more.spans

end

/-! ### Joining statements -/

/-- A group behind what may be called is its argument. -/
theorem Applied.join {opens : Token} {start mid after : List Item} {callee node : Node}
    (before : Applied dialect start callee (.token opens :: mid)) (isOpen : opens.kind = .lparen) :
    Applied dialect (.token opens :: mid) node after → ∃ node, Applied dialect start node after
  | .primary (.group _ inner closes) => ⟨_, .call before isOpen (.last inner) closes⟩
  | .primary (.identifier kind) | .primary (.integer kind _) | .primary (.true kind)
  | .primary (.false kind) | .primary (.conditional kind ..) | .primary (.conditionalElse kind ..)
  | .primary (.function kind ..) => by simp [isOpen] at kind
  | .call callee isOpenBehind values closes => by
    obtain ⟨joined, applied⟩ := before.join isOpen callee
    exact ⟨_, .call applied isOpenBehind values closes⟩

theorem Operand.join {opens : Token} {start mid after : List Item} {operand node : Node}
    (isOpen : opens.kind = .lparen) (behind : Applied dialect (.token opens :: mid) node after) :
    Operand dialect start operand (.token opens :: mid) → ∃ node, Operand dialect start node after
  | .unary isPrefix inner => by
    obtain ⟨joined, inner⟩ := inner.join isOpen behind
    exact ⟨_, .unary isPrefix inner⟩
  | .applied before => by
    obtain ⟨joined, applied⟩ := before.join isOpen behind
    exact ⟨_, .applied applied⟩

/-- The last operand of a chain is the one that a group behind it is joined to. -/
theorem Links.join {opens : Token} {start inner mid after : List Item} {first node : Node}
    {links : List Link} (isOpen : opens.kind = .lparen)
    (behind : Applied dialect (.token opens :: mid) node after)
    (before : Operand dialect start first inner)
    (linked : Links dialect inner links (.token opens :: mid)) :
    ∃ first mid links, Operand dialect start first mid ∧ Links dialect mid links after := by
  cases linked with
  | nil =>
    obtain ⟨joined, operand⟩ := before.join isOpen behind
    exact ⟨joined, after, [], operand, .nil⟩
  | cons binary operand tail =>
    obtain ⟨joined, mid, links, operand, tail⟩ := Links.join isOpen behind operand tail
    exact ⟨first, _, _, before, .cons binary operand tail⟩

/-- An expression goes on with one that follows it, if that begins with an operator or a group. -/
theorem Expression.join {start mid after : List Item} {tree other : Node}
    (before : Expression dialect start tree mid) (behind : Expression dialect mid other after)
    (goesOn : ¬ Next (fun kind => kind.precedence = .lowest) mid) :
    ∃ tree, Expression dialect start tree after := by
  obtain ⟨first, links, _⟩ := before
  obtain ⟨operand, linksBehind, _⟩ := behind
  cases operand with
  | @unary op inner _ right isPrefix right =>
    have binary : op.kind.isBinaryOperator := by
      revert goesOn isPrefix
      rw [next_token]
      cases op.kind <;> decide
    obtain ⟨tree, groups⟩ := exists_groups _ _
    exact ⟨tree, .chain first (links.append (.cons binary right linksBehind)) groups⟩
  | applied applied =>
    match mid, applied.head, goesOn with
    | .token opens :: mid, head, goesOn =>
      have isOpen : opens.kind = .lparen := by
        revert goesOn head
        rw [next_token, next_token]
        cases opens.kind <;> decide
      obtain ⟨joined, last, links, operand, linked⟩ := links.join isOpen applied first
      obtain ⟨tree, groups⟩ := exists_groups joined _
      exact ⟨tree, .chain operand (linked.append linksBehind) groups⟩

end

/-- A greedy expression before greedy statements is a statement, or goes on with the first of
them. -/
theorem exists_statements {t : Token} {start mid rest : List Item} {value : Node}
    {nodes : List Node} (first : Expression .greedy (.token t :: start) value mid)
    (more : Statements .greedy mid nodes rest) (ends : rest = [] ∨ Next (· = .rbrace) rest) :
    ∃ nodes, Statements .greedy (.token t :: start) nodes rest := by
  by_cases stops : Next (fun kind => kind.precedence = .lowest) mid
  · exact ⟨_, .cons (.opened first) (fun _ => stops) more⟩
  · cases more with
    | nil =>
      refine absurd ?_ stops
      rcases ends with rfl | closes
      · rfl
      · exact closes.imp fun kind closes => by rw [closes]; rfl
    | cons statement follows tail =>
      cases statement with
      | bind isLet => exact absurd (by rw [next_token, isLet]; rfl) stops
      | give isReturn => exact absurd (by rw [next_token, isReturn]; rfl) stops
      | closed value semicolon =>
        obtain ⟨tree, joined⟩ := first.join value stops
        exact ⟨_, .cons (.closed joined semicolon) follows tail⟩
      | opened value =>
        obtain ⟨tree, joined⟩ := first.join value stops
        exact ⟨_, .cons (.opened joined) follows tail⟩

mutual

theorem greedy_of_expression {start rest : List Item} {tree : Node} :
    Expression .plain start tree rest → Short start → ∃ tree, Expression .greedy start tree rest
  | .chain first links _, short => by
    obtain ⟨operand, isOperand⟩ := greedy_of_operand first short
    obtain ⟨others, linked⟩ := greedy_of_links links (short.behind first.spans)
    obtain ⟨tree, groups⟩ := exists_groups operand others
    exact ⟨tree, .chain isOperand linked groups⟩

theorem greedy_of_links {start rest : List Item} {links : List Link} :
    Links .plain start links rest → Short start → ∃ links, Links .greedy start links rest
  | .nil, _ => ⟨[], .nil⟩
  | .cons binary operand tail, short => by
    have shortInner := short.behind .token
    obtain ⟨right, isOperand⟩ := greedy_of_operand operand shortInner
    obtain ⟨others, linked⟩ := greedy_of_links tail (shortInner.behind operand.spans)
    exact ⟨_, .cons binary isOperand linked⟩

theorem greedy_of_operand {start rest : List Item} {node : Node} :
    Operand .plain start node rest → Short start → ∃ node, Operand .greedy start node rest
  | .unary isPrefix inner, short => by
    obtain ⟨operand, isOperand⟩ := greedy_of_operand inner (short.behind .token)
    exact ⟨_, .unary isPrefix isOperand⟩
  | .applied inner, short => by
    obtain ⟨operand, applied⟩ := greedy_of_applied inner short
    exact ⟨operand, .applied applied⟩

theorem greedy_of_applied {start rest : List Item} {node : Node} :
    Applied .plain start node rest → Short start → ∃ node, Applied .greedy start node rest
  | .primary inner, short => by
    obtain ⟨operand, primary⟩ := greedy_of_primary inner short
    exact ⟨operand, .primary primary⟩
  | .call callee opens values closes, short => by
    obtain ⟨function, applied⟩ := greedy_of_applied callee short
    have shortValues := short.behind (callee.spans.trans .token)
    obtain ⟨others, listed⟩ := greedy_of_arguments values shortValues
    exact ⟨_, .call applied opens listed closes⟩

theorem greedy_of_arguments {start rest : List Item} {values : List Node} :
    Arguments .plain start values rest → Short start → ∃ values, Arguments .greedy start values rest
  | .none, _ => ⟨[], .none⟩
  | .last value, short => by
    obtain ⟨tree, expression⟩ := greedy_of_expression value short
    exact ⟨_, .last expression⟩
  | .cons value comma tail, short => by
    obtain ⟨tree, expression⟩ := greedy_of_expression value short
    have shortTail := short.behind (value.spans.trans .token)
    obtain ⟨others, listed⟩ := greedy_of_arguments tail shortTail
    exact ⟨_, .cons expression comma listed⟩

theorem greedy_of_primary {start rest : List Item} {node : Node} :
    Primary .plain start node rest → Short start → ∃ node, Primary .greedy start node rest
  | .identifier kind, _ => ⟨_, .identifier kind⟩
  | .integer kind small, short => ⟨_, .integer kind ⟨short _ List.mem_cons_self kind, small⟩⟩
  | .true kind, _ => ⟨_, .true kind⟩
  | .false kind, _ => ⟨_, .false kind⟩
  | .group opens inner closes, short => by
    obtain ⟨tree, expression⟩ := greedy_of_expression inner (short.behind .token)
    exact ⟨tree, .group opens expression closes⟩
  | .conditional kind opens condition closes consequence, short => by
    have shortInner := short.behind (.trans .token .token)
    obtain ⟨tree, expression⟩ := greedy_of_expression condition shortInner
    have shortAfter := shortInner.behind (condition.spans.trans .token)
    obtain ⟨taken, block⟩ := greedy_of_block consequence shortAfter
    exact ⟨_, .conditional kind opens expression closes block⟩
  | .conditionalElse kind opens condition closes consequence isElse alternative, short => by
    have shortInner := short.behind (.trans .token .token)
    obtain ⟨tree, expression⟩ := greedy_of_expression condition shortInner
    have shortAfter := shortInner.behind (condition.spans.trans .token)
    obtain ⟨taken, block⟩ := greedy_of_block consequence shortAfter
    have shortOther := shortAfter.behind (consequence.spans.trans .token)
    obtain ⟨other, otherBlock⟩ := greedy_of_block alternative shortOther
    exact ⟨_, .conditionalElse kind opens expression closes block isElse otherBlock⟩
  | .function kind opens names closes body, short => by
    have shortInner := short.behind (.trans .token .token)
    have shortAfter := shortInner.behind (names.spans.trans .token)
    obtain ⟨inner, block⟩ := greedy_of_block body shortAfter
    exact ⟨_, .function kind opens names closes block⟩

theorem greedy_of_block {start rest : List Item} {node : Node} :
    Block .plain start node rest → Short start → ∃ node, Block .greedy start node rest
  | .braces opens body closes, short => by
    have shortInner := short.behind .token
    obtain ⟨nodes, statements⟩ := greedy_of_statements body shortInner (.inr closes)
    exact ⟨_, .braces opens statements closes⟩

theorem greedy_of_statements {start rest : List Item} {nodes : List Node} :
    Statements .plain start nodes rest → Short start → rest = [] ∨ Next (· = .rbrace) rest →
      ∃ nodes, Statements .greedy start nodes rest
  | .nil, _, _ => ⟨[], .nil⟩
  | .cons first _ tail, short, ends => by
    obtain ⟨others, more⟩ := greedy_of_statements tail (short.behind first.spans) ends
    match first with
    | .bind isLet name assign value semicolon =>
      have shortInner := short.behind (.trans .token (.trans .token .token))
      obtain ⟨tree, expression⟩ := greedy_of_expression value shortInner
      exact ⟨_, .cons (.bind isLet name assign expression semicolon) (by simp) more⟩
    | .give isReturn value semicolon =>
      have shortInner := short.behind .token
      obtain ⟨tree, expression⟩ := greedy_of_expression value shortInner
      exact ⟨_, .cons (.give isReturn expression semicolon) (by simp) more⟩
    | .closed value semicolon =>
      obtain ⟨tree, expression⟩ := greedy_of_expression value short
      exact ⟨_, .cons (.closed expression semicolon) (by simp) more⟩
    | .opened value =>
      -- The statements behind this one are greedy already, so at most the first of them joins it.
      obtain ⟨tree, expression⟩ := greedy_of_expression value short
      exact exists_statements expression more ends

end

/-- A program with short numerals has a greedy derivation. -/
theorem exists_greedy_program {items : List Item} {nodes : List Node}
    (program : Program .plain items nodes) (short : Short items) :
    ∃ nodes, Program .greedy items nodes :=
  greedy_of_statements program short (.inl rfl)

end MonkeySyntax.Grammar
