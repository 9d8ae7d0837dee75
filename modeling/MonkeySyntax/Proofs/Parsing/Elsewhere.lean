import MonkeySyntax.Proofs.Parsing.Kept
import MonkeySyntax.Proofs.Trees.Moved

/-!
# Parsing the same items elsewhere

The parser looks at no place, and not behind the items that it leaves. So where the same items stand
at other places, with more behind them, the reply is the same and only its places differ, unless the
parser came to the end (`carries_statement`). What is kept of the turns differs in places alone.
-/

namespace MonkeySyntax

def Fault.moved (move : Position → Position) : Fault → Fault
  | .problem cause position => .problem cause (move position)
  | .tooLong numeral => .tooLong numeral

def Error.moved (move : Position → Position) (e : Error) : Error :=
  { e with position := move e.position }

namespace Parser

/-- Another source, in which items stand at other places and with more behind them. -/
structure Elsewhere where
  move : Position → Position
  more : List Item
  finish : Position

namespace Elsewhere

variable (there : Elsewhere)

def items (items : List Item) : List Item := items.map (Item.moved there.move) ++ there.more

/-- Nothing more stands behind the items, and the end of the source is moved as they are. -/
def Ends (finish : Position) : Prop := there.more = [] ∧ there.finish = there.move finish

end Elsewhere

end Parser

namespace Reply

open MonkeySyntax.Parser

variable {α β : Type} {bound wider : List Item} {there : Elsewhere} {finish : Position}

def left : Reply α bound → List Item
  | done _ rest _ => rest
  | failed _ rest _ => rest

/-- A reply comes again elsewhere, with its value or its fault carried there. -/
def Again (there : Elsewhere) (carry : α → α) : Reply α bound → Reply α wider → Prop
  | done value rest _, done other left _ => other = carry value ∧ left = there.items rest
  | failed fault rest _, failed other left _ =>
    other = fault.moved there.move ∧ left = there.items rest
  | _, _ => False

/-- A reply comes again elsewhere, unless the parser came to the end here and not there. -/
def Carries (there : Elsewhere) (finish : Position) (carry : α → α) (here : Reply α bound)
    (other : Reply α wider) : Prop :=
  there.Ends finish ∨ here.left ≠ [] → Again there carry here other

variable {carry : α → α}

theorem carries_done {value other : α} {rest left : List Item} {suffix : rest <:+ bound}
    {suffixThere : left <:+ wider} (carried : other = carry value) (same : left = there.items rest) :
    Carries there finish carry (done value rest suffix) (done other left suffixThere) :=
  fun _ => ⟨carried, same⟩

theorem carries_failed {fault other : Fault} {rest left : List Item} {suffix : rest <:+ bound}
    {suffixThere : left <:+ wider} (carried : other = fault.moved there.move)
    (same : left = there.items rest) :
    Carries there finish carry (failed fault rest suffix) (failed other left suffixThere) :=
  fun _ => ⟨carried, same⟩

/-- At the end of the items, only a source that ends there too matters. -/
theorem carries_of_ends {here : Reply α bound} {other : Reply α wider} (used : here.left = [])
    (again : there.Ends finish → Again there carry here other) :
    Carries there finish carry here other :=
  fun reached => again (reached.resolve_right fun more => more used)

theorem carries_widen {narrow narrowThere : List Item} {h : narrow <:+ bound}
    {hThere : narrowThere <:+ wider} {here : Reply α narrow} {other : Reply α narrowThere} :
    Carries there finish carry (here.widen h) (other.widen hThere) ↔
      Carries there finish carry here other := by
  cases here <;> cases other <;> rfl

theorem carries_ofTail {here : Reply α bound.tail} {other : Reply α wider.tail} :
    Carries there finish carry here.ofTail other.ofTail ↔ Carries there finish carry here other :=
  carries_widen

theorem Again.done {value : α} {rest : List Item} {suffix : rest <:+ bound} {other : Reply α wider}
    (again : Again there carry (done value rest suffix) other) :
    ∃ suffixThere, other = .done (carry value) (there.items rest) suffixThere := by
  cases other with
  | failed => exact again.elim
  | done =>
    obtain ⟨rfl, rfl⟩ := again
    exact ⟨_, rfl⟩

theorem Again.failed {fault : Fault} {rest : List Item} {suffix : rest <:+ bound}
    {other : Reply α wider} (again : Again there carry (failed fault rest suffix) other) :
    ∃ suffixThere, other = .failed (fault.moved there.move) (there.items rest) suffixThere := by
  cases other with
  | done => exact again.elim
  | failed =>
    obtain ⟨rfl, rfl⟩ := again
    exact ⟨_, rfl⟩

theorem left_suffix (reply : Reply α bound) : reply.left <:+ bound := by
  cases reply with
  | done _ _ suffix | failed _ _ suffix => exact suffix

theorem left_widen {h : bound <:+ wider} (reply : Reply α bound) :
    (reply.widen h).left = reply.left := by
  cases reply <;> rfl

/-- What is left behind two parts is left behind the first of them. -/
theorem Carries.andThen {carryNext : β → β} {here : Reply α bound} {other : Reply α wider}
    {next : (value : α) → (rest : List Item) → rest <:+ bound → Reply β rest}
    {nextThere : (value : α) → (rest : List Item) → rest <:+ wider → Reply β rest}
    (first : Carries there finish carry here other)
    (behind : ∀ value rest suffix suffixThere, Carries there finish carryNext
      (next value rest suffix) (nextThere (carry value) (there.items rest) suffixThere)) :
    Carries there finish carryNext (here.andThen next) (other.andThen nextThere) := by
  intro reached
  cases here with
  | failed fault rest suffix =>
    obtain ⟨_, rfl⟩ := (first reached).failed
    exact ⟨rfl, rfl⟩
  | done value rest suffix =>
    have notEnd : there.Ends finish ∨ rest ≠ [] := by
      refine reached.imp_right fun more used => more ?_
      subst used
      rw [andThen_done, left_widen]
      exact List.suffix_nil.mp (next value [] suffix).left_suffix
    obtain ⟨suffixThere, rfl⟩ := (first notEnd).done
    have second : Carries there finish carryNext ((next value rest suffix).widen suffix)
        ((nextThere (carry value) (there.items rest) suffixThere).widen suffixThere) :=
      carries_widen.mpr (behind value rest suffix suffixThere)
    exact second reached

theorem Carries.yields {here : Reply α bound} {other : Reply α wider} {value : α} {rest : List Item}
    (carries : Carries there finish carry here other) (reached : there.Ends finish ∨ rest ≠ [])
    (yields : here.Yields value rest) : other.Yields (carry value) (there.items rest) := by
  obtain ⟨suffix, rfl⟩ := yields
  exact (carries reached).done

end Reply

namespace Parser

open Reply

variable {there : Elsewhere} {finish : Position}

namespace Elsewhere

def token (there : Elsewhere) (t : Token) : Token := t.moved there.move

def node (there : Elsewhere) (node : Node) : Node := node.moved there.move

def nodes (there : Elsewhere) (nodes : List Node) : List Node := Node.movedEach there.move nodes

theorem Ends.items_nil (ends : there.Ends finish) : there.items [] = [] := by
  rw [items, ends.1]
  rfl

end Elsewhere

theorem carries_refuse {α : Type} {carry : α → α} {wanted : Kind} (items : List Item) :
    Carries there finish carry (refuse finish wanted items)
      (refuse there.finish wanted (there.items items)) := by
  cases items with
  | nil =>
    refine carries_of_ends rfl fun ends => ?_
    rw [ends.items_nil]
    exact ⟨by rw [ends.2]; rfl, ends.items_nil.symm⟩
  | cons item rest =>
    cases item with
    | badName => exact carries_failed rfl rfl
    | token => exact carries_failed rfl rfl

theorem carries_expect {kind : Kind} (items : List Item) :
    Carries there finish there.token (expect finish kind items)
      (expect there.finish kind (there.items items)) := by
  cases items with
  | nil =>
    refine carries_of_ends rfl fun ends => ?_
    have refused : Carries there finish there.token (refuse finish kind [])
        (refuse there.finish kind (there.items [])) := carries_refuse []
    have again := refused (.inl ends)
    rw [ends.items_nil] at again ⊢
    exact again
  | cons item rest =>
    cases item with
    | badName => exact carries_failed rfl rfl
    | token t =>
      show Carries there finish there.token (expect finish kind (.token t :: rest))
        (expect there.finish kind (.token (there.token t) :: there.items rest))
      rw [expect, expect]
      by_cases isWanted : t.kind = kind
      · rw [if_pos isWanted, if_pos (show (there.token t).kind = kind from isWanted)]
        exact carries_done rfl rfl
      · rw [if_neg isWanted, if_neg (show ¬(there.token t).kind = kind from isWanted)]
        exact carries_refuse (.token t :: rest)

theorem carries_accept {kind : Kind} (items : List Item) :
    Carries there finish id (accept kind items) (accept kind (there.items items)) := by
  cases items with
  | nil =>
    refine carries_of_ends rfl fun ends => ?_
    rw [ends.items_nil]
    exact ⟨rfl, ends.items_nil.symm⟩
  | cons item rest =>
    cases item with
    | badName => exact carries_failed rfl rfl
    | token t =>
      show Carries there finish id (accept kind (.token t :: rest))
        (accept kind (.token (there.token t) :: there.items rest))
      rw [accept, accept]
      by_cases isWanted : t.kind = kind
      · rw [if_pos isWanted, if_pos (show (there.token t).kind = kind from isWanted)]
        exact carries_done rfl rfl
      · rw [if_neg isWanted, if_neg (show ¬(there.token t).kind = kind from isWanted)]
        exact carries_done rfl rfl

/-- What follows depends on whether the token was read, here and there. -/
theorem carries_ifAccepted {α : Type} {carry : α → α} {kind : Kind} {items : List Item}
    {present absent : (rest : List Item) → rest <:+ items → Reply α rest}
    {presentThere absentThere : (rest : List Item) → rest <:+ there.items items → Reply α rest}
    (whenPresent : ∀ rest suffix suffixThere, Carries there finish carry
      (present rest suffix) (presentThere (there.items rest) suffixThere))
    (whenAbsent : ∀ rest suffix suffixThere, Carries there finish carry
      (absent rest suffix) (absentThere (there.items rest) suffixThere)) :
    Carries there finish carry
      ((accept kind items).andThen fun more rest suffix =>
        if more then present rest suffix else absent rest suffix)
      ((accept kind (there.items items)).andThen fun more rest suffix =>
        if more then presentThere rest suffix else absentThere rest suffix) := by
  refine (carries_accept items).andThen fun more rest suffix suffixThere => ?_
  cases more with
  | true => exact whenPresent rest suffix suffixThere
  | false => exact whenAbsent rest suffix suffixThere

theorem carries_integer (t : Token) (rest : List Item) :
    Carries there finish there.node (integer t rest)
      (integer (there.token t) (there.items rest)) := by
  have literal : (there.token t).literal = t.literal := rfl
  rw [integer, integer, literal]
  by_cases long : t.literal.length > Decimal.maxDigits
  · rw [if_pos long, if_pos long]
    exact carries_failed rfl rfl
  · rw [if_neg long, if_neg long]
    by_cases great : Decimal.value t.literal > maxInteger
    · rw [if_pos great, if_pos great]
      exact carries_failed rfl rfl
    · rw [if_neg great, if_neg great]
      exact carries_done rfl rfl

theorem carries_parameters (items : List Item) :
    Carries there finish there.nodes (parameters finish items)
      (parameters there.finish (there.items items)) := by
  cases items with
  | nil =>
    have refused : Carries there finish there.nodes (refuse finish .ident [])
        (refuse there.finish .ident (there.items [])) := carries_refuse []
    refine carries_of_ends ?_ fun ends => ?_
    · rw [parameters]
      · rfl
      · simp
    · have again := refused (.inl ends)
      rw [ends.items_nil] at again ⊢
      rw [parameters, parameters]
      · exact again
      · simp
      · simp
  | cons item rest =>
    cases item with
    | badName literal position =>
      show Carries there finish there.nodes (parameters finish (.badName literal position :: rest))
        (parameters there.finish (.badName literal (there.move position) :: there.items rest))
      rw [parameters, parameters]
      · exact carries_refuse (.badName literal position :: rest)
      · simp
      · simp
    | token t =>
      show Carries there finish there.nodes (parameters finish (.token t :: rest))
        (parameters there.finish (.token (there.token t) :: there.items rest))
      have kind : (there.token t).kind = t.kind := rfl
      rw [parameters, parameters, kind]
      by_cases closes : t.kind = .rparen
      · rw [if_pos closes, if_pos closes]
        exact carries_done rfl rfl
      · rw [if_neg closes, if_neg closes]
        by_cases name : t.kind = .ident
        · rw [if_pos name, if_pos name, carries_widen]
          refine carries_ifAccepted (fun left _ _ => ?_) fun left _ _ => carries_done rfl rfl
          exact (carries_parameters left).andThen fun names _ _ _ => carries_done rfl rfl
        · rw [if_neg name, if_neg name]
          exact carries_refuse (.token t :: rest)
termination_by items.length
decreasing_by grind [List.IsSuffix.length_le]

-- The measures are those of the parser, whose calls these lemmas follow one by one.
mutual

theorem carries_expression (power : Precedence) (items : List Item) :
    Carries there finish there.node (expression finish power items)
      (expression there.finish power (there.items items)) := by
  cases items with
  | nil =>
    rw [expression]
    refine carries_of_ends rfl fun ends => ?_
    rw [ends.items_nil, expression]
    exact ⟨by rw [ends.2]; rfl, ends.items_nil.symm⟩
  | cons item rest =>
    cases item with
    | badName literal position =>
      show Carries there finish there.node
        (expression finish power (.badName literal position :: rest))
        (expression there.finish power (.badName literal (there.move position) :: there.items rest))
      rw [expression, expression]
      exact carries_failed rfl rfl
    | token t =>
      show Carries there finish there.node (expression finish power (.token t :: rest))
        (expression there.finish power (.token (there.token t) :: there.items rest))
      rw [expression, expression]
      exact (carries_operand t rest).andThen fun left items _ _ => carries_operators power left items
termination_by 5 * items.length
decreasing_by all_goals grind [List.IsSuffix.length_le]

theorem carries_operand (t : Token) (items : List Item) :
    Carries there finish there.node (operand finish t items)
      (operand there.finish (there.token t) (there.items items)) := by
  have kind : (there.token t).kind = t.kind := rfl
  by_cases starts : t.kind.startsOperand
  · rcases Kind.startsOperand_cases starts with
      isPrefix | isName | isInt | isTrue | isFalse | isOpen | isIf | isFn
    · rw [operand_unary isPrefix, operand_unary (t := there.token t) isPrefix]
      refine (carries_ofTail.mpr (carries_expression .unary items)).andThen fun _ _ _ _ => ?_
      exact carries_done rfl rfl
    · rw [operand, operand]
      simp only [kind, isName]
      exact carries_done rfl rfl
    · rw [operand, operand]
      simp only [kind, isInt]
      exact carries_integer t items
    · rw [operand, operand]
      simp only [kind, isTrue]
      exact carries_done rfl rfl
    · rw [operand, operand]
      simp only [kind, isFalse]
      exact carries_done rfl rfl
    · rw [operand, operand]
      simp only [kind, isOpen]
      refine (carries_ofTail.mpr (carries_expression .lowest items)).andThen fun _ items _ _ => ?_
      exact (carries_expect items).andThen fun _ _ _ _ => carries_done rfl rfl
    · rw [operand, operand]
      simp only [kind, isIf]
      refine (carries_expect items).andThen fun _ items _ _ => ?_
      refine (carries_ofTail.mpr (carries_expression .lowest items)).andThen fun _ items _ _ => ?_
      refine (carries_expect items).andThen fun _ items _ _ => ?_
      refine (carries_block items).andThen fun _ items _ _ => ?_
      refine carries_ifAccepted (fun items _ _ => ?_) fun _ _ _ => carries_done rfl rfl
      exact (carries_block items).andThen fun _ _ _ _ => carries_done rfl rfl
    · rw [operand, operand]
      simp only [kind, isFn]
      refine (carries_expect items).andThen fun _ items _ _ => ?_
      refine (carries_parameters items).andThen fun _ items _ _ => ?_
      refine (carries_expect items).andThen fun _ items _ _ => ?_
      exact (carries_block items).andThen fun _ _ _ _ => carries_done rfl rfl
  · have refused := Bool.eq_false_iff.mpr starts
    rw [operand_of_not_startsOperand refused,
      operand_of_not_startsOperand (t := there.token t) refused, kind]
    by_cases illegal : t.kind = .illegal
    · rw [if_pos illegal, if_pos illegal]
      exact carries_failed rfl rfl
    · rw [if_neg illegal, if_neg illegal]
      exact carries_failed rfl rfl
termination_by 5 * items.length + 4
decreasing_by all_goals grind [List.IsSuffix.length_le]

theorem carries_operators (power : Precedence) (left : Node) (items : List Item) :
    Carries there finish there.node (operators finish power left items)
      (operators there.finish power (there.node left) (there.items items)) := by
  cases items with
  | nil =>
    rw [operators]
    refine carries_of_ends rfl fun ends => ?_
    rw [ends.items_nil, operators]
    exact ⟨rfl, ends.items_nil.symm⟩
  | cons item rest =>
    cases item with
    | badName literal position =>
      show Carries there finish there.node
        (operators finish power left (.badName literal position :: rest))
        (operators there.finish power (there.node left)
          (.badName literal (there.move position) :: there.items rest))
      rw [operators, operators]
      exact carries_failed rfl rfl
    | token t =>
      show Carries there finish there.node (operators finish power left (.token t :: rest))
        (operators there.finish power (there.node left)
          (.token (there.token t) :: there.items rest))
      have kind : (there.token t).kind = t.kind := rfl
      rw [operators, operators, kind]
      by_cases weaker : power.weaker t.kind.precedence
      · rw [if_pos weaker, if_pos weaker, carries_widen]
        by_cases call : t.kind = .lparen
        · rw [if_pos call, if_pos call]
          refine (carries_arguments rest).andThen fun values items _ _ => ?_
          refine (carries_expect items).andThen fun _ items _ _ => ?_
          exact carries_operators power (.call t left values) items
        · rw [if_neg call, if_neg call, if_pos (Kind.isBinaryOperator_of_weaker weaker call),
            if_pos (Kind.isBinaryOperator_of_weaker weaker call)]
          refine (carries_ofTail.mpr (carries_expression t.kind.precedence rest)).andThen ?_
          intro right items _ _
          exact carries_operators power (.binary t left t.literal right) items
      · rw [if_neg weaker, if_neg weaker]
        exact carries_done rfl rfl
termination_by 5 * items.length
decreasing_by all_goals grind [List.IsSuffix.length_le]

theorem carries_arguments (items : List Item) :
    Carries there finish there.nodes (arguments finish items)
      (arguments there.finish (there.items items)) := by
  cases items with
  | nil =>
    have value : Carries there finish there.nodes
        ((expression finish .lowest []).andThen fun first items _ =>
          .done [first] items List.suffix_rfl)
        ((expression there.finish .lowest (there.items [])).andThen fun first items _ =>
          .done [first] items List.suffix_rfl) :=
      (carries_expression .lowest []).andThen fun _ _ _ _ => carries_done rfl rfl
    refine carries_of_ends ?_ fun ends => ?_
    · rw [arguments, expression]
      rfl
    · have again := value (.inl ends)
      rw [ends.items_nil] at again ⊢
      rw [arguments, arguments]
      exact again
  | cons item rest =>
    cases item with
    | badName literal position =>
      show Carries there finish there.nodes (arguments finish (.badName literal position :: rest))
        (arguments there.finish (.badName literal (there.move position) :: there.items rest))
      rw [arguments, arguments]
      exact carries_failed rfl rfl
    | token t =>
      show Carries there finish there.nodes (arguments finish (.token t :: rest))
        (arguments there.finish (.token (there.token t) :: there.items rest))
      have kind : (there.token t).kind = t.kind := rfl
      rw [arguments, arguments, kind]
      by_cases closes : t.kind = .rparen
      · rw [if_pos closes, if_pos closes]
        exact carries_done rfl rfl
      · rw [if_neg closes, if_neg closes, carries_ofTail]
        refine (carries_expression .lowest (.token t :: rest)).andThen fun _ items _ _ => ?_
        refine carries_ifAccepted (fun items _ _ => ?_) fun _ _ _ => carries_done rfl rfl
        exact (carries_arguments items).andThen fun _ _ _ _ => carries_done rfl rfl
termination_by 5 * items.length + 1
decreasing_by all_goals grind [List.IsSuffix.length_le]

theorem carries_block (items : List Item) :
    Carries there finish there.node (block finish items) (block there.finish (there.items items)) := by
  rw [block, block]
  refine (carries_expect items).andThen fun t items _ _ => ?_
  refine (carries_statements items).andThen fun body items _ _ => ?_
  exact (carries_expect items).andThen fun _ _ _ _ => carries_done rfl rfl
termination_by 5 * items.length + 3
decreasing_by all_goals grind [List.IsSuffix.length_le]

theorem carries_statements (items : List Item) :
    Carries there finish there.nodes (statements finish items)
      (statements there.finish (there.items items)) := by
  cases items with
  | nil =>
    rw [statements]
    refine carries_of_ends rfl fun ends => ?_
    rw [ends.items_nil, statements]
    exact ⟨rfl, ends.items_nil.symm⟩
  | cons item rest =>
    cases item with
    | badName literal position =>
      show Carries there finish there.nodes (statements finish (.badName literal position :: rest))
        (statements there.finish (.badName literal (there.move position) :: there.items rest))
      rw [statements, statements]
      exact carries_failed rfl rfl
    | token t =>
      show Carries there finish there.nodes (statements finish (.token t :: rest))
        (statements there.finish (.token (there.token t) :: there.items rest))
      have kind : (there.token t).kind = t.kind := rfl
      rw [statements, statements, kind]
      by_cases closes : t.kind = .rbrace
      · rw [if_pos closes, if_pos closes]
        exact carries_done rfl rfl
      · rw [if_neg closes, if_neg closes]
        refine carries_ofTail.mpr ((carries_statement t rest).andThen fun first items _ _ => ?_)
        exact (carries_statements items).andThen fun _ _ _ _ => carries_done rfl rfl
termination_by 5 * items.length + 2
decreasing_by all_goals grind [List.IsSuffix.length_le]

theorem carries_statement (t : Token) (rest : List Item) :
    Carries there finish there.node (statement finish t rest)
      (statement there.finish (there.token t) (there.items rest)) := by
  by_cases isLet : t.kind = .letKeyword
  · rw [statement, if_pos isLet, statement, if_pos (show (there.token t).kind = _ from isLet)]
    refine (carries_expect rest).andThen fun name items _ _ => ?_
    refine (carries_expect items).andThen fun _ items _ _ => ?_
    refine (carries_ofTail.mpr (carries_expression .lowest items)).andThen fun _ items _ _ => ?_
    exact (carries_expect items).andThen fun _ _ _ _ => carries_done rfl rfl
  · have notLet : ¬(there.token t).kind = .letKeyword := isLet
    by_cases isReturn : t.kind = .returnKeyword
    · have isReturnThere : (there.token t).kind = .returnKeyword := isReturn
      rw [(statement.eq_1 finish t rest).trans ((if_neg isLet).trans (if_pos isReturn)),
        (statement.eq_1 there.finish ..).trans ((if_neg notLet).trans (if_pos isReturnThere))]
      refine (carries_ofTail.mpr (carries_expression .lowest rest)).andThen fun _ items _ _ => ?_
      exact (carries_expect items).andThen fun _ _ _ _ => carries_done rfl rfl
    · have notReturn : ¬(there.token t).kind = .returnKeyword := isReturn
      rw [(statement.eq_1 finish t rest).trans ((if_neg isLet).trans (if_neg isReturn)),
        (statement.eq_1 there.finish ..).trans ((if_neg notLet).trans (if_neg notReturn))]
      refine (carries_expression .lowest (.token t :: rest)).andThen fun _ items _ _ => ?_
      exact (carries_accept items).andThen fun _ _ _ _ => carries_done rfl rfl
termination_by 5 * rest.length + 6
decreasing_by all_goals grind [List.IsSuffix.length_le]

end

/-! ### Turns -/

namespace Elsewhere

def turn (there : Elsewhere) : Turn → Turn
  | .statement node => .statement (there.node node)
  | .problem cause position => .problem cause (there.move position)

def ending (there : Elsewhere) : Ending → Ending
  | .endOfSource => .endOfSource
  | .badName literal position rest => .badName literal (there.move position) (there.items rest)
  | .tooLong numeral rest => .tooLong numeral (there.items rest)

end Elsewhere

theorem again_statement (ends : there.Ends finish) (t : Token) (rest : List Item) :
    Again there there.node (statement finish t rest)
      (statement there.finish (there.token t) (there.items rest)) :=
  carries_statement t rest (.inl ends)

/-- A source that ends where the items do takes the same turns elsewhere. -/
theorem turns_of_ends (ends : there.Ends finish) (items : List Item) :
    turns there.finish (there.items items) =
      ((turns finish items).1.map there.turn, there.ending (turns finish items).2) := by
  fun_induction turns finish items with
  | case1 =>
    rw [ends.items_nil]
    exact turns_nil _
  | case2 literal position rest => exact turns_badName ..
  | case3 t rest node left suffix eq ih =>
    have again := again_statement ends t rest
    rw [eq] at again
    obtain ⟨_, other⟩ := again.done
    show turns there.finish (.token (there.token t) :: there.items rest) = _
    rw [turns, other]
    dsimp only
    rw [ih]
    rfl
  | case4 t rest cause position left suffix eq ih =>
    have again := again_statement ends t rest
    rw [eq] at again
    obtain ⟨_, other⟩ := again.failed
    show turns there.finish (.token (there.token t) :: there.items rest) = _
    rw [turns, other, Fault.moved]
    dsimp only
    rw [ih]
    rfl
  | case5 t rest numeral left suffix eq =>
    have again := again_statement ends t rest
    rw [eq] at again
    obtain ⟨_, other⟩ := again.failed
    show turns there.finish (.token (there.token t) :: there.items rest) = _
    rw [turns, other, Fault.moved]
    rfl

/-! ### What is kept -/

theorem statements_turn (turns : List Turn) :
    (turns.map there.turn).filterMap Turn.statement? =
      there.nodes (turns.filterMap Turn.statement?) := by
  induction turns with
  | nil => rfl
  | cons turn turns ih =>
    cases turn with
    | statement node => exact congrArg (there.node node :: ·) ih
    | problem => exact ih

theorem errors_turn (filename : Text) (turns : List Turn) :
    (turns.map there.turn).filterMap (Turn.error? filename) =
      (turns.filterMap (Turn.error? filename)).map (Error.moved there.move) := by
  induction turns with
  | nil => rfl
  | cons turn turns ih =>
    cases turn with
    | statement => exact ih
    | problem => exact congrArg (_ :: ·) ih

theorem length_badNames_items (items : List Item) :
    (badNames (there.items items)).length = (badNames items).length + (badNames there.more).length := by
  rw [Elsewhere.items, badNames_append, List.length_append]
  congr 1
  induction items with
  | nil => rfl
  | cons item items ih =>
    cases item with
    | token => exact ih
    | badName => exact congrArg (· + 1) ih

theorem badName?_turn (turn : Turn) :
    (there.turn turn).badName? = turn.badName?.map fun name => (name.1, there.move name.2) := by
  cases turn with
  | statement => rfl
  | problem cause position => cases cause <;> rfl

theorem length_names_turn (turns : List Turn) :
    ((turns.map there.turn).filterMap Turn.badName?).length =
      (turns.filterMap Turn.badName?).length := by
  rw [List.filterMap_map]
  induction turns with
  | nil => rfl
  | cons turn turns ih =>
    rw [List.filterMap_cons, List.filterMap_cons, Function.comp_apply, badName?_turn]
    cases turn.badName? with
    | none => exact ih
    | some name => exact congrArg (· + 1) ih

theorem turns_ending (ending : Ending) : (there.ending ending).turns = ending.turns.map there.turn := by
  cases ending <;> rfl

theorem unread_ending (noMore : there.more = []) (ending : Ending) :
    (there.ending ending).unread = there.items ending.unread := by
  have nothing : there.items [] = [] := noMore
  cases ending with
  | endOfSource => exact nothing.symm
  | badName | tooLong => rfl

/-- Whether the bad name where parsing ends was met is a matter of number. -/
theorem unmet_eq_take (turns : List Turn) (ending : Ending) :
    ending.unmet turns = ending.turns.take (ending.unmet turns).length :=
  List.prefix_iff_eq_take.mp (isPrefix_unmet turns ending)

theorem map_unmet (turns : List Turn) (ending : Ending) :
    (ending.unmet turns).map there.turn =
      (there.ending ending).turns.take (ending.unmet turns).length := by
  rw [turns_ending, ← List.map_take, ← unmet_eq_take]

/-- Every bad name is the problem of a turn, the one where parsing ends, or left unread. -/
theorem Noted.length_unmet {source filename : Text} {segments : List (List Item × Turn)}
    (kept : Noted source filename segments) :
    ((turnsOf source).1.filterMap Turn.badName?).length +
        ((turnsOf source).2.unmet (turnsOf source).1).length +
        (badNames (turnsOf source).2.unread).length =
      (badNames (Cursor.ofSource source).items).length := by
  have unmet : (((turnsOf source).2.unmet (turnsOf source).1).filterMap Turn.badName?).length =
      ((turnsOf source).2.unmet (turnsOf source).1).length := by
    cases (turnsOf source).2 with
    | endOfSource | tooLong => rfl
    | badName =>
      rw [Ending.unmet]
      split <;> rfl
  rw [kept.course.split, badNames_append, kept.names, noted, List.filterMap_append,
    List.length_append, List.length_append, unmet]

end Parser

end MonkeySyntax
