import MonkeySyntax.Proofs.Grammar.Elsewhere
import MonkeySyntax.Proofs.Lexing.Joined
import MonkeySyntax.Proofs.Lexing.Spellings
import MonkeySyntax.Proofs.Parsing.Acceptance
import MonkeySyntax.Proofs.Parsing.Accounts
import MonkeySyntax.Proofs.Parsing.Relaid
import MonkeySyntax.Proofs.Trees.Characters

/-!
# Chains of operands

Operands with binary operators between them are parsed as the tree that has the rightmost of the
weakest operators at its root, and the trees of both parts below it (`parseSource_chain`), unless an
operand holds a numeral that is too long to be parsed (`not_parsed_of_zeros`). How strongly prefix
operators and calls bind shows in what an operand is.
-/

namespace MonkeySyntax

/-- The levels of binary operators, the weakest first. Any other token is above them. -/
def Kind.level : Kind → Nat
  | eq | notEq => 0
  | lt | gt | ltEq | gtEq => 1
  | plus | minus => 2
  | asterisk | slash => 3
  | _ => 4

theorem Kind.value_precedence {kind : Kind} (binary : kind.isBinaryOperator) :
    kind.precedence.value = kind.level + 2 := by
  cases kind <;> first | rfl | contradiction

theorem Kind.level_le_iff {op other : Kind} (binary : op.isBinaryOperator)
    (binaryOther : other.isBinaryOperator) :
    op.precedence.value ≤ other.precedence.value ↔ op.level ≤ other.level := by
  rw [value_precedence binary, value_precedence binaryOther]
  omega

namespace Parser

open MonkeySyntax.Grammar Node

/-! ### Sources and trees -/

/-- An operator with the text of the operand behind it. -/
abbrev TextLink := Kind × Text

/-- Operands with operators between them, and spaces around the operators. -/
def chainText (first : Text) (chain : List TextLink) : Text :=
  first ++ chain.flatMap fun (op, operand) => ' ' :: op.spelling ++ ' ' :: operand

/-- The text is an operand: a name, a numeral or a truth value, what a prefix operator makes of an
operand, a call, a conditional, a function, or an expression in parentheses. -/
def IsOperand (text : Text) : Prop :=
  '\x00' ∉ text ∧ ∃ node, Operand .plain (Cursor.ofSource text).items node []

/-- The tree of a chain. One operand has its own tree. Of more, the rightmost of the weakest
operators is the root, over the tree of the part before it and that of the part behind it. -/
inductive Splits : Text → List TextLink → Node → Prop
  | operand {first : Text} {tree : Node} :
      Operand .greedy (Cursor.ofSource first).items tree [] → Splits first [] tree
  | root {first operand : Text} {before after : List TextLink} {op : Kind} {left right : Node} :
      Splits first before left → Splits operand after right →
      (∀ link ∈ before, op.level ≤ link.1.level) → (∀ link ∈ after, op.level < link.1.level) →
      Splits first (before ++ (op, operand) :: after)
        (.binary ⟨op, op.spelling, {}⟩ left op.spelling right)

/-! ### Items wherever they stand -/

/-- The items of a text, wherever it stands. -/
def itemsOf (text : Text) : List Item := (Cursor.ofSource text).items.map (Item.moved fun _ => {})

/-- Layout parts a text, and the items of both parts are read as they stand. -/
theorem itemsOf_append_cons {before : Text} {c : Char} (noNul : '\x00' ∉ before)
    (layout : isLayout c) (rest : Text) :
    itemsOf (before ++ c :: rest) = itemsOf before ++ itemsOf rest := by
  have visible : c ≠ '\x00' := by
    rintro rfl
    contradiction
  have text : readable (before ++ c :: rest) = before ++ c :: readable rest := by
    rw [readable_append noNul, readable, readable,
      List.takeWhile_cons_of_pos (by simpa using visible)]
  obtain ⟨parted, behind⟩ := Cursor.items_parted noNul (.of_isLayout layout) text
  rw [itemsOf, parted, List.map_append]
  congr 1
  apply Cursor.items_of_words
  rw [behind, words_cons layout, rest_ofSource]

theorem itemsOf_spelling {op : Kind} (binary : op.isBinaryOperator) :
    itemsOf op.spelling = [.token ⟨op, op.spelling, {}⟩] := by
  have lexed : Lexed (op.spelling ++ []) (Cursor.ofSource op.spelling).items := by
    rw [List.append_nil]
    exact lexed_ofSource (noNul_spelling op)
  obtain ⟨t, more, items, isOp, literal, behind⟩ := lexed.operator (.inl binary) (by simp)
  rw [itemsOf, items, behind.nil, ← literal, ← isOp]
  rfl

def linkItems (chain : List TextLink) : List Item :=
  chain.flatMap fun (op, operand) => .token ⟨op, op.spelling, {}⟩ :: itemsOf operand

theorem itemsOf_chainText {first : Text} {chain : List TextLink}
    (noNul : ∀ text ∈ first :: chain.map Prod.snd, '\x00' ∉ text)
    (binary : ∀ link ∈ chain, link.1.isBinaryOperator) :
    itemsOf (chainText first chain) = itemsOf first ++ linkItems chain := by
  induction chain generalizing first with
  | nil => simp [chainText, linkItems]
  | cons link chain ih =>
    obtain ⟨op, operand⟩ := link
    obtain ⟨firstNoNul, others⟩ := List.forall_mem_cons.mp noNul
    obtain ⟨isBinary, binaries⟩ := List.forall_mem_cons.mp binary
    have split : chainText first ((op, operand) :: chain) =
        first ++ ' ' :: (op.spelling ++ ' ' :: chainText operand chain) := by
      simp [chainText]
    rw [split, itemsOf_append_cons firstNoNul rfl, itemsOf_append_cons (noNul_spelling op) rfl,
      itemsOf_spelling isBinary, ih others binaries, linkItems, linkItems, List.flatMap_cons]
    rfl

/-! ### Trees of operands and trees of texts -/

/-- An operator and the tree of the operand behind it. -/
def Stands (link : TextLink) (read : Link) : Prop :=
  read.1 = ⟨link.1, link.1.spelling, {}⟩ ∧
    Operand .greedy (Cursor.ofSource link.2).items read.2 []

section

variable {chain : List TextLink} {links : List Link} {op : Kind}

theorem kinds_of_stands (stands : List.Forall₂ Stands chain links) (property : Kind → Prop) :
    (∀ link ∈ links, property link.1.kind) ↔ ∀ link ∈ chain, property link.1 := by
  induction stands with
  | nil => simp
  | cons first _ ih => rw [List.forall_mem_cons, List.forall_mem_cons, ih, first.1]

theorem atLeast_iff (stands : List.Forall₂ Stands chain links) (isBinary : op.isBinaryOperator)
    (binary : ∀ link ∈ chain, link.1.isBinaryOperator) :
    (∀ link ∈ links, op.precedence.value ≤ link.1.kind.precedence.value) ↔
      ∀ link ∈ chain, op.level ≤ link.1.level := by
  rw [kinds_of_stands stands fun kind => op.precedence.value ≤ kind.precedence.value]
  exact forall₂_congr fun link member => Kind.level_le_iff isBinary (binary link member)

theorem stronger_iff (stands : List.Forall₂ Stands chain links) (isBinary : op.isBinaryOperator)
    (binary : ∀ link ∈ chain, link.1.isBinaryOperator) :
    (∀ link ∈ links, op.precedence.value < link.1.kind.precedence.value) ↔
      ∀ link ∈ chain, op.level < link.1.level := by
  rw [kinds_of_stands stands fun kind => op.precedence.value < kind.precedence.value]
  refine forall₂_congr fun link member => ?_
  have atMost := Kind.level_le_iff (binary link member) isBinary
  omega

end

/-- The tree of a chain is that of its operands' trees. -/
theorem groups_of_splits {first : Text} {chain : List TextLink} {tree : Node}
    (splits : Splits first chain tree) (binary : ∀ link ∈ chain, link.1.isBinaryOperator) :
    ∃ node links, Operand .greedy (Cursor.ofSource first).items node [] ∧
      List.Forall₂ Stands chain links ∧ Groups node links tree := by
  induction splits with
  | operand isOperand => exact ⟨_, [], isOperand, .nil, .operand⟩
  | @root first operand before after op left right _ _ atLeast stronger ihLeft ihRight =>
    obtain ⟨binaryBefore, binaryOp, binaryAfter⟩ := List.forall_mem_append.mp binary |>.imp_right
      List.forall_mem_cons.mp
    obtain ⟨node, links, isFirst, standsBefore, groupsLeft⟩ := ihLeft binaryBefore
    obtain ⟨inner, more, isOperand, standsAfter, groupsRight⟩ := ihRight binaryAfter
    refine ⟨node, links ++ (⟨op, op.spelling, {}⟩, inner) :: more, isFirst, ?_, ?_⟩
    · exact List.rel_append standsBefore (.cons ⟨rfl, isOperand⟩ standsAfter)
    · exact .root groupsLeft groupsRight
        ((atLeast_iff standsBefore binaryOp binaryBefore).mpr atLeast)
        ((stronger_iff standsAfter binaryOp binaryAfter).mpr stronger)

theorem splits_of_groups {node tree : Node} {links : List Link} (groups : Groups node links tree)
    {first : Text} {chain : List TextLink}
    (isFirst : Operand .greedy (Cursor.ofSource first).items node [])
    (stands : List.Forall₂ Stands chain links)
    (binary : ∀ link ∈ chain, link.1.isBinaryOperator) : Splits first chain tree := by
  induction groups generalizing first chain with
  | operand =>
    cases stands
    exact .operand isFirst
  | @root _ _ operand _ before after token _ _ atLeast stronger ihLeft ihRight =>
    -- The texts are split where the links are, at the one that stands for the root.
    have standsBefore := List.forall₂_take_append chain before _ stands
    have standsBehind := List.forall₂_drop_append chain before _ stands
    obtain ⟨⟨op, text⟩, rest, ⟨isToken, isOperand⟩, standsAfter, behind⟩ :=
      List.forall₂_cons_right_iff.mp standsBehind
    dsimp only at isToken isOperand
    subst isToken
    have split : chain = chain.take before.length ++ (op, text) :: rest := by
      rw [← behind, List.take_append_drop]
    generalize chain.take before.length = front at standsBefore split
    subst split
    obtain ⟨binaryBefore, binaryOp, binaryAfter⟩ := List.forall_mem_append.mp binary |>.imp_right
      List.forall_mem_cons.mp
    exact .root (ihLeft isFirst standsBefore binaryBefore)
      (ihRight isOperand standsAfter binaryAfter)
      ((atLeast_iff standsBefore binaryOp binaryBefore).mp atLeast)
      ((stronger_iff standsAfter binaryOp binaryAfter).mp stronger)

/-! ### Chains are parsed -/

theorem operand_elsewhere {text : Text} {node : Node}
    (derived : Operand .greedy (Cursor.ofSource text).items node []) (more : List Item) :
    Operand .greedy (itemsOf text ++ more) (nowhere.node node) more :=
  @Operand.elsewhere ⟨fun _ => {}, more, {}⟩ _ _ _ derived

theorem links_of_stands {chain : List TextLink} {links : List Link}
    (stands : List.Forall₂ Stands chain links)
    (binary : ∀ link ∈ chain, link.1.isBinaryOperator) :
    Links .greedy (linkItems chain) (links.map (Groups.linkThere nowhere)) [] := by
  induction stands with
  | nil => exact .nil
  | @cons link read chain links first stands ih =>
    obtain ⟨op, operand⟩ := link
    obtain ⟨token, node⟩ := read
    obtain ⟨isToken, isOperand⟩ := first
    dsimp only at isToken isOperand
    subst isToken
    obtain ⟨isBinary, binaries⟩ := List.forall_mem_cons.mp binary
    exact .cons isBinary (operand_elsewhere isOperand _) (ih binaries)

/-- A text whose items are an expression, wherever they stand, is parsed as that expression. -/
theorem parseSource_of_expression {source : Text} {tree : Node}
    (derived : Expression .greedy (itemsOf source) tree []) (filename : Text) :
    ∃ t other, (parseSource source filename).outcome = .ok [.expressionStatement t other] ∧
      (parseSource source filename).errors = [] ∧ nowhere.node other = tree := by
  have items : nowhere.items (Cursor.ofSource source).items = itemsOf source := List.append_nil _
  obtain ⟨t, inner, starts⟩ : ∃ t inner, itemsOf source = .token t :: inner := by
    match itemsOf source, derived.head with
    | .token t :: inner, _ => exact ⟨t, inner, rfl⟩
  have program : Program .greedy (itemsOf source) [.expressionStatement t tree] := by
    rw [starts] at derived ⊢
    exact .cons (.opened derived) (fun _ => rfl) .nil
  -- The source takes the one turn that its items take where all places are one.
  have turns := turns_nowhere source
  rw [items, turns_of_program program, Prod.mk.injEq] at turns
  obtain ⟨taken, ending⟩ := turns
  obtain ⟨turn, one, isTurn⟩ := List.map_eq_singleton_iff.mp taken.symm
  have ends : (turnsOf source).2 = .endOfSource := by
    cases ends : (turnsOf source).2 with
    | endOfSource => rfl
    | badName | tooLong =>
      rw [ends] at ending
      contradiction
  cases turn with
  | problem => contradiction
  | statement node =>
    have isNode : nowhere.node node = .expressionStatement t tree := Turn.statement.inj isTurn
    cases node with
    | expressionStatement start other =>
      obtain ⟨_, same⟩ := Node.expressionStatement.inj isNode
      have all : turnsOf source = ([.expressionStatement start other].map .statement,
          .endOfSource) := Prod.ext one ends
      obtain ⟨returns, clean, _⟩ := parseSource_of_turns filename all
      exact ⟨start, other, returns, clean, same⟩
    | _ => contradiction

theorem noBadName_of_operand {text : Text} (isOperand : IsOperand text) :
    ∀ literal position, .badName literal position ∉ (Cursor.ofSource text).items := by
  obtain ⟨_, node, derived⟩ := isOperand
  obtain ⟨tokens, items⟩ := derived.spans
  rw [items]
  simp

/-- An operand that is parsed has a tree of its own. -/
theorem exists_operand {text filename : Text} (isOperand : IsOperand text)
    (returns : ∃ nodes, (parseSource text filename).outcome = .ok nodes) :
    ∃ node, Operand .greedy (Cursor.ofSource text).items node [] := by
  have noBadName := noBadName_of_operand isOperand
  obtain ⟨_, node, derived⟩ := isOperand
  exact greedy_of_operand derived ((returns_iff_short text filename noBadName).mp returns)

theorem exists_stands {chain : List TextLink}
    (each : ∀ text ∈ chain.map Prod.snd,
      ∃ node, Operand .greedy (Cursor.ofSource text).items node []) :
    ∃ links, List.Forall₂ Stands chain links := by
  induction chain with
  | nil => exact ⟨[], .nil⟩
  | cons link chain ih =>
    obtain ⟨⟨node, first⟩, others⟩ := List.forall_mem_cons.mp each
    obtain ⟨links, stands⟩ := ih others
    exact ⟨(⟨link.1, link.1.spelling, {}⟩, node) :: links, .cons ⟨rfl, first⟩ stands⟩

/-! ### Which chains are parsed -/

theorem badName?_itemsOf (text : Text) :
    (∀ item ∈ itemsOf text, item.badName? = none) ↔
      ∀ literal position, .badName literal position ∉ (Cursor.ofSource text).items := by
  rw [itemsOf, List.forall_mem_map]
  constructor
  · intro tokens literal position member
    have isToken := tokens _ member
    contradiction
  · intro noBadName item member
    cases item with
    | token t => rfl
    | badName literal position => exact absurd member (noBadName literal position)

theorem short_itemsOf (text : Text) :
    Short (itemsOf text) ↔ Short (Cursor.ofSource text).items := by
  constructor
  · intro short t member
    exact short (t.moved fun _ => {}) (List.mem_map_of_mem member)
  · intro short t member
    obtain ⟨item, among, moved⟩ := List.mem_map.mp member
    cases item with
    | badName => contradiction
    | token u =>
      cases moved
      exact short u among

/-- A numeral is an operand if its value is in range, however long it is. -/
theorem isOperand_numeral {digits : Text} (some : digits ≠ []) (all : ∀ c ∈ digits, isDigit c)
    (inRange : Decimal.value digits ≤ maxInteger) : IsOperand digits := by
  obtain ⟨t, items, isInt, literal⟩ := items_of_digits some all
  refine ⟨fun nul => absurd (all _ nul) (by decide), .integer t (Decimal.value t.literal), ?_⟩
  rw [items]
  exact .applied (.primary (.integer isInt (literal ▸ inRange)))

theorem value_zeros (n : Nat) : Decimal.value (List.replicate n '0') = 0 := by
  induction n with
  | zero => rfl
  | succ n ih =>
    rw [List.replicate_succ', Decimal.value_append_singleton, ih]
    rfl

section

variable {first : Text} {chain : List TextLink}

theorem mem_itemsOf_chainText (operands : ∀ text ∈ first :: chain.map Prod.snd, IsOperand text)
    (binary : ∀ link ∈ chain, link.1.isBinaryOperator) {item : Item} :
    item ∈ itemsOf (chainText first chain) ↔
      (∃ text ∈ first :: chain.map Prod.snd, item ∈ itemsOf text) ∨
        ∃ link ∈ chain, item = .token ⟨link.1, link.1.spelling, {}⟩ := by
  rw [itemsOf_chainText (fun text member => (operands text member).1) binary]
  simp only [linkItems, List.mem_append, List.mem_flatMap, List.mem_cons, List.mem_map]
  grind

/-- The numerals of a chain are those of its operands. -/
theorem returns_chain (operands : ∀ text ∈ first :: chain.map Prod.snd, IsOperand text)
    (binary : ∀ link ∈ chain, link.1.isBinaryOperator) (filename : Text) :
    (∃ nodes, (parseSource (chainText first chain) filename).outcome = .ok nodes) ↔
      ∀ text ∈ first :: chain.map Prod.snd,
        ∃ nodes, (parseSource text filename).outcome = .ok nodes := by
  have noBadName : ∀ literal position,
      .badName literal position ∉ (Cursor.ofSource (chainText first chain)).items := by
    rw [← badName?_itemsOf]
    intro item member
    rcases (mem_itemsOf_chainText operands binary).mp member with
      ⟨text, among, within⟩ | ⟨link, linked, rfl⟩
    · exact (badName?_itemsOf text).mpr (noBadName_of_operand (operands text among)) item within
    · rfl
  have each : ∀ text ∈ first :: chain.map Prod.snd,
      ((∃ nodes, (parseSource text filename).outcome = .ok nodes) ↔ Short (itemsOf text)) := by
    intro text among
    rw [returns_iff_short text filename (noBadName_of_operand (operands text among)), short_itemsOf]
  rw [returns_iff_short _ filename noBadName, ← short_itemsOf, forall₂_congr each]
  -- The operators add no numeral to those of the operands.
  constructor
  · intro short text among t member
    exact short t ((mem_itemsOf_chainText operands binary).mpr (.inl ⟨text, among, member⟩))
  · intro short t member isInt
    rcases (mem_itemsOf_chainText operands binary).mp member with
      ⟨text, among, within⟩ | ⟨link, linked, isOp⟩
    · exact short text among t within isInt
    · have isBinary := binary link linked
      cases isOp
      dsimp only at isInt
      rw [isInt] at isBinary
      contradiction

/-- Operands with binary operators between them are parsed as the tree of the chain. There is such a
tree if the operands are parsed, each alone, and otherwise the chain is not parsed either. -/
theorem parseSource_chain (operands : ∀ text ∈ first :: chain.map Prod.snd, IsOperand text)
    (binary : ∀ link ∈ chain, link.1.isBinaryOperator) (filename : Text) :
    (∀ tree, Splits first chain tree → ∃ t other,
      (parseSource (chainText first chain) filename).outcome = .ok [.expressionStatement t other] ∧
      (parseSource (chainText first chain) filename).errors = [] ∧ other.same tree) ∧
    ((∀ text ∈ first :: chain.map Prod.snd,
        ∃ nodes, (parseSource text filename).outcome = .ok nodes) →
      ∃ tree, Splits first chain tree) ∧
    ((∃ nodes, (parseSource (chainText first chain) filename).outcome = .ok nodes) →
      ∀ text ∈ first :: chain.map Prod.snd,
        ∃ nodes, (parseSource text filename).outcome = .ok nodes) := by
  refine ⟨?_, ?_, (returns_chain operands binary filename).mp⟩
  · intro tree splits
    obtain ⟨node, links, isFirst, stands, groups⟩ := groups_of_splits splits binary
    have items := itemsOf_chainText (fun text member => (operands text member).1) binary
    have derived : Expression .greedy (itemsOf (chainText first chain)) (nowhere.node tree) [] := by
      rw [items]
      exact .chain (operand_elsewhere isFirst _) (links_of_stands stands binary) groups.elsewhere
    obtain ⟨t, other, outcome, clean, same⟩ := parseSource_of_expression derived filename
    refine ⟨t, other, outcome, clean, (same_iff _ _).mpr ?_⟩
    have bare := congrArg Node.bare same
    rwa [Elsewhere.node, Elsewhere.node, bare_moved, bare_moved] at bare
  · intro returns
    have own : ∀ text ∈ first :: chain.map Prod.snd,
        ∃ node, Operand .greedy (Cursor.ofSource text).items node [] := by
      intro text member
      exact exists_operand (operands text member) (returns text member)
    obtain ⟨⟨node, isFirst⟩, others⟩ := List.forall_mem_cons.mp own
    obtain ⟨links, stands⟩ := exists_stands others
    obtain ⟨tree, groups⟩ := exists_groups node links
    exact ⟨tree, splits_of_groups groups isFirst stands binary⟩

/-- A negated call, less a group, less a name. -/
theorem parseSource_chain_differences :
    let chain : List TextLink := [(.minus, "(a + b)".toList), (.minus, "c".toList)]
    chainText "-f(x)".toList chain = "-f(x) - (a + b) - c".toList ∧
      ∃ tree, Splits "-f(x)".toList chain tree ∧ ∃ t other,
        (parseSource (chainText "-f(x)".toList chain) Lexer.defaultFilename).outcome =
          .ok [.expressionStatement t other] ∧
        (parseSource (chainText "-f(x)".toList chain) Lexer.defaultFilename).errors = [] ∧
        other.same tree := by
  intro chain
  have negated : (Cursor.ofSource "-f(x)".toList).items = [
      .token ⟨.minus, ['-'], ⟨1, 1⟩⟩, .token ⟨.ident, ['f'], ⟨1, 2⟩⟩,
      .token ⟨.lparen, ['('], ⟨1, 3⟩⟩, .token ⟨.ident, ['x'], ⟨1, 4⟩⟩,
      .token ⟨.rparen, [')'], ⟨1, 5⟩⟩] := by cbv
  have group : (Cursor.ofSource "(a + b)".toList).items = [
      .token ⟨.lparen, ['('], ⟨1, 1⟩⟩, .token ⟨.ident, ['a'], ⟨1, 2⟩⟩,
      .token ⟨.plus, ['+'], ⟨1, 4⟩⟩, .token ⟨.ident, ['b'], ⟨1, 6⟩⟩,
      .token ⟨.rparen, [')'], ⟨1, 7⟩⟩] := by cbv
  have name : (Cursor.ofSource "c".toList).items = [.token ⟨.ident, ['c'], ⟨1, 1⟩⟩] := by cbv
  have ofName {t : Token} {rest : List Item} (isName : t.kind = .ident) :
      Operand .plain (.token t :: rest) (.identifier t t.literal) rest :=
    .applied (.primary (.identifier isName))
  have operands : ∀ text ∈ "-f(x)".toList :: chain.map Prod.snd, IsOperand text := by
    have noNul : ∀ text ∈ "-f(x)".toList :: chain.map Prod.snd, '\x00' ∉ text := by decide
    intro text member
    refine ⟨noNul text member, ?_⟩
    simp only [chain, List.map_cons, List.map_nil, List.mem_cons, List.not_mem_nil, or_false]
      at member
    rcases member with rfl | rfl | rfl
    · rw [negated]
      exact ⟨_, .unary rfl (.applied (.call (.primary (.identifier rfl)) rfl
        (.last (.chain (ofName rfl) .nil .operand)) rfl))⟩
    · rw [group]
      obtain ⟨tree, groups⟩ := exists_groups _ _
      exact ⟨_, .applied (.primary (.group rfl
        (.chain (ofName rfl) (.cons rfl (ofName rfl) .nil) groups) rfl))⟩
    · rw [name]
      exact ⟨_, ofName rfl⟩
  have few : ∀ text ∈ "-f(x)".toList :: chain.map Prod.snd,
      text.length ≤ Decimal.maxDigits := by decide
  obtain ⟨yields, hasTree, _⟩ := parseSource_chain operands (by decide) Lexer.defaultFilename
  obtain ⟨tree, splits⟩ := hasTree fun text member =>
    returns_of_short text _ (short_of_length text (few text member))
  exact ⟨by decide, tree, splits, yields tree splits⟩

end

/-- Zero plus zero is not parsed if the second is written with too many digits. -/
theorem not_parsed_of_zeros :
    let chain : List TextLink := [(.plus, List.replicate 4301 '0')]
    (∀ text ∈ ['0'] :: chain.map Prod.snd, IsOperand text) ∧
      (∀ link ∈ chain, link.1.isBinaryOperator) ∧
      ∀ nodes, (parseSource (chainText ['0'] chain) Lexer.defaultFilename).outcome ≠ .ok nodes := by
  intro chain
  have zeros (n : Nat) : IsOperand (List.replicate (n + 1) '0') :=
    isOperand_numeral (List.cons_ne_nil _ _) isDigit_of_mem_zeros
      ((value_zeros _).trans_le (Nat.zero_le _))
  have operands : ∀ text ∈ ['0'] :: chain.map Prod.snd, IsOperand text := by
    simp only [chain, List.map_cons, List.map_nil, List.forall_mem_cons]
    exact ⟨zeros 0, zeros 4300, fun _ member => absurd member List.not_mem_nil⟩
  have binary : ∀ link ∈ chain, link.1.isBinaryOperator := by
    simp only [chain, List.forall_mem_cons]
    exact ⟨rfl, fun _ member => absurd member List.not_mem_nil⟩
  refine ⟨operands, binary, fun nodes parsed => ?_⟩
  obtain ⟨own, parsedAlone⟩ := (returns_chain operands binary _).mp ⟨nodes, parsed⟩
    (List.replicate 4301 '0') (List.mem_cons_of_mem _ List.mem_cons_self)
  have stopped := @error_of_replicate_zero Lexer.defaultFilename 4301 (by decide)
  cases stopped.symm.trans parsedAlone

end Parser

end MonkeySyntax
