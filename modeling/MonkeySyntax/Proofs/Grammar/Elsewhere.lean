import MonkeySyntax.Proofs.Grammar.Greedy
import MonkeySyntax.Proofs.Parsing.Elsewhere

/-!
# Derivations elsewhere

What is derived from some items is derived from the same items at other places, with more behind
them. Of what stands behind, a derivation asks only where a statement ends, and within a block that
is not for what comes behind the block (`Operand.elsewhere`).
-/

namespace MonkeySyntax.Grammar

open MonkeySyntax.Parser

variable {there : Elsewhere}

theorem mayFollow_items {items : List Item} (follows : Dialect.greedy.mayFollow items)
    (more : items ≠ []) : Dialect.greedy.mayFollow (there.items items) := by
  match items, follows with
  | [], _ => contradiction
  | .token _ :: _, follows => exact follows

namespace Groups

def linkThere (there : Elsewhere) (link : Link) : Link := (there.token link.1, there.node link.2)

theorem elsewhere {first tree : Node} {links : List Link} (groups : Groups first links tree) :
    Groups (there.node first) (links.map (linkThere there)) (there.node tree) := by
  induction groups with
  | operand => exact .operand
  | @root first left operand right before after op _ _ atLeast stronger ihLeft ihRight =>
    rw [List.map_append, List.map_cons]
    refine .root ihLeft ihRight ?_ ?_
    · exact List.forall_mem_map.mpr atLeast
    · exact List.forall_mem_map.mpr stronger

end Groups

theorem Parameters.elsewhere {start rest : List Item} {names : List Node} :
    Parameters start names rest →
      Parameters (there.items start) (there.nodes names) (there.items rest)
  | .none => .none
  | .last isName => .last isName
  | .cons isName isComma tail => .cons isName isComma tail.elsewhere

mutual

theorem Expression.elsewhere {start rest : List Item} {tree : Node} :
    Expression .greedy start tree rest →
      Expression .greedy (there.items start) (there.node tree) (there.items rest)
  | .chain first links groups => .chain first.elsewhere links.elsewhere groups.elsewhere

theorem Links.elsewhere {start rest : List Item} {links : List Link} :
    Links .greedy start links rest →
      Links .greedy (there.items start) (links.map (Groups.linkThere there)) (there.items rest)
  | .nil => .nil
  | .cons binary operand tail => .cons binary operand.elsewhere tail.elsewhere

theorem Operand.elsewhere {start rest : List Item} {node : Node} :
    Operand .greedy start node rest →
      Operand .greedy (there.items start) (there.node node) (there.items rest)
  | .unary isPrefix inner => .unary isPrefix inner.elsewhere
  | .applied inner => .applied inner.elsewhere

theorem Applied.elsewhere {start rest : List Item} {node : Node} :
    Applied .greedy start node rest →
      Applied .greedy (there.items start) (there.node node) (there.items rest)
  | .primary inner => .primary inner.elsewhere
  | .call callee isOpen values closes =>
    .call callee.elsewhere isOpen values.elsewhere closes

theorem Arguments.elsewhere {start rest : List Item} {values : List Node} :
    Arguments .greedy start values rest →
      Arguments .greedy (there.items start) (there.nodes values) (there.items rest)
  | .none => .none
  | .last value => .last value.elsewhere
  | .cons value isComma tail => .cons value.elsewhere isComma tail.elsewhere

theorem Primary.elsewhere {start rest : List Item} {node : Node} :
    Primary .greedy start node rest →
      Primary .greedy (there.items start) (there.node node) (there.items rest)
  | .identifier kind => .identifier kind
  | .integer kind inRange => .integer kind inRange
  | .true kind => .true kind
  | .false kind => .false kind
  | .group isOpen inner closes => .group isOpen inner.elsewhere closes
  | .conditional isIf isOpen condition closes consequence =>
    .conditional isIf isOpen condition.elsewhere closes consequence.elsewhere
  | .conditionalElse isIf isOpen condition closes consequence isElse alternative =>
    .conditionalElse isIf isOpen condition.elsewhere closes consequence.elsewhere isElse
      alternative.elsewhere
  | .function isFn isOpen names closes body =>
    .function isFn isOpen names.elsewhere closes body.elsewhere

theorem Block.elsewhere {start rest : List Item} {node : Node} :
    Block .greedy start node rest →
      Block .greedy (there.items start) (there.node node) (there.items rest)
  | .braces isOpen body closes => .braces isOpen (body.elsewhere nofun) closes

theorem Statement.elsewhere {closed : Bool} {start rest : List Item} {node : Node} :
    Statement .greedy closed start node rest →
      Statement .greedy closed (there.items start) (there.node node) (there.items rest)
  | .bind isLet isName isAssign value ends =>
    .bind isLet isName isAssign value.elsewhere ends
  | .give isReturn value ends => .give isReturn value.elsewhere ends
  | .closed value ends => .closed value.elsewhere ends
  | .opened value => .opened value.elsewhere

/-- Statements whose last is not the last of the items end where they end here. -/
theorem Statements.elsewhere {start rest : List Item} {nodes : List Node} :
    Statements .greedy start nodes rest → rest ≠ [] →
      Statements .greedy (there.items start) (there.nodes nodes) (there.items rest)
  | .nil, _ => .nil
  | .cons first follows tail, more => by
    refine .cons first.elsewhere (fun isOpen => ?_) (tail.elsewhere more)
    apply mayFollow_items (follows isOpen)
    rintro rfl
    exact more (List.suffix_nil.mp tail.spans.suffix)

end

end MonkeySyntax.Grammar
