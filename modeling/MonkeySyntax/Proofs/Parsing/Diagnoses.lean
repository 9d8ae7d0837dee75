import Mathlib
import MonkeySyntax.Proofs.Parsing.Kept

/-!
# What errors say

Every error of a source is about an item that stands at its place, and what it says of that item is
true (`parseSource_truthful`). Errors come in reading order, because a turn leaves nothing that
stands before the item that its own error is about.
-/

namespace MonkeySyntax

/-- A cause is true of an item: a wrong token, a token that begins no operand, a numeral that is too
great, or a bad name. No item is the cause of anything else. -/
def Cause.IsAbout : Cause → Item → Prop
  | .unexpected wanted got, .token t => t.kind = got ∧ got ∉ wanted
  | .illegal literal, .token t => t.kind = .illegal ∧ t.literal = literal
  | .noOperand literal, .token t =>
    t.literal = literal ∧ t.kind ≠ .illegal ∧ t.kind.startsOperand = false
  | .overflow literal, .token t =>
    t.kind = .int ∧ t.literal = literal ∧ Parser.maxInteger < Decimal.value literal
  | .badName literal, .badName found _ => found = literal
  | _, _ => False

/-- An error is true of an item that reading the source again and again comes to, at its place. -/
structure Error.Truthful (source filename : Text) (e : Error) : Prop where
  named : e.filename = filename
  item : ∃ item, Meets source item ∧ item.position = e.position ∧ e.cause.IsAbout item

namespace Parser

variable {finish : Position}

def withEnd (finish : Position) (items : List Item) : List Item :=
  items ++ [.token ⟨.eof, [], finish⟩]

/-- A problem is about the next item, and what is left ends the items from there. -/
theorem Stops.isAbout {items left : List Item} {cause : Cause} {position : Position}
    (stops : Stops finish items (.problem cause position) left) :
    ∃ item rest, withEnd finish items = item :: rest ∧ item.position = position ∧
      cause.IsAbout item ∧ withEnd finish left <:+ item :: rest := by
  cases stops with
  | unexpected other =>
    exact ⟨_, _, rfl, rfl, ⟨rfl, by simpa using other⟩, List.suffix_rfl⟩
  | unexpectedEnd notEnd =>
    exact ⟨_, _, rfl, rfl, ⟨rfl, by simpa using notEnd.symm⟩, List.suffix_rfl⟩
  | badNameAhead => exact ⟨_, _, rfl, rfl, rfl, List.suffix_rfl⟩
  | badName => exact ⟨_, _, rfl, rfl, rfl, List.suffix_cons ..⟩
  | noOperand refused notIllegal =>
    exact ⟨_, _, rfl, rfl, ⟨rfl, notIllegal, refused⟩, List.suffix_cons ..⟩
  | noOperandAtEnd => exact ⟨_, _, rfl, rfl, ⟨rfl, nofun, rfl⟩, List.suffix_rfl⟩
  | illegal isIllegal => exact ⟨_, _, rfl, rfl, ⟨isIllegal, rfl⟩, List.suffix_cons ..⟩
  | overflow isInt _ great => exact ⟨_, _, rfl, rfl, ⟨isInt, rfl, great⟩, List.suffix_cons ..⟩

theorem Taken.isAbout {segment left : List Item} {cause : Cause} {position : Position}
    (taken : Taken finish segment (.problem cause position) left) :
    ∃ item rest, item :: rest <:+ withEnd finish (segment ++ left) ∧ item.position = position ∧
      cause.IsAbout item ∧ withEnd finish left <:+ item :: rest := by
  obtain ⟨tokens, items, split, stops⟩ := taken.stops
  obtain ⟨item, rest, behind, place, isAbout, leaves⟩ := stops.isAbout
  refine ⟨item, rest, ⟨tokens.map .token, ?_⟩, place, isAbout, leaves⟩
  rw [split, withEnd, List.append_assoc, ← behind, withEnd]

theorem Taken.leaves {segment left : List Item} {turn : Turn}
    (_ : Taken finish segment turn left) :
    withEnd finish left <:+ withEnd finish (segment ++ left) :=
  ⟨segment, (List.append_assoc ..).symm⟩

namespace Course

variable {items : List Item} {segments : List (List Item × Turn)} {ending : Ending}

theorem isAbout (course : Course finish items segments ending) {cause : Cause}
    {position : Position}
    (member : .problem cause position ∈ segments.map Prod.snd ++ ending.turns) :
    ∃ item ∈ withEnd finish items, item.position = position ∧ cause.IsAbout item := by
  induction course with
  | endOfSource => simp [Ending.turns] at member
  | badName =>
    rw [List.map_nil, List.nil_append, Ending.turns, List.mem_singleton] at member
    cases member
    exact ⟨_, List.mem_cons_self, rfl, rfl⟩
  | turn taken _ ih =>
    rw [List.map_cons, List.cons_append] at member
    rcases List.mem_cons.mp member with rfl | member
    · obtain ⟨item, rest, behind, place, isAbout, _⟩ := taken.isAbout
      exact ⟨item, behind.subset List.mem_cons_self, place, isAbout⟩
    · obtain ⟨item, member, found⟩ := ih member
      exact ⟨item, taken.leaves.subset member, found⟩

theorem errors_pairwise (course : Course finish items segments ending) (filename : Text)
    (ordered : (withEnd finish items).Pairwise fun a b => a.position ≤ b.position) :
    ((segments.map Prod.snd ++ ending.turns).filterMap (Turn.error? filename)).Pairwise
      fun a b => a.position ≤ b.position := by
  induction course with
  | endOfSource => exact .nil
  | badName => exact List.pairwise_singleton ..
  | @turn segment left turn segments ending taken course ih =>
    have tail := ih (ordered.sublist taken.leaves.sublist)
    cases turn with
    | statement node => exact tail
    | problem cause position =>
      refine .cons (fun e later => ?_) tail
      obtain ⟨other, member, isError⟩ := List.mem_filterMap.mp later
      cases other with
      | statement => contradiction
      | problem found place =>
        cases isError
        -- What a later error is about is this item or stands behind it.
        obtain ⟨item, rest, behind, rfl, _, leaves⟩ := taken.isAbout
        obtain ⟨next, isLeft, rfl, _⟩ := course.isAbout member
        rcases List.mem_cons.mp (leaves.subset isLeft) with rfl | isLater
        · exact le_rfl
        · exact (List.pairwise_cons.mp (ordered.sublist behind.sublist)).1 next isLater

end Course

theorem Noted.isAbout {source filename : Text} {segments : List (List Item × Turn)}
    (kept : Noted source filename segments) {cause : Cause} {position : Position}
    (member : .problem cause position ∈ noted source) :
    ∃ item, Meets source item ∧ item.position = position ∧ cause.IsAbout item := by
  obtain ⟨item, met, found⟩ := kept.course.isAbout (kept.isFirst.subset member)
  exact ⟨item, meets_of_mem_stream met, found⟩

/-- Every error is true of an item at its place, and errors come in reading order. -/
theorem parseSource_truthful {source filename : Text} {statements : List Node}
    (returns : (parseSource source filename).outcome = .ok statements) :
    ((parseSource source filename).errors.Pairwise fun a b => a.position ≤ b.position) ∧
      ∀ e ∈ (parseSource source filename).errors,
        e.Truthful source filename ∧ ∀ literal, e.cause ≠ .noOperator literal := by
  have goesOn := (returns_iff source filename).mp ⟨statements, returns⟩
  obtain ⟨segments, kept⟩ := exists_noted source filename goesOn
  rw [kept.errors]
  constructor
  · exact (kept.course.errors_pairwise filename (Cursor.pairwise_stream _)).sublist
      (kept.isFirst.sublist.filterMap _)
  · intro e isKept
    obtain ⟨turn, member, isError⟩ := List.mem_filterMap.mp isKept
    cases turn with
    | statement => contradiction
    | problem cause position =>
      cases isError
      obtain ⟨item, met, place, isAbout⟩ := kept.isAbout member
      refine ⟨⟨rfl, item, met, place, isAbout⟩, ?_⟩
      rintro literal rfl
      exact isAbout

/-- One error of each kind, two of them at the same place. -/
theorem truthful_of_five_errors :
    (parseSource "let ; # 9223372036854775808 1b".toList Lexer.defaultFilename).errors.map
        Error.cause =
      [.unexpected [.ident] .semicolon, .noOperand [';'], .illegal ['#'],
        .overflow "9223372036854775808".toList, .badName "1b".toList] ∧
      ∀ e ∈ (parseSource "let ; # 9223372036854775808 1b".toList Lexer.defaultFilename).errors,
        e.Truthful "let ; # 9223372036854775808 1b".toList Lexer.defaultFilename := by
  have returns : (parseSource "let ; # 9223372036854775808 1b".toList
      Lexer.defaultFilename).outcome = .ok [] := by cbv
  exact ⟨by cbv, fun e member => ((parseSource_truthful returns).2 e member).1⟩

end Parser

end MonkeySyntax
