import MonkeySyntax.Proofs.Grammar.Parts
import MonkeySyntax.Proofs.Lexing.BadNames
import MonkeySyntax.Proofs.Parsing.Outcome
import MonkeySyntax.Proofs.Parsing.Soundness

/-!
# The course of parsing

Parsing goes through a source in turns, one behind another. Each reads a segment of the items
(`Taken`), and `Course` puts the segments together up to the end of the source or to a bad name that
no statement can begin with. A bad name is read in the turn that it is the problem of, or it was only
looked at, and then parsing ends there.
-/

namespace MonkeySyntax

namespace Parser

open Grammar

variable {finish : Position}

def Turn.statement? : Turn → Option Node
  | .statement node => some node
  | .problem .. => none

def Turn.error? (filename : Text) : Turn → Option Error
  | .statement _ => none
  | .problem cause position => some ⟨cause, filename, position⟩

def Turn.badName? : Turn → Option (Text × Position)
  | .problem (.badName literal) position => some (literal, position)
  | _ => none

theorem mem_badName? {turns : List Turn} {literal : Text} {position : Position} :
    (literal, position) ∈ turns.filterMap Turn.badName? ↔
      .problem (.badName literal) position ∈ turns := by
  rw [List.mem_filterMap]
  constructor
  · rintro ⟨turn, member, isName⟩
    unfold Turn.badName? at isName
    split at isName
    · cases isName
      exact member
    · contradiction
  · exact fun member => ⟨_, member, rfl⟩

/-- What happens in a turn whose problem is met for the first time. -/
def Turn.events (filename : Text) : Turn → List Event
  | .statement _ => []
  | .problem (.badName literal) position =>
    [.badName literal filename position, .errorKept ⟨.badName literal, filename, position⟩]
  | .problem cause position => [.errorKept ⟨cause, filename, position⟩]

/-! ### One turn -/

/-- A turn reads a segment: the statement that begins with its first token is parsed, and what stands
behind the segment is left. -/
inductive Taken (finish : Position) : List Item → Turn → List Item → Prop
  | statement {t : Token} {inner left : List Item} {node : Node} :
      (statement finish t (inner ++ left)).Yields node left →
      Taken finish (.token t :: inner) (.statement node) left
  | problem {t : Token} {inner left : List Item} {cause : Cause} {position : Position}
      {suffix : left <:+ inner ++ left} :
      statement finish t (inner ++ left) = .failed (.problem cause position) left suffix →
      Taken finish (.token t :: inner) (.problem cause position) left

theorem Taken.starts {segment left : List Item} {turn : Turn} (taken : Taken finish segment turn left) :
    ∃ t inner, segment = .token t :: inner := by
  cases taken with
  | statement | problem => exact ⟨_, _, rfl⟩

theorem Taken.derived {segment left : List Item} {node : Node}
    (taken : Taken finish segment (.statement node) left) :
    ∃ closed, Statement .plain closed segment node [] := by
  cases taken with
  | statement yields =>
    obtain ⟨closed, derived⟩ := derived_of_statement yields
    exact ⟨closed, Statement.alone derived⟩

theorem Taken.stops {segment left : List Item} {cause : Cause} {position : Position}
    (taken : Taken finish segment (.problem cause position) left) :
    ∃ tokens : List Token, ∃ items, segment ++ left = tokens.map .token ++ items ∧
      Stops finish items (.problem cause position) left := by
  cases taken with
  | problem failed => exact (reads_of_failed failed).stops rfl

/-- A turn reads the bad name that is its problem, and no other, unless it only looked at it. -/
theorem Taken.names {segment left : List Item} {turn : Turn}
    (taken : Taken finish segment turn left) :
    badNames segment = turn.badName?.toList ∨
      badNames segment = [] ∧ ∃ literal position rest,
        turn = .problem (.badName literal) position ∧ left = .badName literal position :: rest := by
  cases turn with
  | statement node =>
    obtain ⟨closed, derived⟩ := taken.derived
    obtain ⟨tokens, eq⟩ := derived.spans
    rw [eq, List.append_nil]
    exact .inl (badNames_tokens tokens)
  | problem cause position =>
    obtain ⟨tokens, items, split, stops⟩ := taken.stops
    -- A segment that ends in front of the items that are left consists of tokens.
    have before : left = items → badNames segment = [] := by
      rintro rfl
      rw [List.append_cancel_right split, badNames_tokens]
    have behind : ∀ item, items = item :: left →
        badNames segment = item.badName?.toList := by
      rintro item rfl
      rw [List.append_cons] at split
      rw [List.append_cancel_right split, badNames_append, badNames_tokens]
      cases item <;> rfl
    cases stops with
    | unexpected | unexpectedEnd | noOperandAtEnd => exact .inl (before rfl)
    | badNameAhead => exact .inr ⟨before rfl, _, _, _, rfl, rfl⟩
    | badName | noOperand | illegal | overflow => exact .inl (behind _ rfl)

/-! ### Turns one behind another -/

/-- What is read where parsing ends: the bad name that no statement can begin with. -/
def Ending.last : Ending → List Item
  | .badName literal position _ => [.badName literal position]
  | _ => []

/-- Turns one behind another, each with its segment, up to where parsing ends. -/
inductive Course (finish : Position) : List Item → List (List Item × Turn) → Ending → Prop
  | endOfSource : Course finish [] [] .endOfSource
  | badName {literal : Text} {position : Position} {rest : List Item} :
      Course finish (.badName literal position :: rest) [] (.badName literal position rest)
  | turn {segment left : List Item} {turn : Turn} {segments : List (List Item × Turn)}
      {ending : Ending} : Taken finish segment turn left → Course finish left segments ending →
      Course finish (segment ++ left) ((segment, turn) :: segments) ending

def segmentItems (segments : List (List Item × Turn)) : List Item :=
  (segments.map Prod.fst).flatten

theorem exists_course {items : List Item}
    (goesOn : ∀ numeral rest, (turns finish items).2 ≠ .tooLong numeral rest) :
    ∃ segments, Course finish items segments (turns finish items).2 ∧
      segments.map Prod.snd = (turns finish items).1 := by
  fun_induction turns finish items with
  | case1 => exact ⟨[], .endOfSource, rfl⟩
  | case2 => exact ⟨[], .badName, rfl⟩
  | case3 t rest node left suffix eq ih =>
    obtain ⟨inner, rfl⟩ := suffix
    obtain ⟨segments, course, same⟩ := ih goesOn
    exact ⟨(.token t :: inner, .statement node) :: segments, .turn (.statement ⟨_, eq⟩) course,
      congrArg (_ :: ·) same⟩
  | case4 t rest cause position left suffix eq ih =>
    obtain ⟨inner, rfl⟩ := suffix
    obtain ⟨segments, course, same⟩ := ih goesOn
    exact ⟨(.token t :: inner, .problem cause position) :: segments, .turn (.problem eq) course,
      congrArg (_ :: ·) same⟩
  | case5 => exact absurd rfl (goesOn _ _)

namespace Course

variable {items : List Item} {segments : List (List Item × Turn)} {ending : Ending}

theorem goesOn (course : Course finish items segments ending) (numeral : Decimal.TooLong)
    (rest : List Item) : ending ≠ .tooLong numeral rest := by
  induction course with
  | endOfSource | badName => exact nofun
  | turn _ _ ih => exact ih

/-- Nothing is left out between the segments, and nothing is read twice. -/
theorem split (course : Course finish items segments ending) :
    items = segmentItems segments ++ ending.last ++ ending.unread := by
  induction course with
  | endOfSource | badName => rfl
  | @turn segment left turn segments ending taken course ih =>
    rw [segmentItems, List.map_cons, List.flatten_cons, List.append_assoc, List.append_assoc,
      ← List.append_assoc (List.map Prod.fst segments).flatten, ← segmentItems, ← ih]

theorem taken_within (course : Course finish items segments ending) {segment : List Item}
    {turn : Turn} (member : (segment, turn) ∈ segments) :
    ∃ left, Taken finish segment turn left ∧ segment ++ left <:+ items := by
  induction course with
  | endOfSource | badName => simp at member
  | turn first _ ih =>
    rcases List.mem_cons.mp member with same | member
    · cases same
      exact ⟨_, first, List.suffix_rfl⟩
    · obtain ⟨left, taken, suffix⟩ := ih member
      exact ⟨left, taken, suffix.trans (List.suffix_append ..)⟩

theorem taken (course : Course finish items segments ending) {segment : List Item} {turn : Turn}
    (member : (segment, turn) ∈ segments) : ∃ left, Taken finish segment turn left := by
  obtain ⟨left, taken, _⟩ := course.taken_within member
  exact ⟨left, taken⟩

/-- Where no statement can begin, no turn is taken. -/
theorem of_badName {literal : Text} {position : Position} {rest : List Item}
    (course : Course finish items segments ending)
    (starts : items = .badName literal position :: rest) :
    segments = [] ∧ ending = .badName literal position rest := by
  cases course with
  | endOfSource => contradiction
  | badName =>
    cases starts
    exact ⟨rfl, rfl⟩
  | turn first =>
    obtain ⟨t, inner, rfl⟩ := first.starts
    cases starts

/-- The bad names that are read are the problems of the turns, and the one where parsing ends unless
the last turn has looked at it. -/
theorem names (course : Course finish items segments ending) :
    badNames (segmentItems segments ++ ending.last) =
        (segments.map Prod.snd ++ ending.turns).filterMap Turn.badName? ∨
      (∃ before literal position rest,
        segments.map Prod.snd = before ++ [.problem (.badName literal) position] ∧
        ending = .badName literal position rest ∧
        badNames (segmentItems segments ++ ending.last) =
          (segments.map Prod.snd).filterMap Turn.badName?) := by
  induction course with
  | endOfSource | badName => exact .inl rfl
  | @turn segment left turn segments ending taken course ih =>
    have first : badNames (segmentItems ((segment, turn) :: segments) ++ ending.last) =
        badNames segment ++ badNames (segmentItems segments ++ ending.last) := by
      rw [← badNames_append, segmentItems, List.map_cons, List.flatten_cons, List.append_assoc,
        segmentItems]
    have cons : ∀ turns : List Turn, (turn :: turns).filterMap Turn.badName? =
        turn.badName?.toList ++ turns.filterMap Turn.badName? := by
      intro turns
      rw [List.filterMap_cons]
      cases turn.badName? <;> rfl
    rw [first, List.map_cons]
    rcases taken.names with names | ⟨names, literal, position, rest, rfl, starts⟩
    · rw [names]
      rcases ih with all | ⟨before, literal, position, rest, last, isEnding, all⟩
      · exact .inl (by rw [all, List.cons_append, cons])
      · refine .inr ⟨turn :: before, literal, position, rest, by rw [last]; rfl, isEnding, ?_⟩
        rw [all, cons]
    · obtain ⟨rfl, rfl⟩ := course.of_badName starts
      exact .inr ⟨[], literal, position, rest, rfl, rfl, by rw [names]; rfl⟩

end Course

end Parser

end MonkeySyntax
