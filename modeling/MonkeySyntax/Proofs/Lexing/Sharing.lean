import MonkeySyntax.Proofs.Lexing.Operations

/-!
# Sharing a lexer

All that share a lexer read together what a single reader would (`trace_takesTurns`): a look ahead
shows what is taken next and moves nothing, a run that is over takes nothing from the others, and
each bad name is reported by the first operation that comes to it. The lexer remembers one bad name,
and that is enough because no operation comes to a place again that an item was taken from.
-/

namespace MonkeySyntax

/-- The lexer stands behind the items that were taken, the runs are over that have come to an end,
and the bad name that was reported last is the last that any operation came to. -/
structure InTurn (source filename : Text) (earlier : List Performed) (shared : Shared) :
    Prop where
  named : shared.lexer.filename = filename
  cursor : shared.lexer.cursor = (Cursor.ofSource source).readMany (taken earlier)
  consumed : (earlier.filter Performed.consumes).map Performed.outcome =
    (List.range (taken earlier)).map fun n => some ((Lexer.ofSource source filename).outcomeAfter n)
  finished (run : Nat) : (shared.runs run).ended ↔ IsOver run earlier
  seen (performed : Performed) (e : Error) : performed ∈ earlier →
    performed.outcome = some (.error e) →
      e.position ≤ shared.lexer.cursor.position ∨ shared.lexer.reported = some e.position
  reported (position : Position) : shared.lexer.reported = some position →
    position ≤ shared.lexer.cursor.position ∨
      ∃ literal, shared.lexer.cursor.read.1 = .badName literal position ∧
        ∃ performed ∈ earlier,
          performed.outcome = some (.error ⟨.badName literal, filename, position⟩)

namespace InTurn

variable {source filename : Text} {earlier : List Performed} {shared : Shared}
variable {operation : Operation}

theorem start (source filename : Text) : InTurn source filename [] (.ofSource source filename) where
  named := rfl
  cursor := rfl
  consumed := rfl
  finished run := by simp [IsOver, Shared.ofSource]
  seen performed e member := by simp at member
  reported position isReported := by simp [Shared.ofSource, Lexer.ofSource] at isReported

/-! ### One operation -/

/-- An operation is a step of a run that is over, and does nothing, or it is not. -/
theorem perform_cases (inTurn : InTurn source filename earlier shared) (operation : Operation) :
    (∃ run, operation = .step run ∧ IsOver run earlier ∧
        shared.perform operation =
          (⟨.step run, none, [], shared.lexer, shared.lexer⟩, shared)) ∨
      (∀ run, operation = .step run → (shared.runs run).ended = false) := by
  by_cases idle : ∃ run, operation = .step run ∧ (shared.runs run).ended
  · obtain ⟨run, rfl, ended⟩ := idle
    exact .inl ⟨run, rfl, (inTurn.finished run).mp ended, Shared.perform_of_ended ended⟩
  · refine .inr fun run isStep => ?_
    exact Bool.eq_false_iff.mpr fun ended => idle ⟨run, isStep, ended⟩

theorem not_isOver (inTurn : InTurn source filename earlier shared) {run : Nat}
    (active : (shared.runs run).ended = false) : ¬ IsOver run earlier := by
  rw [← inTurn.finished, active]
  exact Bool.false_ne_true

theorem outcome_of_active (inTurn : InTurn source filename earlier shared)
    (active : ∀ run, operation = .step run → (shared.runs run).ended = false) :
    (shared.perform operation).1.outcome =
      some ((Lexer.ofSource source filename).outcomeAfter (taken earlier)) := by
  obtain ⟨after, eq, _⟩ := Shared.perform_of_active active
  rw [eq, Lexer.outcomeAfter_eq, inTurn.named, inTurn.cursor]
  rfl

theorem consumes_iff (inTurn : InTurn source filename earlier shared) (operation : Operation) :
    (shared.perform operation).1.consumes ↔
      operation = .next ∨ ∃ run, operation = .step run ∧ ¬ IsOver run earlier := by
  rcases inTurn.perform_cases operation with ⟨run, rfl, isOver, eq⟩ | active
  · rw [eq]
    simp [Performed.consumes, isOver]
  · obtain ⟨after, eq, _⟩ := Shared.perform_of_active active
    rw [eq]
    cases operation with
    | next | peek => simp [Performed.consumes]
    | step run => simp [Performed.consumes, inTurn.not_isOver (active run rfl)]

/-- A bad name was reported before exactly if some operation came to it. -/
theorem reported_iff (inTurn : InTurn source filename earlier shared) {literal : Text}
    {position : Position} (isNext : shared.lexer.cursor.read.1 = .badName literal position) :
    shared.lexer.reported = some position ↔
      ∃ other ∈ earlier, other.outcome = some (.error ⟨.badName literal, filename, position⟩) := by
  have ahead := (Cursor.position_of_badName isNext).1
  constructor
  · intro last
    rcases inTurn.reported position last with passed | ⟨found, isFound, came⟩
    · exact absurd ahead passed.not_gt
    · rw [isNext] at isFound
      obtain ⟨rfl, _⟩ := Item.badName.inj isFound
      exact came
  · rintro ⟨other, member, came⟩
    rcases inTurn.seen other _ member came with passed | last
    · exact absurd ahead passed.not_gt
    · exact last

/-- The first operation that comes to a bad name reports it. -/
theorem reports (inTurn : InTurn source filename earlier shared) {e : Error}
    (returned : (shared.perform operation).1.outcome = some (.error e))
    (fresh : ∀ other ∈ earlier, other.outcome ≠ some (.error e)) :
    ∃ literal, e = ⟨.badName literal, filename, e.position⟩ ∧
      (shared.perform operation).1.events = [.badName literal filename e.position] := by
  rcases inTurn.perform_cases operation with ⟨run, _, _, eq⟩ | active
  · rw [eq] at returned
    contradiction
  · obtain ⟨after, eq, _⟩ := Shared.perform_of_active active
    rw [eq, inTurn.named] at returned
    obtain ⟨literal, isNext, isBadName⟩ := Lexer.badName_of_outcomeOf (Option.some.inj returned)
    refine ⟨literal, isBadName, ?_⟩
    rw [eq, isNext, Lexer.events_report_badName, inTurn.named, if_neg]
    rw [inTurn.reported_iff isNext, ← isBadName]
    rintro ⟨other, member, known⟩
    exact fresh other member known

/-- No other operation reports anything. -/
theorem reports_nothing (inTurn : InTurn source filename earlier shared)
    (known : ∀ e, (shared.perform operation).1.outcome = some (.error e) →
      ∃ other ∈ earlier, other.outcome = some (.error e)) :
    (shared.perform operation).1.events = [] := by
  rcases inTurn.perform_cases operation with ⟨run, _, _, eq⟩ | active
  · rw [eq]
  · obtain ⟨after, eq, _⟩ := Shared.perform_of_active active
    rw [eq, inTurn.named] at known
    rw [eq]
    cases isNext : shared.lexer.cursor.read.1 with
    | token t => rw [Lexer.report]
    | badName literal position =>
      have came := known ⟨.badName literal, filename, position⟩ (by rw [isNext]; rfl)
      rw [Lexer.events_report_badName, if_pos ((inTurn.reported_iff isNext).mpr came)]

/-! ### What operations keep -/

theorem idle (inTurn : InTurn source filename earlier shared) (run : Nat) :
    InTurn source filename
      (earlier ++ [⟨.step run, none, [], shared.lexer, shared.lexer⟩]) shared where
  named := inTurn.named
  cursor := by
    rw [taken_append]
    exact inTurn.cursor
  consumed := by
    rw [taken_append, List.filter_append, List.map_append, inTurn.consumed]
    exact List.append_nil _
  finished other := by
    rw [inTurn.finished, isOver_append]
    simp [Performed.ends]
  seen performed e member := by
    rcases List.mem_append.mp member with member | member
    · exact inTurn.seen performed e member
    · rw [List.mem_singleton.mp member]
      exact nofun
  reported position isReported := by
    refine (inTurn.reported position isReported).imp_right ?_
    rintro ⟨literal, met, performed, member, returned⟩
    exact ⟨literal, met, performed, List.mem_append_left _ member, returned⟩

theorem active (inTurn : InTurn source filename earlier shared)
    (active : ∀ run, operation = .step run → (shared.runs run).ended = false) :
    InTurn source filename (earlier ++ [(shared.perform operation).1])
      (shared.perform operation).2 := by
  have outcome := inTurn.outcome_of_active active
  obtain ⟨after, eq, came, ended⟩ := Shared.perform_of_active active
  rw [eq] at outcome ⊢
  constructor
  · exact came.filename.trans inTurn.named
  · rw [taken_append, came.cursor, inTurn.cursor]
    by_cases ahead : operation = .peek
    · simp [Performed.consumes, ahead]
    · simp [Performed.consumes, ahead, Cursor.readMany_succ]
  · rw [taken_append, List.filter_append, List.map_append, inTurn.consumed]
    by_cases ahead : operation = .peek
    · simp [Performed.consumes, ahead]
    · simpa [Performed.consumes, ahead, List.range_succ] using outcome
  · intro run
    rw [ended, isOver_append]
    by_cases isStep : operation = .step run
    · simp [isStep, Performed.ends, inTurn.not_isOver (active run isStep)]
    · simp [isStep, inTurn.finished]
  · intro other e member returned
    rcases List.mem_append.mp member with member | member
    · -- A bad name reported before that the lexer is not behind is the next item still.
      rcases inTurn.seen other e member returned with passed | last
      · exact .inl (passed.trans came.forward)
      · rcases inTurn.reported _ last with passed | ⟨literal, isNext, _⟩
        · exact .inl (passed.trans came.forward)
        · exact came.met isNext
    · rw [List.mem_singleton.mp member] at returned
      obtain ⟨literal, isNext, _⟩ := Lexer.badName_of_outcomeOf (Option.some.inj returned)
      exact came.met isNext
  · intro position isReported
    rcases came.reported_cases isReported with ⟨before, t, isToken⟩ | ⟨literal, isNext, stands⟩
    · rcases inTurn.reported position before with passed | ⟨literal, isName, _⟩
      · exact .inl (passed.trans came.forward)
      · rw [isToken] at isName
        contradiction
    · refine stands.imp_right fun stays => ?_
      refine ⟨literal, by rw [stays, isNext], _, List.mem_append_right _ List.mem_cons_self, ?_⟩
      rw [isNext, inTurn.named]
      rfl

theorem perform (inTurn : InTurn source filename earlier shared) (operation : Operation) :
    InTurn source filename (earlier ++ [(shared.perform operation).1])
      (shared.perform operation).2 := by
  rcases inTurn.perform_cases operation with ⟨run, rfl, _, eq⟩ | active
  · rw [eq]
    exact inTurn.idle run
  · exact inTurn.active active

theorem trace (inTurn : InTurn source filename earlier shared) (operations : List Operation) :
    InTurn source filename (earlier ++ shared.trace operations) (shared.after operations) := by
  induction operations generalizing earlier shared with
  | nil =>
    rw [Shared.trace, List.append_nil]
    exact inTurn
  | cons operation operations ih =>
    have tail := ih (inTurn.perform operation)
    rwa [List.append_assoc] at tail

/-- Behind operations that took nothing, the next one that takes an item takes the one they showed. -/
theorem takes_next {operations : List Operation} {before later : List Performed}
    {performed taker : Performed}
    (split : (Shared.ofSource source filename).trace operations = before ++ performed :: later)
    (looks : performed.consumes = false) (found : later.find? Performed.consumes = some taker) :
    taker.outcome = some ((Lexer.ofSource source filename).outcomeAfter (taken before)) := by
  obtain ⟨takes, between, rest, rfl, noneTakes⟩ := List.find?_eq_some_iff_append.mp found
  have nothing : between.filter Performed.consumes = [] := by
    rw [List.filter_eq_nil_iff]
    simpa using noneTakes
  have sameTaken : taken (before ++ performed :: between) = taken before := by
    rw [taken, List.filter_append, List.filter_cons_of_neg (by simp [looks]), nothing,
      List.append_nil, taken]
  rw [← List.cons_append, ← List.append_assoc] at split
  obtain ⟨first, operation, _, _, isBefore, rfl⟩ := Shared.exists_perform_of_trace split
  have inTurn := (start source filename).trace first
  rw [List.nil_append, ← isBefore] at inTurn
  rcases inTurn.perform_cases operation with ⟨run, _, _, eq⟩ | active
  · rw [eq] at takes
    contradiction
  · rw [inTurn.outcome_of_active active, sameTaken]

end InTurn

/-! ### Runs of operations -/

/-- What becomes of the operations on a shared lexer. -/
structure TakesTurns (source filename : Text) (stream : Bool) (trace : List Performed) : Prop where
  /-- Reading takes an item, and so does a step of a run that is not over. -/
  consumes_iff (before : List Performed) (performed : Performed) (later : List Performed) :
    trace = before ++ performed :: later →
      (performed.consumes ↔ performed.operation = .next ∨
        ∃ run, performed.operation = .step run ∧ ¬ IsOver run before)
  /-- What takes an item gets what a single reader gets. -/
  consumed : (trace.filter Performed.consumes).map Performed.outcome =
    (List.range (taken trace)).map fun n => some ((Lexer.ofSource source filename).outcomeAfter n)
  /-- A look ahead shows what the next operation gets that takes an item, and moves nothing. -/
  peeked (before : List Performed) (performed : Performed) (later : List Performed) :
    trace = before ++ performed :: later → performed.operation = .peek →
      performed.outcome = some ((Lexer.ofSource source filename).outcomeAfter (taken before)) ∧
      performed.after.cursor = performed.before.cursor ∧
      ∀ taker, later.find? Performed.consumes = some taker → taker.outcome = performed.outcome
  /-- A step of a run that is over does nothing. -/
  idle (before : List Performed) (performed : Performed) (later : List Performed) (run : Nat) :
    trace = before ++ performed :: later → performed.operation = .step run → IsOver run before →
      performed.outcome = none ∧ performed.after = performed.before ∧ performed.events = []
  /-- The first operation that comes to a bad name reports it. -/
  first (before : List Performed) (performed : Performed) (later : List Performed) (e : Error) :
    trace = before ++ performed :: later → performed.outcome = some (.error e) →
      (∀ other ∈ before, other.outcome ≠ some (.error e)) →
      ∃ literal, e = ⟨.badName literal, filename, e.position⟩ ∧
        performed.events = [.badName literal filename e.position] ∧
        written stream performed.events = if stream then e.line else []
  /-- No other operation reports anything. -/
  again (before : List Performed) (performed : Performed) (later : List Performed) :
    trace = before ++ performed :: later →
      (∀ e, performed.outcome = some (.error e) →
        ∃ other ∈ before, other.outcome = some (.error e)) →
      performed.events = []

/-- All that share a lexer read together what a single reader would. -/
theorem trace_takesTurns (source filename : Text) (stream : Bool) (operations : List Operation) :
    TakesTurns source filename stream
      ((Shared.ofSource source filename).trace operations) := by
  have inTurn : ∀ first, InTurn source filename ((Shared.ofSource source filename).trace first)
      ((Shared.ofSource source filename).after first) :=
    fun first => (InTurn.start source filename).trace first
  constructor
  · intro before performed later split
    obtain ⟨first, operation, _, _, rfl, rfl⟩ := Shared.exists_perform_of_trace split
    rw [Shared.operation_perform]
    exact (inTurn first).consumes_iff operation
  · exact (inTurn operations).consumed
  · intro before performed later split isPeek
    have looks : performed.consumes = false := by simp [Performed.consumes, isPeek]
    obtain ⟨first, operation, _, _, rfl, rfl⟩ := Shared.exists_perform_of_trace split
    rw [Shared.operation_perform] at isPeek
    obtain rfl := isPeek
    have noStep : ∀ run, Operation.peek = .step run →
        (((Shared.ofSource source filename).after first).runs run).ended = false := nofun
    have shown := (inTurn first).outcome_of_active noStep
    refine ⟨shown, Lexer.cursor_peek _, fun taker found => ?_⟩
    exact (InTurn.takes_next split looks found).trans shown.symm
  · intro before performed later run split isStep isOver
    obtain ⟨first, operation, _, _, rfl, rfl⟩ := Shared.exists_perform_of_trace split
    rw [Shared.operation_perform] at isStep
    obtain rfl := isStep
    rw [Shared.perform_of_ended (((inTurn first).finished run).mpr isOver)]
    exact ⟨rfl, rfl, rfl⟩
  · intro before performed later e split returned fresh
    obtain ⟨first, operation, _, _, rfl, rfl⟩ := Shared.exists_perform_of_trace split
    obtain ⟨literal, isBadName, events⟩ := (inTurn first).reports returned fresh
    refine ⟨literal, isBadName, events, ?_⟩
    rw [events, isBadName, written]
    simp [diagnostics, Event.diagnostic]
  · intro before performed later split known
    obtain ⟨first, operation, _, _, rfl, rfl⟩ := Shared.exists_perform_of_trace split
    exact (inTurn first).reports_nothing known

end MonkeySyntax
