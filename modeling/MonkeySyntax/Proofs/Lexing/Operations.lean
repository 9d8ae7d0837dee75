import MonkeySyntax.Lexer
import MonkeySyntax.Proofs.Lexing.Places

/-!
# Operations on a shared lexer

Several readers may share a lexer: they read from it, look ahead, and step runs over its tokens, in
any order. An operation does nothing (`Shared.perform_of_ended`) or comes to the next item
(`Shared.perform_of_active`).
-/

namespace MonkeySyntax

/-! ### A single reader -/

namespace Lexer

def nextMany : Nat → Lexer → Lexer
  | 0, lexer => lexer
  | n + 1, lexer => nextMany n lexer.next.lexer

/-- What a reader that does nothing but read is given at last, after `n` items. -/
def outcomeAfter (n : Nat) (lexer : Lexer) : Except Error Token := (lexer.nextMany n).next.outcome

theorem reported_report_badName (lexer : Lexer) (literal : Text) (position : Position) :
    (lexer.report (.badName literal position)).2.reported = some position := by
  rw [report]
  split
  · assumption
  · rfl

theorem events_report_badName (lexer : Lexer) (literal : Text) (position : Position) :
    (lexer.report (.badName literal position)).1 =
      if lexer.reported = some position then []
      else [.badName literal lexer.filename position] := by
  rw [report]
  exact apply_ite Prod.fst _ _ _

theorem report_again (lexer : Lexer) (literal : Text) (position : Position) :
    (lexer.report (.badName literal position)).2.report (.badName literal position) =
      ([], (lexer.report (.badName literal position)).2) := by
  rw [report, if_pos (lexer.reported_report_badName literal position)]

theorem badName_of_outcomeOf {filename : Text} {item : Item} {e : Error}
    (h : outcomeOf filename item = .error e) :
    ∃ literal, item = .badName literal e.position ∧ e = ⟨.badName literal, filename, e.position⟩ := by
  cases item with
  | token t => contradiction
  | badName literal position =>
    cases h
    exact ⟨literal, rfl, rfl⟩

@[simp] theorem outcome_next (lexer : Lexer) :
    lexer.next.outcome = outcomeOf lexer.filename lexer.cursor.read.1 := by
  rw [next]
  exact congrArg (outcomeOf · _) (lexer.filename_report _)

@[simp] theorem filename_next (lexer : Lexer) : lexer.next.lexer.filename = lexer.filename :=
  lexer.filename_report _

@[simp] theorem cursor_next (lexer : Lexer) : lexer.next.lexer.cursor = lexer.cursor.read.2 := rfl

theorem outcomeAfter_eq (n : Nat) (lexer : Lexer) :
    lexer.outcomeAfter n = outcomeOf lexer.filename (lexer.cursor.readMany n).read.1 := by
  induction n generalizing lexer with
  | zero => exact lexer.outcome_next
  | succ n ih =>
    have tail := ih lexer.next.lexer
    rw [filename_next, cursor_next] at tail
    exact tail

end Lexer

/-! ### Several readers -/

/-- What is done with a shared lexer: reading, looking ahead, and a step of one of the runs over its
tokens. -/
inductive Operation where
  | next
  | peek
  | step (run : Nat)
deriving DecidableEq

/-- A lexer and the runs that share it. -/
structure Shared where
  lexer : Lexer
  runs : Nat → TokenRun := fun _ => {}

/-- An operation, what it returned if anything, what happened meanwhile, and the lexer before it and
after it. -/
structure Performed where
  operation : Operation
  outcome : Option (Except Error Token)
  events : List Event
  before : Lexer
  after : Lexer

namespace Shared

def ofSource (source filename : Text) : Shared := { lexer := .ofSource source filename }

def perform (shared : Shared) (operation : Operation) : Performed × Shared :=
  match operation with
  | .next =>
    let step := shared.lexer.next
    (⟨.next, some step.outcome, step.events, shared.lexer, step.lexer⟩,
      { shared with lexer := step.lexer })
  | .peek =>
    let step := shared.lexer.peek
    (⟨.peek, some step.outcome, step.events, shared.lexer, step.lexer⟩,
      { shared with lexer := step.lexer })
  | .step run =>
    let step := (shared.runs run).step shared.lexer
    (⟨.step run, step.outcome.1, step.events, shared.lexer, step.lexer⟩,
      { lexer := step.lexer
        runs := fun other => if other = run then step.outcome.2 else shared.runs other })

def trace (shared : Shared) : List Operation → List Performed
  | [] => []
  | operation :: operations =>
    (shared.perform operation).1 :: trace (shared.perform operation).2 operations

end Shared

/-- Whether a run over the tokens is over with this. -/
def isLast : Except Error Token → Bool
  | .ok t => t.kind == .eof
  | .error _ => true

namespace Performed

/-- Whether the operation took an item from the lexer. -/
def consumes (performed : Performed) : Bool :=
  performed.operation ≠ .peek && performed.outcome.isSome

/-- Whether the end token was returned, or a bad name. -/
def ends (performed : Performed) : Bool := performed.outcome.any isLast

end Performed

/-- The number of items that were taken from the lexer. -/
def taken (performed : List Performed) : Nat := (performed.filter Performed.consumes).length

/-- A run is over if one of its steps returned the end token or a bad name. -/
def IsOver (run : Nat) (earlier : List Performed) : Prop :=
  ∃ performed ∈ earlier, performed.operation = .step run ∧ performed.ends

/-- What is written to a stream for diagnostics, if there is one. -/
def written (stream : Bool) (events : List Event) : Text :=
  if stream then diagnostics events else []

theorem taken_append (earlier : List Performed) (performed : Performed) :
    taken (earlier ++ [performed]) = taken earlier + if performed.consumes then 1 else 0 := by
  rw [taken, List.filter_append, List.length_append]
  by_cases consumes : performed.consumes
  · rw [List.filter_cons_of_pos consumes, if_pos consumes]
    rfl
  · rw [List.filter_cons_of_neg consumes, if_neg consumes]
    rfl

theorem isOver_append {run : Nat} {earlier : List Performed} {performed : Performed} :
    IsOver run (earlier ++ [performed]) ↔
      IsOver run earlier ∨ performed.operation = .step run ∧ performed.ends := by
  simp only [IsOver, List.mem_append, List.mem_singleton, or_and_right, exists_or,
    exists_eq_left]

/-! ### One operation -/

/-- The lexer behind an operation that came to the next item: it has moved unless the operation was
a look ahead, and a bad name has been reported. -/
structure Came (operation : Operation) (before after : Lexer) : Prop where
  filename : after.filename = before.filename
  cursor : after.cursor = if operation = .peek then before.cursor else before.cursor.read.2
  reported : after.reported = (before.report before.cursor.read.1).2.reported

namespace Came

variable {operation : Operation} {before after : Lexer} {literal : Text} {position : Position}

theorem forward (came : Came operation before after) :
    before.cursor.position ≤ after.cursor.position := by
  rw [came.cursor]
  split
  · exact le_rfl
  · exact Cursor.position_le_read _

/-- The lexer is behind a bad name, or that was the last it reported. -/
theorem met (came : Came operation before after)
    (isNext : before.cursor.read.1 = .badName literal position) :
    position ≤ after.cursor.position ∨ after.reported = some position := by
  by_cases ahead : operation = .peek
  · rw [came.reported, isNext]
    exact .inr (before.reported_report_badName ..)
  · rw [came.cursor, if_neg ahead]
    exact .inl (Cursor.position_of_badName isNext).2

/-- What was reported last was so before, or is the bad name that the operation came to. -/
theorem reported_cases (came : Came operation before after)
    (isReported : after.reported = some position) :
    (before.reported = some position ∧ ∃ t, before.cursor.read.1 = .token t) ∨
      ∃ literal, before.cursor.read.1 = .badName literal position ∧
        (position ≤ after.cursor.position ∨ after.cursor = before.cursor) := by
  rw [came.reported] at isReported
  cases isNext : before.cursor.read.1 with
  | token t =>
    rw [isNext] at isReported
    exact .inl ⟨isReported, t, rfl⟩
  | badName literal place =>
    rw [isNext, Lexer.reported_report_badName] at isReported
    obtain rfl := Option.some.inj isReported
    refine .inr ⟨literal, rfl, ?_⟩
    rw [came.cursor]
    by_cases ahead : operation = .peek
    · exact .inr (if_pos ahead)
    · rw [if_neg ahead]
      exact .inl (Cursor.position_of_badName isNext).2

end Came

namespace Shared

variable {shared : Shared} {operation : Operation}

theorem operation_perform : (shared.perform operation).1.operation = operation := by
  cases operation <;> rfl

theorem perform_of_ended {run : Nat} (ended : (shared.runs run).ended) :
    shared.perform (.step run) = (⟨.step run, none, [], shared.lexer, shared.lexer⟩, shared) := by
  have idle : (shared.runs run).step shared.lexer =
      ⟨(none, shared.runs run), [], shared.lexer⟩ := by
    rw [TokenRun.step, if_pos ended]
  have same : (fun other => if other = run then shared.runs run else shared.runs other) =
      shared.runs := by
    funext other
    split
    · rename_i eq
      rw [eq]
    · rfl
  rw [perform]
  simp only [idle, same]

/-- Any other operation comes to the next item, and takes it unless it is a look ahead. -/
theorem perform_of_active (active : ∀ run, operation = .step run → (shared.runs run).ended = false) :
    ∃ after : Shared,
      shared.perform operation =
        (⟨operation, some (Lexer.outcomeOf shared.lexer.filename shared.lexer.cursor.read.1),
          (shared.lexer.report shared.lexer.cursor.read.1).1, shared.lexer, after.lexer⟩, after) ∧
      Came operation shared.lexer after.lexer ∧
      ∀ run, (after.runs run).ended =
        if operation = .step run then
          isLast (Lexer.outcomeOf shared.lexer.filename shared.lexer.cursor.read.1)
        else (shared.runs run).ended := by
  refine ⟨(shared.perform operation).2, ?_⟩
  cases operation with
  | next =>
    refine ⟨?_, ⟨shared.lexer.filename_report _, rfl, rfl⟩, fun _ => rfl⟩
    rw [perform]
    simp only [Lexer.outcome_next]
    rfl
  | peek =>
    refine ⟨?_, ⟨shared.lexer.filename_report _, shared.lexer.cursor_peek, rfl⟩, fun _ => rfl⟩
    rw [perform]
    simp only [Lexer.outcome_peek, Lexer.outcome_next]
    rfl
  | step run =>
    have stepped : (shared.runs run).step shared.lexer =
        ⟨(some shared.lexer.next.outcome, ⟨isLast shared.lexer.next.outcome⟩),
          shared.lexer.next.events, shared.lexer.next.lexer⟩ := by
      rw [TokenRun.step, active run rfl]
      rfl
    rw [perform]
    simp only [stepped, Lexer.outcome_next]
    refine ⟨rfl, ⟨shared.lexer.filename_report _, rfl, rfl⟩, fun other => ?_⟩
    by_cases same : other = run
    · rw [if_pos same, same, if_pos rfl]
    · rw [if_neg same, if_neg fun eq => same (Operation.step.inj eq).symm]

/-! ### Runs of operations -/

def after (shared : Shared) : List Operation → Shared
  | [] => shared
  | operation :: operations => after (shared.perform operation).2 operations

theorem exists_perform_of_trace {shared : Shared} {operations : List Operation}
    {before later : List Performed} {performed : Performed}
    (split : shared.trace operations = before ++ performed :: later) :
    ∃ first operation rest, operations = first ++ operation :: rest ∧
      before = shared.trace first ∧ performed = ((shared.after first).perform operation).1 := by
  induction before generalizing shared operations with
  | nil =>
    cases operations with
    | nil => contradiction
    | cons operation rest =>
      exact ⟨[], operation, rest, rfl, rfl, (List.cons.inj split).1.symm⟩
  | cons done before ih =>
    cases operations with
    | nil => contradiction
    | cons operation rest =>
      obtain ⟨isDone, tail⟩ := List.cons.inj split
      obtain ⟨first, this, more, rfl, rfl, isThis⟩ := ih tail
      exact ⟨operation :: first, this, more, rfl, by rw [trace, isDone], isThis⟩

end Shared

end MonkeySyntax
