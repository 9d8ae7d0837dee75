import Mathlib
import MonkeySyntax.Parser.Program
import MonkeySyntax.Proofs.Lexing.InPlace

/-!
# What stands behind a NUL

Readers may share a source that is kept whole. Whatever they do, and in whatever order, they see
what readers of the source cut at its first NUL see (`Reader.trace_ofSource`), so that two sources
with the same text in front of a NUL cannot be told apart (`unseen_behind_nul`).
-/

namespace MonkeySyntax

/-- What an operation lets be seen: what it returns, where it leaves the lexer, and what it writes to
the log and to the stream for diagnostics. -/
structure Observed where
  outcome : Option (Except Error Token)
  position : Position
  records : List LogRecord
  diagnostics : Text

def Performed.observed (stream : Bool) (performed : Performed) : Observed where
  outcome := performed.outcome
  position := performed.after.cursor.position
  records := performed.events.map Event.record
  diagnostics := written stream performed.events

/-- A source that is read in place, by readers that share the scanner; `ended` are the runs over its
tokens that are over. -/
structure Reader where
  filename : Text
  scanner : Scanner
  reported : Option Position := none
  ended : Nat → Bool := fun _ => false

namespace Reader

def ofSource (source filename : Text) : Reader where
  filename := filename
  scanner := .ofSource source

/-- Reports an item, unless it is a token or was the last one reported. -/
def report (reader : Reader) : Item → List Event × Option Position
  | .token _ => ([], reader.reported)
  | .badName literal position =>
    if reader.reported = some position then ([], reader.reported)
    else ([.badName literal reader.filename position], some position)

/-- Comes to the next item. A look ahead puts the scanner back to where it was. -/
def come (stream ahead : Bool) (reader : Reader) : Observed × Reader :=
  let (item, behind) := reader.scanner.next
  let (events, reported) := reader.report item
  let scanner := if ahead then reader.scanner else behind
  ({ outcome := some (Lexer.outcomeOf reader.filename item)
     position := scanner.position
     records := events.map Event.record
     diagnostics := written stream events },
    { reader with scanner, reported })

def perform (stream : Bool) (reader : Reader) : Operation → Observed × Reader
  | .next => reader.come stream false
  | .peek => reader.come stream true
  | .step run =>
    if reader.ended run then (⟨none, reader.scanner.position, [], []⟩, reader)
    else
      let (observed, after) := reader.come stream false
      (observed, { after with
        ended := fun other =>
          if other = run then observed.outcome.any isLast else reader.ended other })

def trace (stream : Bool) (reader : Reader) : List Operation → List Observed
  | [] => []
  | operation :: operations =>
    (reader.perform stream operation).1 ::
      trace stream (reader.perform stream operation).2 operations

/-- A source in place and a cut one are in the same state. -/
structure Mirrors (reader : Reader) (shared : Shared) : Prop where
  filename : reader.filename = shared.lexer.filename
  reported : reader.reported = shared.lexer.reported
  scanner : reader.scanner.Follows shared.lexer.cursor
  ended : ∀ run, reader.ended run = (shared.runs run).ended

variable {reader : Reader} {shared : Shared} {operation : Operation} {stream : Bool}

theorem mirrors_ofSource (source filename : Text) :
    Mirrors (ofSource source filename) (.ofSource source filename) :=
  ⟨rfl, rfl, Scanner.follows_ofSource source, fun _ => rfl⟩

theorem Mirrors.report (mirrors : Mirrors reader shared) (item : Item) :
    reader.report item =
      ((shared.lexer.report item).1, (shared.lexer.report item).2.reported) := by
  cases item with
  | token t => rw [Reader.report, Lexer.report, mirrors.reported]
  | badName literal position =>
    rw [Reader.report, Lexer.report, mirrors.reported, mirrors.filename]
    split <;> rfl

/-- Coming to an item lets the same be seen and keeps the states alike. -/
theorem Mirrors.come (mirrors : Mirrors reader shared) (stream : Bool) {after : Lexer}
    (came : Came operation shared.lexer after) :
    (reader.come stream (operation = .peek)).1 =
        Performed.observed stream
          ⟨operation, some (Lexer.outcomeOf shared.lexer.filename shared.lexer.cursor.read.1),
            (shared.lexer.report shared.lexer.cursor.read.1).1, shared.lexer, after⟩ ∧
      Mirrors (reader.come stream (operation = .peek)).2 { shared with lexer := after } := by
  obtain ⟨same, behind⟩ := Scanner.next_of_follows mirrors.scanner
  have follows : (if operation = .peek then reader.scanner else reader.scanner.next.2).Follows
      after.cursor := by
    rw [came.cursor]
    split
    · exact mirrors.scanner
    · exact behind
  simp only [Reader.come, same, mirrors.report, decide_eq_true_eq]
  refine ⟨?_, mirrors.filename.trans came.filename.symm, came.reported.symm, follows, mirrors.ended⟩
  rw [Performed.observed, follows.position, mirrors.filename]

/-- One operation. -/
theorem Mirrors.perform (mirrors : Mirrors reader shared) (stream : Bool) (operation : Operation) :
    (reader.perform stream operation).1 = (shared.perform operation).1.observed stream ∧
      Mirrors (reader.perform stream operation).2 (shared.perform operation).2 := by
  by_cases idle : ∃ run, operation = .step run ∧ (shared.runs run).ended
  · obtain ⟨run, rfl, ended⟩ := idle
    rw [Reader.perform, mirrors.ended, if_pos ended, Shared.perform_of_ended ended]
    refine ⟨?_, mirrors⟩
    rw [Performed.observed, mirrors.scanner.position]
    cases stream <;> rfl
  · have active : ∀ run, operation = .step run → (shared.runs run).ended = false := by
      intro run isStep
      exact Bool.eq_false_iff.mpr fun ended => idle ⟨run, isStep, ended⟩
    obtain ⟨after, performed, came, runs⟩ := Shared.perform_of_active active
    obtain ⟨seen, mirrored⟩ := mirrors.come stream came
    rw [performed]
    cases operation with
    | next =>
      refine ⟨seen, mirrored.filename, mirrored.reported, mirrored.scanner, fun other => ?_⟩
      rw [runs, if_neg nofun]
      exact mirrored.ended other
    | peek =>
      refine ⟨seen, mirrored.filename, mirrored.reported, mirrored.scanner, fun other => ?_⟩
      rw [runs, if_neg nofun]
      exact mirrored.ended other
    | step run =>
      rw [Reader.perform, mirrors.ended, active run rfl]
      refine ⟨seen, mirrored.filename, mirrored.reported, mirrored.scanner, fun other => ?_⟩
      have outcome : (reader.come stream false).1.outcome =
          some (Lexer.outcomeOf shared.lexer.filename shared.lexer.cursor.read.1) :=
        congrArg Observed.outcome seen
      rw [runs]
      show (if other = run then (reader.come stream false).1.outcome.any isLast
        else reader.ended other) = _
      rw [outcome, mirrors.ended]
      by_cases same : other = run
      · rw [if_pos same, same, if_pos rfl]
        rfl
      · rw [if_neg same, if_neg fun eq => same (Operation.step.inj eq).symm]

theorem Mirrors.trace (mirrors : Mirrors reader shared) (stream : Bool)
    (operations : List Operation) :
    reader.trace stream operations = (shared.trace operations).map (Performed.observed stream) := by
  induction operations generalizing reader shared with
  | nil => rfl
  | cons operation operations ih =>
    obtain ⟨seen, mirrored⟩ := mirrors.perform stream operation
    rw [Reader.trace, Shared.trace, List.map_cons, seen, ih mirrored]

/-- What is seen of a source that is read in place is what is seen of it once it is cut. -/
theorem trace_ofSource (source filename : Text) (stream : Bool) (operations : List Operation) :
    (ofSource source filename).trace stream operations =
      ((Shared.ofSource source filename).trace operations).map (Performed.observed stream) :=
  (mirrors_ofSource source filename).trace stream operations

end Reader

/-! ### Two sources -/

theorem ofSource_append_nul {seen : Text} (free : '\x00' ∉ seen) (unseen : Text) :
    Cursor.ofSource (seen ++ '\x00' :: unseen) = Cursor.ofSource seen := by
  have all : ∀ c ∈ seen, decide (c ≠ '\x00') = true := by
    intro c member
    exact decide_eq_true fun isNul => free (isNul ▸ member)
  have whole : seen.takeWhile (· ≠ '\x00') = seen := List.takeWhile_eq_self_iff.mpr all
  rw [Cursor.ofSource, Cursor.ofSource, List.takeWhile_append_of_pos all, whole,
    List.takeWhile_cons_of_neg (by simp), List.append_nil]

/-- Two sources with the same text in front of a NUL cannot be told apart: neither by what readers
that share one in place see of it, nor by reading the cut one, nor by parsing it at any time. -/
theorem unseen_behind_nul {seen : Text} (free : '\x00' ∉ seen) (unseen filename : Text)
    (operations : List Operation) :
    (∀ stream, (Reader.ofSource (seen ++ '\x00' :: unseen) filename).trace stream operations =
      (Reader.ofSource seen filename).trace stream operations) ∧
    (Shared.ofSource (seen ++ '\x00' :: unseen) filename).trace operations =
      (Shared.ofSource seen filename).trace operations ∧
    (∀ errors, Parser.parse errors
        ((Shared.ofSource (seen ++ '\x00' :: unseen) filename).after operations).lexer =
      Parser.parse errors ((Shared.ofSource seen filename).after operations).lexer) ∧
    Parser.parseSource (seen ++ '\x00' :: unseen) filename = Parser.parseSource seen filename := by
  have same : Lexer.ofSource (seen ++ '\x00' :: unseen) filename = Lexer.ofSource seen filename := by
    rw [Lexer.ofSource, ofSource_append_nul free, Lexer.ofSource]
  have shared : Shared.ofSource (seen ++ '\x00' :: unseen) filename =
      Shared.ofSource seen filename := by
    rw [Shared.ofSource, same, Shared.ofSource]
  refine ⟨fun stream => ?_, by rw [shared], fun errors => by rw [shared], ?_⟩
  · rw [Reader.trace_ofSource, shared, ← Reader.trace_ofSource]
  · rw [Parser.parseSource, same, Parser.parseSource]

/-- The letter behind the NUL would make the numeral in front of it a bad name. -/
theorem unseen_behind_nul_of_letter :
    '\x00' ∉ ['1'] ∧
      (∀ stream, (Reader.ofSource ['1', '\x00', 'a'] []).trace stream [.peek, .next, .step 0] =
        (Reader.ofSource ['1'] []).trace stream [.peek, .next, .step 0]) ∧
      (Parser.parseSource ['1', '\x00', 'a'] []).errors = [] ∧
      (Parser.parseSource ['1', 'a'] []).errors = [⟨.badName ['1', 'a'], [], ⟨1, 1⟩⟩] := by
  have free : '\x00' ∉ ['1'] := by decide
  obtain ⟨traces, _, _, parsed⟩ := unseen_behind_nul free ['a'] [] [.peek, .next, .step 0]
  refine ⟨free, traces, ?_, ?_⟩
  · have parsed : Parser.parseSource ['1', '\x00', 'a'] [] = Parser.parseSource ['1'] [] := parsed
    rw [parsed]
    cbv
  · cbv

end MonkeySyntax
