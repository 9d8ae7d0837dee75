import Mathlib
import MonkeySyntax.Proofs.Parsing.Kept

/-!
# Going on behind an error

The turns divide what is read of a source among them, and each keeps one thing: a statement that is
derived from its segment alone, or an error. So nothing is lost behind an error and nothing is kept
twice (`parseSource_recovers`).
-/

namespace MonkeySyntax.Parser

open Grammar

/-- Parsing ends at a bad name that is the problem of no turn before. -/
def EndsUnmet (segments : List (List Item × Turn)) (ending : Ending) : Prop :=
  ∃ literal position rest, ending = .badName literal position rest ∧
    .problem (.badName literal) position ∉ segments.map Prod.snd

theorem unmet_of_not_endsUnmet {segments : List (List Item × Turn)} {ending : Ending}
    (met : ¬ EndsUnmet segments ending) : ending.unmet (segments.map Prod.snd) = [] := by
  cases ending with
  | endOfSource | tooLong => rfl
  | badName literal position rest =>
    have looked : .problem (.badName literal) position ∈ segments.map Prod.snd := by
      by_contra unmet
      exact met ⟨literal, position, rest, rfl, unmet⟩
    exact unmet_of_mem rest looked

theorem statements_unmet (turns : List Turn) (ending : Ending) :
    (ending.unmet turns).filterMap Turn.statement? = [] := by
  refine List.filterMap_eq_nil_iff.mpr fun turn member => ?_
  have ends := (isPrefix_unmet turns ending).subset member
  cases ending with
  | endOfSource | tooLong => simp [Ending.turns] at ends
  | badName => rw [List.mem_singleton.mp ends, Turn.statement?]

/-- What is kept of a source up to a turn. -/
def keptOf (source filename : Text) (segments : List (List Item × Turn)) : Kept :=
  keep none (.ofSource source filename) (segments.map Prod.snd)

theorem length_kept (filename : Text) (turns : List Turn) :
    (turns.filterMap Turn.statement?).length + (turns.filterMap (Turn.error? filename)).length =
      turns.length := by
  induction turns with
  | nil => rfl
  | cons turn turns ih =>
    cases turn with
    | statement node =>
      simp only [List.filterMap_cons, Turn.statement?, Turn.error?, List.length_cons]
      omega
    | problem cause position =>
      simp only [List.filterMap_cons, Turn.statement?, Turn.error?, List.length_cons]
      omega

/-- How parsing a source goes on behind errors, and what it keeps. -/
structure Recovers (source filename : Text) (statements : List Node)
    (segments : List (List Item × Turn)) (ending : Ending) : Prop where
  /-- Each turn parses the statement that begins with the first item that is left. -/
  course : Course (Cursor.ofSource source).finish.position (Cursor.ofSource source).items segments
    ending
  /-- What is read is divided among the turns, but for a bad name where no statement can begin. -/
  split : (Cursor.ofSource source).items = segmentItems segments ++ ending.last ++
    (parseSource source filename).lexer.cursor.items
  starts (segment : List Item) (turn : Turn) : (segment, turn) ∈ segments →
    ∃ t inner, segment = .token t :: inner
  /-- A turn appends a whole statement or an error, and nothing else. -/
  appends (before : List (List Item × Turn)) (segment : List Item) (turn : Turn)
    (later : List (List Item × Turn)) : segments = before ++ (segment, turn) :: later →
      (∃ node, turn = .statement node ∧ (∃ closed, Statement .plain closed segment node []) ∧
        (keptOf source filename (before ++ [(segment, turn)])).statements =
          (keptOf source filename before).statements ++ [node] ∧
        (keptOf source filename (before ++ [(segment, turn)])).errors =
          (keptOf source filename before).errors) ∨
      (∃ cause position, turn = .problem cause position ∧
        (keptOf source filename (before ++ [(segment, turn)])).statements =
          (keptOf source filename before).statements ∧
        (keptOf source filename (before ++ [(segment, turn)])).errors =
          (keptOf source filename before).errors ++ [⟨cause, filename, position⟩])
  returned : statements = (keptOf source filename segments).statements
  /-- No statement has looked at the bad name where parsing ends, which is one more error. -/
  unmet (literal : Text) (position : Position) (rest : List Item) :
    ending = .badName literal position rest →
    .problem (.badName literal) position ∉ segments.map Prod.snd →
      (parseSource source filename).errors = (keptOf source filename segments).errors ++
        [⟨.badName literal, filename, position⟩] ∧
      statements.length + (parseSource source filename).errors.length = segments.length + 1
  met : ¬ EndsUnmet segments ending →
      (parseSource source filename).errors = (keptOf source filename segments).errors ∧
      statements.length + (parseSource source filename).errors.length = segments.length

namespace Noted

variable {source filename : Text} {segments : List (List Item × Turn)}

theorem keptOf_first (kept : Noted source filename segments)
    {first : List (List Item × Turn)} (isFirst : first <+: segments) :
    (keptOf source filename first).statements =
        (first.map Prod.snd).filterMap Turn.statement? ∧
      (keptOf source filename first).errors =
        (first.map Prod.snd).filterMap (Turn.error? filename) := by
  refine kept.keep_first ((isFirst.map Prod.snd).trans ?_)
  rw [kept.turns]
  exact List.prefix_append ..

theorem appends (kept : Noted source filename segments) {before later : List (List Item × Turn)}
    {segment : List Item} {turn : Turn} (split : segments = before ++ (segment, turn) :: later) :
    (keptOf source filename (before ++ [(segment, turn)])).statements =
        (keptOf source filename before).statements ++ turn.statement?.toList ∧
      (keptOf source filename (before ++ [(segment, turn)])).errors =
        (keptOf source filename before).errors ++ (turn.error? filename).toList := by
  obtain ⟨first, firstErrors⟩ := kept.keptOf_first (split ▸ List.prefix_append ..)
  have upTo : before ++ [(segment, turn)] <+: segments :=
    ⟨later, by rw [split, List.append_assoc]; rfl⟩
  obtain ⟨more, moreErrors⟩ := kept.keptOf_first upTo
  rw [first, firstErrors, more, moreErrors, List.map_append, List.filterMap_append,
    List.filterMap_append]
  cases turn <;> exact ⟨rfl, rfl⟩

end Noted

/-- Parsing goes on behind an error, loses nothing and keeps nothing twice. -/
theorem parseSource_recovers {source filename : Text} {statements : List Node}
    (returns : (parseSource source filename).outcome = .ok statements) :
    ∃ segments ending, Recovers source filename statements segments ending := by
  have goesOn := (returns_iff source filename).mp ⟨statements, returns⟩
  obtain ⟨segments, kept⟩ := exists_noted source filename goesOn
  obtain ⟨all, allErrors⟩ := kept.keptOf_first List.prefix_rfl
  have lengths := length_kept filename (segments.map Prod.snd)
  rw [List.length_map, ← all, ← allErrors] at lengths
  have outcome : statements = (keptOf source filename segments).statements := by
    have same := kept.outcome
    rw [returns, noted, List.filterMap_append, statements_unmet, List.append_nil, ← kept.turns,
      ← all] at same
    exact Except.ok.inj same
  have errors := kept.errors
  rw [noted, ← kept.turns, List.filterMap_append, ← allErrors] at errors
  refine ⟨segments, (turnsOf source).2, kept.course, ?_, ?_, ?_, ?_, ?_, ?_⟩
  · rw [items_parseSource]
    exact kept.course.split
  · intro segment turn member
    obtain ⟨left, taken⟩ := kept.course.taken member
    exact taken.starts
  · intro before segment turn later split
    obtain ⟨more, moreErrors⟩ := kept.appends split
    cases turn with
    | statement node =>
      obtain ⟨left, taken⟩ := kept.course.taken (split ▸ List.mem_append_right _ List.mem_cons_self)
      exact .inl ⟨node, rfl, taken.derived, more, by rw [moreErrors]; exact List.append_nil _⟩
    | problem cause position =>
      exact .inr ⟨cause, position, rfl, by rw [more]; exact List.append_nil _, moreErrors⟩
  · exact outcome
  · intro literal position rest ends unmet
    rw [ends, unmet_of_badName rest unmet] at errors
    refine ⟨errors, ?_⟩
    rw [outcome, errors, List.length_append, ← Nat.add_assoc, lengths]
    rfl
  · intro met
    rw [unmet_of_not_endsUnmet met] at errors
    replace errors := errors.trans (List.append_nil _)
    refine ⟨errors, ?_⟩
    rw [outcome, errors, lengths]

/-- Two turns fail, one gives a statement, and behind it stands a bad name. -/
theorem recovers_behind_errors :
    ∃ segments ending, Recovers "let ; a; 1b".toList Lexer.defaultFilename
      [.expressionStatement ⟨.ident, ['a'], ⟨1, 7⟩⟩ (.identifier ⟨.ident, ['a'], ⟨1, 7⟩⟩ ['a'])]
      segments ending :=
  parseSource_recovers (by cbv)

end MonkeySyntax.Parser
