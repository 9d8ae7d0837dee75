import MonkeySyntax.Proofs.Lexing.Operations
import MonkeySyntax.Proofs.Parsing.Course

/-!
# What is kept of the turns

Of turns whose bad names stand one behind another everything is kept, in order: the statements, the
errors, and what happens meanwhile. A bad name that was only looked at comes up once more where
parsing ends, and then it changes nothing (`keep_again`).
-/

namespace MonkeySyntax.Parser

variable {finish : Position}

theorem repeats_self (literal : Text) (filename : Text) (position : Position) :
    repeats (some ⟨.badName literal, filename, position⟩) ⟨.badName literal, filename, position⟩ := by
  simp [repeats]

theorem keep_again (last : Option Error) (lexer : Lexer) (turns : List Turn) (literal : Text)
    (position : Position) :
    keep last lexer (turns ++ [.problem (.badName literal) position,
        .problem (.badName literal) position]) =
      keep last lexer (turns ++ [.problem (.badName literal) position]) := by
  induction turns generalizing last lexer with
  | nil =>
    simp only [List.nil_append, keep, Lexer.report_again, Lexer.filename_report]
    by_cases again : repeats last ⟨.badName literal, lexer.filename, position⟩
    · simp [again]
    · simp [again, repeats_self]
  | cons turn turns ih =>
    cases turn with
    | statement node => simp only [List.cons_append, keep, ih]
    | problem cause place => simp only [List.cons_append, keep, ih]

theorem keep_other {cause : Cause} (other : ∀ literal, cause ≠ .badName literal)
    (last : Option Error) (lexer : Lexer) (position : Position) (turns : List Turn) :
    keep last lexer (.problem cause position :: turns) =
      let e : Error := ⟨cause, lexer.filename, position⟩
      let kept := keep (some e) lexer turns
      { kept with errors := e :: kept.errors, events := .errorKept e :: kept.events } := by
  have fresh : repeats last ⟨cause, lexer.filename, position⟩ = false := not_repeats other
  cases cause with
  | badName literal => exact absurd rfl (other literal)
  | _ =>
    simp only [keep, fresh]
    rfl

theorem keep_badName {last : Option Error} {lexer : Lexer} {literal : Text} {position : Position}
    (unreported : lexer.reported ≠ some position)
    (fresh : repeats last ⟨.badName literal, lexer.filename, position⟩ = false)
    (turns : List Turn) :
    keep last lexer (.problem (.badName literal) position :: turns) =
      let e : Error := ⟨.badName literal, lexer.filename, position⟩
      let kept := keep (some e) { lexer with reported := some position } turns
      { kept with
        errors := e :: kept.errors
        events := .badName literal lexer.filename position :: .errorKept e :: kept.events } := by
  have report : lexer.report (.badName literal position) =
      ([.badName literal lexer.filename position], { lexer with reported := some position }) := by
    rw [Lexer.report, if_neg unreported]
  simp only [keep, report, fresh]
  rfl

/-- Everything that was kept or reported before stands before a place. -/
def Behind (last : Option Error) (lexer : Lexer) (place : Position) : Prop :=
  (∀ literal filename position, last = some ⟨.badName literal, filename, position⟩ →
    position < place) ∧
  ∀ position, lexer.reported = some position → position < place

theorem Behind.not_repeats {last : Option Error} {lexer : Lexer} {place : Position} {literal : Text}
    {filename : Text} (behind : Behind last lexer place) :
    repeats last ⟨.badName literal, filename, place⟩ = false := by
  cases last with
  | none => rfl
  | some e =>
    obtain ⟨cause, name, position⟩ := e
    cases cause with
    | badName found => simpa [repeats] using (behind.1 found name position rfl).ne
    | _ => rfl

theorem Behind.badName (literal : Text) (lexer : Lexer) {position place : Position}
    (lt : position < place) :
    Behind (some ⟨.badName literal, lexer.filename, position⟩)
      { lexer with reported := some position } place := by
  constructor
  · rintro _ _ _ ⟨⟩
    exact lt
  · rintro _ ⟨⟩
    exact lt

theorem Behind.other {last : Option Error} {lexer : Lexer} {place : Position} {cause : Cause}
    (behind : Behind last lexer place) (other : ∀ literal, cause ≠ .badName literal)
    (position : Position) : Behind (some ⟨cause, lexer.filename, position⟩) lexer place := by
  refine ⟨fun literal _ _ same => ?_, behind.2⟩
  exact absurd (congrArg Error.cause (Option.some.inj same)) (other literal)

theorem Turn.of_other {cause : Cause} (other : ∀ literal, cause ≠ .badName literal)
    (filename : Text) (position : Position) :
    (Turn.problem cause position).badName? = none ∧
      (Turn.problem cause position).events filename =
        [.errorKept ⟨cause, filename, position⟩] := by
  cases cause with
  | badName literal => exact absurd rfl (other literal)
  | _ => exact ⟨rfl, rfl⟩

/-- Of turns whose bad names stand one behind another, everything is kept. -/
theorem keep_rising (last : Option Error) (lexer : Lexer) {turns : List Turn}
    (rising : (turns.filterMap Turn.badName?).Pairwise fun a b => a.2 < b.2)
    (behind : ∀ name ∈ turns.filterMap Turn.badName?, Behind last lexer name.2) :
    (keep last lexer turns).statements = turns.filterMap Turn.statement? ∧
      (keep last lexer turns).errors = turns.filterMap (Turn.error? lexer.filename) ∧
      (keep last lexer turns).events = turns.flatMap (Turn.events lexer.filename) := by
  -- On the way, all that was kept and reported stands before the bad names to come.
  induction turns generalizing last lexer with
  | nil => exact ⟨rfl, rfl, rfl⟩
  | cons turn turns ih =>
    cases turn with
    | statement node =>
      obtain ⟨statements, errors, events⟩ := ih last lexer rising behind
      exact ⟨congrArg (node :: ·) statements, errors, events⟩
    | problem cause position =>
      by_cases isName : ∃ literal, cause = .badName literal
      · obtain ⟨literal, rfl⟩ := isName
        have here := behind (literal, position) List.mem_cons_self
        obtain ⟨before, rising⟩ := List.pairwise_cons.mp rising
        rw [keep_badName (fun again => lt_irrefl _ (here.2 position again)) here.not_repeats]
        obtain ⟨statements, errors, events⟩ := ih _ _ rising fun name member =>
          Behind.badName literal lexer (before name member)
        exact ⟨statements, congrArg (_ :: ·) errors, congrArg (_ :: _ :: ·) events⟩
      · have other : ∀ literal, cause ≠ .badName literal := fun literal same => isName ⟨literal, same⟩
        obtain ⟨noName, alone⟩ := Turn.of_other other lexer.filename position
        rw [List.filterMap_cons_none noName] at rising behind
        rw [keep_other other]
        obtain ⟨statements, errors, events⟩ := ih _ _ rising fun name member =>
          (behind name member).other other position
        refine ⟨statements, congrArg (_ :: ·) errors, ?_⟩
        rw [List.flatMap_cons, alone]
        exact congrArg (_ :: ·) events

/-! ### The turns of a source -/

/-- The bad name where parsing ends, if it is the problem of no turn before. -/
def Ending.unmet (turns : List Turn) : Ending → List Turn
  | .badName literal position _ =>
    if (literal, position) ∈ turns.filterMap Turn.badName? then []
    else [.problem (.badName literal) position]
  | _ => []

theorem unmet_of_badName {turns : List Turn} {literal : Text} {position : Position}
    (rest : List Item) (unmet : .problem (.badName literal) position ∉ turns) :
    (Ending.badName literal position rest).unmet turns = [.problem (.badName literal) position] :=
  if_neg fun member => unmet (mem_badName?.mp member)

theorem unmet_of_mem {turns : List Turn} {literal : Text} {position : Position} (rest : List Item)
    (met : .problem (.badName literal) position ∈ turns) :
    (Ending.badName literal position rest).unmet turns = [] :=
  if_pos (mem_badName?.mpr met)

theorem isPrefix_unmet (turns : List Turn) (ending : Ending) : ending.unmet turns <+: ending.turns := by
  cases ending with
  | endOfSource | tooLong => exact List.prefix_rfl
  | badName literal position rest =>
    by_cases met : .problem (.badName literal) position ∈ turns
    · rw [unmet_of_mem rest met]
      exact List.nil_prefix
    · rw [unmet_of_badName rest met]
      exact List.prefix_rfl

/-- The turns of a source, and the bad name where parsing ends if no statement has looked at it. -/
def noted (source : Text) : List Turn :=
  (turnsOf source).1 ++ (turnsOf source).2.unmet (turnsOf source).1

namespace Course

variable {source : Text} {segments : List (List Item × Turn)} {ending : Ending}

theorem rising (course : Course finish (Cursor.ofSource source).items segments ending) :
    (badNames (segmentItems segments ++ ending.last)).Pairwise fun a b => a.2 < b.2 := by
  have all := pairwise_badNames (Cursor.ofSource source).pairwise_items
  rw [course.split, badNames_append] at all
  exact (List.pairwise_append.mp all).1

/-- What is kept of the turns and of the bad name where parsing ends does not depend on whether a
statement has looked at it. -/
theorem names_unmet (course : Course finish (Cursor.ofSource source).items segments ending)
    (lexer : Lexer) :
    badNames (segmentItems segments ++ ending.last) =
        (segments.map Prod.snd ++ ending.unmet (segments.map Prod.snd)).filterMap Turn.badName? ∧
      keep none lexer (segments.map Prod.snd ++ ending.turns) =
        keep none lexer (segments.map Prod.snd ++ ending.unmet (segments.map Prod.snd)) ∧
      ending.turns <:+ segments.map Prod.snd ++ ending.unmet (segments.map Prod.snd) := by
  rcases course.names with names | ⟨before, literal, position, rest, last, rfl, names⟩
  · -- If all are read, the last is none of those before.
    have unmet : ending.unmet (segments.map Prod.snd) = ending.turns := by
      have rising := course.rising
      rw [names, List.filterMap_append, List.pairwise_append] at rising
      cases ending with
      | endOfSource | tooLong => rfl
      | badName literal position rest =>
        refine unmet_of_badName rest fun again => ?_
        exact lt_irrefl _ (rising.2.2 (literal, position) (mem_badName?.mpr again)
          (literal, position) List.mem_cons_self)
    rw [unmet]
    exact ⟨names, rfl, List.suffix_append ..⟩
  · have unmet : (Ending.badName literal position rest).unmet (segments.map Prod.snd) = [] := by
      rw [last]
      exact unmet_of_mem rest (List.mem_append_right before List.mem_cons_self)
    rw [unmet, List.append_nil]
    refine ⟨names, ?_, ?_⟩
    · rw [last, Ending.turns, List.append_assoc]
      exact keep_again ..
    · rw [last]
      exact List.suffix_append ..

end Course

/-- The course of a source that is parsed, and what is kept of it. -/
structure Noted (source filename : Text) (segments : List (List Item × Turn)) : Prop where
  course : Course (Cursor.ofSource source).finish.position (Cursor.ofSource source).items segments
    (turnsOf source).2
  turns : segments.map Prod.snd = (turnsOf source).1
  names : badNames (segmentItems segments ++ (turnsOf source).2.last) =
    (noted source).filterMap Turn.badName?
  last : (turnsOf source).2.turns <:+ noted source
  outcome : (parseSource source filename).outcome =
    .ok ((noted source).filterMap Turn.statement?)
  errors : (parseSource source filename).errors = (noted source).filterMap (Turn.error? filename)
  events : (parseSource source filename).events = (noted source).flatMap (Turn.events filename)

theorem exists_noted (source filename : Text)
    (goesOn : ∀ numeral rest, (turnsOf source).2 ≠ .tooLong numeral rest) :
    ∃ segments, Noted source filename segments := by
  obtain ⟨segments, course, turns⟩ :
      ∃ segments, Course (Cursor.ofSource source).finish.position (Cursor.ofSource source).items
        segments (turnsOf source).2 ∧ segments.map Prod.snd = (turnsOf source).1 :=
    exists_course goesOn
  have rising := course.rising
  obtain ⟨names, same, last⟩ := course.names_unmet (.ofSource source filename)
  rw [turns] at names same last
  obtain ⟨statements, errors, events⟩ := keep_rising none (.ofSource source filename)
    (names ▸ rising) fun name member => ⟨nofun, nofun⟩
  refine ⟨segments, course, turns, names, last, ?_, ?_, ?_⟩
  · rw [outcome_parseSource source filename goesOn, same, statements]
    rfl
  · rw [errors_parseSource, same, errors]
    rfl
  · rw [events_parseSource, same, events]
    rfl

theorem Noted.isFirst {source filename : Text} {segments : List (List Item × Turn)}
    (kept : Noted source filename segments) :
    noted source <+: segments.map Prod.snd ++ (turnsOf source).2.turns := by
  rw [noted, kept.turns]
  exact (List.prefix_append_right_inj _).mpr (isPrefix_unmet ..)

theorem Noted.keep_first {source filename : Text} {segments : List (List Item × Turn)}
    (kept : Noted source filename segments) {turns : List Turn} (first : turns <+: noted source) :
    (keep none (.ofSource source filename) turns).statements = turns.filterMap Turn.statement? ∧
      (keep none (.ofSource source filename) turns).errors =
        turns.filterMap (Turn.error? filename) := by
  have rising := kept.course.rising
  rw [kept.names] at rising
  obtain ⟨statements, errors, _⟩ := keep_rising none (.ofSource source filename)
    (rising.sublist (first.sublist.filterMap _)) fun name member => ⟨nofun, nofun⟩
  exact ⟨statements, errors⟩

end MonkeySyntax.Parser
