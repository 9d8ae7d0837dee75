import MonkeySyntax.Proofs.Parsing.Diagnoses
import MonkeySyntax.Proofs.Text.Breaks
import MonkeySyntax.Report

/-!
# Errors line by line

Whatever an error of a source shows of it is between quotes, or a numeral of decimal digits. So its
message breaks no line, and every error has exactly one line in a report:
`parseSource_linePerError`.
-/

namespace MonkeySyntax

/-! ### Numerals of a source -/

theorem Lexeme.isDigit_of_int {c : Char} {rest literal : Text}
    (h : first c rest = .token .int literal) : ∀ d ∈ literal, isDigit d := by
  have three : Kind.int.spelling.length = 3 := rfl
  rcases first_cases h with ⟨single, _⟩ | ⟨d, pair, _⟩ | ⟨_, digits, _⟩ | ⟨letter, _, word, head⟩ |
    ⟨kind, _⟩
  · rw [(spelling_of_ofChar? single).1] at three
    simp at three
  · rw [(spelling_of_ofPair? pair).1] at three
    simp at three
  · exact digits
  · obtain ⟨more, rfl⟩ := List.head?_eq_some_iff.mp head
    rcases @ofWord_cons c more with ⟨_, keyword⟩ | ⟨_, other⟩
    · rw [← word] at keyword
      exact absurd keyword (by decide)
    · rw [← word, if_neg (by simp [isDigit_eq_false_of_isLetter letter])] at other
      contradiction
  · contradiction

theorem Meets.isDigit_of_int {source : Text} {t : Token} (meets : Meets source (.token t))
    (isInt : t.kind = .int) : ∀ c ∈ t.literal, isDigit c := by
  obtain ⟨n, read⟩ := meets
  by_cases ends : ((Cursor.ofSource source).readMany n).skipLayout.rest = []
  · rw [Cursor.read_of_ends ends] at read
    cases read
    contradiction
  · obtain ⟨c, text, starts⟩ := List.exists_cons_of_ne_nil ends
    rw [Cursor.read_eq_of_cons starts] at read
    cases isFirst : Lexeme.first c text with
    | badName => rw [isFirst] at read; contradiction
    | token kind literal =>
      rw [isFirst] at read
      cases read
      obtain rfl : kind = .int := isInt
      exact Lexeme.isDigit_of_int isFirst

/-! ### Messages -/

theorem forall_mem_joined {p : Char → Prop} {separator : Text} {texts : List Text}
    (between : ∀ c ∈ separator, p c) (each : ∀ text ∈ texts, ∀ c ∈ text, p c) :
    ∀ c ∈ joined separator texts, p c := by
  induction texts with
  | nil => exact fun _ member => absurd member List.not_mem_nil
  | cons text texts ih =>
    obtain ⟨first, others⟩ := List.forall_mem_cons.mp each
    cases texts with
    | nil => exact first
    | cons next texts =>
      rw [joined]
      simpa only [List.forall_mem_append] using ⟨⟨first, between⟩, ih others⟩

theorem Kind.isPrintable_of_mem_spelling (kind : Kind) : ∀ c ∈ kind.spelling, isPrintable c := by
  apply isPrintable_of_all
  cases kind <;> rfl

/-- What an error says of an item of a source is printable. -/
theorem Cause.isPrintable_of_isAbout {source : Text} {cause : Cause} {item : Item}
    (meets : Meets source item) (isAbout : cause.IsAbout item) :
    ∀ c ∈ cause.message, isPrintable c := by
  cases item with
  | token t =>
    cases cause with
    | unexpected wanted got =>
      have between : ∀ c ∈ " or ".toList, isPrintable c := isPrintable_of_all rfl
      have expected : ∀ c ∈ joined " or ".toList (wanted.map Kind.spelling), isPrintable c := by
        refine forall_mem_joined between fun text member => ?_
        obtain ⟨kind, _, rfl⟩ := List.mem_map.mp member
        exact kind.isPrintable_of_mem_spelling
      unfold message
      simp only [List.forall_mem_append]
      exact ⟨⟨⟨isPrintable_of_all rfl, expected⟩, isPrintable_of_all rfl⟩,
        got.isPrintable_of_mem_spelling⟩
    | noOperand literal | illegal literal =>
      unfold message
      simp only [List.forall_mem_append]
      exact ⟨isPrintable_of_all rfl, isPrintable_of_mem_quoted literal⟩
    | overflow literal =>
      obtain ⟨isInt, rfl, _⟩ := isAbout
      have digits := meets.isDigit_of_int isInt
      unfold message
      simp only [List.forall_mem_append]
      exact ⟨⟨isPrintable_of_all rfl, fun c member => isPrintable_of_isDigit (digits c member)⟩,
        isPrintable_of_all rfl⟩
    | stated | lexical | syntactic | badName | noOperator => exact isAbout.elim
  | badName found position =>
    cases cause with
    | badName literal =>
      unfold message
      simp only [List.forall_mem_append]
      exact ⟨⟨isPrintable_of_all rfl, isPrintable_of_mem_quoted literal⟩, isPrintable_of_all rfl⟩
    | stated | lexical | syntactic | unexpected | noOperand | illegal | noOperator | overflow =>
      exact isAbout.elim

/-! ### Lines -/

/-- No character of a text breaks its line. -/
def NoBreak (text : Text) : Prop := ∀ c ∈ text, isLineBreak c = false

theorem noBreak_of_isPrintable {text : Text} (printable : ∀ c ∈ text, isPrintable c) :
    NoBreak text :=
  fun c member => isLineBreak_of_isPrintable (printable c member)

theorem noBreak_append {a b : Text} : NoBreak (a ++ b) ↔ NoBreak a ∧ NoBreak b :=
  List.forall_mem_append

theorem noBreak_ofInt (n : Int) : NoBreak (Decimal.ofInt n) :=
  noBreak_of_isPrintable isPrintable_of_mem_ofInt

namespace Error

variable {e : Error}

theorem noBreak_text (named : NoBreak e.filename) (worded : NoBreak e.message) :
    NoBreak e.text := by
  have line : NoBreak " line: ".toList := noBreak_of_isPrintable (isPrintable_of_all rfl)
  have column : NoBreak " col: ".toList := noBreak_of_isPrintable (isPrintable_of_all rfl)
  have worded : NoBreak (' ' :: e.message) := List.forall_mem_cons.mpr ⟨rfl, worded⟩
  unfold text
  simp only [noBreak_append]
  exact ⟨⟨⟨⟨⟨named, line⟩, noBreak_ofInt _⟩, column⟩, noBreak_ofInt _⟩, worded⟩

theorem noBreak_diagnostic {filename message : Text} (position : Position)
    (named : NoBreak filename) (worded : NoBreak message) :
    NoBreak (diagnostic filename position message) := by
  have file : NoBreak "file: ".toList := noBreak_of_isPrintable (isPrintable_of_all rfl)
  have line : NoBreak " line: ".toList := noBreak_of_isPrintable (isPrintable_of_all rfl)
  have column : NoBreak " column: ".toList := noBreak_of_isPrintable (isPrintable_of_all rfl)
  have error : NoBreak ", error: ".toList := noBreak_of_isPrintable (isPrintable_of_all rfl)
  unfold diagnostic
  simp only [noBreak_append]
  exact ⟨⟨⟨⟨⟨⟨⟨file, named⟩, line⟩, noBreak_ofInt _⟩, column⟩, noBreak_ofInt _⟩, error⟩, worded⟩

end Error

namespace Report

/-- A line of a report, behind its headings. -/
def entry (text : Text) : Text := '\t' :: text ++ ['\n']

theorem brokenLines_entries {texts : List Text} (each : ∀ text ∈ texts, NoBreak text) :
    brokenLines (texts.flatMap entry) = texts.map entry := by
  induction texts with
  | nil => rfl
  | cons text texts ih =>
    obtain ⟨first, others⟩ := List.forall_mem_cons.mp each
    have indented : NoBreak ('\t' :: text) := List.forall_mem_cons.mpr ⟨rfl, first⟩
    have complete : (entry text).getLast? = some '\n' := List.getLast?_concat ..
    rw [List.flatMap_cons, brokenLines_append complete, ih others, entry,
      brokenLines_line indented]
    rfl

/-- A report has a line for each text, behind the lines of its face and two headings. -/
theorem brokenLines_ofTexts (showFace : Bool) {texts : List Text}
    (each : ∀ text ∈ texts, NoBreak text) :
    brokenLines (ofTexts showFace texts) =
      (if showFace then brokenLines face else []) ++ banner :: heading :: texts.map entry := by
  have headings : brokenLines (banner ++ heading) = [banner, heading] := by decide +kernel
  have complete : (banner ++ heading).getLast? = some '\n' := by decide +kernel
  have below : brokenLines (banner ++ heading ++ texts.flatMap entry) =
      banner :: heading :: texts.map entry := by
    rw [brokenLines_append complete, headings, brokenLines_entries each, List.cons_append,
      List.cons_append, List.nil_append]
  have split : ofTexts showFace texts =
      (if showFace then face else []) ++ (banner ++ heading ++ texts.flatMap entry) := by
    unfold ofTexts entry
    simp only [List.append_assoc]
  rw [split, ← below]
  cases showFace with
  | true =>
    have complete : face.getLast? = some '\n' := by
      unfold face
      rw [String.toList_ofList]
      rfl
    rw [if_pos rfl, if_pos rfl, brokenLines_append complete]
  | false => rfl

end Report

namespace Parser

theorem Noted.truthful {source filename : Text} {segments : List (List Item × Turn)}
    (kept : Noted source filename segments) :
    ∀ e ∈ (parseSource source filename).errors, e.Truthful source filename := by
  rw [kept.errors]
  intro e isKept
  obtain ⟨turn, member, isError⟩ := List.mem_filterMap.mp isKept
  cases turn with
  | statement => contradiction
  | problem cause position =>
    cases isError
    exact ⟨rfl, kept.isAbout member⟩

/-- Every error is worded without line breaks. So its diagnostic is one line, and so is what a
report says of it, behind the lines of the face and the two headings. -/
theorem parseSource_linePerError {source filename : Text} {statements : List Node}
    (returns : (parseSource source filename).outcome = .ok statements)
    (named : NoBreak filename) :
    (∀ e ∈ (parseSource source filename).errors, NoBreak e.message ∧ NoBreak e.text ∧
      brokenLines e.line = [Error.diagnostic filename e.position e.message ++ ['\n']]) ∧
    ∀ showFace, brokenLines (Report.ofErrors showFace (parseSource source filename).errors) =
      (if showFace then brokenLines Report.face else []) ++ Report.banner :: Report.heading ::
        (parseSource source filename).errors.map fun e => '\t' :: e.text ++ ['\n'] := by
  have goesOn := (returns_iff source filename).mp ⟨statements, returns⟩
  obtain ⟨segments, kept⟩ := exists_noted source filename goesOn
  have worded : ∀ e ∈ (parseSource source filename).errors,
      e.filename = filename ∧ NoBreak e.message ∧ NoBreak e.text := by
    intro e member
    obtain ⟨isNamed, item, meets, _, isAbout⟩ := kept.truthful e member
    have message : NoBreak e.message :=
      noBreak_of_isPrintable (Cause.isPrintable_of_isAbout meets isAbout)
    exact ⟨isNamed, message, Error.noBreak_text (isNamed ▸ named) message⟩
  constructor
  · intro e member
    obtain ⟨rfl, message, text⟩ := worded e member
    exact ⟨message, text, brokenLines_line (Error.noBreak_diagnostic e.position named message)⟩
  · intro showFace
    have texts : ∀ text ∈ (parseSource source filename).errors.map Error.text, NoBreak text := by
      intro text member
      obtain ⟨e, isError, rfl⟩ := List.mem_map.mp member
      exact (worded e isError).2.2
    rw [Report.ofErrors, Report.brokenLines_ofTexts showFace texts, List.map_map]
    rfl

/-- Line breaks of a source are shown with escapes. -/
theorem report_of_separator :
    brokenLines (Report.ofErrors false (parseSource "\u2028\n1b".toList ['a']).errors) =
      [Report.banner, Report.heading,
        "\ta line: 1 col: 1 illegal character '\\u2028'\n".toList,
        "\ta line: 2 col: 1 bad variable name: '1b' ".toList ++
          "(identifiers cannot start with a digit)\n".toList] := by
  have returns : (parseSource "\u2028\n1b".toList ['a']).outcome = .ok [] := by cbv
  have errors : (parseSource "\u2028\n1b".toList ['a']).errors =
      [⟨.illegal ['\u2028'], ['a'], ⟨1, 1⟩⟩, ⟨.badName ['1', 'b'], ['a'], ⟨2, 1⟩⟩] := by cbv
  have named : NoBreak ['a'] := noBreak_of_isPrintable (isPrintable_of_all rfl)
  rw [(parseSource_linePerError returns named).2 false, errors]
  decide +kernel

end Parser

end MonkeySyntax
