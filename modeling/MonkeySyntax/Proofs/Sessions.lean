import MonkeySyntax.Proofs.Parsing.Relaid
import MonkeySyntax.Repl

/-!
# Sessions of any number of lines

What a session writes for a line depends on the settings and on that line alone, and the prompt
stands before and behind it (`run_answers`). So sessions over two inputs, one after another, write
what one session over both inputs writes.
-/

namespace MonkeySyntax.Repl

open MonkeySyntax.Parser Grammar

/-! ### The lines of an input -/

/-- What line feeds separate, but for nothing behind the last of them. -/
def linesAmong : List Text → List Text
  | [] | [[]] => []
  | line :: more => line :: linesAmong more

/-- The lines of an input, without the line feeds that end them. -/
def lineTexts (input : Text) : List Text := linesAmong (input.splitOn '\n')

theorem linesAmong_cons {line : Text} {more : List Text} (some : line ≠ [] ∨ more ≠ []) :
    linesAmong (line :: more) = line :: linesAmong more := by
  rw [linesAmong]
  rintro rfl rfl
  simp at some

theorem linesAmong_append {tail : List Text} (some : tail ≠ []) (lines : List Text) :
    linesAmong (lines ++ tail) = lines ++ linesAmong tail := by
  induction lines with
  | nil => rfl
  | cons line lines ih =>
    rw [List.cons_append, linesAmong_cons (.inr (by simp [some])), ih, List.cons_append]

/-- A line, and the same without the line feed that may end it. -/
def EndsWith (line text : Text) : Prop := line = text ∨ line = text ++ ['\n']

theorem inputLines_texts (input : Text) :
    List.Forall₂ EndsWith (inputLines input) (lineTexts input) := by
  unfold lineTexts
  fun_induction inputLines input with
  | case1 => exact .nil
  | case2 rest ih =>
    rw [List.splitOn_cons_eq_if_modifyHead, if_pos (beq_self_eq_true _),
      linesAmong_cons (.inr (List.splitOn_ne_nil _ _))]
    exact .cons (.inr rfl) ih
  | case3 c rest notFeed none _ =>
    obtain rfl : rest = [] := by rw [← flatten_inputLines rest, none, List.flatten_nil]
    rw [List.splitOn_cons_eq_if_modifyHead, if_neg (by simpa using notFeed)]
    exact .cons (.inl rfl) .nil
  | case4 c rest notFeed line lines found ih =>
    obtain ⟨text, texts, split⟩ := List.exists_cons_of_ne_nil (List.splitOn_ne_nil '\n' rest)
    rw [List.splitOn_cons_eq_if_modifyHead, if_neg (by simpa using notFeed), split,
      List.modifyHead_cons, linesAmong_cons (.inl (by simp))]
    rw [found, split] at ih
    -- There is a line, so what stands before the first line feed is one.
    have some : text ≠ [] ∨ texts ≠ [] := by
      by_contra nothing
      obtain ⟨rfl, rfl⟩ := not_or.mp nothing |>.imp not_not.mp not_not.mp
      contradiction
    rw [linesAmong_cons some] at ih
    obtain ⟨ends, more⟩ := List.forall₂_cons.mp ih
    refine .cons ?_ more
    rcases ends with rfl | rfl
    · exact .inl rfl
    · exact .inr rfl

/-- Lines that are complete stay the same whatever stands behind them. -/
theorem lineTexts_append {first : Text} (complete : first = [] ∨ first.getLast? = some '\n')
    (second : Text) : lineTexts (first ++ second) = lineTexts first ++ lineTexts second := by
  rcases complete with rfl | ends
  · rfl
  · obtain ⟨body, rfl⟩ := List.getLast?_eq_some_iff.mp ends
    have whole : lineTexts (body ++ ['\n'] ++ second) =
        body.splitOn '\n' ++ lineTexts second := by
      rw [List.append_assoc, List.singleton_append, lineTexts, List.splitOn_append_cons_self,
        linesAmong_append (List.splitOn_ne_nil _ _), lineTexts]
    have alone : lineTexts (body ++ ['\n']) = body.splitOn '\n' := by
      rw [lineTexts, List.splitOn_append_cons_self, linesAmong_append (List.splitOn_ne_nil _ _),
        List.splitOn_nil, linesAmong, List.append_nil]
    rw [whole, alone]

/-! ### One line -/

/-- What a session writes for a line: nothing if it is blank, or else the answer to its text. -/
def reply (settings : Settings) (line : Text) : Text :=
  if isBlankLine line then []
  else (answer settings (withoutEnding line)).outcome.toOption.getD []

theorem withoutEnding_append (line : Text) :
    withoutEnding (line ++ ['\n']) = withoutEnding line := by
  simp [withoutEnding]

theorem exists_ending (line : Text) :
    ∃ ending, line = withoutEnding line ++ ending ∧ ∀ c ∈ ending, c = '\r' ∨ c = '\n' := by
  refine ⟨(line.reverse.takeWhile fun c => c = '\r' || c = '\n').reverse, ?_, ?_⟩
  · rw [withoutEnding, ← List.reverse_append, List.takeWhile_append_dropWhile, List.reverse_reverse]
  · intro c member
    have isEnding := List.all_eq_true.mp List.all_takeWhile c (List.mem_reverse.mp member)
    simpa using isEnding

theorem isBlankLine_withoutEnding (line : Text) :
    isBlankLine (withoutEnding line) = isBlankLine line := by
  obtain ⟨ending, split, isEnding⟩ := exists_ending line
  have blank : ending.all isWhiteSpace := by
    rw [List.all_eq_true]
    intro c member
    rcases isEnding c member with rfl | rfl
    · decide
    · decide
  conv => rhs; rw [split, isBlankLine, List.all_append, blank, Bool.and_true]
  rfl

theorem words_withoutEnding (line : Text) : words line = words (withoutEnding line) := by
  obtain ⟨ending, split, isEnding⟩ := exists_ending line
  have layout : ∀ c ∈ ending, isLayout c := by
    intro c member
    rcases isEnding c member with rfl | rfl
    · decide
    · decide
  have nothing : words ending = [] := by
    rw [← List.append_nil ending, words_layout_append layout, words_nil]
  conv => lhs; rw [split]
  rw [words_append fun d isHead => layout d (List.mem_of_mem_head? isHead), nothing,
    List.append_nil]

theorem answer_returns {settings : Settings} {line : Text} {statements : List Node}
    (returns : (parseSource line settings.filename).outcome = .ok statements) :
    ∃ text, (answer settings line).outcome = .ok text := by
  unfold answer
  simp only [returns]
  split
  · exact ⟨_, rfl⟩
  · exact ⟨_, rfl⟩

variable {settings : Settings}

/-- A line whose numerals can be converted has an answer. -/
theorem answer_reply {line : Text} (short : Short (Cursor.ofSource line).items)
    (some : isBlankLine line = false) :
    (answer settings (withoutEnding line)).outcome = .ok (reply settings line) := by
  obtain ⟨statements, returns⟩ := returns_of_short line settings.filename short
  obtain ⟨_, returnsCut, _⟩ := parseSource_relaid (words_withoutEnding line) returns
  obtain ⟨text, answered⟩ := answer_returns returnsCut
  rw [reply, some, if_neg Bool.false_ne_true, answered]
  rfl

theorem respond_reply {line : Text} (short : Short (Cursor.ofSource line).items) :
    (respond settings line).outcome = .ok (reply settings line) := by
  rw [respond, isBlankLine_withoutEnding]
  cases blank : isBlankLine line with
  | true => rw [reply, blank, if_pos rfl, if_pos rfl]
  | false =>
    rw [if_neg Bool.false_ne_true]
    exact answer_reply short blank

/-! ### Many lines -/

theorem session_congr {lines texts : List Text} (same : List.Forall₂ EndsWith lines texts) :
    session settings lines = session settings texts := by
  induction same with
  | nil => rfl
  | @cons line text lines texts ends _ ih =>
    have responds : respond settings line = respond settings text := by
      rcases ends with rfl | rfl
      · rfl
      · rw [respond, withoutEnding_append, respond]
    rw [session, session, responds, ih]

theorem session_of_replies {lines : List Text}
    (each : ∀ line ∈ lines, (respond settings line).outcome = .ok (reply settings line)) :
    session settings lines =
      ⟨settings.prompt ++ lines.flatMap fun line => reply settings line ++ settings.prompt,
        lines.flatMap fun line => (respond settings line).events, none⟩ := by
  induction lines with
  | nil => simp [session_nil]
  | cons line lines ih =>
    obtain ⟨first, more⟩ := List.forall_mem_cons.mp each
    rw [session_cons_ok first, ih more]
    simp

theorem run_eq_session (settings : Settings) (input : Text) :
    run settings input = session settings (lineTexts input) :=
  session_congr (inputLines_texts input)

theorem prompts_around (prompt : Text) (written : Text → Text) (lines : List Text) :
    prompt ++ lines.flatMap (fun line => written line ++ prompt) =
      lines.flatMap (fun line => prompt ++ written line) ++ prompt := by
  induction lines with
  | nil => simp
  | cons line lines ih => simp [← ih]

/-- A session answers every line on its own: what it writes for one depends on no other. -/
theorem run_answers {input : Text}
    (short : ∀ line ∈ lineTexts input, Short (Cursor.ofSource line).items) :
    (∀ line ∈ lineTexts input, isBlankLine line = false →
      (answer settings (withoutEnding line)).outcome = .ok (reply settings line)) ∧
    run settings input =
      ⟨settings.prompt ++
          (lineTexts input).flatMap fun line => reply settings line ++ settings.prompt,
        (lineTexts input).flatMap fun line => (respond settings line).events, none⟩ ∧
    ∀ first second, input = first ++ second → (first = [] ∨ first.getLast? = some '\n') →
      ∃ before, (run settings first).output = before ++ settings.prompt ∧
        (run settings input).output = before ++ (run settings second).output := by
  -- Parts of the input are run too, and their lines are lines of the input.
  have output : ∀ text, (∀ line ∈ lineTexts text, line ∈ lineTexts input) →
      run settings text =
        ⟨settings.prompt ++
            (lineTexts text).flatMap fun line => reply settings line ++ settings.prompt,
          (lineTexts text).flatMap fun line => (respond settings line).events, none⟩ := by
    intro text among
    rw [run_eq_session]
    exact session_of_replies fun line member => respond_reply (short line (among line member))
  refine ⟨fun line member => answer_reply (short line member), output input fun _ => id, ?_⟩
  rintro first second rfl complete
  have lines := lineTexts_append complete second
  have amongFirst : ∀ line ∈ lineTexts first, line ∈ lineTexts (first ++ second) := by
    intro line member
    rw [lines]
    exact List.mem_append_left _ member
  have amongSecond : ∀ line ∈ lineTexts second, line ∈ lineTexts (first ++ second) := by
    intro line member
    rw [lines]
    exact List.mem_append_right _ member
  refine ⟨(lineTexts first).flatMap fun line => settings.prompt ++ reply settings line, ?_, ?_⟩
  · rw [output first amongFirst]
    exact prompts_around ..
  · rw [output _ fun _ => id, output second amongSecond, lines]
    simp only [List.flatMap_append]
    rw [← List.append_assoc, prompts_around, List.append_assoc]

/-- A line with errors, a blank one, one that a carriage return ends and one that nothing ends. -/
theorem run_answers_four :
    let first := "let = 1;\n \t\n".toList
    let second := "1 + 2\r\n-a".toList
    (run {} (first ++ second)).output =
      ">> ".toList ++ reply {} "let = 1;".toList ++ ">> >> (1 + 2)\n>> (-a)\n>> ".toList ∧
    ∃ before, (run {} first).output = before ++ ">> ".toList ∧
      (run {} (first ++ second)).output = before ++ (run {} second).output := by
  intro first second
  have lines : lineTexts (first ++ second) =
      ["let = 1;".toList, " \t".toList, "1 + 2\r".toList, "-a".toList] := by decide
  have short : ∀ line ∈ lineTexts (first ++ second), Short (Cursor.ofSource line).items := by
    intro line member
    have few : ∀ line ∈ lineTexts (first ++ second), line.length ≤ Decimal.maxDigits := by
      rw [lines]
      decide
    exact short_of_length line (few line member)
  obtain ⟨_, written, apart⟩ := run_answers short
  refine ⟨?_, apart first second rfl (.inr rfl)⟩
  have blank : reply {} " \t".toList = [] := by cbv
  have sum : reply {} "1 + 2\r".toList = "(1 + 2)\n".toList := by cbv
  have negated : reply {} "-a".toList = "(-a)\n".toList := by cbv
  rw [written, lines]
  simp only [List.flatMap_cons, List.flatMap_nil, blank, sum, negated, List.append_assoc]
  rfl

end MonkeySyntax.Repl
