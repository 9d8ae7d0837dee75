import MonkeySyntax.Cli.Transcript
import MonkeySyntax.Proofs.Lexing.Pieces
import MonkeySyntax.Proofs.Parsing.Acceptance

/-!
# All of a view or none of it

Showing a source writes the whole view that is wanted and nothing else, or nothing but reports of
what is wrong. Where a source has a tree it has its tokens too (`showSource_whole`).
-/

namespace MonkeySyntax

/-! ### The tokens of a source -/

/-- The tokens before the first bad name, and whether there is one. -/
theorem Item.untilBadName_cases (items : List Item) :
    (∃ tokens, items = tokens.map .token ∧ untilBadName items = (tokens, none)) ∨
      ∃ tokens literal position rest,
        items = tokens.map .token ++ .badName literal position :: rest ∧
          untilBadName items = (tokens, some (literal, position)) := by
  induction items with
  | nil => exact .inl ⟨[], rfl, rfl⟩
  | cons item items ih =>
    cases item with
    | badName literal position => exact .inr ⟨[], literal, position, items, rfl, rfl⟩
    | token t =>
      rcases ih with ⟨tokens, rfl, found⟩ | ⟨tokens, literal, position, rest, rfl, found⟩
      · exact .inl ⟨t :: tokens, rfl, by rw [untilBadName, found]⟩
      · exact .inr ⟨t :: tokens, literal, position, rest, rfl, by rw [untilBadName, found]⟩

/-- The tokens that a reader of a source gets one after another, down to the end token. -/
structure AllTokens (source filename : Text) (tokens : List Token) : Prop where
  reads : tokens.map .ok = (List.range tokens.length).map fun n =>
    (Lexer.ofSource source filename).outcomeAfter n
  ends : ∃ before last, tokens = before ++ [last] ∧ last.kind = .eof ∧ ∀ t ∈ before, t.kind ≠ .eof

theorem allTokens_of_items {source : Text} {tokens : List Token}
    (items : (Cursor.ofSource source).items = tokens.map .token) (filename : Text) :
    AllTokens source filename
      (tokens ++ [⟨.eof, [], (Cursor.ofSource source).finish.position⟩]) := by
  have length : (Cursor.ofSource source).items.length = tokens.length := by
    rw [items, List.length_map]
  constructor
  · -- Each read gives the next item, and the read behind the last of them the end token.
    have eachRead : (List.range tokens.length).map
        (fun n => (Lexer.ofSource source filename).outcomeAfter n) = tokens.map .ok := by
      have reads := (Cursor.ofSource source).items_eq_map_read
      rw [length] at reads
      calc (List.range tokens.length).map (fun n => (Lexer.ofSource source filename).outcomeAfter n)
        _ = (List.range tokens.length).map fun n =>
            Lexer.outcomeOf filename ((Cursor.ofSource source).readMany n).read.1 := by
          simp only [Lexer.outcomeAfter_eq]
          rfl
        _ = (Cursor.ofSource source).items.map (Lexer.outcomeOf filename) := by
          rw [reads, List.map_map]
          rfl
        _ = tokens.map .ok := by
          rw [items, List.map_map]
          rfl
    have lastRead : (Lexer.ofSource source filename).outcomeAfter tokens.length =
        .ok ⟨.eof, [], (Cursor.ofSource source).finish.position⟩ := by
      rw [Lexer.outcomeAfter_eq]
      exact congrArg _ (Cursor.read_readMany_of_length_le length.le)
    rw [List.length_append, List.length_singleton, List.range_succ, List.map_append,
      List.map_append, eachRead, List.map_singleton, List.map_singleton, lastRead]
  · refine ⟨tokens, _, rfl, rfl, fun t member => ?_⟩
    apply (Cursor.ofSource source).kind_ne_eof_of_mem_items
    rw [items]
    exact List.mem_map_of_mem member

namespace Cli

open MonkeySyntax.Parser Grammar

/-! ### What is shown -/

/-- What is wrong with a source: bad names where the tokens are wanted, or else all that the parser
found. -/
def faults (view : View) (source filename : Text) : List Error :=
  if view.tokens then
    (Lexer.ofSource source filename).namesMet.map fun (literal, position) =>
      ⟨.badName literal, filename, position⟩
  else (parseSource source filename).errors

/-- The whole text of a view: all tokens, or the tree of all that the source consists of. -/
inductive Whole (source filename : Text) : View → Text → Prop
  | tokens {ast : Bool} {tokens : List Token} (all : AllTokens source filename tokens) :
    Whole source filename ⟨true, ast⟩ (Token.dump tokens)
  | outline {statements : List Node}
    (parsed : (parseSource source filename).outcome = .ok statements)
    (derived : Program .plain (Cursor.ofSource source).items statements) :
    Whole source filename ⟨false, true⟩ (Node.program statements).outline
  | canonical {statements : List Node}
    (parsed : (parseSource source filename).outcome = .ok statements)
    (derived : Program .plain (Cursor.ofSource source).items statements) :
    Whole source filename ⟨false, false⟩ ((Node.program statements).render ++ ['\n'])

def Output.errorLine? : Output → Option Text
  | .err text => some text
  | _ => none

/-- A view is shown as a whole, or what is wrong is reported: the first bad name where the tokens
are wanted, or else all errors in order. -/
inductive Shows (view : View) (source filename : Text) : List Output × Shown → Prop
  | whole {text : Text} (sound : faults view source filename = [])
    (whole : Whole source filename view text) :
    Shows view source filename ([.out text], .exit 0)
  | refused {outputs : List Output} (faulty : faults view source filename ≠ [])
    (nothing : outputs.flatMap Output.standardText = [])
    (reports : outputs.filterMap Output.errorLine? =
      (if view.tokens then (faults view source filename).take 1
        else faults view source filename).map Error.line) :
    Shows view source filename (outputs, .exit 1)

variable {view : View} {source filename : Text}

namespace Shows

theorem exit_zero_iff {shown : List Output × Shown} (shows : Shows view source filename shown) :
    shown.2 = .exit 0 ↔ faults view source filename = [] := by
  cases shows with
  | whole sound => exact ⟨fun _ => sound, fun _ => rfl⟩
  | refused faulty => exact ⟨nofun, fun sound => absurd sound faulty⟩

end Shows

/-! ### Tokens -/

theorem faults_tokens (ast : Bool) (source filename : Text) :
    faults ⟨true, ast⟩ source filename =
      (badNames (Cursor.ofSource source).items).map fun (literal, position) =>
        ⟨.badName literal, filename, position⟩ := by
  rw [faults, if_pos rfl, Lexer.namesMet_eq]
  rfl

theorem showTokens_shows (ast : Bool) (source filename : Text) :
    Shows ⟨true, ast⟩ source filename (showTokens source filename) := by
  have names := faults_tokens ast source filename
  rcases Item.untilBadName_cases (Cursor.ofSource source).items with
    ⟨tokens, items, found⟩ | ⟨tokens, literal, position, rest, items, found⟩
  · rw [items, badNames_tokens] at names
    have all := allTokens_of_items items filename
    simp only [showTokens, Lexer.rest, Lexer.ofSource, found]
    exact .whole names (.tokens all)
  · rw [items, badNames_append, badNames_tokens, List.nil_append] at names
    simp only [showTokens, Lexer.rest, Lexer.ofSource, found]
    apply Shows.refused
    · rw [names]
      exact List.cons_ne_nil _ _
    · rfl
    · rw [names]
      rfl

/-! ### Programs -/

theorem standardText_reports (events : List Event) (errors : List Error) :
    (logged events ++ errors.map fun e => Output.err e.line).flatMap Output.standardText = [] := by
  simp [logged, Output.standardText]

theorem errorLines_reports (events : List Event) (errors : List Error) :
    (logged events ++ errors.map fun e => Output.err e.line).filterMap Output.errorLine? =
      errors.map Error.line := by
  have logs : (logged events).filterMap Output.errorLine? = [] := by
    rw [logged, List.filterMap_map, List.filterMap_eq_nil_iff]
    exact fun _ _ => rfl
  rw [List.filterMap_append, logs, List.nil_append, List.filterMap_map]
  exact congrFun List.filterMap_eq_map' errors

theorem showProgram_shows (short : Short (Cursor.ofSource source).items) (ast : Bool)
    (filename : Text) : Shows ⟨false, ast⟩ source filename (showProgram ast source filename) := by
  obtain ⟨statements, returns⟩ := returns_of_short source filename short
  by_cases clean : (parseSource source filename).errors = []
  · -- A derivation reads every item, so that a tree without errors leaves nothing out.
    have derived := program_of_errors filename returns clean
    have program := program_of_outcome returns
    have all := turnsOf_of_errors filename returns clean
    obtain ⟨_, _, quiet⟩ := parseSource_of_turns filename all
    simp only [showProgram, returns, clean, List.isEmpty_nil, if_true, quiet, program]
    apply Shows.whole
    · exact clean
    · cases ast with
      | true => exact .outline returns derived
      | false => exact .canonical returns derived
  · have faulty : (parseSource source filename).errors.isEmpty = false := by
      rw [List.isEmpty_eq_false_iff]
      exact clean
    simp only [showProgram, returns, faulty, Bool.false_eq_true, if_false]
    apply Shows.refused
    · exact clean
    · exact standardText_reports ..
    · exact errorLines_reports ..

theorem snd_showProgram (ast other : Bool) (source filename : Text) :
    (showProgram ast source filename).2 = (showProgram other source filename).2 := by
  cases returned : (parseSource source filename).outcome with
  | error numeral => simp only [showProgram, returned]
  | ok statements =>
    cases clean : (parseSource source filename).errors.isEmpty with
    | true => simp only [showProgram, returned, clean, if_true]
    | false => simp only [showProgram, returned, clean, Bool.false_eq_true, if_false]

/-- A source without errors has no bad name. -/
theorem faults_tokens_of_errors (short : Short (Cursor.ofSource source).items)
    (clean : (parseSource source filename).errors = []) (ast : Bool) :
    faults ⟨true, ast⟩ source filename = [] := by
  obtain ⟨statements, returns⟩ := returns_of_short source filename short
  have derived := program_of_errors filename returns clean
  rw [faults_tokens, List.map_eq_nil_iff, List.eq_nil_iff_forall_not_mem]
  rintro ⟨literal, position⟩ member
  exact noBadName_of_program derived literal position (mem_badNames.mp member)

/-- Every view is shown as a whole or refused with reports, the tree and the canonical form alike,
and where these are shown the tokens are shown too. -/
theorem showSource_whole (short : Short (Cursor.ofSource source).items) (filename : Text) :
    (∀ view, Shows view source filename (showSource view source filename)) ∧
      (showSource ⟨false, true⟩ source filename).2 = (showSource ⟨false, false⟩ source filename).2 ∧
      ((showSource ⟨false, false⟩ source filename).2 = .exit 0 →
        ∀ ast, (showSource ⟨true, ast⟩ source filename).2 = .exit 0) := by
  simp only [showSource_tokens, showSource_program]
  refine ⟨?_, snd_showProgram .., ?_⟩
  · rintro ⟨tokens, ast⟩
    cases tokens with
    | true =>
      rw [showSource_tokens]
      exact showTokens_shows ast source filename
    | false =>
      rw [showSource_program]
      exact showProgram_shows short ast filename
  · intro exits ast
    have clean := (showProgram_shows short false filename).exit_zero_iff.mp exits
    apply (showTokens_shows ast source filename).exit_zero_iff.mpr
    exact faults_tokens_of_errors short clean ast

/-- A source without errors has every view of it. -/
theorem showSource_whole_negated :
    (∀ view, Shows view "-a".toList "prog.mk".toList
      (showSource view "-a".toList "prog.mk".toList)) ∧
    (showSource ⟨false, true⟩ "-a".toList "prog.mk".toList).2 = .exit 0 ∧
    ∀ ast, (showSource ⟨true, ast⟩ "-a".toList "prog.mk".toList).2 = .exit 0 := by
  have few : "-a".toList.length ≤ Decimal.maxDigits := by decide
  obtain ⟨shows, alike, withTokens⟩ :=
    showSource_whole (short_of_length "-a".toList few) "prog.mk".toList
  have exits : (showSource ⟨false, false⟩ "-a".toList "prog.mk".toList).2 = .exit 0 := by cbv
  exact ⟨shows, alike.trans exits, withTokens exits⟩

end Cli

end MonkeySyntax
