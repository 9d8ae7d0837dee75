import Mathlib.Data.List.Basic
import Mathlib.Data.List.TakeWhile
import MonkeySyntax.Proofs.Lexing.BadNames
import MonkeySyntax.Proofs.Lexing.Offsets
import MonkeySyntax.Proofs.Lexing.Sharing

/-!
# A source in pieces

Reading takes a source apart into items with layout between them, and leaves out nothing
(`exists_takenApart`). The place of every item, and of the lexer behind every operation, can be
counted in the text before it.
-/

namespace MonkeySyntax

/-- What reading an item takes from the text: of a bad name, the digits that it begins with. -/
def Item.consumed : Item → Text
  | .token t => t.literal
  | .badName literal _ => literal.takeWhile isDigit

/-! ### The text of a lexeme -/

namespace Lexeme

variable {c : Char} {rest : Text}

theorem consumed_at_first (c : Char) (rest : Text) (position : Position) :
    ((first c rest).at position).consumed = (first c rest).consumed := by
  cases isFirst : first c rest with
  | token => rfl
  | badName literal digits =>
    obtain ⟨digit, rfl, rfl, _⟩ := badName_of_first isFirst
    have digits : (rest.takeWhile isWordChar).takeWhile isDigit = rest.takeWhile isDigit := by
      rw [List.takeWhile_takeWhile]
      congr 1
      funext d
      simpa using isWordChar_of_isDigit
    rw [Lexeme.at, Item.consumed, List.takeWhile_cons_of_pos digit, digits]
    rfl

theorem visible_of_ofPair? {d : Char} {kind : Kind} (isPair : Kind.ofPair? c d = some kind) :
    isLayout d = false := by
  unfold Kind.ofPair? at isPair
  split at isPair <;> first | rfl | contradiction

theorem visible_first (visible : isLayout c = false) :
    ∀ d ∈ (first c rest).consumed, isLayout d = false := by
  cases isFirst : first c rest with
  | token kind literal =>
    rcases first_cases isFirst with ⟨_, rfl⟩ | ⟨d, isPair, rfl⟩ | ⟨_, digits, _⟩ | ⟨_, chars, _⟩ |
      ⟨_, rfl⟩
    · simpa [consumed] using visible
    · simpa [consumed, visible] using visible_of_ofPair? isPair
    · exact fun d member => isLayout_eq_false (isWordChar_of_isDigit (digits d member))
    · exact fun d member => isLayout_eq_false (chars d member)
    · simpa [consumed] using visible
  | badName literal digits =>
    obtain ⟨digit, rfl, _, _⟩ := badName_of_first isFirst
    have all : ∀ d ∈ c :: rest.takeWhile isDigit, isDigit d :=
      List.forall_mem_cons.mpr ⟨digit, List.all_eq_true.mp List.all_takeWhile⟩
    exact fun d member => isLayout_eq_false (isWordChar_of_isDigit (all d member))

theorem kind_ne_eof {literal : Text} {kind : Kind} (isFirst : first c rest = .token kind literal) :
    kind ≠ .eof := by
  have word : ∀ head, literal.head? = some head → Kind.ofWord literal ≠ .eof := by
    intro head isHead
    obtain ⟨more, rfl⟩ := List.head?_eq_some_iff.mp isHead
    rcases @ofWord_cons head more with ⟨_, keyword⟩ | ⟨_, other⟩
    · intro eof
      rw [eof] at keyword
      exact absurd keyword (by decide)
    · rw [other]
      split <;> decide
  have spelled : Kind.spelling .eof = ['E', 'O', 'F'] := rfl
  rcases first_cases isFirst with ⟨single, _⟩ | ⟨d, pair, _⟩ | ⟨_, _, rfl, head⟩ |
    ⟨_, _, rfl, head⟩ | ⟨rfl, _⟩
  · rintro rfl
    have spelling := (spelling_of_ofChar? single).1
    rw [spelled] at spelling
    cases spelling
  · rintro rfl
    have spelling := (spelling_of_ofPair? pair).1
    rw [spelled] at spelling
    cases spelling
  · exact word c head
  · exact word c head
  · decide

end Lexeme

/-! ### One piece -/

/-- An item and the layout before it. -/
structure Piece where
  layout : Text
  item : Item

def Piece.text (piece : Piece) : Text := piece.layout ++ piece.item.consumed

namespace Cursor

variable {cursor : Cursor}

/-- Reading takes a piece from the text, whose item is no end token. -/
structure Takes (cursor : Cursor) (piece : Piece) : Prop where
  item : cursor.read.1 = piece.item
  text : cursor.rest = piece.text ++ cursor.read.2.rest
  behind : cursor.read.2 = cursor.pass piece.text.length
  place : piece.item.position = (cursor.pass (piece.layout.length + 1)).position
  layout : ∀ c ∈ piece.layout, isLayout c
  visible : ∀ c ∈ piece.item.consumed, isLayout c = false
  some : piece.item.consumed ≠ []
  notEnd (t : Token) : piece.item = .token t → t.kind ≠ .eof

theorem exists_takes (more : cursor.skipLayout.rest ≠ []) : ∃ piece, cursor.Takes piece := by
  obtain ⟨c, text, starts⟩ := List.exists_cons_of_ne_nil more
  have dropped := cursor.rest_skipLayout.symm.trans starts
  have visible : isLayout c = false := by
    have first := List.head?_dropWhile_not isLayout cursor.rest
    rw [dropped] at first
    exact first
  obtain ⟨r, consumed, isPrefix⟩ := Lexeme.consumed_first c text
  have length : (Lexeme.first c text).consumed.length = r.length + 1 := by rw [consumed]; rfl
  refine ⟨⟨cursor.rest.takeWhile isLayout, cursor.read.1⟩, rfl, ?_, ?_, ?_, ?_, ?_, ?_, ?_⟩
  all_goals rw [read_eq_of_cons starts]
  · rw [Piece.text, Lexeme.consumed_at_first, rest_pass, starts, length, List.drop_succ_cons,
      consumed, List.append_assoc, List.cons_append, List.prefix_iff_eq_append.mp isPrefix, ← dropped,
      List.takeWhile_append_dropWhile]
  · rw [Piece.text, Lexeme.consumed_at_first, List.length_append, pass_add]
    rfl
  · rw [Lexeme.position_at, pass_add]
    rfl
  · exact List.all_eq_true.mp List.all_takeWhile
  · rw [Lexeme.consumed_at_first]
    exact Lexeme.visible_first visible
  · rw [Lexeme.consumed_at_first, consumed]
    exact nofun
  · intro t isToken
    cases isFirst : Lexeme.first c text with
    | badName => rw [isFirst] at isToken; contradiction
    | token kind literal =>
      rw [isFirst] at isToken
      cases isToken
      exact Lexeme.kind_ne_eof isFirst

/-! ### All pieces -/

/-- The text is pieces and layout behind them, and reading again and again takes these pieces. -/
structure InPieces (cursor : Cursor) (pieces : List Piece) (last : Text) : Prop where
  items : pieces.map Piece.item = cursor.items
  text : cursor.rest = pieces.flatMap Piece.text ++ last
  last : ∀ c ∈ last, isLayout c
  takes (before : List Piece) (piece : Piece) (later : List Piece) :
    pieces = before ++ piece :: later →
      cursor.readMany before.length = cursor.pass (before.flatMap Piece.text).length ∧
      (cursor.readMany before.length).Takes piece

theorem exists_inPieces (cursor : Cursor) : ∃ pieces last, cursor.InPieces pieces last := by
  fun_induction items cursor with
  | case1 cursor ends =>
    rw [rest_skipLayout, List.dropWhile_eq_nil_iff] at ends
    refine ⟨[], cursor.rest, ?_, rfl, ends, ?_⟩
    · rw [items_eq_nil (by rw [rest_skipLayout, List.dropWhile_eq_nil_iff]; exact ends)]
      rfl
    · intro before piece later split
      simp at split
  | case2 cursor more _ ih =>
    obtain ⟨pieces, last, inPieces⟩ := ih
    obtain ⟨piece, takes⟩ := exists_takes more
    refine ⟨piece :: pieces, last, ?_, ?_, inPieces.last, ?_⟩
    · rw [items_eq_cons more, List.map_cons, inPieces.items, takes.item]
    · rw [List.flatMap_cons, List.append_assoc, ← inPieces.text]
      exact takes.text
    · intro before other later split
      -- Whatever is read behind the first piece is read by the cursor that has passed it.
      cases before with
      | nil =>
        obtain ⟨rfl, _⟩ := List.cons.inj split
        exact ⟨rfl, takes⟩
      | cons first before =>
        obtain ⟨rfl, tail⟩ := List.cons.inj split
        obtain ⟨behind, takesOther⟩ := inPieces.takes before other later tail
        refine ⟨?_, takesOther⟩
        rw [List.length_cons, readMany, behind, takes.behind, ← pass_add, List.flatMap_cons,
          List.length_append]

namespace InPieces

variable {pieces : List Piece} {last : Text}

theorem length_items (inPieces : cursor.InPieces pieces last) :
    cursor.items.length = pieces.length := by
  rw [← inPieces.items, List.length_map]

theorem of_mem (inPieces : cursor.InPieces pieces last) {piece : Piece} (member : piece ∈ pieces) :
    ∃ start : Cursor, start.Takes piece := by
  obtain ⟨before, later, split⟩ := List.append_of_mem member
  exact ⟨_, (inPieces.takes before piece later split).2⟩

theorem flatMap_consumed (inPieces : cursor.InPieces pieces last) :
    pieces.flatMap (·.item.consumed) = cursor.rest.filter fun c => !isLayout c := by
  have nothing : ∀ text : Text, (∀ c ∈ text, isLayout c) →
      text.filter (fun c => !isLayout c) = [] := by
    intro text layout
    simpa using layout
  rw [inPieces.text, List.filter_append, nothing last inPieces.last, List.append_nil,
    List.filter_flatMap]
  refine List.flatMap_congr fun piece member => ?_
  obtain ⟨start, takes⟩ := inPieces.of_mem member
  rw [Piece.text, List.filter_append, nothing _ takes.layout, List.nil_append, eq_comm,
    List.filter_eq_self]
  simpa using takes.visible

end InPieces

/-- An item is no longer than the text that it is read from. -/
theorem length_consumed_le (cursor : Cursor) {item : Item} (member : item ∈ cursor.items) :
    item.consumed.length ≤ cursor.rest.length := by
  obtain ⟨pieces, last, inPieces⟩ := exists_inPieces cursor
  rw [← inPieces.items] at member
  obtain ⟨piece, among, rfl⟩ := List.mem_map.mp member
  obtain ⟨before, later, rfl⟩ := List.append_of_mem among
  rw [inPieces.text]
  simp only [List.flatMap_append, List.flatMap_cons, Piece.text, List.length_append]
  omega

theorem kind_ne_eof_of_mem_items (cursor : Cursor) {t : Token} (member : .token t ∈ cursor.items) :
    t.kind ≠ .eof := by
  obtain ⟨pieces, last, inPieces⟩ := exists_inPieces cursor
  rw [← inPieces.items] at member
  obtain ⟨piece, among, isItem⟩ := List.mem_map.mp member
  obtain ⟨start, takes⟩ := inPieces.of_mem among
  exact takes.notEnd t isItem

theorem read_readMany_of_length_le {n : Nat} (ends : cursor.items.length ≤ n) :
    (cursor.readMany n).read.1 = .token ⟨.eof, [], cursor.finish.position⟩ := by
  have nothing : (cursor.readMany n).skipLayout.rest = [] := by
    by_contra more
    have left := items_eq_cons more
    rw [items_readMany, List.drop_eq_nil_of_le ends] at left
    contradiction
  obtain ⟨m, eq⟩ := cursor.exists_readMany_eq_pass n
  rw [read_of_ends nothing, eq, finish_pass]

end Cursor

/-! ### The lexer of a source -/

namespace Lexer

theorem cursor_nextMany (n : Nat) (lexer : Lexer) :
    (lexer.nextMany n).cursor = lexer.cursor.readMany n := by
  induction n generalizing lexer with
  | zero => rfl
  | succ n ih => exact ih _

theorem exists_rest_eq_pass (lexer : Lexer) :
    ∃ n, lexer.rest.lexer.cursor = lexer.cursor.pass n := by
  unfold rest
  split
  · exact ⟨_, rfl⟩
  · dsimp only
    rw [cursor_report]
    exact Cursor.exists_readMany_eq_pass ..

/-- The lexer's place is that of the last character that it has read. -/
def InPlace (source : Text) (lexer : Lexer) : Prop :=
  ∃ read, readable source = read ++ lexer.cursor.rest ∧ lexer.cursor.position = .ofLast read

end Lexer

/-- A source taken apart by reading until the end token and going on behind bad names. -/
structure TakenApart (source filename : Text) (pieces : List Piece) (last : Text) : Prop where
  /-- Items with layout before them, and layout at the end, are the whole text. -/
  text : readable source = pieces.flatMap Piece.text ++ last
  layout : ∀ c ∈ pieces.flatMap Piece.layout ++ last, isLayout c
  /-- The items are all that is no layout. -/
  visible : pieces.flatMap (·.item.consumed) = (readable source).filter fun c => !isLayout c
  /-- Each read gives one item, no end token, at the place where its text begins, and leaves the
  text behind it. -/
  reads (before : List Piece) (piece : Piece) (later : List Piece) :
    pieces = before ++ piece :: later →
      (Lexer.ofSource source filename).outcomeAfter before.length =
        Lexer.outcomeOf filename piece.item ∧
      (∀ t, piece.item = .token t → t.kind ≠ .eof) ∧ piece.item.consumed ≠ [] ∧
      piece.item.position = .following (before.flatMap Piece.text ++ piece.layout) ∧
      ((Lexer.ofSource source filename).nextMany (before.length + 1)).cursor.rest =
        later.flatMap Piece.text ++ last
  /-- Behind the last item every read gives the end token, at the last character. -/
  ends (n : Nat) : pieces.length ≤ n →
    (Lexer.ofSource source filename).outcomeAfter n = .ok ⟨.eof, [], .ofLast (readable source)⟩
  /-- Whatever was done with the lexer, it stands at the last character read. -/
  inPlace (operations : List Operation) :
    ((Shared.ofSource source filename).after operations).lexer.InPlace source ∧
    ((Shared.ofSource source filename).after operations).lexer.rest.lexer.InPlace source
  /-- After an end token nothing else is returned. -/
  again (operations : List Operation) (before : List Performed) (performed : Performed)
    (later : List Performed) (t : Token) :
    (Shared.ofSource source filename).trace operations = before ++ performed :: later →
      performed.outcome = some (.ok t) → t.kind = .eof →
      ∀ other ∈ later, ∀ outcome, other.outcome = some outcome → outcome = .ok t

namespace Lexer

variable {source filename : Text}

theorem inPlace_of_pass {lexer : Lexer} {n : Nat}
    (eq : lexer.cursor = (Cursor.ofSource source).pass n) : lexer.InPlace source := by
  obtain ⟨read, split, hasRead⟩ := Cursor.HasRead.of_pass eq
  exact ⟨read, split, hasRead.position⟩

theorem inPlace_after (source filename : Text) (operations : List Operation) :
    ((Shared.ofSource source filename).after operations).lexer.InPlace source ∧
      ((Shared.ofSource source filename).after operations).lexer.rest.lexer.InPlace source := by
  have stands := ((InTurn.start source filename).trace operations).cursor
  obtain ⟨n, eq⟩ := (Cursor.ofSource source).exists_readMany_eq_pass _
  rw [eq] at stands
  obtain ⟨m, listed⟩ :=
    exists_rest_eq_pass ((Shared.ofSource source filename).after operations).lexer
  rw [stands, ← Cursor.pass_add] at listed
  exact ⟨inPlace_of_pass stands, inPlace_of_pass listed⟩

theorem outcomeAfter_of_length_le {n : Nat} (ends : (Cursor.ofSource source).items.length ≤ n) :
    (ofSource source filename).outcomeAfter n = .ok ⟨.eof, [], .ofLast (readable source)⟩ := by
  have finish : (Cursor.ofSource source).finish.position = .ofLast (readable source) := by
    have whole := (Cursor.hasRead_pass source (readable source).length).position
    rwa [List.take_length] at whole
  have met := Cursor.read_readMany_of_length_le ends
  rw [finish] at met
  rw [outcomeAfter_eq]
  exact congrArg (outcomeOf filename) met

end Lexer

namespace Cursor.InPieces

variable {source filename : Text} {pieces : List Piece} {last : Text}

theorem length_le_of_eof (inPieces : (ofSource source).InPieces pieces last) {n : Nat} {t : Token}
    (returned : (Lexer.ofSource source filename).outcomeAfter n = .ok t) (eof : t.kind = .eof) :
    pieces.length ≤ n := by
  by_contra less
  have bound : n < pieces.length := by omega
  have split : pieces = pieces.take n ++ pieces[n] :: pieces.drop (n + 1) := by simp
  obtain ⟨_, takes⟩ := inPieces.takes _ _ _ split
  rw [List.length_take_of_le (by omega)] at takes
  have isItem : Lexer.outcomeOf filename (pieces[n]).item = .ok t := by
    rw [← takes.item, ← returned, Lexer.outcomeAfter_eq]
    rfl
  cases item : (pieces[n]).item with
  | token found =>
    rw [item] at isItem
    cases isItem
    exact takes.notEnd t item eof
  | badName => rw [item] at isItem; contradiction

end Cursor.InPieces

/-! ### Behind the end -/

theorem taken_le_append (earlier more : List Performed) :
    taken earlier ≤ taken (earlier ++ more) := by
  rw [taken, taken, List.filter_append, List.length_append]
  exact Nat.le_add_right ..

/-- What an operation returns is what a single reader gets after as many items. -/
theorem outcome_of_trace {source filename : Text} {operations : List Operation}
    {before later : List Performed} {performed : Performed} {outcome : Except Error Token}
    (split : (Shared.ofSource source filename).trace operations = before ++ performed :: later)
    (returned : performed.outcome = some outcome) :
    (Lexer.ofSource source filename).outcomeAfter (taken before) = outcome := by
  obtain ⟨first, operation, _, _, isBefore, rfl⟩ := Shared.exists_perform_of_trace split
  have inTurn := (InTurn.start source filename).trace first
  rw [List.nil_append, ← isBefore] at inTurn
  rcases inTurn.perform_cases operation with ⟨run, _, _, idle⟩ | active
  · rw [idle] at returned
    contradiction
  · rw [inTurn.outcome_of_active active] at returned
    exact Option.some.inj returned

/-- Reading takes every source apart. -/
theorem exists_takenApart (source filename : Text) :
    ∃ pieces last, TakenApart source filename pieces last := by
  obtain ⟨pieces, last, inPieces⟩ := (Cursor.ofSource source).exists_inPieces
  have ends : ∀ n, pieces.length ≤ n → (Lexer.ofSource source filename).outcomeAfter n =
      .ok ⟨.eof, [], .ofLast (readable source)⟩ := by
    intro n reached
    rw [← inPieces.length_items] at reached
    exact Lexer.outcomeAfter_of_length_le reached
  refine ⟨pieces, last, inPieces.text, ?_, inPieces.flatMap_consumed, ?_, ends,
    Lexer.inPlace_after source filename, ?_⟩
  · intro c member
    rcases List.mem_append.mp member with member | member
    · obtain ⟨piece, isPiece, member⟩ := List.mem_flatMap.mp member
      obtain ⟨start, takes⟩ := inPieces.of_mem isPiece
      exact takes.layout c member
    · exact inPieces.last c member
  · intro before piece later split
    obtain ⟨behind, takes⟩ := inPieces.takes before piece later split
    have returned : (Lexer.ofSource source filename).outcomeAfter before.length =
        Lexer.outcomeOf filename piece.item := by
      rw [Lexer.outcomeAfter_eq, ← takes.item]
      rfl
    have whole : readable source =
        before.flatMap Piece.text ++ (piece.text ++ (later.flatMap Piece.text ++ last)) := by
      rw [← rest_ofSource, inPieces.text, split, List.flatMap_append, List.flatMap_cons,
        List.append_assoc, List.append_assoc]
    refine ⟨returned, takes.notEnd, takes.some, ?_, ?_⟩
    · obtain ⟨c, text, starts⟩ := List.exists_cons_of_ne_nil takes.some
      rw [Piece.text, starts, List.append_assoc, ← List.append_assoc, List.cons_append] at whole
      have place := Cursor.position_pass_ofSource whole
      rwa [List.length_append, Nat.add_assoc, Cursor.pass_add, ← behind, ← takes.place] at place
    · have left := takes.text
      rw [behind, Cursor.rest_pass, rest_ofSource, whole, List.drop_left, ← behind] at left
      rw [Lexer.cursor_nextMany, Cursor.readMany_succ]
      exact (List.append_cancel_left left).symm
  · intro operations before performed later t split returned eof other member outcome isOutcome
    have first := outcome_of_trace split returned
    have reached : pieces.length ≤ taken before := inPieces.length_le_of_eof first eof
    obtain ⟨between, rest, rfl⟩ := List.append_of_mem member
    rw [← List.cons_append, ← List.append_assoc] at split
    have second := outcome_of_trace split isOutcome
    rw [← second, ← first, ends _ reached, ends _ (reached.trans (taken_le_append before _))]

end MonkeySyntax
