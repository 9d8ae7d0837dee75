import MonkeySyntax.Proofs.Lexing.Operations

/-!
# Reading in place

A scanner never cuts its source: it keeps the whole text, an index into it and the index where a NUL
or the end of the text stops it. All it does with the text is to look at the character at an index
in front of that limit. `next_of_follows` says that it comes to the items that a cursor comes to.
-/

namespace MonkeySyntax

/-- A place in a source that is kept whole. -/
structure Scanner where
  source : Text
  /-- The index of the first NUL, or the length of a source without one. -/
  limit : Nat
  index : Nat := 0
  /-- The last character read; there is none at the start, and none once the end was met. -/
  last : Option Char := none
  position : Position := ⟨1, 0⟩

namespace Scanner

def ofSource (source : Text) : Scanner where
  source := source
  limit := source.findIdx (· = '\x00')

def peekChar (scanner : Scanner) : Option Char :=
  if scanner.index < scanner.limit then scanner.source[scanner.index]? else none

def readChar (scanner : Scanner) : Scanner :=
  match scanner.peekChar with
  | none => { scanner with last := none }
  | some c =>
    { scanner with
      index := scanner.index + 1
      last := some c
      position :=
        if scanner.last = some '\n' then ⟨scanner.position.line + 1, 1⟩
        else ⟨scanner.position.line, scanner.position.column + 1⟩ }

/-- Reads characters as long as the next one is of a sort. -/
def readWhile (sort : Char → Bool) (scanner : Scanner) : Scanner :=
  if _ : scanner.peekChar.any sort then readWhile sort scanner.readChar else scanner
termination_by scanner.limit - scanner.index
decreasing_by
  rename_i more
  obtain ⟨c, next, _⟩ := (Option.any_eq_true ..).mp more
  rw [readChar, next]
  have inside : scanner.index < scanner.limit := by
    by_contra outside
    rw [peekChar, if_neg outside] at next
    contradiction
  dsimp only
  omega

/-- The index behind the characters of a sort that stand at an index and from there on. -/
def extent (sort : Char → Bool) (scanner : Scanner) (index : Nat) : Nat :=
  if index < scanner.limit ∧ scanner.source[index]?.any sort then
    extent sort scanner (index + 1)
  else index
termination_by scanner.limit - index

def slice (scanner : Scanner) (start stop : Nat) : Text := (scanner.source.take stop).drop start

/-- The word or numeral from an index on that ends in front of a scanner. -/
def word (start : Nat) (position : Position) (behind : Scanner) : Item × Scanner :=
  (.token ⟨.ofWord (behind.slice start behind.index), behind.slice start behind.index, position⟩,
    behind)

/-- The rest of a word or numeral behind its first character, which was read last. A scanner stays
behind the digits of a bad name, and looks for its end from there. -/
def readWord (scanner : Scanner) : Item × Scanner :=
  let start := scanner.index - 1
  if scanner.last.any isDigit then
    let behind := scanner.readWhile isDigit
    if behind.peekChar.any isLetter then
      (.badName (behind.slice start (behind.extent isWordChar behind.index)) scanner.position,
        behind)
    else word start scanner.position behind
  else word start scanner.position (scanner.readWhile isWordChar)

/-- The next item, and the scanner behind it. -/
def next (scanner : Scanner) : Item × Scanner :=
  let first := (scanner.readWhile isLayout).readChar
  match first.last with
  | none => (.token ⟨.eof, [], first.position⟩, first)
  | some c =>
    match Kind.ofChar? c with
    | some kind =>
      match first.peekChar with
      | some d =>
        match Kind.ofPair? c d with
        | some pair => (.token ⟨pair, [c, d], first.position⟩, first.readChar)
        | none => (.token ⟨kind, [c], first.position⟩, first)
      | none => (.token ⟨kind, [c], first.position⟩, first)
    | none =>
      if isDigit c || isLetter c then first.readWord
      else (.token ⟨.illegal, [c], first.position⟩, first)

/-! ### The unread text -/

def unread (scanner : Scanner) : Text := (scanner.source.take scanner.limit).drop scanner.index

variable {scanner : Scanner} {cursor : Cursor} {sort : Char → Bool}

theorem peekChar_eq_head? (scanner : Scanner) : scanner.peekChar = scanner.unread.head? := by
  rw [peekChar, unread, List.head?_drop, List.getElem?_take]

theorem readChar_of_nil (ends : scanner.unread = []) :
    scanner.readChar = { scanner with last := none } := by
  rw [readChar, peekChar_eq_head?, ends]
  rfl

theorem readChar_of_cons {c : Char} {rest : Text} (starts : scanner.unread = c :: rest) :
    scanner.readChar = { scanner with
      index := scanner.index + 1
      last := some c
      position :=
        if scanner.last = some '\n' then ⟨scanner.position.line + 1, 1⟩
        else ⟨scanner.position.line, scanner.position.column + 1⟩ } := by
  rw [readChar, peekChar_eq_head?, starts]
  rfl

/-- A scanner has moved over some characters and left the source alone. -/
structure Moved (n : Nat) (before after : Scanner) : Prop where
  source : after.source = before.source
  limit : after.limit = before.limit
  index : after.index = before.index + n

namespace Moved

variable {before middle after : Scanner} {m n : Nat}

theorem trans (first : Moved m before middle) (second : Moved n middle after) :
    Moved (m + n) before after :=
  ⟨second.source.trans first.source, second.limit.trans first.limit,
    by rw [second.index, first.index, Nat.add_assoc]⟩

theorem unread (moved : Moved n before after) : after.unread = before.unread.drop n := by
  rw [Scanner.unread, moved.source, moved.limit, moved.index, ← List.drop_drop, ← Scanner.unread]

/-- A slice of what was unread does not go beyond the limit. -/
theorem slice (moved : Moved n before after) (inside : m ≤ before.unread.length) :
    after.slice before.index (before.index + m) = before.unread.take m := by
  rw [Scanner.unread, List.length_drop, List.length_take] at inside
  rw [Scanner.slice, moved.source, List.drop_take, Nat.add_sub_cancel_left, Scanner.unread,
    List.drop_take, List.take_take]
  rcases Nat.eq_zero_or_pos m with rfl | some
  · rw [Nat.zero_min]
  · rw [Nat.min_eq_left (by omega)]

end Moved

theorem moved_readChar {c : Char} {rest : Text} (starts : scanner.unread = c :: rest) :
    Moved 1 scanner scanner.readChar := by
  rw [readChar_of_cons starts]
  exact ⟨rfl, rfl, rfl⟩

theorem unread_readChar (scanner : Scanner) : scanner.readChar.unread = scanner.unread.tail := by
  cases starts : scanner.unread with
  | nil =>
    rw [readChar_of_nil starts]
    exact starts
  | cons c rest =>
    rw [(moved_readChar starts).unread, starts]
    rfl

/-- The character that makes a scanner read on, and what is behind it. -/
theorem unread_of_peekChar (more : scanner.peekChar.any sort) :
    ∃ c rest, scanner.unread = c :: rest ∧ sort c := by
  obtain ⟨c, next, isSort⟩ := (Option.any_eq_true ..).mp more
  rw [peekChar_eq_head?] at next
  obtain ⟨rest, starts⟩ := List.head?_eq_some_iff.mp next
  exact ⟨c, rest, starts, isSort⟩

theorem takeWhile_of_peekChar (stops : ¬ scanner.peekChar.any sort) :
    scanner.unread.takeWhile sort = [] := by
  rw [peekChar_eq_head?] at stops
  cases starts : scanner.unread with
  | nil => rfl
  | cons c rest =>
    rw [starts] at stops
    exact List.takeWhile_cons_of_neg stops

theorem moved_readWhile (sort : Char → Bool) (scanner : Scanner) :
    Moved (scanner.unread.takeWhile sort).length scanner (scanner.readWhile sort) := by
  fun_induction readWhile sort scanner with
  | case1 scanner more ih =>
    obtain ⟨c, rest, starts, isSort⟩ := unread_of_peekChar more
    rw [unread_readChar, starts, List.tail_cons] at ih
    rw [starts, List.takeWhile_cons_of_pos isSort, List.length_cons, Nat.add_comm]
    exact (moved_readChar starts).trans ih
  | case2 scanner stops =>
    rw [takeWhile_of_peekChar stops]
    exact ⟨rfl, rfl, rfl⟩

theorem extent_eq (sort : Char → Bool) (scanner : Scanner) (index : Nat) :
    scanner.extent sort index =
      index + (({ scanner with index } : Scanner).unread.takeWhile sort).length := by
  fun_induction extent sort scanner index with
  | case1 index more ih =>
    have isNext : ({ scanner with index } : Scanner).peekChar.any sort := by
      rw [peekChar, if_pos more.1]
      exact more.2
    obtain ⟨c, rest, starts, isSort⟩ := unread_of_peekChar isNext
    have behind : ({ scanner with index := index + 1 } : Scanner).unread = rest := by
      have moved : Moved 1 { scanner with index } { scanner with index := index + 1 } :=
        ⟨rfl, rfl, rfl⟩
      rw [moved.unread, starts]
      rfl
    rw [ih, behind, starts, List.takeWhile_cons_of_pos isSort, List.length_cons]
    omega
  | case2 index stops =>
    have none : ({ scanner with index } : Scanner).unread.takeWhile sort = [] := by
      refine takeWhile_of_peekChar fun isNext => stops ?_
      unfold peekChar at isNext
      split at isNext
      · rename_i inside
        exact ⟨inside, isNext⟩
      · contradiction
    rw [none]
    rfl

/-! ### The cursor that a scanner follows -/

/-- A scanner stands where a cursor does. Once nothing is left it does not matter how the last line
ended, and a scanner that met the end does not know. -/
structure Follows (scanner : Scanner) (cursor : Cursor) : Prop where
  rest : cursor.rest = scanner.unread
  position : cursor.position = scanner.position
  lineEnd : cursor.rest ≠ [] → (cursor.atLineEnd ↔ scanner.last = some '\n')

namespace Follows

theorem readChar (follows : Follows scanner cursor) : Follows scanner.readChar (cursor.pass 1) := by
  obtain ⟨rest, position, lineEnd⟩ := follows
  have behind : (cursor.pass 1).rest = scanner.readChar.unread := by
    rw [Cursor.rest_pass, rest, unread_readChar, List.drop_one]
  refine ⟨behind, ?_, fun more => ?_⟩
  · cases starts : scanner.unread with
    | nil =>
      rw [Cursor.pass_of_rest_eq_nil (rest.trans starts), readChar_of_nil starts, position]
    | cons c text =>
      rw [readChar_of_cons starts, Cursor.pass, rest, starts]
      simp only [Cursor.pass, lineEnd (by simp [rest, starts]), position]
  · cases starts : scanner.unread with
    | nil =>
      rw [behind, unread_readChar, starts] at more
      contradiction
    | cons c text =>
      rw [readChar_of_cons starts, Cursor.pass, rest, starts]
      simp [Cursor.pass]

theorem readWhile (follows : Follows scanner cursor) (sort : Char → Bool) :
    Follows (scanner.readWhile sort) (cursor.pass (cursor.rest.takeWhile sort).length) := by
  fun_induction Scanner.readWhile sort scanner generalizing cursor with
  | case1 scanner more ih =>
    obtain ⟨c, text, starts, isSort⟩ := unread_of_peekChar more
    have behind := ih follows.readChar
    rw [Cursor.rest_pass, follows.rest, starts, List.drop_one, List.tail_cons,
      ← Cursor.pass_add] at behind
    rw [follows.rest, starts, List.takeWhile_cons_of_pos isSort, List.length_cons, Nat.add_comm]
    exact behind
  | case2 scanner stops =>
    rw [follows.rest, takeWhile_of_peekChar stops]
    exact follows

end Follows

/-! ### Items -/

theorem drop_length_takeWhile (sort : Char → Bool) (text : Text) :
    text.drop (text.takeWhile sort).length = text.dropWhile sort := by
  conv => lhs; arg 2; rw [← List.takeWhile_append_dropWhile (p := sort) (l := text)]
  exact List.drop_left

theorem takeWhile_isWordChar (text : Text) :
    text.takeWhile isWordChar =
      text.takeWhile isDigit ++ (text.dropWhile isDigit).takeWhile isWordChar := by
  conv => lhs; rw [← List.takeWhile_append_dropWhile (p := isDigit) (l := text)]
  refine List.takeWhile_append_of_pos fun c member => isWordChar_of_isDigit ?_
  exact List.all_eq_true.mp List.all_takeWhile c member

section

variable {c : Char} {rest text : Text} (starts : scanner.unread = c :: rest)

include starts

theorem slice_of_prefix {behind : Scanner} {n : Nat} (isPrefix : text <+: rest)
    (moved : Moved n scanner behind) :
    behind.slice scanner.index (scanner.index + (text.length + 1)) = c :: text := by
  rw [moved.slice (by simpa [starts] using isPrefix.length_le), starts, List.take_succ_cons,
    ← List.prefix_iff_eq_take.mp isPrefix]

theorem unread_readChar_of_cons : scanner.readChar.unread = rest := by
  rw [unread_readChar, starts]
  rfl

theorem moved_word (sort : Char → Bool) :
    Moved ((rest.takeWhile sort).length + 1) scanner (scanner.readChar.readWhile sort) := by
  have read := moved_readWhile sort scanner.readChar
  rw [unread_readChar_of_cons starts] at read
  rw [Nat.add_comm]
  exact (moved_readChar starts).trans read

/-- Words and numerals end in the same way. -/
theorem word_readWhile (position : Position) (sort : Char → Bool) :
    word scanner.index position (scanner.readChar.readWhile sort) =
      (.token ⟨.ofWord (c :: rest.takeWhile sort), c :: rest.takeWhile sort, position⟩,
        scanner.readChar.readWhile sort) := by
  have moved := moved_word starts sort
  rw [word, moved.index, slice_of_prefix starts (List.takeWhile_prefix sort) moved]

theorem Follows.word (follows : Follows scanner cursor) (sort : Char → Bool) :
    Follows (scanner.readChar.readWhile sort)
      (cursor.pass (c :: rest.takeWhile sort).length) := by
  have read := follows.readChar.readWhile sort
  rw [follows.readChar.rest, unread_readChar_of_cons starts, ← Cursor.pass_add,
    Nat.add_comm] at read
  exact read

theorem unread_behind_digits :
    (scanner.readChar.readWhile isDigit).unread = rest.dropWhile isDigit := by
  rw [(moved_readWhile isDigit _).unread, unread_readChar_of_cons starts, drop_length_takeWhile]

/-- From behind the digits a scanner sees the whole name, and nothing behind the limit. -/
theorem slice_extent :
    (scanner.readChar.readWhile isDigit).slice scanner.index
      ((scanner.readChar.readWhile isDigit).extent isWordChar
        (scanner.readChar.readWhile isDigit).index) = c :: rest.takeWhile isWordChar := by
  have moved := moved_word starts isDigit
  have length := congrArg List.length (takeWhile_isWordChar rest)
  rw [List.length_append] at length
  have stop : (scanner.readChar.readWhile isDigit).extent isWordChar
      (scanner.readChar.readWhile isDigit).index =
        scanner.index + ((rest.takeWhile isWordChar).length + 1) := by
    rw [extent_eq, unread_behind_digits starts, moved.index]
    omega
  rw [stop, slice_of_prefix starts (List.takeWhile_prefix isWordChar) moved]

theorem readWord_of_follows (follows : Follows scanner cursor) (other : Kind.ofChar? c = none)
    (isWord : isDigit c || isLetter c) :
    scanner.readChar.readWord.1 = (Lexeme.first c rest).at (cursor.pass 1).position ∧
      Follows scanner.readChar.readWord.2 (cursor.pass (Lexeme.first c rest).consumed.length) := by
  have last : scanner.readChar.last = some c := by rw [readChar_of_cons starts]
  have start : scanner.readChar.index - 1 = scanner.index := by
    rw [(moved_readChar starts).index]
    rfl
  rw [readWord, last, start, Lexeme.first, other, ← follows.readChar.position]
  dsimp only
  rw [Option.any_some]
  by_cases digit : isDigit c
  · rw [if_pos digit, if_pos digit, peekChar_eq_head?, unread_behind_digits starts]
    cases rest.dropWhile isDigit with
    | nil =>
      rw [if_neg (by simp), word_readWhile starts]
      exact ⟨rfl, follows.word starts isDigit⟩
    | cons d tail =>
      rw [List.head?_cons, Option.any_some]
      dsimp only
      by_cases letter : isLetter d
      · rw [if_pos letter, if_pos letter, slice_extent starts]
        exact ⟨rfl, follows.word starts isDigit⟩
      · rw [if_neg letter, if_neg letter, word_readWhile starts]
        exact ⟨rfl, follows.word starts isDigit⟩
  · have letter : isLetter c := by simpa [digit] using isWord
    rw [if_neg digit, if_neg digit, if_pos letter, word_readWhile starts]
    exact ⟨rfl, follows.word starts isWordChar⟩

end

/-- A scanner comes to the item that a cursor comes to. -/
theorem next_of_follows (follows : Follows scanner cursor) :
    scanner.next.1 = cursor.read.1 ∧ Follows scanner.next.2 cursor.read.2 := by
  have skipped : Follows (scanner.readWhile isLayout) cursor.skipLayout :=
    follows.readWhile isLayout
  have first := skipped.readChar
  cases starts : (scanner.readWhile isLayout).unread with
  | nil =>
    have ends := skipped.rest.trans starts
    rw [Cursor.pass_of_rest_eq_nil ends] at first
    have last : (scanner.readWhile isLayout).readChar.last = none := by rw [readChar_of_nil starts]
    rw [next, last, Cursor.read_of_ends ends, ← Cursor.skipLayout_of_ends ends, first.position]
    exact ⟨rfl, first⟩
  | cons c rest =>
    have last : (scanner.readWhile isLayout).readChar.last = some c := by
      rw [readChar_of_cons starts]
    have unread := unread_readChar_of_cons starts
    rw [next, last, Cursor.read_eq_of_cons (skipped.rest.trans starts)]
    dsimp only
    cases delimiter : Kind.ofChar? c with
    | some kind =>
      dsimp only
      rw [peekChar_eq_head?, unread, Lexeme.first, delimiter, first.position]
      cases rest with
      | nil => exact ⟨rfl, first⟩
      | cons d tail =>
        dsimp only [List.head?_cons]
        cases Kind.ofPair? c d with
        | none => exact ⟨rfl, first⟩
        | some pair =>
          refine ⟨rfl, ?_⟩
          have second := first.readChar
          rw [← Cursor.pass_add] at second
          exact second
    | none =>
      dsimp only
      by_cases isWord : isDigit c || isLetter c
      · rw [if_pos isWord]
        exact readWord_of_follows starts skipped delimiter isWord
      · rw [if_neg isWord, Lexeme.first, delimiter]
        simp only [Bool.or_eq_true, not_or] at isWord
        dsimp only
        rw [if_neg isWord.1, if_neg isWord.2, first.position]
        exact ⟨rfl, first⟩

theorem follows_ofSource (source : Text) : Follows (ofSource source) (.ofSource source) := by
  refine ⟨?_, rfl, fun _ => by simp [ofSource, Cursor.ofSource]⟩
  rw [unread, ofSource, List.drop_zero, Cursor.ofSource, List.takeWhile_eq_take_findIdx_not]
  simp

end Scanner

end MonkeySyntax
