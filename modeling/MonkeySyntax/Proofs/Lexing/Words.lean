import Mathlib.Data.List.TakeWhile
import MonkeySyntax.Proofs.Lexing.Offsets
import MonkeySyntax.Proofs.Trees.Moved

/-!
# Words between layout

Layout ends every lexeme, so a lexeme lies within a word, a longest run of other characters. Two
texts with the same words consist of the same items, wherever they stand (`items_of_words`): layout
matters only in that there is some.
-/

namespace MonkeySyntax

/-! ### Characters that end a lexeme -/

/-- No lexeme that begins before the character goes on with it. -/
structure Separates (d : Char) : Prop where
  breaks : isWordChar d = false
  alone (c : Char) : Kind.ofPair? c d = none

theorem Separates.of_isLayout {d : Char} (layout : isLayout d) : Separates d := by
  constructor
  · by_contra wordChar
    have visible := isLayout_eq_false (Bool.of_not_eq_false wordChar)
    rw [visible] at layout
    contradiction
  · intro c
    unfold Kind.ofPair?
    split <;> first | rfl | exact absurd layout (by decide)

theorem takeWhile_append_cons {p : Char → Bool} {d : Char} (before after : Text)
    (stop : p d = false) :
    (before ++ d :: after).takeWhile p = before.takeWhile p ∧
      (before ++ d :: after).dropWhile p = before.dropWhile p ++ d :: after := by
  induction before with
  | nil => simp [stop]
  | cons c before ih => by_cases h : p c <;> simp [h, ih]

theorem Lexeme.first_append_cons {c d : Char} (separates : Separates d) (before after : Text) :
    first c (before ++ d :: after) = first c before := by
  have breaks := separates.breaks
  rw [isWordChar, Bool.or_eq_false_iff] at breaks
  obtain ⟨notLetter, notDigit⟩ := breaks
  obtain ⟨digits, behind⟩ := takeWhile_append_cons before after notDigit
  have word := (takeWhile_append_cons before after separates.breaks).1
  unfold first
  rw [digits, behind, word]
  cases before with
  | nil => simp [separates.alone, notLetter]
  | cons e before => cases (e :: before).dropWhile isDigit <;> simp [notLetter]

/-! ### Words -/

/-- The longest runs of characters that are no layout. -/
def words (text : Text) : List Text := (text.splitOnP isLayout).filter (· ≠ [])

@[simp] theorem words_nil : words [] = [] := by simp [words]

theorem words_append_cons {c : Char} (layout : isLayout c) (before after : Text) :
    words (before ++ c :: after) = words before ++ words after := by
  rw [words, List.splitOnP_append_cons before after layout, List.filter_append, words, words]

theorem words_cons {c : Char} (layout : isLayout c) (text : Text) :
    words (c :: text) = words text := by
  have split := words_append_cons layout [] text
  rwa [List.nil_append, words_nil, List.nil_append] at split

theorem words_of_visible {word : Text} (some : word ≠ [])
    (visible : ∀ c ∈ word, isLayout c = false) :
    words word = [word] := by
  rw [words, List.splitOnP_eq_singleton visible, List.filter_cons_of_pos (by simpa using some)]
  rfl

theorem words_append {tail : Text} (ends : ∀ d ∈ tail.head?, isLayout d) (text : Text) :
    words (text ++ tail) = words text ++ words tail := by
  cases tail with
  | nil => rw [List.append_nil, words_nil, List.append_nil]
  | cons d tail =>
    have layout := ends d rfl
    rw [words_append_cons layout, words_cons layout]

theorem words_dropWhile (text : Text) : words (text.dropWhile isLayout) = words text := by
  induction text with
  | nil => rfl
  | cons c text ih =>
    by_cases layout : isLayout c
    · rw [List.dropWhile_cons_of_pos layout, ih, words_cons layout]
    · rw [List.dropWhile_cons_of_neg layout]

/-- A text is layout, or layout, a word and more behind it. -/
theorem words_cases (text : Text) :
    (text.dropWhile isLayout = [] ∧ words text = []) ∨
      ∃ c word tail, text.dropWhile isLayout = c :: (word ++ tail) ∧
        (∀ d ∈ c :: word, isLayout d = false) ∧ (∀ d ∈ tail.head?, isLayout d) ∧
        words text = (c :: word) :: words tail := by
  cases starts : text.dropWhile isLayout with
  | nil => exact .inl ⟨rfl, by rw [← words_dropWhile, starts, words_nil]⟩
  | cons c rest =>
    have visible : isLayout c = false := by
      have first := List.head?_dropWhile_not isLayout text
      rw [starts] at first
      exact first
    have split : rest = rest.takeWhile (!isLayout ·) ++ rest.dropWhile (!isLayout ·) :=
      List.takeWhile_append_dropWhile.symm
    have all : ∀ d ∈ c :: rest.takeWhile (!isLayout ·), isLayout d = false := by
      refine List.forall_mem_cons.mpr ⟨visible, fun d member => ?_⟩
      simpa using List.all_eq_true.mp List.all_takeWhile d member
    have ends : ∀ d ∈ (rest.dropWhile (!isLayout ·)).head?, isLayout d := by
      intro d isHead
      have first := List.head?_dropWhile_not (!isLayout ·) rest
      rw [isHead] at first
      simpa using first
    refine .inr ⟨c, _, _, congrArg (c :: ·) split, all, ends, ?_⟩
    rw [← words_dropWhile, starts]
    conv => lhs; rw [split, ← List.cons_append]
    rw [words_append ends, words_of_visible (by simp) all]
    rfl

/-! ### Items and words -/

namespace Cursor

variable {cursor other : Cursor}

/-- Reading takes the first lexeme of the first word, and leaves the end of that word and the other
words. -/
theorem read_of_words {c : Char} {word : Text} {more : List Text}
    (starts : words cursor.rest = (c :: word) :: more) :
    cursor.skipLayout.rest ≠ [] ∧
      (∃ position, cursor.read.1 = (Lexeme.first c word).at position) ∧
      words cursor.read.2.rest =
        words ((c :: word).drop (Lexeme.first c word).consumed.length) ++ more := by
  rcases words_cases cursor.rest with ⟨_, none⟩ | ⟨d, text, tail, dropped, visible, ends, split⟩
  · rw [none] at starts
    contradiction
  · obtain ⟨first, rfl⟩ := List.cons.inj (split.symm.trans starts)
    obtain ⟨rfl, rfl⟩ := List.cons.inj first
    rw [← rest_skipLayout] at dropped
    have same : Lexeme.first d (text ++ tail) = Lexeme.first d text := by
      cases tail with
      | nil => rw [List.append_nil]
      | cons e tail => exact Lexeme.first_append_cons (.of_isLayout (ends e rfl)) text tail
    obtain ⟨r, consumed, isPrefix⟩ := Lexeme.consumed_first d text
    have within : (Lexeme.first d text).consumed.length ≤ (d :: text).length := by
      rw [consumed]
      exact Nat.succ_le_succ isPrefix.length_le
    refine ⟨by simp [dropped], ?_, ?_⟩
    · rw [read_eq_of_cons dropped, same]
      exact ⟨_, rfl⟩
    · rw [read_eq_of_cons dropped, same, rest_pass, dropped, ← List.cons_append,
        List.drop_append_of_le_length within, words_append ends]

theorem items_of_words (same : words cursor.rest = words other.rest) :
    cursor.items.map (Item.moved fun _ => {}) = other.items.map (Item.moved fun _ => {}) := by
  fun_induction items cursor generalizing other with
  | case1 cursor ends =>
    have none : words other.rest = [] := by
      rw [← same, ← words_dropWhile, ← rest_skipLayout, ends, words_nil]
    rw [items_eq_nil]
    rcases words_cases other.rest with ⟨nothing, _⟩ | ⟨c, word, tail, _, _, _, some⟩
    · rw [rest_skipLayout, nothing]
    · rw [none] at some
      contradiction
  | case2 cursor more _ ih =>
    rcases words_cases cursor.rest with ⟨nothing, _⟩ | ⟨c, word, tail, _, _, _, starts⟩
    · rw [rest_skipLayout] at more
      exact absurd nothing more
    · obtain ⟨_, ⟨position, first⟩, left⟩ := read_of_words starts
      obtain ⟨moreThere, ⟨place, firstThere⟩, leftThere⟩ := read_of_words (same.symm.trans starts)
      have tails := ih (left.trans leftThere.symm)
      rw [items_eq_cons moreThere, List.map_cons, List.map_cons, tails, first, firstThere]
      cases Lexeme.first c word <;> rfl

end Cursor

/-! ### The end of a source -/

/-- The words up to the first NUL. -/
def readableWords : List Text → List Text
  | [] => []
  | word :: more => if '\x00' ∈ word then words (readable word) else word :: readableWords more

theorem readable_append {text : Text} (noNul : '\x00' ∉ text) (tail : Text) :
    readable (text ++ tail) = text ++ readable tail := by
  apply List.takeWhile_append_of_pos
  intro c member
  rw [decide_eq_true_eq]
  rintro rfl
  exact noNul member

theorem readable_eq_self {text : Text} (noNul : '\x00' ∉ text) : readable text = text := by
  have whole := readable_append noNul []
  rwa [List.append_nil, show readable [] = [] from rfl, List.append_nil] at whole

theorem readable_append_of_mem {text : Text} (nul : '\x00' ∈ text) (tail : Text) :
    readable (text ++ tail) = readable text := by
  rw [readable, List.takeWhile_append, if_neg, readable]
  intro whole
  have all := List.takeWhile_eq_self_iff.mp ((List.takeWhile_prefix _).eq_of_length whole)
  exact absurd rfl (of_decide_eq_true (all _ nul))

theorem words_layout_append {gap : Text} (layout : ∀ c ∈ gap, isLayout c) (text : Text) :
    words (gap ++ text) = words text := by
  induction gap with
  | nil => rfl
  | cons c gap ih =>
    obtain ⟨first, more⟩ := List.forall_mem_cons.mp layout
    rw [List.cons_append, words_cons first, ih more]

theorem words_readable_dropWhile (source : Text) :
    words (readable (source.dropWhile isLayout)) = words (readable source) := by
  have gap : ∀ c ∈ source.takeWhile isLayout, isLayout c :=
    List.all_eq_true.mp List.all_takeWhile
  have noNul : '\x00' ∉ source.takeWhile isLayout := fun nul => absurd (gap _ nul) (by decide)
  conv => rhs; rw [← List.takeWhile_append_dropWhile (p := isLayout) (l := source)]
  rw [readable_append noNul, words_layout_append gap]

theorem words_readable (source : Text) : words (readable source) = readableWords (words source) := by
  induction split : words source generalizing source with
  | nil =>
    rcases words_cases source with ⟨nothing, _⟩ | ⟨c, text, tail, _, _, _, starts⟩
    · rw [← words_readable_dropWhile, nothing, readableWords]
      exact words_nil
    · rw [split] at starts
      contradiction
  | cons word more ih =>
    rcases words_cases source with ⟨_, none⟩ | ⟨c, text, tail, dropped, visible, ends, starts⟩
    · rw [split] at none
      contradiction
    · obtain ⟨rfl, rfl⟩ := List.cons.inj (split.symm.trans starts)
      rw [← words_readable_dropWhile, dropped, ← List.cons_append, readableWords]
      -- A NUL ends the source within the first word, or this word is whole.
      by_cases nul : '\x00' ∈ c :: text
      · rw [if_pos nul, readable_append_of_mem nul]
      · have endsReadable : ∀ d ∈ (readable tail).head?, isLayout d := by
          intro d isHead
          rw [readable, List.head?_takeWhile] at isHead
          exact ends d (Option.mem_filter_iff.mp isHead).1
        rw [if_neg nul, readable_append nul, words_append endsReadable,
          words_of_visible (by simp) visible, ih tail rfl]
        rfl

/-- Layout may change before a NUL and behind it. -/
theorem words_readable_of_words {source other : Text} (same : words source = words other) :
    words (readable source) = words (readable other) := by
  rw [words_readable, words_readable, same]

end MonkeySyntax
