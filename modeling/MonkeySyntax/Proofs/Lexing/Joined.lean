import Mathlib.Data.List.TakeWhile
import MonkeySyntax.Proofs.Lexing.Words

/-!
# A text behind another

A character that ends every lexeme parts a text: what stands before it is read as if it stood alone.
So the items of a text that a semicolon ends, and of another behind it, are those of the two texts,
the second moved to where it stands now (`items_joined`).
-/

namespace MonkeySyntax

/-! ### Places behind a text -/

namespace Position

/-- Where a place of a text is once another text stands before it. Only its first line shares a line
with that text. -/
def behind (before : Text) (position : Position) : Position :=
  if position.line = 1 then
    ⟨position.line + before.count '\n',
      position.column + (before.reverse.takeWhile (· ≠ '\n')).length⟩
  else ⟨position.line + before.count '\n', position.column⟩

theorem following_append (before text : Text) :
    following (before ++ text) = (following text).behind before := by
  have lines : (before ++ text).count '\n' = text.count '\n' + before.count '\n' := by
    rw [List.count_append, Nat.add_comm]
  have firstLine : (following text).line = 1 ↔ '\n' ∉ text := by
    rw [following, ← List.count_eq_zero]
    dsimp only
    omega
  -- Columns are counted from the last line feed, which may be one of the text before.
  by_cases feed : '\n' ∈ text
  · rw [behind, if_neg (firstLine.not.mpr (not_not_intro feed))]
    have columns : (text.reverse ++ before.reverse).takeWhile (· ≠ '\n') =
        text.reverse.takeWhile (· ≠ '\n') := by
      rw [List.takeWhile_append, if_neg]
      intro whole
      have all := List.takeWhile_eq_self_iff.mp ((List.takeWhile_prefix _).eq_of_length whole)
      exact absurd rfl (of_decide_eq_true (all _ (List.mem_reverse.mpr feed)))
    rw [following, List.reverse_append, columns, lines, following]
    simp [Int.add_assoc]
  · rw [behind, if_pos (firstLine.mpr feed)]
    have columns : (text.reverse ++ before.reverse).takeWhile (· ≠ '\n') =
        text.reverse ++ before.reverse.takeWhile (· ≠ '\n') := by
      apply List.takeWhile_append_of_pos
      intro c member
      rw [decide_eq_true_eq]
      rintro rfl
      exact feed (List.mem_reverse.mp member)
    have alone : text.reverse.takeWhile (· ≠ '\n') = text.reverse := by
      apply List.takeWhile_eq_self_iff.mpr
      intro c member
      rw [decide_eq_true_eq]
      rintro rfl
      exact feed (List.mem_reverse.mp member)
    rw [following, List.reverse_append, columns, lines, following, alone]
    simp [Int.add_assoc]

theorem ofLast_append (before : Text) {text : Text} (some : text ≠ []) :
    ofLast (before ++ text) = (ofLast text).behind before := by
  rcases List.eq_nil_or_concat text with rfl | ⟨first, c, rfl⟩
  · contradiction
  · rw [List.concat_eq_append, ← List.append_assoc, ofLast_concat, ofLast_concat, following_append]

end Position

namespace Cursor

/-! ### The text behind -/

/-- A cursor has the same text to read as another, and has read one more text before. -/
structure Follows (before : Text) (cursor other : Cursor) : Prop where
  rest : other.rest = cursor.rest
  read : ∃ read, HasRead read cursor ∧ HasRead (before ++ read) other

namespace Follows

variable {before : Text} {cursor other : Cursor}

theorem pass (follows : Follows before cursor other) (n : Nat) :
    Follows before (cursor.pass n) (other.pass n) := by
  obtain ⟨same, read, here, there⟩ := follows
  refine ⟨by rw [rest_pass, rest_pass, same], read ++ cursor.rest.take n, here.pass n, ?_⟩
  have moved := there.pass n
  rwa [same, List.append_assoc] at moved

theorem position_pass (follows : Follows before cursor other) (more : cursor.rest ≠ []) (n : Nat) :
    (other.pass (n + 1)).position = (cursor.pass (n + 1)).position.behind before := by
  obtain ⟨same, read, here, there⟩ := follows
  have some : read ++ cursor.rest.take (n + 1) ≠ [] := by
    simp [List.take_eq_nil_iff, more]
  rw [(here.pass (n + 1)).position, (there.pass (n + 1)).position, same, List.append_assoc,
    Position.ofLast_append before some]

theorem skipLayout (follows : Follows before cursor other) :
    Follows before cursor.skipLayout other.skipLayout := by
  rw [Cursor.skipLayout, Cursor.skipLayout, follows.rest]
  exact follows.pass _

theorem items (follows : Follows before cursor other) :
    other.items = cursor.items.map (Item.moved (Position.behind before)) := by
  fun_induction Cursor.items cursor generalizing other with
  | case1 cursor ends =>
    rw [items_eq_nil]
    · rfl
    · rw [follows.skipLayout.rest, ends]
  | case2 cursor more _ ih =>
    obtain ⟨c, text, starts⟩ := List.exists_cons_of_ne_nil more
    have startsThere := follows.skipLayout.rest.trans starts
    have tail : Follows before cursor.read.2 other.read.2 := by
      rw [read_eq_of_cons starts, read_eq_of_cons startsThere]
      exact follows.skipLayout.pass _
    have place := follows.skipLayout.position_pass more 0
    rw [items_eq_cons (by simp [startsThere]), ih tail, List.map_cons, read_eq_of_cons starts,
      read_eq_of_cons startsThere, place]
    cases Lexeme.first c text <;> rfl

theorem finish (follows : Follows before cursor other) (more : cursor.rest ≠ []) :
    other.finish.position = cursor.finish.position.behind before := by
  have some : cursor.rest.length ≠ 0 := fun none => more (List.length_eq_zero_iff.mp none)
  obtain ⟨n, length⟩ := Nat.exists_eq_succ_of_ne_zero some
  rw [Cursor.finish, Cursor.finish, follows.rest, length]
  exact follows.position_pass more n

end Follows

theorem follows_ofSource {first : Text} (noNul : '\x00' ∉ first) (second : Text) :
    Follows first (ofSource second) ((ofSource (first ++ second)).pass first.length) := by
  have text := readable_append noNul second
  refine ⟨by rw [rest_pass, rest_ofSource, text, List.drop_left, rest_ofSource], [],
    hasRead_ofSource second, ?_⟩
  have hasRead := hasRead_pass (first ++ second) first.length
  rw [text, List.take_left] at hasRead
  rwa [List.append_nil]

/-! ### The text before -/

/-- A cursor reads the beginning of what another reads. -/
structure Begins (tail : Text) (part whole : Cursor) : Prop where
  rest : whole.rest = part.rest ++ tail
  position : whole.position = part.position
  atLineEnd : whole.atLineEnd = part.atLineEnd

namespace Begins

variable {tail : Text} {part whole : Cursor}

theorem pass (begins : Begins tail part whole) (n : Nat) (within : n ≤ part.rest.length) :
    Begins tail (part.pass n) (whole.pass n) := by
  induction n generalizing part whole with
  | zero => exact begins
  | succ n ih =>
    obtain ⟨rest, position, atLineEnd⟩ := begins
    cases starts : part.rest with
    | nil =>
      rw [starts] at within
      contradiction
    | cons c text =>
      rw [starts] at within rest
      rw [Cursor.pass, Cursor.pass, starts, rest]
      refine ih ⟨rfl, ?_, rfl⟩ (Nat.le_of_succ_le_succ within)
      dsimp only
      rw [position, atLineEnd]

theorem takeWhile_isLayout (begins : Begins tail part whole) (more : part.skipLayout.rest ≠ []) :
    whole.rest.takeWhile isLayout = part.rest.takeWhile isLayout := by
  rw [begins.rest, List.takeWhile_append, if_neg]
  intro length
  rw [rest_skipLayout] at more
  apply more
  rw [List.dropWhile_eq_nil_iff]
  exact List.takeWhile_eq_self_iff.mp ((List.takeWhile_prefix _).eq_of_length length)

/-- Both read the same item, and as many characters. -/
theorem read {d : Char} {after : Text} (begins : Begins (d :: after) part whole)
    (separates : Separates d) (more : part.skipLayout.rest ≠ []) :
    whole.skipLayout.rest ≠ [] ∧ whole.read.1 = part.read.1 ∧
      ∃ n ≤ part.rest.length, part.read.2 = part.pass n ∧ whole.read.2 = whole.pass n := by
  obtain ⟨c, text, starts⟩ := List.exists_cons_of_ne_nil more
  have gap := begins.takeWhile_isLayout more
  have skipped : Begins (d :: after) part.skipLayout whole.skipLayout := by
    rw [skipLayout, skipLayout, gap]
    exact begins.pass _ (List.takeWhile_prefix _).length_le
  have startsWhole : whole.skipLayout.rest = c :: (text ++ d :: after) := by
    rw [skipped.rest, starts, List.cons_append]
  have within : 1 ≤ part.skipLayout.rest.length := List.length_pos_iff.mpr more
  obtain ⟨r, consumed, isPrefix⟩ := Lexeme.consumed_first c text
  have length : (part.rest.takeWhile isLayout).length + (Lexeme.first c text).consumed.length ≤
      part.rest.length := by
    have left := congrArg List.length starts
    rw [skipLayout, rest_pass, List.length_drop, List.length_cons] at left
    have := isPrefix.length_le
    rw [consumed, List.length_cons]
    omega
  refine ⟨by simp [startsWhole], ?_, _, length, ?_, ?_⟩
  · rw [read_eq_of_cons starts, read_eq_of_cons startsWhole, Lexeme.first_append_cons separates,
      (skipped.pass 1 within).position]
  · rw [read_eq_of_cons starts, pass_add]
    rfl
  · rw [read_eq_of_cons startsWhole, Lexeme.first_append_cons separates, pass_add, ← gap]
    rfl

end Begins

theorem items_pass_layout {cursor : Cursor} {gap tail : Text} (layout : ∀ c ∈ gap, isLayout c)
    (starts : cursor.rest = gap ++ tail) : (cursor.pass gap.length).items = cursor.items := by
  induction gap generalizing cursor with
  | nil => rfl
  | cons c gap ih =>
    obtain ⟨first, more⟩ := List.forall_mem_cons.mp layout
    have behind : (cursor.pass 1).rest = gap ++ tail := by
      rw [rest_pass, starts, List.cons_append, List.drop_one, List.tail_cons]
    rw [List.length_cons, Nat.add_comm, pass_add, ih more behind, items_pass_one starts first]

/-- No item goes on over a character that ends lexemes. -/
theorem Begins.items {part whole : Cursor} {d : Char} {after : Text}
    (begins : Begins (d :: after) part whole) (separates : Separates d) :
    whole.items = part.items ++ (whole.pass part.rest.length).items := by
  fun_induction Cursor.items part generalizing whole with
  | case1 part ends =>
    rw [rest_skipLayout, List.dropWhile_eq_nil_iff] at ends
    rw [items_pass_layout ends begins.rest, List.nil_append]
  | case2 part more _ ih =>
    obtain ⟨moreThere, item, n, within, behind, behindWhole⟩ := begins.read separates more
    have tail := ih (behind ▸ behindWhole ▸ begins.pass n within)
    rw [items_eq_cons moreThere, item, tail, List.cons_append, behind, behindWhole, rest_pass,
      List.length_drop, ← pass_add, Nat.add_sub_cancel' within]

/-! ### Two texts -/

theorem separates_semicolon : Separates ';' :=
  ⟨rfl, fun c => by unfold Kind.ofPair?; split <;> simp_all⟩

theorem items_semicolon {cursor : Cursor} {rest : Text} (starts : cursor.rest = ';' :: rest) :
    cursor.items =
      .token ⟨.semicolon, [';'], (cursor.pass 1).position⟩ :: (cursor.pass 1).items := by
  have here : cursor.skipLayout = cursor := by rw [skipLayout, starts]; rfl
  have first : Lexeme.first ';' rest = .token .semicolon [';'] :=
    Lexeme.first_single rfl fun _ _ => rfl
  have read := read_eq_of_cons (here.symm ▸ starts)
  rw [first, here] at read
  rw [items_eq_cons (by simp [here, starts]), read]
  rfl

/-- What stands before a character that ends lexemes is read as if it stood alone. -/
theorem items_parted {source before after : Text} {d : Char} (noNul : '\x00' ∉ before)
    (separates : Separates d) (text : readable source = before ++ d :: after) :
    (ofSource source).items =
        (ofSource before).items ++ ((ofSource source).pass before.length).items ∧
      ((ofSource source).pass before.length).rest = d :: after := by
  have alone := readable_eq_self noNul
  have begins : Begins (d :: after) (ofSource before) (ofSource source) :=
    ⟨by rw [rest_ofSource, rest_ofSource, text, alone], rfl, rfl⟩
  have parted := begins.items separates
  rw [rest_ofSource, alone] at parted
  refine ⟨parted, ?_⟩
  rw [rest_pass, rest_ofSource, text, List.drop_left]

variable {before gap : Text}

theorem items_joined (noNul : '\x00' ∉ before ++ ';' :: gap) (layout : ∀ c ∈ gap, isLayout c)
    (second : Text) :
    (ofSource (before ++ ';' :: gap ++ second)).items =
      (ofSource before).items ++ .token ⟨.semicolon, [';'], .following before⟩ ::
        (ofSource second).items.map (Item.moved (Position.behind (before ++ ';' :: gap))) := by
  have text : readable (before ++ ';' :: gap ++ second) =
      before ++ ';' :: (gap ++ readable second) := by
    rw [readable_append noNul, List.append_assoc, List.cons_append]
  obtain ⟨parted, starts⟩ :=
    items_parted (fun nul => noNul (List.mem_append_left _ nul)) separates_semicolon text
  have behind : ((ofSource (before ++ ';' :: gap ++ second)).pass (before.length + 1)).rest =
      gap ++ readable second := by
    rw [pass_add, rest_pass, starts, List.drop_one, List.tail_cons]
  have length : (before ++ ';' :: gap).length = before.length + 1 + gap.length := by
    rw [List.length_append, List.length_cons]
    omega
  rw [parted, items_semicolon starts, ← pass_add, position_pass_ofSource text,
    ← items_pass_layout layout behind, ← pass_add, ← length,
    (follows_ofSource noNul second).items]

end Cursor

end MonkeySyntax
