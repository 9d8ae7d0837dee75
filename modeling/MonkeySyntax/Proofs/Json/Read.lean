import MonkeySyntax.Proofs.Json.Numbers
import MonkeySyntax.Proofs.Json.Objects

/-!
# Texts of the grammar

A text that is JSON for a value is read as that value, unless a numeral in it is too long
(`read_of_textOf`), and whatever is read as a value is JSON for it (`textOf_of_read`).
-/

namespace MonkeySyntax.Json

open Grammar

/-! ### Gaps -/

theorem gap_skipSpace (text : Text) : Gap text (skipSpace text) := by
  induction text with
  | nil => exact .none
  | cons c text ih =>
    rw [skipSpace, List.dropWhile_cons]
    split
    · rename_i isSpace
      exact .more (by simpa [spaces, or_assoc] using isSpace) ih
    · exact .none

theorem skipSpace_of_gap {start rest : Text} (gap : Gap start rest) :
    skipSpace start = skipSpace rest := by
  induction gap with
  | none => rfl
  | more isSpace _ ih =>
    rw [skipSpace, List.dropWhile_cons, if_pos (by simpa [spaces, or_assoc] using isSpace)]
    exact ih

theorem skipSpace_cons {c : Char} (visible : c ∉ spaces) (rest : Text) :
    skipSpace (c :: rest) = c :: rest := by
  rw [skipSpace, List.dropWhile_cons, if_neg (by simpa [spaces, or_assoc] using visible)]

theorem skipSpace_of_gap_cons {start rest : Text} {c : Char} (gap : Gap start (c :: rest))
    (visible : c ∉ spaces) : skipSpace start = c :: rest :=
  (skipSpace_of_gap gap).trans (skipSpace_cons visible rest)

theorem Grammar.Gap.ends {start rest : Text} (gap : Gap start rest) (ends : Ends rest) :
    Ends start := by
  cases gap with
  | none => exact ends
  | more isSpace _ =>
    intro c first
    cases first
    exact List.mem_append_left _ isSpace

/-! ### Scalars -/

variable {start rest : Text}

theorem Grammar.Magnitude.starts {negative : Bool} {text : Text} {v : Value}
    (magnitude : Magnitude negative text v) :
    ∃ digit more, text = digit :: more ∧ digit.isDigit := by
  have first {digits : Text} (whole : Whole digits) (tail : Text) :
      ∃ digit more, digits ++ tail = digit :: more ∧ digit.isDigit := by
    obtain ⟨digit, more, rfl⟩ := List.exists_cons_of_ne_nil whole.1.1
    exact ⟨digit, more ++ tail, rfl, whole.1.2 digit List.mem_cons_self⟩
  cases magnitude with
  | integer whole => exact List.append_nil text ▸ first whole []
  | float whole => exact List.append_assoc .. ▸ first whole _

/-- A number is no word, and nothing that is quoted or bracketed. -/
theorem find?_of_digit {negative : Bool} {digit : Char} (isDigit : digit.isDigit) (tail : Text) :
    (words.find? fun pair => pair.1.isPrefixOf (sign negative ++ digit :: tail)) = none ∧
      ∀ c ∈ (sign negative ++ digit :: tail).head?, c ≠ '"' ∧ c ≠ '{' ∧ c ≠ '[' := by
  have others : ∀ c ∈ ['n', 't', 'f', 'N', 'I', '-', '"', '{', '['], c ≠ digit := by
    rintro c member rfl
    have each : ∀ c ∈ ['n', 't', 'f', 'N', 'I', '-', '"', '{', '['], c.isDigit = false := by simp
    rw [each c member] at isDigit
    contradiction
  simp only [List.forall_mem_cons] at others
  cases negative <;> simp [words, sign, others, Ne.symm]

theorem value_of_number {negative : Bool} {digit : Char} (isDigit : digit.isDigit) (tail : Text) :
    (value (sign negative ++ digit :: tail)).outcome =
      (number (sign negative ++ digit :: tail)).outcome := by
  obtain ⟨none, other⟩ := @find?_of_digit negative digit isDigit tail
  rw [value_of_scalar other, scalar]
  split
  · rename_i found
    rw [none] at found
    contradiction
  · rfl

theorem readAs_value_of_number {negative : Bool} {text : Text} {v : Value}
    (magnitude : Magnitude negative text v) (ends : Ends rest) :
    ReadAs (value (sign negative ++ (text ++ rest))).outcome v rest := by
  have read := readAs_number magnitude ends
  obtain ⟨digit, more, rfl, isDigit⟩ := magnitude.starts
  rwa [List.cons_append, value_of_number isDigit]

theorem valueAt_of_scalar {v : Value} (read : (scalar start).outcome = .ok (v, rest)) :
    ValueAt start v rest := by
  unfold scalar at read
  split at read
  · rename_i word value found
    split at read
    · obtain ⟨rfl, rfl⟩ := Prod.mk.inj (Except.ok.inj read)
      have begins : word.isPrefixOf start := by simpa using List.find?_some found
      obtain ⟨rest, rfl⟩ := List.isPrefixOf_iff_prefix.mp begins
      rw [List.drop_left]
      exact .literal (List.mem_of_find?_eq_some found)
    · contradiction
  · obtain ⟨negative, text, rfl, magnitude⟩ := magnitude_of_number read
    exact .number magnitude

/-! ### Values are read -/

namespace ReadAs

variable {α β : Type} {outcome : Except Failure (α × Text)} {found : α} {left : Text}

theorem map (read : ReadAs outcome found left) (f : α × Text → β × Text) :
    ReadAs (outcome.map f) (f (found, left)).1 (f (found, left)).2 := by
  rcases read with rfl | ⟨numeral, rfl⟩
  · exact .inl rfl
  · exact .inr ⟨numeral, rfl⟩

theorem bind {other : β} {behind : Text} (read : ReadAs outcome found left)
    {next : α × Text → Except Failure (β × Text)}
    (goesOn : ReadAs (next (found, left)) other behind) :
    ReadAs (outcome.bind next) other behind := by
  rcases read with rfl | ⟨numeral, rfl⟩
  · exact goesOn
  · exact .inr ⟨numeral, rfl⟩

end ReadAs

theorem ends_cons {c : Char} (ending : c ∈ [',', ']', '}']) : Ends (c :: rest) := by
  intro d first
  cases first
  exact List.mem_append_right _ ending

theorem Grammar.ValueAt.starts {v : Value} (valueAt : ValueAt start v rest) :
    ∃ c more, start = c :: more ∧ c ∉ spaces ++ ['\ufeff', ',', ']', '}'] := by
  cases valueAt with
  | @literal word _ _ literal =>
    have each : ∀ word ∈ literals.map Prod.fst,
        ∃ c ∈ word.head?, c ∉ spaces ++ ['\ufeff', ',', ']', '}'] := by
      simp [literals, spaces]
    obtain ⟨c, first, visible⟩ := each word (List.mem_map.mpr ⟨_, literal, rfl⟩)
    obtain ⟨more, rfl⟩ := List.head?_eq_some_iff.mp first
    exact ⟨c, more ++ rest, rfl, visible⟩
  | @number negative _ _ _ magnitude =>
    obtain ⟨digit, more, rfl, isDigit⟩ := magnitude.starts
    cases negative with
    | true => exact ⟨'-', _, rfl, by decide⟩
    | false =>
      refine ⟨digit, more ++ rest, rfl, fun ends => ?_⟩
      have each : ∀ c ∈ spaces ++ ['\ufeff', ',', ']', '}'], c.isDigit = false := by
        simp [spaces]
      rw [each digit ends] at isDigit
      contradiction
  | string | noElements | array | noMembers | object => exact ⟨_, _, rfl, by decide⟩

theorem skipSpace_of_value {before : Text} {v : Value} (gap : Gap before start)
    (valueAt : ValueAt start v rest) :
    skipSpace before = start ∧ ∀ left, start ≠ ']' :: left := by
  obtain ⟨c, more, rfl, visible⟩ := valueAt.starts
  refine ⟨skipSpace_of_gap_cons gap fun space => visible (List.mem_append_left _ space), ?_⟩
  intro left same
  cases same
  exact visible (by decide)

theorem Grammar.ElementsAt.skipSpace {values : List Value}
    (elementsAt : ElementsAt start values rest) :
    ∀ left, Json.skipSpace start ≠ ']' :: left := by
  cases elementsAt with
  | last before value | more before value =>
    obtain ⟨same, notClose⟩ := skipSpace_of_value before value
    exact same ▸ notClose

theorem Grammar.MembersAt.skipSpace {members : List (RawText × Value)}
    (membersAt : MembersAt start members rest) :
    ∀ left, Json.skipSpace start ≠ '}' :: left := by
  have named {member : RawText × Value} {rest : Text} (memberAt : MemberAt start member rest) :
      ∀ left, Json.skipSpace start ≠ '}' :: left := by
    cases memberAt with
    | named before =>
      rw [skipSpace_of_gap_cons before (by decide)]
      exact fun _ => by simp
  cases membersAt with
  | last member | more member => exact named member

/-- An element is read, and what is behind it afterwards. -/
theorem readAs_elements_of_value {v : Value} {behind left : Text} {c : Char} {values : List Value}
    (read : ReadAs (value start).outcome v behind) (gap : Gap behind (c :: rest))
    (visible : c ∉ spaces) (goesOn : ReadAs (behindElement v (c :: rest)) values left) :
    ReadAs (elements start).outcome values left := by
  rw [elements_eq]
  refine read.bind ?_
  dsimp only
  rw [skipSpace_of_gap_cons gap visible]
  exact goesOn

-- By induction on the derivation. Where a list ends, its bracket is fixed by an equation, since the
-- rest of a derivation must be a variable.
mutual

theorem readAs_value {start rest : Text} {v : Value} :
    ValueAt start v rest → Ends rest → ReadAs (value start).outcome v rest
  | .literal word, _ => .inl (value_of_literal word)
  | .number magnitude, ends => readAs_value_of_number magnitude ends
  | .string pieces, _ => .inl (by rw [value_quote, stringBody_of_pieces pieces]; rfl)
  | .noElements gap, _ => .inl (value_bracket_of_close (skipSpace_of_gap_cons gap (by decide)))
  | .array elements, _ => by
    rw [value_bracket_of_element elements.skipSpace]
    exact (readAs_elements elements rfl).map _
  | .noMembers gap, _ => .inl (value_brace_of_close (skipSpace_of_gap_cons gap (by decide)))
  | .object members, _ => by
    rw [value_brace_of_member members.skipSpace]
    exact (readAs_members members rfl).map _

theorem readAs_elements {start last rest : Text} {values : List Value} :
    ElementsAt start values last → last = ']' :: rest →
      ReadAs (elements (skipSpace start)).outcome values rest
  | .last before value behind, same => by
    subst same
    rw [(skipSpace_of_value before value).1]
    exact readAs_elements_of_value (readAs_value value (behind.ends (ends_cons (by decide))))
      behind (by decide) (.inl rfl)
  | .more before value behind others, same => by
    rw [(skipSpace_of_value before value).1]
    exact readAs_elements_of_value (readAs_value value (behind.ends (ends_cons (by decide))))
      behind (by decide) ((readAs_elements others same).map _)

theorem readAs_members {start last rest : Text} {found : List (RawText × Value)} :
    MembersAt start found last → last = '}' :: rest →
      ReadAs (members (skipSpace start)).outcome found rest
  | .last member, same => by
    subst same
    exact readAs_member member (by decide) (by decide) (.inl rfl)
  | .more member others, same =>
    readAs_member member (by decide) (by decide) ((readAs_members others same).map _)

/-- A member is read, and what is behind it afterwards. -/
theorem readAs_member {before rest left : Text} {c : Char} {member : RawText × Value}
    {found : List (RawText × Value)} :
    MemberAt before member (c :: rest) → c ∉ spaces → c ∈ [',', ']', '}'] →
      ReadAs (behindMember member (c :: rest)) found left →
        ReadAs (members (skipSpace before)).outcome found left
  | .named before name afterName afterColon value behind, visible, ending, goesOn => by
    rw [skipSpace_of_gap_cons before (by decide), members_quote, stringBody_of_pieces name]
    show ReadAs (behindName _ (skipSpace _)) _ _
    rw [skipSpace_of_gap_cons afterName (by decide), behindName,
      (skipSpace_of_value afterColon value).1]
    refine (readAs_value value (behind.ends (ends_cons ending))).bind ?_
    dsimp only
    rw [skipSpace_of_gap_cons behind visible]
    exact goesOn

end

/-- What is behind a value in a text, which is nothing. -/
def behindText (text : Text) (found : Value) : Text → Except Error Value
  | [] => .ok found
  | left => .error (Failure.located text (.fault .extra left.length))

theorem read_eq {text : Text} (noMark : text.head? ≠ some '\ufeff') :
    read text =
      match (value (skipSpace text)).outcome with
      | .error failure => .error (failure.located text)
      | .ok (found, rest) => behindText text found (skipSpace rest) := by
  rw [read, if_neg noMark]
  cases value (skipSpace text) with
  | failed failure => rfl
  | done found rest _ =>
    show _ = behindText text found (skipSpace rest)
    dsimp only
    cases skipSpace rest <;> rfl

theorem read_of_textOf {text : Text} {v : Value} (isText : TextOf text v) :
    read text = .ok v ∨ ∃ numeral, read text = .error (.tooLong numeral) := by
  obtain ⟨start, behind, before, valueAt, after⟩ := isText
  have noMark : text.head? ≠ some '\ufeff' := by
    intro mark
    cases before with
    | none =>
      obtain ⟨c, more, rfl, visible⟩ := valueAt.starts
      cases mark
      exact visible (by decide)
    | more isSpace _ =>
      cases mark
      exact absurd isSpace (by decide)
  have finished : skipSpace behind = [] := skipSpace_of_gap after
  rw [read_eq noMark, (skipSpace_of_value before valueAt).1]
  rcases readAs_value valueAt (after.ends nofun) with found | ⟨numeral, tooLong⟩
  · rw [found]
    exact .inl (congrArg (behindText text v) finished)
  · rw [tooLong]
    exact .inr ⟨numeral, rfl⟩

/-! ### What is read -/

section

variable {α β : Type} {outcome : Except Failure α} {found : β}

theorem exists_of_map_eq_ok {f : α → β} (read : outcome.map f = .ok found) :
    ∃ first, outcome = .ok first ∧ f first = found := by
  cases outcome with
  | error failure => contradiction
  | ok first => exact ⟨first, rfl, Except.ok.inj read⟩

theorem exists_of_bind_eq_ok {next : α → Except Failure β} (read : outcome.bind next = .ok found) :
    ∃ first, outcome = .ok first ∧ next first = .ok found := by
  cases outcome with
  | error failure => contradiction
  | ok first => exact ⟨first, rfl, read⟩

end

theorem starts_cases (start : Text) :
    (∃ text, start = '"' :: text) ∨ (∃ text, start = '[' :: text) ∨ (∃ text, start = '{' :: text) ∨
      ∀ c ∈ start.head?, c ≠ '"' ∧ c ≠ '{' ∧ c ≠ '[' := by
  cases start with
  | nil => exact .inr (.inr (.inr nofun))
  | cons c text =>
    simp only [List.cons.injEq, List.head?_cons, Option.mem_some_iff]
    grind

-- By induction on what is left to read, as the reader itself terminates.
mutual

theorem valueAt_of_value {start rest : Text} {v : Value}
    (read : (value start).outcome = .ok (v, rest)) : ValueAt start v rest := by
  obtain ⟨text, rfl⟩ | ⟨text, rfl⟩ | ⟨text, rfl⟩ | other := starts_cases start
  · rw [value_quote] at read
    obtain ⟨⟨string, left⟩, body, same⟩ := exists_of_map_eq_ok read
    obtain ⟨rfl, rfl⟩ := Prod.mk.inj same
    obtain ⟨pieces, isBody, rfl⟩ := pieces_of_stringBody body
    exact .string isBody
  · by_cases closes : ∃ left, skipSpace text = ']' :: left
    · obtain ⟨left, closes⟩ := closes
      rw [value_bracket_of_close closes] at read
      obtain ⟨rfl, rfl⟩ := Prod.mk.inj (Except.ok.inj read)
      exact .noElements (closes ▸ gap_skipSpace text)
    · rw [value_bracket_of_element (not_exists.mp closes)] at read
      obtain ⟨⟨values, left⟩, others, same⟩ := exists_of_map_eq_ok read
      obtain ⟨rfl, rfl⟩ := Prod.mk.inj same
      exact .array (elementsAt_of_elements others)
  · by_cases closes : ∃ left, skipSpace text = '}' :: left
    · obtain ⟨left, closes⟩ := closes
      rw [value_brace_of_close closes] at read
      obtain ⟨rfl, rfl⟩ := Prod.mk.inj (Except.ok.inj read)
      exact .noMembers (closes ▸ gap_skipSpace text)
    · rw [value_brace_of_member (not_exists.mp closes)] at read
      obtain ⟨⟨members, left⟩, others, same⟩ := exists_of_map_eq_ok read
      obtain ⟨rfl, rfl⟩ := Prod.mk.inj same
      exact .object (membersAt_of_members others)
  · rw [value_of_scalar other] at read
    exact valueAt_of_scalar read
termination_by 2 * start.length
decreasing_by all_goals grind [length_skipSpace_le]

theorem elementsAt_of_elements {before rest : Text} {values : List Value}
    (read : (elements (skipSpace before)).outcome = .ok (values, rest)) :
    ElementsAt before values (']' :: rest) := by
  rw [elements_eq] at read
  obtain ⟨⟨first, left⟩, isFirst, goesOn⟩ := exists_of_bind_eq_ok read
  have valueAt := valueAt_of_value isFirst
  have shorter := Reading.length_skipSpace_lt isFirst
  have behind := gap_skipSpace left
  dsimp only at goesOn
  unfold behindElement at goesOn
  split at goesOn
  · rename_i isBracket
    obtain ⟨rfl, rfl⟩ := Prod.mk.inj (Except.ok.inj goesOn)
    exact .last (gap_skipSpace before) valueAt (isBracket ▸ behind)
  · rename_i next isComma
    obtain ⟨⟨more, left⟩, others, same⟩ := exists_of_map_eq_ok goesOn
    obtain ⟨rfl, rfl⟩ := Prod.mk.inj same
    exact .more (gap_skipSpace before) valueAt (isComma ▸ behind) (elementsAt_of_elements others)
  · contradiction
termination_by 2 * (skipSpace before).length + 1
decreasing_by all_goals grind [length_skipSpace_le]

theorem membersAt_of_members {before rest : Text} {found : List (RawText × Value)}
    (read : (members (skipSpace before)).outcome = .ok (found, rest)) :
    MembersAt before found ('}' :: rest) := by
  by_cases quoted : ∃ text, skipSpace before = '"' :: text
  case neg =>
    rw [members_of_other (not_exists.mp quoted)] at read
    contradiction
  obtain ⟨text, starts⟩ := quoted
  rw [starts, members_quote] at read
  obtain ⟨⟨name, afterName⟩, isName, goesOn⟩ := exists_of_bind_eq_ok read
  have nameShorter := Reading.length_skipSpace_lt isName
  obtain ⟨pieces, body, rfl⟩ := pieces_of_stringBody isName
  dsimp only at goesOn
  unfold behindName at goesOn
  split at goesOn
  · rename_i afterColon isColon
    obtain ⟨⟨v, left⟩, isValue, goesOn⟩ := exists_of_bind_eq_ok goesOn
    have valueShorter := Reading.length_skipSpace_lt isValue
    have member : MemberAt before (textOf pieces, v) (skipSpace left) :=
      .named (starts ▸ gap_skipSpace before) body (isColon ▸ gap_skipSpace afterName)
        (gap_skipSpace afterColon) (valueAt_of_value isValue) (gap_skipSpace left)
    dsimp only at goesOn
    unfold behindMember at goesOn
    split at goesOn
    · rename_i isBrace
      obtain ⟨rfl, rfl⟩ := Prod.mk.inj (Except.ok.inj goesOn)
      exact .last (isBrace ▸ member)
    · rename_i next isComma
      obtain ⟨⟨more, left⟩, others, same⟩ := exists_of_map_eq_ok goesOn
      obtain ⟨rfl, rfl⟩ := Prod.mk.inj same
      exact .more (isComma ▸ member) (membersAt_of_members others)
    · contradiction
  · contradiction
termination_by 2 * (skipSpace before).length
decreasing_by all_goals grind [length_skipSpace_le]

end

theorem textOf_of_read {text : Text} {v : Value} (found : read text = .ok v) : TextOf text v := by
  by_cases mark : text.head? = some '\ufeff'
  · rw [read, if_pos mark] at found
    contradiction
  rw [read_eq mark] at found
  split at found
  · contradiction
  · rename_i value rest isValue
    have behind := gap_skipSpace rest
    unfold behindText at found
    split at found
    · rename_i finished
      obtain rfl := Except.ok.inj found
      exact ⟨_, rest, gap_skipSpace text, valueAt_of_value isValue, finished ▸ behind⟩
    · contradiction

end MonkeySyntax.Json
