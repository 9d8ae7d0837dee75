import MonkeySyntax.Proofs.Json.Strings

/-!
# Objects read back

How the reader goes through an object, member by member, and through an array. `Writes` says that a
text is read as a value whatever stands behind it, as written strings and booleans are.
-/

namespace MonkeySyntax.Json

namespace Reading

variable {α : Type} {text rest : Text} {value : α} {failure : Failure}

theorem outcome_eq_ok {reading : Reading α text} (h : reading.outcome = .ok (value, rest)) :
    ∃ shorter, reading = .done value rest shorter := by
  cases reading with
  | done found left shorter =>
    obtain ⟨rfl, rfl⟩ := Prod.mk.inj (Except.ok.inj h)
    exact ⟨shorter, rfl⟩
  | failed failure => contradiction

theorem length_skipSpace_lt {reading : Reading α text} (h : reading.outcome = .ok (value, rest)) :
    (skipSpace rest).length < text.length := by
  obtain ⟨shorter, _⟩ := outcome_eq_ok h
  exact Nat.lt_of_le_of_lt (length_skipSpace_le rest) shorter

end Reading

theorem value_quote (rest : Text) :
    (value ('"' :: rest)).outcome =
      (stringBody ('"' :: rest) rest).outcome.map fun (text, left) => (.string text, left) := by
  rw [value]
  split
  · rename_i failed
    rw [failed]
    rfl
  · rename_i done
    rw [done]
    rfl

theorem value_brace_of_close {rest left : Text} (closes : skipSpace rest = '}' :: left) :
    (value ('{' :: rest)).outcome = .ok (.object [], left) := by
  rw [value]
  split
  · rename_i text isClose
    obtain rfl : text = left := (List.cons.inj (isClose.symm.trans closes)).2
    rfl
  · rename_i notClose
    exact absurd closes (notClose left)

theorem value_brace_of_member {rest : Text} (goesOn : ∀ left, skipSpace rest ≠ '}' :: left) :
    (value ('{' :: rest)).outcome =
      (members (skipSpace rest)).outcome.map fun (found, left) => (.object found, left) := by
  rw [value]
  split
  · rename_i text isClose
    exact absurd isClose (goesOn text)
  · split
    · rename_i failed
      rw [failed]
      rfl
    · rename_i done
      rw [done]
      rfl

theorem value_brace_of_name {rest name : Text} (starts : skipSpace rest = '"' :: name) :
    (value ('{' :: rest)).outcome =
      (members (skipSpace rest)).outcome.map fun (found, left) => (.object found, left) :=
  value_brace_of_member fun left closes => by
    rw [starts] at closes
    cases closes

theorem value_bracket_of_close {rest left : Text} (closes : skipSpace rest = ']' :: left) :
    (value ('[' :: rest)).outcome = .ok (.array [], left) := by
  rw [value]
  split
  · rename_i text isClose
    obtain rfl : text = left := (List.cons.inj (isClose.symm.trans closes)).2
    rfl
  · rename_i notClose
    exact absurd closes (notClose left)

theorem value_bracket_of_element {rest : Text} (goesOn : ∀ left, skipSpace rest ≠ ']' :: left) :
    (value ('[' :: rest)).outcome =
      (elements (skipSpace rest)).outcome.map fun (found, left) => (.array found, left) := by
  rw [value]
  split
  · rename_i text isClose
    exact absurd isClose (goesOn text)
  · split
    · rename_i failed
      rw [failed]
      rfl
    · rename_i done
      rw [done]
      rfl

theorem value_of_scalar {text : Text} (other : ∀ c ∈ text.head?, c ≠ '"' ∧ c ≠ '{' ∧ c ≠ '[') :
    (value text).outcome = (scalar text).outcome := by
  rw [value]
  · rintro rest rfl
    exact (other _ rfl).1 rfl
  · rintro rest rfl
    exact (other _ rfl).2.1 rfl
  · rintro rest rfl
    exact (other _ rfl).2.2 rfl

theorem scalar_word {word text : Text} {found : Value}
    (isWord : (words.find? fun pair => pair.1.isPrefixOf text) = Option.some (word, found))
    (some : word ≠ []) (more : text ≠ []) :
    (scalar text).outcome = .ok (found, text.drop word.length) := by
  unfold scalar
  split
  · rename_i other value isOther
    obtain ⟨rfl, rfl⟩ := Prod.mk.inj (Option.some.inj (isWord.symm.trans isOther))
    rw [dif_pos ⟨some, more⟩]
    rfl
  · rename_i none
    rw [isWord] at none
    contradiction

theorem find?_of_literal {word rest : Text} {v : Value}
    (literal : (word, v) ∈ Grammar.literals) :
    (words.find? fun pair => pair.1.isPrefixOf (word ++ rest)) = some (word, v) ∧ word ≠ [] ∧
      ∀ c ∈ (word ++ rest).head?, c ≠ '"' ∧ c ≠ '{' ∧ c ≠ '[' := by
  simp only [Grammar.literals, List.mem_cons, List.not_mem_nil, or_false, Prod.mk.injEq] at literal
  rcases literal with ⟨rfl, rfl⟩ | ⟨rfl, rfl⟩ | ⟨rfl, rfl⟩ | ⟨rfl, rfl⟩ | ⟨rfl, rfl⟩ | ⟨rfl, rfl⟩
  all_goals
    refine ⟨rfl, by decide, fun c first => ?_⟩
    cases first
    decide

theorem value_of_literal {word rest : Text} {v : Value}
    (literal : (word, v) ∈ Grammar.literals) :
    (value (word ++ rest)).outcome = .ok (v, rest) := by
  obtain ⟨found, some, other⟩ := @find?_of_literal word rest v literal
  rw [value_of_scalar other, scalar_word found some (by simp [some]), List.drop_left]

/-- How an array goes on behind an element. -/
def behindElement (first : Value) : Text → Except Failure (List Value × Text)
  | ']' :: left => .ok ([first], left)
  | ',' :: rest =>
    (elements (skipSpace rest)).outcome.map fun (more, left) => (first :: more, left)
  | left => .error (.fault .comma left.length)

theorem elements_eq (text : Text) :
    (elements text).outcome =
      (value text).outcome.bind fun (first, left) => behindElement first (skipSpace left) := by
  rw [elements]
  cases value text with
  | failed failure => rfl
  | done first left _ =>
    show _ = behindElement first (skipSpace left)
    dsimp only
    split
    · rename_i rest isBracket
      exact (congrArg (behindElement first) isBracket).symm
    · rename_i rest isComma
      refine Eq.trans ?_ (congrArg (behindElement first) isComma).symm
      show _ = (elements (skipSpace rest)).outcome.map _
      cases elements (skipSpace rest) <;> rfl
    · rename_i notBracket notComma
      rw [behindElement]
      · rfl
      · exact notBracket
      · exact notComma

/-- How an object goes on behind a member. -/
def behindMember (member : RawText × Value) :
    Text → Except Failure (List (RawText × Value) × Text)
  | '}' :: left => .ok ([member], left)
  | ',' :: rest =>
    (members (skipSpace rest)).outcome.map fun (more, left) => (member :: more, left)
  | left => .error (.fault .comma left.length)

/-- How a member goes on behind its name. -/
def behindName (name : RawText) : Text → Except Failure (List (RawText × Value) × Text)
  | ':' :: rest =>
    (value (skipSpace rest)).outcome.bind fun (found, left) =>
      behindMember (name, found) (skipSpace left)
  | left => .error (.fault .colon left.length)

theorem members_quote (rest : Text) :
    (members ('"' :: rest)).outcome =
      (stringBody ('"' :: rest) rest).outcome.bind fun (name, left) =>
        behindName name (skipSpace left) := by
  rw [members]
  cases stringBody ('"' :: rest) rest with
  | failed failure => rfl
  | done name afterName _ =>
    show _ = behindName name (skipSpace afterName)
    dsimp only
    split
    · rename_i afterColon isColon
      refine Eq.trans ?_ (congrArg (behindName name) isColon).symm
      rw [behindName]
      cases value (skipSpace afterColon) with
      | failed failure => rfl
      | done found afterValue _ =>
        show _ = behindMember (name, found) (skipSpace afterValue)
        dsimp only
        split
        · rename_i left isBrace
          exact (congrArg (behindMember (name, found)) isBrace).symm
        · rename_i afterComma isComma
          refine Eq.trans ?_ (congrArg (behindMember (name, found)) isComma).symm
          show _ = (members (skipSpace afterComma)).outcome.map _
          cases members (skipSpace afterComma) <;> rfl
        · rename_i notBrace notComma
          rw [behindMember]
          · rfl
          · exact notBrace
          · exact notComma
    · rename_i notColon
      rw [behindName]
      · rfl
      · exact notColon

theorem members_of_other {text : Text} (other : ∀ rest, text ≠ '"' :: rest) :
    (members text).outcome = .error (.fault .name text.length) := by
  rw [members]
  · rfl
  · exact other

theorem members_eq {rest afterName afterColon afterValue : Text} {name : RawText} {found : Value}
    (isName : (stringBody ('"' :: rest) rest).outcome = .ok (name, afterName))
    (colon : skipSpace afterName = ':' :: afterColon)
    (isValue : (value (skipSpace afterColon)).outcome = .ok (found, afterValue)) :
    (members ('"' :: rest)).outcome = behindMember (name, found) (skipSpace afterValue) := by
  rw [members_quote, isName]
  show behindName name (skipSpace afterName) = _
  rw [colon, behindName, isValue]
  rfl

/-! ### Written objects -/

/-- A value is read from its text, whatever stands behind it. -/
def Writes (text : Text) (found : Value) : Prop :=
  ∀ rest, skipSpace (' ' :: (text ++ rest)) = text ++ rest ∧
    (value (text ++ rest)).outcome = .ok (found, rest)

theorem writes_string (text : Text) :
    Writes (writtenString text) (.string (codePoints text)) := by
  intro rest
  have text : writtenString text ++ rest = '"' :: (text.flatMap writtenChar ++ '"' :: rest) := by
    simp [writtenString]
  rw [text, value_quote, stringBody_written]
  exact ⟨rfl, rfl⟩

theorem writes_bool (flag : Bool) :
    Writes (if flag then "true".toList else "false".toList) (.bool flag) := by
  intro rest
  cases flag with
  | true => exact ⟨rfl, value_of_literal (by simp [Grammar.literals])⟩
  | false => exact ⟨rfl, value_of_literal (by simp [Grammar.literals])⟩

end MonkeySyntax.Json
