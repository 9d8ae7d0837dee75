import MonkeySyntax.Proofs.Json.Strings

/-!
# Numbers of the grammar

The reader takes a number for what the grammar says that it is (`readAs_number`), unless it is an
integer of too many digits, and takes nothing else for a number (`magnitude_of_number`).
-/

namespace MonkeySyntax.Json

open Grammar

variable {start rest : Text}

namespace Grammar

/-- What can stand behind a value: the end of the text, a gap, a comma or a closing bracket. -/
def Ends (rest : Text) : Prop := ∀ c ∈ rest.head?, c ∈ spaces ++ [',', ']', '}']

/-- No digit comes next. -/
def NoDigit (rest : Text) : Prop := ∀ c ∈ rest.head?, c.isDigit = false

theorem Ends.noDigit (ends : Ends rest) : NoDigit rest := by
  have each : ∀ c ∈ spaces ++ [',', ']', '}'], c.isDigit = false := by simp [spaces]
  exact fun c head => each c (ends c head)

theorem Ends.noPoint (ends : Ends rest) : rest.head? ≠ some '.' := by
  have each : ∀ c ∈ spaces ++ [',', ']', '}'], c ≠ '.' := by simp [spaces]
  exact fun point => each '.' (ends '.' point) rfl

theorem NoDigit.takeWhile (noDigit : NoDigit rest) : rest.takeWhile Char.isDigit = [] := by
  cases rest with
  | nil => rfl
  | cons c rest => rw [List.takeWhile_cons, if_neg (by simp [noDigit c rfl])]

theorem Digits.takeWhile {digits : Text} (isDigits : Digits digits) (noDigit : NoDigit rest) :
    (digits ++ rest).takeWhile Char.isDigit = digits := by
  rw [List.takeWhile_append_of_pos isDigits.2, noDigit.takeWhile, List.append_nil]

end Grammar

theorem digits_takeWhile {text : Text} (some : text.takeWhile Char.isDigit ≠ []) :
    Digits (text.takeWhile Char.isDigit) :=
  ⟨some, List.all_eq_true.mp List.all_takeWhile⟩

theorem integerDigits_of_whole {digits : Text} (whole : Whole digits) (noDigit : NoDigit rest) :
    integerDigits (digits ++ rest) = digits := by
  obtain ⟨isDigits, rfl | other⟩ := whole
  · rfl
  · rw [integerDigits]
    · exact isDigits.takeWhile noDigit
    · rintro tail same
      cases digits with
      | nil => exact isDigits.1 rfl
      | cons c digits => exact other (by rw [(List.cons.inj same).1]; rfl)

theorem whole_integerDigits {text : Text} (some : integerDigits text ≠ []) :
    Whole (integerDigits text) ∧ integerDigits text <+: text := by
  unfold integerDigits at some ⊢
  split
  · exact ⟨⟨⟨List.cons_ne_nil _ _, by simp⟩, .inl rfl⟩, List.prefix_iff_eq_append.mpr rfl⟩
  · rename_i notZero
    refine ⟨⟨digits_takeWhile ?_, .inr fun zero => ?_⟩, List.takeWhile_prefix _⟩
    · split at some
      · exact absurd rfl (notZero _)
      · exact some
    · obtain ⟨more, starts⟩ := List.head?_eq_some_iff.mp zero
      obtain ⟨rest, eq⟩ := List.takeWhile_prefix (p := Char.isDigit) (l := text)
      rw [starts] at eq
      exact notZero _ eq.symm

theorem fraction_of_fraction {text places : Text} (isFraction : Fraction text places)
    (noDigit : NoDigit rest) (noPoint : rest.head? ≠ some '.') :
    fraction (text ++ rest) = text ∧ text.drop 1 = places := by
  cases isFraction with
  | none =>
    refine ⟨?_, rfl⟩
    rw [List.nil_append, fraction]
    rintro tail rfl
    contradiction
  | some digits =>
    refine ⟨?_, rfl⟩
    rw [List.cons_append, fraction, digits.takeWhile noDigit]
    split
    · exact absurd rfl digits.1
    · rfl

theorem isFraction_fraction (text : Text) :
    Fraction (fraction text) ((fraction text).drop 1) ∧ fraction text <+: text := by
  unfold fraction
  split
  · rename_i rest
    cases found : rest.takeWhile Char.isDigit with
    | nil => exact ⟨.none, List.nil_prefix⟩
    | cons digit digits =>
      have isDigits := digits_takeWhile (found ▸ List.cons_ne_nil _ _)
      rw [found] at isDigits
      exact ⟨.some isDigits, List.prefix_cons_inj .. |>.mpr (found ▸ List.takeWhile_prefix _)⟩
  · exact ⟨.none, List.nil_prefix⟩

section

variable {mark : Char} (isMark : mark = 'e' ∨ mark = 'E')

include isMark

theorem exponent_plus (text : Text) :
    exponent (mark :: '+' :: text) =
      if text.takeWhile Char.isDigit = [] then []
      else mark :: '+' :: text.takeWhile Char.isDigit := by
  rw [exponent, if_pos (by simpa using isMark)]
  cases text.takeWhile Char.isDigit <;> rfl

theorem exponent_minus (text : Text) :
    exponent (mark :: '-' :: text) =
      if text.takeWhile Char.isDigit = [] then []
      else mark :: '-' :: text.takeWhile Char.isDigit := by
  rw [exponent, if_pos (by simpa using isMark)]
  cases text.takeWhile Char.isDigit <;> rfl

theorem exponent_plain {text : Text} (noPlus : ∀ digits, text ≠ '+' :: digits)
    (noMinus : ∀ digits, text ≠ '-' :: digits) :
    exponent (mark :: text) =
      if text.takeWhile Char.isDigit = [] then [] else mark :: text.takeWhile Char.isDigit := by
  rw [exponent, if_pos (by simpa using isMark)]
  · cases text.takeWhile Char.isDigit <;> rfl
  · exact noPlus
  · exact noMinus

end

theorem exponent_of_not_mark {text : Text} (noMark : ∀ c ∈ text.head?, ¬ (c = 'e' ∨ c = 'E')) :
    exponent text = [] := by
  cases text with
  | nil => rfl
  | cons c text =>
    have isOther := noMark c rfl
    unfold exponent
    exact if_neg (by simpa using isOther)

theorem sign_ne_digit {digit : Char} (isDigit : digit.isDigit) : digit ≠ '+' ∧ digit ≠ '-' := by
  constructor <;> rintro rfl <;> contradiction

theorem exponentValue_plain {mark digit : Char} {digits : Text} (isDigit : digit.isDigit) :
    exponentValue (mark :: digit :: digits) = Decimal.value (digit :: digits) := by
  rw [exponentValue]
  · exact fun _ same => (sign_ne_digit isDigit).2 (List.cons.inj same).1
  · exact fun _ same => (sign_ne_digit isDigit).1 (List.cons.inj same).1

theorem exponent_of_exponent {text : Text} {scale : Int} (isExponent : Exponent text scale)
    (ends : Ends rest) : exponent (text ++ rest) = text ∧ exponentValue text = scale := by
  cases isExponent with
  | none =>
    have noMark : ∀ c ∈ spaces ++ [',', ']', '}'], ¬ (c = 'e' ∨ c = 'E') := by
      simp [spaces]
    exact ⟨exponent_of_not_mark fun c first => noMark c (ends c first), rfl⟩
  | @plain mark digits isMark isDigits =>
    obtain ⟨digit, digits, rfl⟩ := List.exists_cons_of_ne_nil isDigits.1
    have isDigit := isDigits.2 digit List.mem_cons_self
    refine ⟨?_, exponentValue_plain isDigit⟩
    rw [List.cons_append, exponent_plain isMark, isDigits.takeWhile ends.noDigit, if_neg isDigits.1]
    · exact fun _ same => (sign_ne_digit isDigit).1 (List.cons.inj same).1
    · exact fun _ same => (sign_ne_digit isDigit).2 (List.cons.inj same).1
  | @plus mark digits isMark isDigits =>
    refine ⟨?_, rfl⟩
    rw [List.cons_append, List.cons_append, exponent_plus isMark, isDigits.takeWhile ends.noDigit,
      if_neg isDigits.1]
  | @minus mark digits isMark isDigits =>
    refine ⟨?_, rfl⟩
    rw [List.cons_append, List.cons_append, exponent_minus isMark, isDigits.takeWhile ends.noDigit,
      if_neg isDigits.1]

theorem isExponent_exponent (text : Text) :
    Exponent (exponent text) (exponentValue (exponent text)) ∧ exponent text <+: text := by
  match text with
  | [] => exact ⟨.none, List.nil_prefix⟩
  | mark :: text =>
    by_cases isMark : mark = 'e' ∨ mark = 'E'
    · by_cases plus : text.head? = some '+'
      · obtain ⟨text, rfl⟩ := List.head?_eq_some_iff.mp plus
        rw [exponent_plus isMark]
        split
        · exact ⟨.none, List.nil_prefix⟩
        · rename_i some
          exact ⟨.plus isMark (digits_takeWhile some),
            (List.prefix_append_right_inj [mark, '+']).mpr (List.takeWhile_prefix _)⟩
      by_cases minus : text.head? = some '-'
      · obtain ⟨text, rfl⟩ := List.head?_eq_some_iff.mp minus
        rw [exponent_minus isMark]
        split
        · exact ⟨.none, List.nil_prefix⟩
        · rename_i some
          exact ⟨.minus isMark (digits_takeWhile some),
            (List.prefix_append_right_inj [mark, '-']).mpr (List.takeWhile_prefix _)⟩
      · have noPlus : ∀ digits, text ≠ '+' :: digits := by rintro _ rfl; exact plus rfl
        have noMinus : ∀ digits, text ≠ '-' :: digits := by rintro _ rfl; exact minus rfl
        rw [exponent_plain isMark noPlus noMinus]
        split
        · exact ⟨.none, List.nil_prefix⟩
        · rename_i some
          have isDigits := digits_takeWhile some
          refine ⟨?_, (List.prefix_append_right_inj [mark]).mpr (List.takeWhile_prefix _)⟩
          obtain ⟨digit, digits, eq⟩ := List.exists_cons_of_ne_nil some
          rw [eq] at isDigits ⊢
          rw [exponentValue_plain (isDigits.2 digit List.mem_cons_self)]
          exact .plain isMark isDigits
    · have noMark : exponent (mark :: text) = [] :=
        exponent_of_not_mark fun c first => by cases first; exact isMark
      rw [noMark]
      exact ⟨.none, List.nil_prefix⟩

/-- What is read is a value with the rest behind it, unless a numeral is too long. -/
def ReadAs {α : Type} (outcome : Except Failure (α × Text)) (value : α) (rest : Text) : Prop :=
  outcome = .ok (value, rest) ∨ ∃ numeral, outcome = .error (.tooLong numeral)

theorem outcome_number {negative : Bool} {text : Text}
    (unsigned : negative = false → text.head? ≠ some '-') :
    (number (sign negative ++ text)).outcome =
      if integerDigits text = [] then .error (.fault .value (sign negative ++ text).length)
      else
        let digits := integerDigits text
        let places := fraction (text.drop digits.length)
        let power := exponent ((text.drop digits.length).drop places.length)
        (numberValue negative digits places power).map fun v =>
          (v, ((text.drop digits.length).drop places.length).drop power.length) := by
  have signed : (sign negative ++ text).head? = some '-' ↔ negative = true := by
    cases negative with
    | true => simp [sign]
    | false => simpa [sign] using unsigned rfl
  have body : (if negative = true then (sign negative ++ text).drop 1 else sign negative ++ text) =
      text := by
    cases negative <;> rfl
  unfold number
  simp only [signed, body]
  by_cases noDigits : integerDigits text = []
  · rw [dif_pos (.inl noDigits), if_pos noDigits]
    rfl
  · have more : sign negative ++ text ≠ [] := by
      intro none
      rw [(List.append_eq_nil_iff.mp none).2] at noDigits
      exact noDigits rfl
    rw [dif_neg (not_or.mpr ⟨noDigits, more⟩), if_neg noDigits]
    simp only [Bool.decide_eq_true]
    cases numberValue negative (integerDigits text) _ _ <;> rfl

theorem numberValue_of_integer {negative : Bool} {digits : Text} :
    numberValue negative digits [] [] =
      if Decimal.maxDigits < digits.length then .error (.tooLong ⟨digits.length⟩)
      else
        .ok (.integer (if negative then -(Decimal.value digits : Int) else Decimal.value digits)) :=
  rfl

theorem numberValue_of_float {negative : Bool} {digits fraction power : Text}
    (isFloat : fraction ≠ [] ∨ power ≠ []) :
    numberValue negative digits fraction power =
      .ok (.float (.ofDecimal negative (Decimal.value (digits ++ fraction.drop 1))
        (exponentValue power - (fraction.drop 1).length))) := by
  unfold numberValue
  rw [if_neg]
  simp only [Bool.and_eq_true, List.isEmpty_iff]
  exact fun ⟨noPlaces, noPower⟩ => isFloat.elim (· noPlaces) (· noPower)

theorem outcome_number_of_parts {negative : Bool} {digits places power : Text}
    (whole : Whole digits) (isFraction : fraction (places ++ (power ++ rest)) = places)
    (isExponent : exponent (power ++ rest) = power)
    (noDigit : NoDigit (places ++ (power ++ rest))) :
    (number (sign negative ++ (digits ++ places ++ power ++ rest))).outcome =
      (numberValue negative digits places power).map fun v => (v, rest) := by
  have isDigits := integerDigits_of_whole whole noDigit
  have unsigned : (digits ++ (places ++ (power ++ rest))).head? ≠ some '-' := by
    obtain ⟨digit, more, rfl⟩ := List.exists_cons_of_ne_nil whole.1.1
    have first := whole.1.2 digit List.mem_cons_self
    intro same
    cases same
    contradiction
  have grouped : digits ++ places ++ power ++ rest = digits ++ (places ++ (power ++ rest)) := by
    simp only [List.append_assoc]
  rw [grouped, outcome_number fun _ => unsigned, if_neg (by rw [isDigits]; exact whole.1.1)]
  simp only [isDigits, List.drop_left, isFraction, isExponent]

/-- Neither a digit nor a point stands where an exponent may. -/
theorem noDigit_exponent {power : Text} {scale : Int} (isExponent : Exponent power scale)
    (ends : Ends rest) : NoDigit (power ++ rest) ∧ (power ++ rest).head? ≠ some '.' := by
  have letter {mark : Char} (isMark : mark = 'e' ∨ mark = 'E') (tail : Text) :
      NoDigit (mark :: tail) ∧ (mark :: tail).head? ≠ some '.' := by
    rcases isMark with rfl | rfl <;> simp [NoDigit]
  cases isExponent with
  | none => exact ⟨ends.noDigit, ends.noPoint⟩
  | plain isMark | plus isMark | minus isMark => exact letter isMark _

theorem noDigit_fraction {fraction places : Text} (isFraction : Fraction fraction places)
    (noDigit : NoDigit rest) : NoDigit (fraction ++ rest) := by
  cases isFraction with
  | none => exact noDigit
  | some => simp [NoDigit]

theorem readAs_number {negative : Bool} {text : Text} {v : Value}
    (magnitude : Magnitude negative text v) (ends : Ends rest) :
    ReadAs (number (sign negative ++ (text ++ rest))).outcome v rest := by
  cases magnitude with
  | integer whole =>
    have read : (number (sign negative ++ (text ++ [] ++ [] ++ rest))).outcome =
        (numberValue negative text [] []).map fun v => (v, rest) :=
      outcome_number_of_parts whole (fraction_of_fraction .none ends.noDigit ends.noPoint).1
        (exponent_of_exponent .none ends).1 ends.noDigit
    rw [List.append_nil, List.append_nil, numberValue_of_integer] at read
    rw [ReadAs, read]
    split
    · exact .inr ⟨_, rfl⟩
    · exact .inl rfl
  | float whole isFraction isExponent isFloat =>
    obtain ⟨noDigit, noPoint⟩ := noDigit_exponent isExponent ends
    obtain ⟨isPower, rfl⟩ := exponent_of_exponent isExponent ends
    obtain ⟨isPlaces, rfl⟩ := fraction_of_fraction isFraction noDigit noPoint
    refine .inl ?_
    rw [outcome_number_of_parts whole isPlaces isPower (noDigit_fraction isFraction noDigit),
      numberValue_of_float isFloat]
    rfl

/-- What the parts of a number that was read come to. -/
theorem magnitude_of_numberValue {negative : Bool} {digits places power : Text} {v : Value}
    (whole : Whole digits) (isFraction : Fraction places (places.drop 1))
    (isExponent : Exponent power (exponentValue power))
    (found : numberValue negative digits places power = .ok v) :
    Magnitude negative (digits ++ places ++ power) v := by
  by_cases isFloat : places ≠ [] ∨ power ≠ []
  · rw [numberValue_of_float isFloat] at found
    cases found
    exact .float whole isFraction isExponent isFloat
  · obtain ⟨rfl, rfl⟩ : places = [] ∧ power = [] := by simpa using isFloat
    rw [numberValue_of_integer] at found
    split at found
    · contradiction
    · cases found
      rw [List.append_nil, List.append_nil]
      exact .integer whole

theorem magnitude_of_number {v : Value} (read : (number start).outcome = .ok (v, rest)) :
    ∃ negative text, start = sign negative ++ (text ++ rest) ∧ Magnitude negative text v := by
  obtain ⟨negative, text, rfl, unsigned⟩ : ∃ negative text, start = sign negative ++ text ∧
      (negative = false → text.head? ≠ some '-') := by
    by_cases minus : start.head? = some '-'
    · obtain ⟨text, rfl⟩ := List.head?_eq_some_iff.mp minus
      exact ⟨true, text, rfl, nofun⟩
    · exact ⟨false, start, rfl, fun _ => minus⟩
  rw [outcome_number unsigned] at read
  split at read
  · contradiction
  rename_i some
  obtain ⟨whole, isDigits⟩ := whole_integerDigits some
  dsimp only at read
  generalize integerDigits text = digits at read whole isDigits
  obtain ⟨behind, rfl⟩ := isDigits
  rw [List.drop_left] at read
  obtain ⟨isFraction, isPlaces⟩ := isFraction_fraction behind
  generalize fraction behind = places at read isFraction isPlaces
  obtain ⟨behind, rfl⟩ := isPlaces
  rw [List.drop_left] at read
  obtain ⟨isExponent, isPower⟩ := isExponent_exponent behind
  generalize exponent behind = power at read isExponent isPower
  obtain ⟨behind, rfl⟩ := isPower
  rw [List.drop_left] at read
  cases found : numberValue negative digits places power with
  | error => rw [found] at read; contradiction
  | ok value =>
    rw [found] at read
    obtain ⟨rfl, rfl⟩ := Prod.mk.inj (Except.ok.inj read)
    exact ⟨negative, digits ++ places ++ power, by simp only [List.append_assoc],
      magnitude_of_numberValue whole isFraction isExponent found⟩

end MonkeySyntax.Json
