import Mathlib
import MonkeySyntax.Json.Reader
import MonkeySyntax.Json.Writer
import MonkeySyntax.Proofs.Json.Grammar

/-!
# Strings of the grammar

The reader takes a string for the characters that its pieces make, and takes nothing else for a
string (`stringBody_of_pieces`, `pieces_of_stringBody`). What is written for a character is one or
two pieces of it, so strings that were written are read back: `stringBody_written`.
-/

namespace MonkeySyntax.Json

open Grammar

/-! ### Code units -/

theorem hexValue?_eq_some_iff {c : Char} {d : Nat} :
    hexValue? c = some d ↔ (c, d) ∈ hexValues := by
  constructor
  · intro value
    have decimal : ∀ d < 10, (Char.ofNat (d + 48), d) ∈ hexValues := by decide
    have lower : ∀ d < 16, 10 ≤ d → (Char.ofNat (d + 87), d) ∈ hexValues := by decide
    have upper : ∀ d < 16, 10 ≤ d → (Char.ofNat (d + 55), d) ∈ hexValues := by decide
    have numbered {n : Nat} (eq : n = c.toNat) : Char.ofNat n = c := by rw [eq, Char.ofNat_toNat]
    unfold hexValue? at value
    simp only [Bool.and_eq_true, decide_eq_true_eq] at value
    split at value
    · rename_i range
      have least : 48 ≤ c.toNat := range.1
      have greatest : c.toNat ≤ 57 := range.2
      have same := Option.some.inj value
      exact numbered (show d + 48 = c.toNat by omega) ▸ decimal d (by omega)
    split at value
    · rename_i range
      have least : 97 ≤ c.toNat := range.1
      have greatest : c.toNat ≤ 102 := range.2
      have same := Option.some.inj value
      exact numbered (show d + 87 = c.toNat by omega) ▸ lower d (by omega) (by omega)
    split at value
    · rename_i range
      have least : 65 ≤ c.toNat := range.1
      have greatest : c.toNat ≤ 70 := range.2
      have same := Option.some.inj value
      exact numbered (show d + 55 = c.toNat by omega) ▸ upper d (by omega) (by omega)
    · contradiction
  · have each : ∀ pair ∈ hexValues, hexValue? pair.1 = some pair.2 := by decide
    exact each _

theorem hexQuad?_eq_some_iff {a b c d : Char} {n : Nat} :
    hexQuad? [a, b, c, d] = some n ↔ ∃ i j k l, (a, i) ∈ hexValues ∧ (b, j) ∈ hexValues ∧
      (c, k) ∈ hexValues ∧ (d, l) ∈ hexValues ∧ 16 * (16 * (16 * i + j) + k) + l = n := by
  simp only [hexQuad?, List.foldl_cons, List.foldl_nil, Option.bind_eq_bind, Option.pure_def,
    Option.bind_eq_some_iff, Option.some.injEq, hexValue?_eq_some_iff]
  constructor
  · rintro ⟨_, ⟨_, ⟨_, ⟨_, rfl, i, isA, rfl⟩, j, isB, rfl⟩, k, isC, rfl⟩, l, isD, rfl⟩
    exact ⟨i, j, k, l, isA, isB, isC, isD, by omega⟩
  · rintro ⟨i, j, k, l, isA, isB, isC, isD, rfl⟩
    exact ⟨_, ⟨_, ⟨_, ⟨0, rfl, i, isA, rfl⟩, j, isB, rfl⟩, k, isC, rfl⟩, l, isD, by omega⟩

theorem quad_iff {start rest : Text} {n : Nat} (some : rest ≠ []) :
    Quad start n rest ↔ hexQuad? (start.take 4) = .some n ∧ start.drop 4 = rest := by
  constructor
  · rintro ⟨⟩
    rename_i a b c d i j k l isA isB isC isD
    exact ⟨hexQuad?_eq_some_iff.mpr ⟨i, j, k, l, isA, isB, isC, isD, rfl⟩, rfl⟩
  · rintro ⟨number, left⟩
    match start with
    | a :: b :: c :: d :: more =>
      obtain ⟨i, j, k, l, isA, isB, isC, isD, rfl⟩ := hexQuad?_eq_some_iff.mp number
      obtain rfl : more = rest := left
      exact .digits isA isB isC isD
    | [] | [_] | [_, _] | [_, _, _] => exact absurd left.symm some

theorem hexValue?_digit {d : Nat} (h : d < 16) : hexValue? (Decimal.digit d) = some d := by
  have all : ∀ d < 16, hexValue? (Decimal.digit d) = some d := by decide
  exact all d h

theorem hexQuad?_concat (digits : Text) (c : Char) :
    hexQuad? (digits ++ [c]) = do return 16 * (← hexQuad? digits) + (← hexValue? c) := by
  rw [hexQuad?, List.foldl_append]
  rfl

theorem hexQuad?_hexDigits (width n : Nat) :
    hexQuad? (hexDigits width n) = some (n % 16 ^ width) := by
  induction width generalizing n with
  | zero => simp [hexDigits, hexQuad?, Nat.mod_one]
  | succ width ih =>
    rw [hexDigits, hexQuad?_concat, ih, hexValue?_digit (Nat.mod_lt _ (by decide))]
    show some _ = some _
    rw [Nat.pow_succ, Nat.mul_comm (16 ^ width), Nat.mod_mul, Nat.add_comm]

variable {start rest : Text}

theorem unicodeEscape_eq {n : Nat} (number : hexQuad? (start.take 4) = some n)
    (more : start.drop 4 ≠ []) :
    unicodeEscape start =
      match start.drop 4 with
      | '\\' :: 'u' :: next =>
        if isHigh n && !(next.drop 4).isEmpty then
          match hexQuad? (next.take 4) with
          | none => .error (.fault .unicodeEscape (next.length + 1))
          | some low => if isLow low then .ok (paired n low, 10) else .ok (.ofNat n, 4)
        else .ok (.ofNat n, 4)
      | _ => .ok (.ofNat n, 4) := by
  unfold unicodeEscape
  rw [number, List.isEmpty_eq_false_iff.mpr more]
  rfl

theorem unicodeEscape_of_pair {next tail : Text} {high low : Nat}
    (first : Quad start high ('\\' :: 'u' :: next)) (second : Quad next low tail)
    (isPair : isHigh high && isLow low) (more : tail ≠ []) :
    unicodeEscape start = .ok (paired high low, 10) ∧ start.drop 10 = tail := by
  obtain ⟨firstNumber, left⟩ := (quad_iff (List.cons_ne_nil _ _)).mp first
  obtain ⟨secondNumber, behind⟩ := (quad_iff more).mp second
  obtain ⟨isHigh, isLow⟩ := Bool.and_eq_true_iff.mp isPair
  constructor
  · rw [unicodeEscape_eq firstNumber (left ▸ List.cons_ne_nil _ _), left]
    simp [isHigh, isLow, behind, secondNumber, more]
  · rw [← behind, show 10 = 4 + 6 from rfl, ← List.drop_drop, left]
    rfl

theorem unicodeEscape_of_single {n : Nat} (quad : Quad start n rest) (more : rest ≠ [])
    (alone : ∀ next, rest = '\\' :: 'u' :: next →
      ∃ low tail, Quad next low tail ∧ tail ≠ [] ∧ (isHigh n && isLow low) = false) :
    unicodeEscape start = .ok (.ofNat n, 4) ∧ start.drop 4 = rest := by
  obtain ⟨number, left⟩ := (quad_iff more).mp quad
  refine ⟨?_, left⟩
  rw [unicodeEscape_eq number (left ▸ more), left]
  split
  · rename_i next
    obtain ⟨low, tail, second, some, apart⟩ := alone next rfl
    obtain ⟨secondNumber, behind⟩ := (quad_iff some).mp second
    rw [secondNumber, behind]
    cases high : isHigh n with
    | false => rfl
    | true =>
      rw [high, Bool.true_and] at apart
      simp [apart]
  · rfl

/-- Surrogates that stand alone are told apart. -/
example : unicodeEscape "d800 ".toList = .ok (.surrogate 0, 4) ∧
    unicodeEscape "dfff ".toList = .ok (.surrogate 0x7ff, 4) := ⟨by cbv, by cbv⟩

/-- What is behind `\u` is the number of a code unit, and perhaps of the other half of a pair. -/
theorem unicodeEscape_ok {c : CodePoint} {width : Nat}
    (escape : unicodeEscape start = .ok (c, width)) :
    ∃ n, Quad start n (start.drop 4) ∧
      ((c = .ofNat n ∧ width = 4 ∧ ∀ next low tail, start.drop 4 = '\\' :: 'u' :: next →
        Quad next low tail → tail ≠ [] → (isHigh n && isLow low) = false) ∨
      ∃ next low, start.drop 4 = '\\' :: 'u' :: next ∧ Quad next low (start.drop 10) ∧
        (isHigh n && isLow low) ∧ c = paired n low ∧ width = 10) := by
  have more : start.drop 4 ≠ [] := by
    intro none
    rw [unicodeEscape, none] at escape
    contradiction
  cases number : hexQuad? (start.take 4) with
  | none =>
    rw [unicodeEscape, number, List.isEmpty_eq_false_iff.mpr more] at escape
    contradiction
  | some n =>
    refine ⟨n, (quad_iff more).mpr ⟨number, rfl⟩, ?_⟩
    have skipped : start.drop 10 = (start.drop 4).drop 6 := by rw [List.drop_drop]
    rw [unicodeEscape_eq number more] at escape
    rw [skipped]
    generalize start.drop 4 = mid at escape ⊢
    split at escape
    · rename_i next
      split at escape
      · rename_i goesOn
        obtain ⟨high, some⟩ := Bool.and_eq_true_iff.mp goesOn
        split at escape
        · contradiction
        · rename_i low second
          have quad : Quad next low (next.drop 4) :=
            (quad_iff (by simpa using some)).mpr ⟨second, rfl⟩
          split at escape
          · rename_i isLow
            obtain ⟨rfl, rfl⟩ := Prod.mk.inj (Except.ok.inj escape)
            exact .inr ⟨next, low, rfl, quad, Bool.and_eq_true_iff.mpr ⟨high, isLow⟩, rfl, rfl⟩
          · rename_i notLow
            obtain ⟨rfl, rfl⟩ := Prod.mk.inj (Except.ok.inj escape)
            refine .inl ⟨rfl, rfl, fun other last tail same quad some => ?_⟩
            obtain rfl : next = other := (List.cons.inj (List.cons.inj same).2).2
            obtain rfl : low = last :=
              Option.some.inj (second.symm.trans ((quad_iff some).mp quad).1)
            rw [Bool.eq_false_iff.mpr notLow, Bool.and_false]
      · rename_i ends
        obtain ⟨rfl, rfl⟩ := Prod.mk.inj (Except.ok.inj escape)
        refine .inl ⟨rfl, rfl, fun other last tail same quad some => ?_⟩
        obtain rfl : next = other := (List.cons.inj (List.cons.inj same).2).2
        rw [((quad_iff some).mp quad).2, List.isEmpty_eq_false_iff.mpr some] at ends
        have notHigh : isHigh n = false := by simpa using ends
        rw [notHigh, Bool.false_and]
    · rename_i other
      obtain ⟨rfl, rfl⟩ := Prod.mk.inj (Except.ok.inj escape)
      exact .inl ⟨rfl, rfl, fun next _ _ same => absurd same (other next)⟩

/-! ### Strings -/

def Reading.outcome {α : Type} {text : Text} : Reading α text → Except Failure (α × Text)
  | done value rest _ => .ok (value, rest)
  | failed failure => .error failure

theorem stringBody_quote : (stringBody start ('"' :: rest)).outcome = .ok ([], rest) := by
  rw [stringBody]
  rfl

/-- Reads a string on behind a code point of it. -/
def after (c : CodePoint) (body : Except Failure (RawText × Text)) :
    Except Failure (RawText × Text) :=
  body.map fun (text, left) => (c :: text, left)

theorem stringBody_unit {c : CodePoint} {width : Nat}
    (escape : unicodeEscape rest = .ok (c, width)) :
    (stringBody start ('\\' :: 'u' :: rest)).outcome =
      after c (stringBody start (rest.drop width)).outcome := by
  rw [stringBody]
  split
  · rename_i failed
    rw [escape] at failed
    contradiction
  · rename_i d n found
    obtain ⟨rfl, rfl⟩ := Prod.mk.inj (Except.ok.inj (escape.symm.trans found))
    cases stringBody start (rest.drop width) <;> rfl

theorem stringBody_letter {letter c : Char} (escape : escapedChar? letter = some c) :
    (stringBody start ('\\' :: letter :: rest)).outcome =
      after (.char c) (stringBody start rest).outcome := by
  have notUnit : letter ≠ 'u' := by
    rintro rfl
    contradiction
  rw [stringBody]
  · split
    · rename_i none
      rw [escape] at none
      contradiction
    · rename_i d found
      obtain rfl := Option.some.inj (escape.symm.trans found)
      cases stringBody start rest <;> rfl
  · exact notUnit

theorem stringBody_plain {c : Char} (visible : 0x20 ≤ c.toNat) (notQuote : c ≠ '"')
    (notEscape : c ≠ '\\') :
    (stringBody start (c :: rest)).outcome = after (.char c) (stringBody start rest).outcome := by
  rw [stringBody]
  · rw [if_neg (by omega)]
    cases stringBody start rest <;> rfl
  · exact notQuote
  · exact fun same _ => notEscape same
  · exact fun _ same _ => notEscape same
  · exact fun _ _ same _ => notEscape same

theorem escapedChar?_eq_some_iff {letter c : Char} :
    escapedChar? letter = some c ↔ (letter, c) ∈ escapes := by
  constructor
  · intro found
    unfold escapedChar? at found
    split at found
    all_goals first
      | contradiction
      | (obtain rfl := Option.some.inj found; decide)
  · have each : ∀ pair ∈ escapes, escapedChar? pair.1 = some pair.2 := by decide
    exact each _

namespace Grammar

theorem Pieces.ne_nil {pieces : List Piece} (body : Pieces start pieces rest) : start ≠ [] := by
  cases body <;> exact List.cons_ne_nil _ _

theorem Pieces.of_unit {n : Nat} {pieces : List Piece}
    (body : Pieces start (.unit n :: pieces) rest) :
    ∃ next tail, start = '\\' :: 'u' :: next ∧ Quad next n tail ∧ Pieces tail pieces rest := by
  cases body with
  | unit quad tail => exact ⟨_, _, rfl, quad, tail⟩

theorem Pieces.of_start {next : Text} {pieces : List Piece}
    (body : Pieces ('\\' :: 'u' :: next) pieces rest) :
    ∃ n more tail, pieces = .unit n :: more ∧ Quad next n tail ∧ tail ≠ [] := by
  cases body with
  | plain _ _ notEscape _ => contradiction
  | letter escape _ =>
    have notUnit : ∀ pair ∈ escapes, pair.1 ≠ 'u' := by decide
    exact absurd rfl (notUnit _ escape)
  | unit quad others => exact ⟨_, _, _, rfl, quad, others.ne_nil⟩

/-- A code unit stands alone unless the next piece is the other half of a pair. -/
theorem textOf_single {n : Nat} {pieces : List Piece}
    (alone : ∀ low more, pieces = .unit low :: more → (isHigh n && isLow low) = false) :
    textOf (.unit n :: pieces) = .ofNat n :: textOf pieces := by
  match pieces with
  | [] | .char _ :: _ => rfl
  | .unit low :: more => rw [textOf, if_neg (by simp [alone low more rfl])]

end Grammar

theorem pieces_of_stringBody {opening start rest : Text} {t : RawText}
    (read : (stringBody opening start).outcome = .ok (t, rest)) :
    ∃ pieces, Pieces start pieces rest ∧ textOf pieces = t := by
  fun_induction stringBody opening start generalizing t rest with
  | case1 | case3 | case4 | case5 | case7 | case8 | case10 | case11 => contradiction
  | case2 =>
    obtain ⟨rfl, rfl⟩ := Prod.mk.inj (Except.ok.inj read)
    exact ⟨[], .close, rfl⟩
  | case6 start c width escape more left _ body ih =>
    obtain ⟨rfl, rfl⟩ := Prod.mk.inj (Except.ok.inj read)
    obtain ⟨pieces, others, rfl⟩ := ih (by rw [body]; rfl)
    obtain ⟨n, quad, alone | paired⟩ := unicodeEscape_ok escape
    · obtain ⟨rfl, rfl, alone⟩ := alone
      refine ⟨.unit n :: pieces, .unit quad others, textOf_single fun low more starts => ?_⟩
      subst starts
      obtain ⟨next, tail, same, second, behind⟩ := others.of_unit
      exact alone next low tail same second behind.ne_nil
    · obtain ⟨next, low, behind, second, isPair, isPaired, width⟩ := paired
      subst width
      rw [behind] at quad
      refine ⟨.unit n :: .unit low :: pieces, .unit quad (.unit second others), ?_⟩
      rw [textOf, if_pos isPair, isPaired]
  | case9 letter start _ c escape more left _ body ih =>
    obtain ⟨rfl, rfl⟩ := Prod.mk.inj (Except.ok.inj read)
    obtain ⟨pieces, others, rfl⟩ := ih (by rw [body]; rfl)
    exact ⟨.char c :: pieces, .letter (escapedChar?_eq_some_iff.mp escape) others, rfl⟩
  | case12 c start notQuote notLast _ notEscape visible more left _ body ih =>
    obtain ⟨rfl, rfl⟩ := Prod.mk.inj (Except.ok.inj read)
    obtain ⟨pieces, others, rfl⟩ := ih (by rw [body]; rfl)
    refine ⟨.char c :: pieces, .plain (Nat.not_lt.mp visible) notQuote ?_ others, rfl⟩
    intro isEscape
    cases start with
    | nil => exact notLast isEscape rfl
    | cons letter start => exact notEscape letter start isEscape rfl

theorem stringBody_of_pieces {opening start rest : Text} {pieces : List Piece}
    (body : Pieces start pieces rest) :
    (stringBody opening start).outcome = .ok (textOf pieces, rest) := by
  fun_induction textOf pieces generalizing start with
  | case1 =>
    cases body
    exact stringBody_quote
  | case2 c pieces ih =>
    cases body with
    | plain visible notQuote notEscape others =>
      rw [stringBody_plain visible notQuote notEscape, ih others]
      rfl
    | letter escape others =>
      rw [stringBody_letter (escapedChar?_eq_some_iff.mpr escape), ih others]
      rfl
  | case3 high low pieces isPair ih =>
    obtain ⟨_, _, rfl, first, others⟩ := body.of_unit
    obtain ⟨next, tail, rfl, second, others⟩ := others.of_unit
    obtain ⟨escape, left⟩ := unicodeEscape_of_pair first second isPair others.ne_nil
    rw [stringBody_unit escape, left, ih others]
    rfl
  | case4 high low pieces notPair ih =>
    obtain ⟨_, _, rfl, first, others⟩ := body.of_unit
    obtain ⟨escape, left⟩ := unicodeEscape_of_single first others.ne_nil fun next starts => by
      rw [starts] at others
      obtain ⟨n, more, tail, same, second, some⟩ := others.of_start
      cases same
      exact ⟨low, tail, second, some, Bool.eq_false_iff.mpr notPair⟩
    rw [stringBody_unit escape, left, ih others]
    rfl
  | case5 n pieces notUnit ih =>
    obtain ⟨_, _, rfl, first, others⟩ := body.of_unit
    obtain ⟨escape, left⟩ := unicodeEscape_of_single first others.ne_nil fun next starts => by
      rw [starts] at others
      obtain ⟨low, more, tail, same, second, some⟩ := others.of_start
      exact absurd same (notUnit low more)
    rw [stringBody_unit escape, left, ih others]
    rfl

/-! ### Written strings -/

/-- A character is written as itself, with a letter, or by its number. -/
theorem writtenChar_cases (c : Char) :
    (∃ letter, escapedChar? letter = some c ∧ writtenChar c = ['\\', letter]) ∨
    (0x20 ≤ c.toNat ∧ c ≠ '"' ∧ c ≠ '\\' ∧ writtenChar c = [c]) ∨
    (c.toNat < 0x10000 ∧ writtenChar c = unitEscape c.toNat) ∨
    (0x10000 ≤ c.toNat ∧ writtenChar c =
      unitEscape (0xd800 + (c.toNat - 0x10000) / 0x400) ++
        unitEscape (0xdc00 + (c.toNat - 0x10000) % 0x400)) := by
  generalize eq : writtenChar c = w
  unfold writtenChar at eq
  split at eq; · rename_i is; exact .inl ⟨'"', by rw [is]; rfl, eq.symm⟩
  split at eq; · rename_i is; exact .inl ⟨'\\', by rw [is]; rfl, eq.symm⟩
  split at eq; · rename_i is; exact .inl ⟨'n', by rw [is]; rfl, eq.symm⟩
  split at eq; · rename_i is; exact .inl ⟨'r', by rw [is]; rfl, eq.symm⟩
  split at eq; · rename_i is; exact .inl ⟨'t', by rw [is]; rfl, eq.symm⟩
  split at eq; · rename_i is; exact .inl ⟨'b', by rw [is]; rfl, eq.symm⟩
  split at eq; · rename_i is; exact .inl ⟨'f', by rw [is]; rfl, eq.symm⟩
  rename_i notQuote notEscape _ _ _ _ _
  split at eq
  · rename_i visible
    simp only [Bool.and_eq_true, decide_eq_true_eq] at visible
    exact .inr (.inl ⟨visible.1, notQuote, notEscape, eq.symm⟩)
  split at eq
  · rename_i basic
    exact .inr (.inr (.inl ⟨basic, eq.symm⟩))
  · rename_i astral
    exact .inr (.inr (.inr ⟨Nat.not_lt.mp astral, eq.symm⟩))

theorem quad_hexDigits {n : Nat} (basic : n < 0x10000) (more : rest ≠ []) :
    Quad (hexDigits 4 n ++ rest) n rest := by
  have width := length_hexDigits 4 n
  rw [quad_iff more, List.take_left' width, List.drop_left' width, hexQuad?_hexDigits]
  exact ⟨congrArg some (Nat.mod_eq_of_lt basic), rfl⟩

theorem pieces_unitEscape {n : Nat} {pieces : List Piece} (basic : n < 0x10000)
    (body : Pieces start pieces rest) :
    Pieces (unitEscape n ++ start) (.unit n :: pieces) rest :=
  .unit (quad_hexDigits basic body.ne_nil) body

/-- What is written for a character are pieces that make it, whatever is behind them. -/
theorem pieces_writtenChar (c : Char) {pieces : List Piece} (body : Pieces start pieces rest) :
    ∃ more, Pieces (writtenChar c ++ start) (more ++ pieces) rest ∧
      textOf (more ++ pieces) = .char c :: textOf pieces := by
  have scalar : c.toNat < 0xd800 ∨ 0xdfff < c.toNat ∧ c.toNat < 0x110000 := c.valid
  rcases writtenChar_cases c with ⟨letter, escape, eq⟩ | ⟨visible, notQuote, notEscape, eq⟩ |
    ⟨basic, eq⟩ | ⟨astral, eq⟩
  all_goals rw [eq]
  · exact ⟨[.char c], .letter (escapedChar?_eq_some_iff.mp escape) body, rfl⟩
  · exact ⟨[.char c], .plain visible notQuote notEscape body, rfl⟩
  · have notHigh : isHigh c.toNat = false := by simp [isHigh]; omega
    refine ⟨[.unit c.toNat], pieces_unitEscape basic body, ?_⟩
    rw [List.singleton_append, textOf_single (by simp [notHigh]), CodePoint.ofNat_toNat]
  · generalize high : 0xd800 + (c.toNat - 0x10000) / 0x400 = first
    generalize low : 0xdc00 + (c.toNat - 0x10000) % 0x400 = second
    have isPair : isHigh first && isLow second := by simp [isHigh, isLow]; omega
    have isPaired : paired first second = .char c := by
      rw [paired, show 0x10000 + (first - 0xd800) * 0x400 + (second - 0xdc00) = c.toNat by omega,
        CodePoint.ofNat_toNat]
    refine ⟨[.unit first, .unit second], ?_, ?_⟩
    · rw [List.append_assoc]
      exact pieces_unitEscape (by omega) (pieces_unitEscape (by omega) body)
    · rw [List.cons_append, List.singleton_append, textOf, if_pos isPair, isPaired]

theorem pieces_written (text rest : Text) :
    ∃ pieces, Pieces (text.flatMap writtenChar ++ '"' :: rest) pieces rest ∧
      textOf pieces = codePoints text := by
  induction text with
  | nil => exact ⟨[], .close, rfl⟩
  | cons c text ih =>
    obtain ⟨pieces, body, same⟩ := ih
    obtain ⟨more, body, made⟩ := pieces_writtenChar c body
    rw [List.flatMap_cons, List.append_assoc]
    exact ⟨_, body, by rw [made, same]; rfl⟩

theorem stringBody_written {start rest : Text} (text : Text) :
    (stringBody start (text.flatMap writtenChar ++ '"' :: rest)).outcome =
      .ok (codePoints text, rest) := by
  obtain ⟨pieces, body, same⟩ := pieces_written text rest
  exact same ▸ stringBody_of_pieces body

end MonkeySyntax.Json
