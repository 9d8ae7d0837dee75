import MonkeySyntax.Json.Writer
import MonkeySyntax.Proofs.Text.Quotes

/-!
# Line breaks

A text is cut into lines at every kind of line break. Whatever is shown between quotes is printable
(`isPrintable_of_mem_quoted`), and no printable character breaks a line.
-/

namespace MonkeySyntax

/-! ### Lines -/

/-- The characters that end a line: line feed, vertical tab, form feed, carriage return, the
separators of files, groups and records, the next-line control, and the separators of lines and
paragraphs. -/
def isLineBreak (c : Char) : Bool :=
  ['\n', '\x0b', '\x0c', '\r', '\x1c', '\x1d', '\x1e', '\u0085', '\u2028', '\u2029'].contains c

/-- The lines of a text, each with the break that ends it; only the last may lack one. A carriage
return and the line feed behind it are one break. -/
def brokenLines : Text → List Text
  | [] => []
  | '\r' :: '\n' :: rest => ['\r', '\n'] :: brokenLines rest
  | c :: rest =>
    if isLineBreak c then [c] :: brokenLines rest
    else
      match brokenLines rest with
      | [] => [[c]]
      | line :: lines => (c :: line) :: lines

theorem flatten_brokenLines (text : Text) : (brokenLines text).flatten = text := by
  fun_induction brokenLines text with
  | case1 => rfl
  | case2 rest ih => simp [ih]
  | case3 c rest _ _ ih => simp [ih]
  | case4 c rest _ _ none ih => simp [none] at ih; simp [← ih]
  | case5 c rest _ _ line lines some ih => simp [some] at ih; simp [← ih]

theorem brokenLines_cons {c : Char} (noBreak : isLineBreak c = false) (text : Text) :
    brokenLines (c :: text) =
      match brokenLines text with
      | [] => [[c]]
      | line :: lines => (c :: line) :: lines := by
  rw [brokenLines, if_neg (by simp [noBreak])]
  rintro rest rfl
  contradiction

theorem brokenLines_line {text : Text} (noBreak : ∀ c ∈ text, isLineBreak c = false) :
    brokenLines (text ++ ['\n']) = [text ++ ['\n']] := by
  induction text with
  | nil => rfl
  | cons c text ih =>
    obtain ⟨first, others⟩ := List.forall_mem_cons.mp noBreak
    rw [List.cons_append, brokenLines_cons first, ih others]

/-- A text that ends in a line feed has its own lines, whatever stands behind it. -/
theorem brokenLines_append {first : Text} (complete : first.getLast? = some '\n') (second : Text) :
    brokenLines (first ++ second) = brokenLines first ++ brokenLines second := by
  fun_induction brokenLines first with
  | case1 => contradiction
  | case2 rest ih =>
    rw [List.cons_append, List.cons_append, brokenLines, List.cons_append]
    cases rest with
    | nil => rfl
    | cons d rest => rw [ih (by simpa using complete)]
  | case3 c rest notPair isBreak ih =>
    cases rest with
    | nil =>
      obtain rfl : c = '\n' := by simpa using complete
      rfl
    | cons d rest =>
      rw [List.cons_append, brokenLines, if_pos isBreak, ih (by simpa using complete),
        List.cons_append]
      rintro text rfl same
      exact notPair rest rfl (congrArg (· :: rest) (List.cons.inj same).1)
  | case4 c rest notPair noBreak none ih =>
    obtain rfl : rest = [] := by rw [← flatten_brokenLines rest, none, List.flatten_nil]
    obtain rfl : c = '\n' := by simpa using complete
    contradiction
  | case5 c rest notPair noBreak line lines found ih =>
    cases rest with
    | nil => contradiction
    | cons d rest =>
      rw [List.cons_append, brokenLines_cons (Bool.eq_false_iff.mpr noBreak),
        ih (by simpa using complete), found]
      rfl

/-! ### Printable characters -/

theorem isLineBreak_of_isPrintable {c : Char} (printable : isPrintable c) :
    isLineBreak c = false := by
  rw [Bool.eq_false_iff]
  intro isBreak
  have hidden : isPrintable c = false := by
    simp only [isLineBreak, List.contains_iff_mem, List.mem_cons, List.not_mem_nil,
      or_false] at isBreak
    rcases isBreak with rfl | rfl | rfl | rfl | rfl | rfl | rfl | rfl | rfl | rfl <;>
      decide +kernel
  rw [hidden] at printable
  contradiction

theorem isPrintable_of_isPrintableAscii {c : Char} (ascii : Json.isPrintableAscii c) :
    isPrintable c := by
  simp only [Json.isPrintableAscii, Bool.and_eq_true, decide_eq_true_eq] at ascii
  rw [isPrintable, if_pos ascii.2]
  exact decide_eq_true ascii.1

theorem isPrintable_of_all {text : Text} (ascii : text.all Json.isPrintableAscii) :
    ∀ c ∈ text, isPrintable c :=
  fun c member => isPrintable_of_isPrintableAscii (List.all_eq_true.mp ascii c member)

theorem isPrintable_of_isDigit {c : Char} (digit : isDigit c) : isPrintable c := by
  apply isPrintable_of_isPrintableAscii
  simp only [isDigit, Bool.and_eq_true, decide_eq_true_eq, Char.le_def,
    UInt32.le_iff_toNat_le] at digit
  have low : 48 ≤ c.toNat := digit.1
  have high : c.toNat ≤ 57 := digit.2
  simp only [Json.isPrintableAscii, Bool.and_eq_true, decide_eq_true_eq]
  omega

theorem isPrintable_of_mem_ofInt {n : Int} : ∀ c ∈ Decimal.ofInt n, isPrintable c := by
  intro c member
  have numeral := Decimal.isNumeralChar_of_mem_ofInt c member
  rw [Decimal.isNumeralChar, Bool.or_eq_true] at numeral
  rcases numeral with digit | minus
  · exact isPrintable_of_isDigit digit
  · rw [beq_iff_eq.mp minus]
    decide

theorem isPrintable_of_isQuote {quote : Char} (isQuote : IsQuote quote) : isPrintable quote := by
  rcases isQuote with rfl | rfl <;> decide

theorem isPrintable_of_mem_escaped {quote : Char} (isQuote : IsQuote quote) (c : Char) :
    ∀ d ∈ escaped quote c, isPrintable d := by
  have short {d : Char} (printable : isPrintable d) : ∀ e ∈ ['\\', d], isPrintable e := by
    simpa using ⟨by decide, printable⟩
  have number {letter : Char} (printable : isPrintable letter) (width : Nat) :
      ∀ e ∈ '\\' :: letter :: hexDigits width c.toNat, isPrintable e := by
    refine List.forall_mem_cons.mpr ⟨by decide, List.forall_mem_cons.mpr ⟨printable, ?_⟩⟩
    exact fun e member =>
      isPrintable_of_isPrintableAscii (Json.isPrintableAscii_hexDigits width _ e member)
  unfold escaped
  split
  · rename_i isSelf
    refine short ?_
    rcases isSelf with rfl | rfl
    · decide
    · exact isPrintable_of_isQuote isQuote
  split; · exact short (by decide)
  split; · exact short (by decide)
  split; · exact short (by decide)
  split
  · rename_i printable
    simpa using printable
  split; · exact number (by decide) 2
  split; · exact number (by decide) 4
  · exact number (by decide) 8

/-- Whatever a text consists of, it is shown in printable characters. -/
theorem isPrintable_of_mem_quoted (text : Text) : ∀ c ∈ quoted text, isPrintable c := by
  have isQuote := isQuote_quoteFor text
  have quote := isPrintable_of_isQuote isQuote
  intro c member
  simp only [quoted, List.cons_append, List.mem_cons, List.mem_append, List.mem_flatMap,
    List.not_mem_nil, or_false] at member
  rcases member with rfl | ⟨d, _, shown⟩ | rfl
  · exact quote
  · exact isPrintable_of_mem_escaped isQuote d c shown
  · exact quote

end MonkeySyntax
