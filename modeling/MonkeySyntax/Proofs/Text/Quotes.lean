import MonkeySyntax.Proofs.Json.Strings
import MonkeySyntax.Proofs.Text.Delimited
import MonkeySyntax.Proofs.Text.Encoding

/-!
# Quoted text read back

A quoted text shows where it ends, and which text it is (`quoted_append_inj`): each character is
read back from how it is shown between quotes. It stays on its line (`lineFeed_notMem_quoted`).
-/

namespace MonkeySyntax

def IsQuote (quote : Char) : Prop := quote = '\'' ∨ quote = '"'

theorem isQuote_quoteFor (text : Text) : IsQuote (quoteFor text) := by
  unfold quoteFor
  split
  · exact .inr rfl
  · exact .inl rfl

/-- How a character is shown between quotes. -/
inductive ShownAs (quote c : Char) : Text → Prop
  | itself : c ≠ '\\' → c ≠ quote → c ≠ '\n' → ShownAs quote c [c]
  | behindBackslash : c = '\\' ∨ c = quote → ShownAs quote c ['\\', c]
  | letter {letter : Char} : (letter, c) ∈ [('n', '\n'), ('r', '\r'), ('t', '\t')] →
      ShownAs quote c ['\\', letter]
  | number {letter : Char} {width : Nat} : (letter, width) ∈ [('x', 2), ('u', 4), ('U', 8)] →
      c.toNat < 16 ^ width → ShownAs quote c ('\\' :: letter :: hexDigits width c.toNat)

theorem shownAs_escaped (quote c : Char) : ShownAs quote c (escaped quote c) := by
  unfold escaped
  split
  · rename_i isSelf
    exact .behindBackslash isSelf
  rename_i notSelf
  obtain ⟨notBackslash, notQuote⟩ := not_or.mp notSelf
  split
  · rename_i isLineFeed
    exact .letter (by simp [isLineFeed])
  rename_i notLineFeed
  split
  · rename_i isReturn
    exact .letter (by simp [isReturn])
  split
  · rename_i isTab
    exact .letter (by simp [isTab])
  split
  · exact .itself notBackslash notQuote notLineFeed
  split
  · rename_i small
    exact .number (by simp) small
  split
  · rename_i basic
    exact .number (by simp) basic
  · have valid := Utf8.toNat_cases c
    exact .number (by simp) (by omega)

/-! ### Reading -/

/-- The character with the number of so many hexadecimal digits, and the text behind them. -/
def readHexChar (width : Nat) (text : Text) : Option (Char × Text) :=
  (Json.hexQuad? (text.take width)).map fun n => (Char.ofNat n, text.drop width)

/-- The first character of a text between quotes, and the text behind it. -/
def readEscaped : Text → Option (Char × Text)
  | '\\' :: 'n' :: rest => some ('\n', rest)
  | '\\' :: 'r' :: rest => some ('\r', rest)
  | '\\' :: 't' :: rest => some ('\t', rest)
  | '\\' :: 'x' :: rest => readHexChar 2 rest
  | '\\' :: 'u' :: rest => readHexChar 4 rest
  | '\\' :: 'U' :: rest => readHexChar 8 rest
  | '\\' :: c :: rest => some (c, rest)
  | c :: rest => some (c, rest)
  | [] => none

variable {quote c : Char}

theorem readHexChar_hexDigits {width : Nat} (fits : c.toNat < 16 ^ width) (rest : Text) :
    readHexChar width (hexDigits width c.toNat ++ rest) = some (c, rest) := by
  have length := length_hexDigits width c.toNat
  rw [readHexChar, List.take_left' length, List.drop_left' length, Json.hexQuad?_hexDigits,
    Nat.mod_eq_of_lt fits, Option.map_some, Char.ofNat_toNat]

theorem readEscaped_plain (notBackslash : c ≠ '\\') (rest : Text) :
    readEscaped (c :: rest) = some (c, rest) := by
  unfold readEscaped
  split <;> simp_all

/-- The quotes and the backslash are none of the letters that mean something else behind a
backslash. -/
theorem readEscaped_behindBackslash (isSelf : c = '\\' ∨ IsQuote c) (rest : Text) :
    readEscaped ('\\' :: c :: rest) = some (c, rest) := by
  rcases isSelf with rfl | rfl | rfl <;> rfl

theorem readEscaped_letter {letter : Char}
    (isLetter : (letter, c) ∈ [('n', '\n'), ('r', '\r'), ('t', '\t')]) (rest : Text) :
    readEscaped ('\\' :: letter :: rest) = some (c, rest) := by
  simp only [List.mem_cons, Prod.mk.injEq, List.not_mem_nil, or_false] at isLetter
  rcases isLetter with ⟨rfl, rfl⟩ | ⟨rfl, rfl⟩ | ⟨rfl, rfl⟩ <;> rfl

theorem readEscaped_number {letter : Char} {width : Nat}
    (isWidth : (letter, width) ∈ [('x', 2), ('u', 4), ('U', 8)]) (rest : Text) :
    readEscaped ('\\' :: letter :: rest) = readHexChar width rest := by
  simp only [List.mem_cons, Prod.mk.injEq, List.not_mem_nil, or_false] at isWidth
  rcases isWidth with ⟨rfl, rfl⟩ | ⟨rfl, rfl⟩ | ⟨rfl, rfl⟩ <;> rfl

theorem ShownAs.readEscaped {text : Text} (shown : ShownAs quote c text) (isQuote : IsQuote quote)
    (rest : Text) : readEscaped (text ++ rest) = some (c, rest) := by
  cases shown with
  | itself notBackslash => exact readEscaped_plain notBackslash rest
  | behindBackslash isSelf =>
    exact readEscaped_behindBackslash (isSelf.imp_right fun same => same ▸ isQuote) rest
  | letter isLetter => exact readEscaped_letter isLetter rest
  | number isWidth fits =>
    exact (readEscaped_number isWidth _).trans (readHexChar_hexDigits fits rest)

theorem delimited_escaped (isQuote : IsQuote quote) : Delimited (escaped quote) fun _ => True := by
  intro c d r s _ _ eq
  have reads := (shownAs_escaped quote c).readEscaped isQuote r
  rw [eq, (shownAs_escaped quote d).readEscaped isQuote s] at reads
  obtain ⟨rfl, rfl⟩ := Prod.mk.inj (Option.some.inj reads)
  exact ⟨rfl, rfl⟩

/-! ### The closing quote and the end of the line -/

theorem ShownAs.ne_quote_cons {text : Text} (shown : ShownAs quote c text)
    (isQuote : IsQuote quote) (rest more : Text) : quote :: rest ≠ text ++ more := by
  have notBackslash : quote ≠ '\\' := by
    rintro rfl
    rcases isQuote with same | same <;> contradiction
  intro eq
  cases shown with
  | itself _ notQuote => exact notQuote (List.cons.inj eq).1.symm
  | behindBackslash | letter | number => exact notBackslash (List.cons.inj eq).1

theorem quoted_append_inj {a b r s : Text} (eq : quoted a ++ r = quoted b ++ s) :
    a = b ∧ r = s := by
  have isQuote := isQuote_quoteFor a
  have ends (rest more : Text) (c : Char) : quoteFor a :: rest ≠ escaped (quoteFor a) c ++ more :=
    (shownAs_escaped (quoteFor a) c).ne_quote_cons isQuote rest more
  simp only [quoted, List.cons_append, List.append_assoc, List.cons.injEq] at eq
  obtain ⟨sameQuote, tails⟩ := eq
  rw [← sameQuote] at tails
  obtain ⟨texts, behind⟩ := (delimited_escaped isQuote).flatMap_append_inj (fun _ _ => trivial)
    (fun _ _ => trivial) (fun c more _ => ends r more c) (fun c more _ => ends s more c) tails
  exact ⟨texts, (List.cons.inj behind).2⟩

theorem lineFeed_notMem_hexDigits (width n : Nat) : '\n' ∉ hexDigits width n := by
  have digits : ∀ d < 16, '\n' ≠ Decimal.digit d := by decide
  induction width generalizing n with
  | zero => exact List.not_mem_nil
  | succ width ih =>
    rw [hexDigits, List.mem_append, List.mem_singleton, not_or]
    exact ⟨ih (n / 16), digits (n % 16) (Nat.mod_lt n (by decide))⟩

theorem ShownAs.lineFeed_notMem {text : Text} (shown : ShownAs quote c text)
    (isQuote : IsQuote quote) : '\n' ∉ text := by
  cases shown with
  | itself _ _ notLineFeed => simpa using notLineFeed.symm
  | behindBackslash isSelf => rcases isSelf with rfl | rfl <;> rcases isQuote with rfl | rfl <;> decide
  | letter isLetter =>
    simp only [List.mem_cons, Prod.mk.injEq, List.not_mem_nil, or_false] at isLetter
    rcases isLetter with ⟨rfl, _⟩ | ⟨rfl, _⟩ | ⟨rfl, _⟩ <;> decide
  | @number letter width isWidth =>
    have digits := lineFeed_notMem_hexDigits width c.toNat
    simp only [List.mem_cons, Prod.mk.injEq, List.not_mem_nil, or_false] at isWidth
    rcases isWidth with ⟨rfl, _⟩ | ⟨rfl, _⟩ | ⟨rfl, _⟩ <;> simpa using digits

theorem lineFeed_notMem_quoted (text : Text) : '\n' ∉ quoted text := by
  have isQuote := isQuote_quoteFor text
  have notQuote : '\n' ≠ quoteFor text := by
    rcases isQuote with same | same <;> rw [same] <;> decide
  have notShown : '\n' ∉ text.flatMap (escaped (quoteFor text)) := by
    rw [List.mem_flatMap]
    rintro ⟨c, _, member⟩
    exact (shownAs_escaped _ c).lineFeed_notMem isQuote member
  simp [quoted, notQuote, notShown]

end MonkeySyntax
