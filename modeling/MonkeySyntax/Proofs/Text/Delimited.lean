import MonkeySyntax.Proofs.Lexing.Spellings
import MonkeySyntax.Token

/-!
# Texts that show where they end

Pieces of text that cannot be confused with one another, whatever stands behind them. A text that is
made of such pieces shows which ones it is made of (`Delimited.flatMap_inj`).
-/

namespace MonkeySyntax

/-- The pieces of some things show where they end, and which of the things they belong to. -/
def Delimited {α : Type} (piece : α → Text) (among : α → Prop) : Prop :=
  ∀ ⦃a b : α⦄ ⦃r s : Text⦄, among a → among b → piece a ++ r = piece b ++ s → a = b ∧ r = s

namespace Delimited

variable {α : Type} {piece : α → Text} {among : α → Prop} {xs ys : List α} {r s : Text}

/-- Pieces in a row, before texts that begin with none of them. -/
theorem flatMap_append_inj (delimited : Delimited piece among) (xsAmong : ∀ x ∈ xs, among x)
    (ysAmong : ∀ y ∈ ys, among y) (rEnds : ∀ a t, among a → r ≠ piece a ++ t)
    (sEnds : ∀ a t, among a → s ≠ piece a ++ t)
    (eq : xs.flatMap piece ++ r = ys.flatMap piece ++ s) : xs = ys ∧ r = s := by
  induction xs generalizing ys with
  | nil =>
    cases ys with
    | nil => exact ⟨rfl, eq⟩
    | cons y ys =>
      rw [List.flatMap_cons, List.append_assoc] at eq
      exact absurd eq (rEnds y _ (ysAmong y List.mem_cons_self))
  | cons x xs ih =>
    obtain ⟨first, others⟩ := List.forall_mem_cons.mp xsAmong
    cases ys with
    | nil =>
      rw [List.flatMap_cons, List.append_assoc] at eq
      exact absurd eq.symm (sEnds x _ first)
    | cons y ys =>
      obtain ⟨firstOther, othersToo⟩ := List.forall_mem_cons.mp ysAmong
      simp only [List.flatMap_cons, List.append_assoc] at eq
      obtain ⟨rfl, tails⟩ := delimited first firstOther eq
      obtain ⟨rfl, behind⟩ := ih others othersToo tails
      exact ⟨rfl, behind⟩

theorem flatMap_inj (delimited : Delimited piece among) (xsAmong : ∀ x ∈ xs, among x)
    (ysAmong : ∀ y ∈ ys, among y) (some : ∀ a, among a → piece a ≠ [])
    (eq : xs.flatMap piece = ys.flatMap piece) : xs = ys := by
  have ends : ∀ a t, among a → [] ≠ piece a ++ t := by
    intro a t isAmong empty
    exact some a isAmong (List.append_eq_nil_iff.mp empty.symm).1
  have eq : xs.flatMap piece ++ [] = ys.flatMap piece ++ [] := congrArg (· ++ []) eq
  exact (delimited.flatMap_append_inj xsAmong ysAmong ends ends eq).1

end Delimited

/-- Characters of one class, each run before something else. -/
theorem append_inj_of_stops {p : Char → Bool} {x y r s : Text} (xAll : ∀ c ∈ x, p c)
    (yAll : ∀ c ∈ y, p c) (rStops : ∀ c ∈ r.head?, p c = false) (sStops : ∀ c ∈ s.head?, p c = false)
    (eq : x ++ r = y ++ s) : x = y ∧ r = s := by
  obtain ⟨xTaken, xLeft⟩ := takeWhile_append_of_stop xAll rStops
  obtain ⟨yTaken, yLeft⟩ := takeWhile_append_of_stop yAll sStops
  rw [eq] at xTaken xLeft
  exact ⟨xTaken.symm.trans yTaken, xLeft.symm.trans yLeft⟩

theorem cons_stops {p : Char → Bool} {c : Char} (text : Text) (stops : p c = false) :
    ∀ d ∈ (c :: text).head?, p d = false := by
  simpa using stops

theorem append_cons_inj {p : Char → Bool} {x y r s : Text} {c d : Char} (xAll : ∀ c ∈ x, p c)
    (yAll : ∀ c ∈ y, p c) (cStops : p c = false) (dStops : p d = false)
    (eq : x ++ c :: r = y ++ d :: s) : x = y ∧ c = d ∧ r = s := by
  obtain ⟨same, tails⟩ :=
    append_inj_of_stops xAll yAll (cons_stops r cStops) (cons_stops s dStops) eq
  exact ⟨same, List.cons.inj tails⟩

/-! ### Numerals -/

namespace Decimal

/-- A digit or the sign of a numeral. -/
def isNumeralChar (c : Char) : Bool := isDigit c || c == '-'

theorem isNumeralChar_of_mem_ofInt {n : Int} : ∀ c ∈ ofInt n, isNumeralChar c := by
  intro c member
  cases n with
  | ofNat n => simp [isNumeralChar, isDigit_of_mem_ofNat c member]
  | negSucc n =>
    rcases List.mem_cons.mp member with rfl | member
    · rfl
    · simp [isNumeralChar, isDigit_of_mem_ofNat c member]

theorem ofNat_inj {m n : Nat} (eq : ofNat m = ofNat n) : m = n := by
  rw [← value_ofNat m, eq, value_ofNat]

theorem ofNat_ne_cons_minus (n : Nat) (text : Text) : ofNat n ≠ '-' :: text := by
  intro eq
  have digit : isDigit '-' := isDigit_of_mem_ofNat (n := n) '-' (eq ▸ List.mem_cons_self)
  contradiction

theorem ofInt_inj {m n : Int} (eq : ofInt m = ofInt n) : m = n := by
  cases m with
  | ofNat m =>
    cases n with
    | ofNat n => rw [ofNat_inj eq]
    | negSucc n => exact absurd eq (ofNat_ne_cons_minus m _)
  | negSucc m =>
    cases n with
    | ofNat n => exact absurd eq.symm (ofNat_ne_cons_minus n _)
    | negSucc n =>
      have same : m + 1 = n + 1 := ofNat_inj (List.cons.inj eq).2
      rw [Nat.succ_inj.mp same]

/-- A number before a character that cannot go on with its numeral. -/
theorem ofInt_append_cons_inj {m n : Int} {c : Char} {r s : Text} (stops : isNumeralChar c = false)
    (eq : ofInt m ++ c :: r = ofInt n ++ c :: s) : m = n ∧ r = s := by
  obtain ⟨numerals, _, tails⟩ := append_cons_inj isNumeralChar_of_mem_ofInt
    isNumeralChar_of_mem_ofInt stops stops eq
  exact ⟨ofInt_inj numerals, tails⟩

end Decimal

end MonkeySyntax
