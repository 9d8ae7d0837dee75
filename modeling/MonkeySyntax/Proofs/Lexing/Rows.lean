import MonkeySyntax.Proofs.Text.Quotes

/-!
# Rows of tokens

A dump of tokens has a row for each, and shows every part of it: `dump_eq_iff` says that tokens can
be told from their rows.
-/

namespace MonkeySyntax

namespace Kind

theorem isLetter_of_mem_name (kind : Kind) : ∀ c ∈ kind.name, isLetter c := by
  have all : kind.name.all isLetter := by cases kind <;> decide +kernel
  exact List.all_eq_true.mp all

theorem name_inj {a b : Kind} (eq : a.name = b.name) : a = b :=
  Option.some.inj ((ofName?_name a).symm.trans (eq ▸ ofName?_name b))

end Kind

namespace Token

theorem delimited_row : Delimited row fun _ => True := by
  rintro ⟨kind, literal, line, column⟩ ⟨kind', literal', line', column'⟩ r s _ _ rows
  simp only [row, List.append_assoc, List.cons_append, List.nil_append] at rows
  obtain ⟨rfl, behindLine⟩ := Decimal.ofInt_append_cons_inj rfl rows
  obtain ⟨rfl, behindColumn⟩ := Decimal.ofInt_append_cons_inj rfl behindLine
  obtain ⟨kinds, _, behindKind⟩ := append_cons_inj (Kind.isLetter_of_mem_name kind)
    (Kind.isLetter_of_mem_name kind') rfl rfl behindColumn
  obtain ⟨rfl, behindLiteral⟩ := quoted_append_inj behindKind
  obtain rfl := Kind.name_inj kinds
  exact ⟨rfl, (List.cons.inj behindLiteral).2⟩

theorem count_row (token : Token) : token.row.count '\n' = 1 := by
  have noNumeral (n : Int) : '\n' ∉ Decimal.ofInt n := fun member =>
    absurd (Decimal.isNumeralChar_of_mem_ofInt _ member) (by decide)
  have noName : '\n' ∉ token.kind.name := fun member =>
    absurd (Kind.isLetter_of_mem_name _ _ member) (by decide)
  simp [row, List.count_eq_zero_of_not_mem, noNumeral, noName, lineFeed_notMem_quoted]

/-- Tokens are told from their dump with all their parts, and each has one line there. -/
theorem dump_eq_iff (tokens others : List Token) :
    (dump tokens = dump others ↔ tokens = others) ∧ (dump tokens).count '\n' = tokens.length := by
  have some (token : Token) : token.row ≠ [] := by
    intro empty
    have count := count_row token
    rw [empty] at count
    contradiction
  constructor
  · constructor
    · intro eq
      exact delimited_row.flatMap_inj (fun _ _ => trivial) (fun _ _ => trivial)
        (fun token _ => some token) eq
    · rintro rfl
      rfl
  · induction tokens with
    | nil => rfl
    | cons token tokens ih =>
      have rows : dump (token :: tokens) = token.row ++ dump tokens := List.flatMap_cons
      rw [rows, List.count_append, count_row, ih, List.length_cons, Nat.add_comm]

end Token

end MonkeySyntax
