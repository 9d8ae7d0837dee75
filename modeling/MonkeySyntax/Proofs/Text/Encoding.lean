import Mathlib.Tactic.SplitIfs
import MonkeySyntax.Text.Utf8

/-!
# One encoding for each text

Text is encoded in exactly one way, and the decoder accepts that and nothing else:
`decode_eq_ok_iff` says both.
-/

namespace MonkeySyntax.Utf8

/-! ### First bytes -/

variable {first : UInt8}

theorem sequel_zero (h : first.toNat < 0x80) : sequel first = some (0, 0, 0) := by
  simp [sequel, UInt8.lt_iff_toNat_lt, h]

theorem sequel_one (low : 0xc2 ≤ first.toNat) (high : first.toNat < 0xe0) :
    sequel first = some (1, 0x80, 0xbf) := by
  simp only [sequel, UInt8.lt_iff_toNat_lt, UInt8.reduceToNat]
  rw [if_neg (by omega), if_neg (by omega), if_pos high]

theorem sequel_two (low : 0xe0 ≤ first.toNat) (high : first.toNat < 0xf0) :
    sequel first = some (2, if first.toNat = 0xe0 then 0xa0 else 0x80,
      if first.toNat = 0xed then 0x9f else 0xbf) := by
  simp only [sequel, UInt8.lt_iff_toNat_lt, ← UInt8.toNat_inj, UInt8.reduceToNat]
  split_ifs <;> first | rfl | omega

theorem sequel_three (low : 0xf0 ≤ first.toNat) (high : first.toNat ≤ 0xf4) :
    sequel first = some (3, if first.toNat = 0xf0 then 0x90 else 0x80,
      if first.toNat = 0xf4 then 0x8f else 0xbf) := by
  simp only [sequel, UInt8.lt_iff_toNat_lt, ← UInt8.toNat_inj, UInt8.reduceToNat]
  split_ifs <;> first | rfl | omega

theorem sequel_eq_none (h : 0x80 ≤ first.toNat ∧ first.toNat < 0xc2 ∨ 0xf4 < first.toNat) :
    sequel first = none := by
  simp only [sequel, UInt8.lt_iff_toNat_lt, ← UInt8.toNat_inj, UInt8.reduceToNat]
  split_ifs <;> first | rfl | omega

/-! ### Characters as bytes -/

/-- The bytes of the number of a character: one to four, with six bits in each but the first. -/
inductive Coded (n : Nat) : Bytes → Prop
  | one {a : UInt8} : n < 0x80 → a.toNat = n → Coded n [a]
  | two {a b : UInt8} : 0x80 ≤ n → n < 0x800 → a.toNat = 0xc0 + n / 64 →
      b.toNat = 0x80 + n % 64 → Coded n [a, b]
  | three {a b c : UInt8} : 0x800 ≤ n → n < 0x10000 → a.toNat = 0xe0 + n / 4096 →
      b.toNat = 0x80 + n / 64 % 64 → c.toNat = 0x80 + n % 64 → Coded n [a, b, c]
  | four {a b c d : UInt8} : 0x10000 ≤ n → a.toNat = 0xf0 + n / 262144 →
      b.toNat = 0x80 + n / 4096 % 64 → c.toNat = 0x80 + n / 64 % 64 →
      d.toNat = 0x80 + n % 64 → Coded n [a, b, c, d]

theorem toNat_cases (c : Char) : c.toNat < 0xd800 ∨ 0xdfff < c.toNat ∧ c.toNat < 0x110000 :=
  c.valid

theorem toNat_ofNat {n : Nat} (valid : n.isValidChar) : (Char.ofNat n).toNat = n := by
  rw [Char.ofNat, dif_pos valid]
  rfl

theorem toNat_byte {n : Nat} (h : n < 256) : (UInt8.ofNat n).toNat = n := by
  rw [UInt8.toNat_ofNat']
  omega

theorem coded_encodeChar (c : Char) : Coded c.toNat (encodeChar c) := by
  have bounds := toNat_cases c
  unfold encodeChar
  dsimp only
  split_ifs
  · exact .one (by omega) (toNat_byte (by omega))
  · exact .two (by omega) (by omega) (toNat_byte (by omega)) (toNat_byte (by omega))
  · exact .three (by omega) (by omega) (toNat_byte (by omega)) (toNat_byte (by omega))
      (toNat_byte (by omega))
  · exact .four (by omega) (toNat_byte (by omega)) (toNat_byte (by omega))
      (toNat_byte (by omega)) (toNat_byte (by omega))

theorem Coded.unique {n : Nat} {bytes others : Bytes} (h : Coded n bytes) (h' : Coded n others) :
    bytes = others := by
  cases h <;> cases h' <;>
    first | omega | (simp only [← UInt8.toNat_inj, List.cons.injEq, and_true]; omega)

/-! ### The start of a character -/

variable {rest : Bytes} {c : Char} {width : Nat}

theorem continuation_cons {low high b : UInt8} {missing value : Nat}
    (lowest : low.toNat ≤ b.toNat) (highest : b.toNat ≤ high.toNat) :
    continuation low high (missing + 1) value width (b :: rest) =
      continuation 0x80 0xbf missing (64 * value + b.toNat % 64) (width + 1) rest := by
  simp [continuation, UInt8.le_iff_toNat_le, lowest, highest]

theorem exists_of_continuation {low high : UInt8} {missing value w : Nat}
    (h : continuation low high (missing + 1) value w rest = .complete c width) :
    ∃ b tail, rest = b :: tail ∧ low.toNat ≤ b.toNat ∧ b.toNat ≤ high.toNat ∧
      continuation 0x80 0xbf missing (64 * value + b.toNat % 64) (w + 1) tail =
        .complete c width := by
  cases rest with
  | nil => simp [continuation] at h
  | cons b tail =>
    by_cases bounds : low.toNat ≤ b.toNat ∧ b.toNat ≤ high.toNat
    · rw [continuation_cons bounds.1 bounds.2] at h
      exact ⟨b, tail, rfl, bounds.1, bounds.2, h⟩
    · simp [continuation, UInt8.le_iff_toNat_le, bounds] at h

theorem start_one (low : 0xc2 ≤ first.toNat) (high : first.toNat < 0xe0) :
    start first rest = continuation 0x80 0xbf (0 + 1) (first.toNat % 32) 1 rest := by
  rw [start, sequel_one low high]
  rfl

theorem start_two (low : 0xe0 ≤ first.toNat) (high : first.toNat < 0xf0) :
    start first rest = continuation (if first.toNat = 0xe0 then 0xa0 else 0x80)
      (if first.toNat = 0xed then 0x9f else 0xbf) (1 + 1) (first.toNat % 16) 1 rest := by
  rw [start, sequel_two low high]
  rfl

theorem start_three (low : 0xf0 ≤ first.toNat) (high : first.toNat ≤ 0xf4) :
    start first rest = continuation (if first.toNat = 0xf0 then 0x90 else 0x80)
      (if first.toNat = 0xf4 then 0x8f else 0xbf) (2 + 1) (first.toNat % 8) 1 rest := by
  rw [start, sequel_three low high]
  rfl

theorem start_of_coded {more : Bytes} (coded : Coded c.toNat (first :: more)) :
    start first (more ++ rest) = .complete c (more.length + 1) := by
  have bounds := toNat_cases c
  have made {n : Nat} (h : n = c.toNat) : Char.ofNat n = c := by rw [h, Char.ofNat_toNat]
  cases coded with
  | one high code =>
    rw [start, sequel_zero (by omega)]
    exact congrArg (Start.complete · 1) (made code)
  | two low high code second =>
    rw [start_one (by omega) (by omega), List.cons_append,
      continuation_cons (by rw [second]; exact Nat.le_add_right ..)
        (by simp; omega)]
    exact congrArg (Start.complete · 2) (made (by omega))
  | three low high code second third =>
    rw [start_two (by omega) (by omega), List.cons_append,
      continuation_cons (by split_ifs <;> simp <;> omega) (by split_ifs <;> simp <;> omega),
      List.cons_append, continuation_cons (by simp; omega) (by simp; omega)]
    exact congrArg (Start.complete · 3) (made (by omega))
  | four low code second third fourth =>
    rw [start_three (by omega) (by omega), List.cons_append,
      continuation_cons (by split_ifs <;> simp <;> omega) (by split_ifs <;> simp <;> omega),
      List.cons_append, continuation_cons (by simp; omega) (by simp; omega),
      List.cons_append, continuation_cons (by simp; omega) (by simp; omega)]
    exact congrArg (Start.complete · 4) (made (by omega))

/-- The bytes of a character, and what stands behind them. -/
def Starts (c : Char) (width : Nat) (first : UInt8) (rest : Bytes) : Prop :=
  ∃ more tail, rest = more ++ tail ∧ Coded c.toNat (first :: more) ∧ width = more.length + 1

theorem starts_of_start_one (low : 0xc2 ≤ first.toNat) (high : first.toNat < 0xe0)
    (h : start first rest = .complete c width) : Starts c width first rest := by
  rw [start_one low high] at h
  obtain ⟨b, tail, rfl, lowB, highB, done⟩ := exists_of_continuation h
  obtain ⟨rfl, rfl⟩ := Start.complete.inj done
  simp only [UInt8.reduceToNat] at lowB highB
  have code := toNat_ofNat (n := 64 * (first.toNat % 32) + b.toNat % 64) (.inl (by omega))
  refine ⟨[b], tail, rfl, .two ?_ ?_ ?_ ?_, rfl⟩ <;> rw [code] <;> omega

/-- The second byte is bounded so that the number needs three bytes and is that of no surrogate. -/
theorem starts_of_start_two (low : 0xe0 ≤ first.toNat) (high : first.toNat < 0xf0)
    (h : start first rest = .complete c width) : Starts c width first rest := by
  rw [start_two low high] at h
  obtain ⟨b, tail, rfl, lowB, highB, more⟩ := exists_of_continuation h
  obtain ⟨d, tail, rfl, lowD, highD, done⟩ := exists_of_continuation more
  obtain ⟨rfl, rfl⟩ := Start.complete.inj done
  have lowest : 0x80 ≤ b.toNat ∧ (first.toNat = 0xe0 → 0xa0 ≤ b.toNat) := by
    split_ifs at lowB <;> simp at lowB <;> omega
  have highest : b.toNat ≤ 0xbf ∧ (first.toNat = 0xed → b.toNat ≤ 0x9f) := by
    split_ifs at highB <;> simp at highB <;> omega
  simp only [UInt8.reduceToNat] at lowD highD
  have code := toNat_ofNat
    (n := 64 * (64 * (first.toNat % 16) + b.toNat % 64) + d.toNat % 64) (by
      unfold Nat.isValidChar
      omega)
  refine ⟨[b, d], tail, rfl, .three ?_ ?_ ?_ ?_ ?_, rfl⟩ <;> rw [code] <;> omega

/-- The second byte is bounded so that the number needs four bytes and is that of a character. -/
theorem starts_of_start_three (low : 0xf0 ≤ first.toNat) (high : first.toNat ≤ 0xf4)
    (h : start first rest = .complete c width) : Starts c width first rest := by
  rw [start_three low high] at h
  obtain ⟨b, tail, rfl, lowB, highB, more⟩ := exists_of_continuation h
  obtain ⟨d, tail, rfl, lowD, highD, more⟩ := exists_of_continuation more
  obtain ⟨e, tail, rfl, lowE, highE, done⟩ := exists_of_continuation more
  obtain ⟨rfl, rfl⟩ := Start.complete.inj done
  have lowest : 0x80 ≤ b.toNat ∧ (first.toNat = 0xf0 → 0x90 ≤ b.toNat) := by
    split_ifs at lowB <;> simp at lowB <;> omega
  have highest : b.toNat ≤ 0xbf ∧ (first.toNat = 0xf4 → b.toNat ≤ 0x8f) := by
    split_ifs at highB <;> simp at highB <;> omega
  simp only [UInt8.reduceToNat] at lowD highD lowE highE
  have code := toNat_ofNat
    (n := 64 * (64 * (64 * (first.toNat % 8) + b.toNat % 64) + d.toNat % 64) + e.toNat % 64) (by
      unfold Nat.isValidChar
      omega)
  refine ⟨[b, d, e], tail, rfl, .four ?_ ?_ ?_ ?_ ?_, rfl⟩ <;> rw [code] <;> omega

theorem starts_of_start (h : start first rest = .complete c width) : Starts c width first rest := by
  have ranges : first.toNat < 0x80 ∨ 0xc2 ≤ first.toNat ∧ first.toNat < 0xe0 ∨
      0xe0 ≤ first.toNat ∧ first.toNat < 0xf0 ∨ 0xf0 ≤ first.toNat ∧ first.toNat ≤ 0xf4 ∨
      (0x80 ≤ first.toNat ∧ first.toNat < 0xc2 ∨ 0xf4 < first.toNat) := by omega
  rcases ranges with bound | ⟨low, high⟩ | ⟨low, high⟩ | ⟨low, high⟩ | none
  · rw [start, sequel_zero bound] at h
    obtain ⟨rfl, rfl⟩ := Start.complete.inj h
    have code := toNat_ofNat (n := first.toNat) (.inl (by omega))
    exact ⟨[], rest, rfl, .one (by omega) code.symm, rfl⟩
  · exact starts_of_start_one low high h
  · exact starts_of_start_two low high h
  · exact starts_of_start_three low high h
  · rw [start, sequel_eq_none none] at h
    contradiction

/-! ### Whole texts -/

/-- A last block is decoded character by character. -/
theorem decodeBlock_cons_eq_ok {offset : Nat} {text : Text} {held : Bytes} :
    decodeBlock true offset (first :: rest) = .ok (text, held) ↔
      ∃ c width more, start first rest = .complete c width ∧
        decodeBlock true (offset + width) (rest.drop (width - 1)) = .ok (more, held) ∧
        text = c :: more := by
  rw [decodeBlock]
  constructor
  · intro h
    split at h
    · rename_i c width complete
      split at h
      · rename_i more left block
        cases h
        exact ⟨c, width, more, complete, block, rfl⟩
      · contradiction
    · contradiction
    · split at h <;> contradiction
  · rintro ⟨c, width, more, complete, block, rfl⟩
    rw [complete]
    dsimp only
    rw [block]

theorem decodeBlock_encode (text : Text) (offset : Nat) :
    decodeBlock true offset (encode text) = .ok (text, []) := by
  induction text generalizing offset with
  | nil => rw [encode, List.flatMap_nil, decodeBlock]
  | cons c text ih =>
    have coded := coded_encodeChar c
    rw [encode, List.flatMap_cons]
    cases eq : encodeChar c with
    | nil => rw [eq] at coded; contradiction
    | cons first more =>
      rw [eq] at coded
      refine decodeBlock_cons_eq_ok.mpr ⟨c, _, text, start_of_coded coded, ?_, rfl⟩
      rw [Nat.add_sub_cancel]
      exact (congrArg _ List.drop_left).trans (ih _)

theorem encode_of_decodeBlock {bytes held : Bytes} {offset : Nat} {text : Text}
    (h : decodeBlock true offset bytes = .ok (text, held)) : encode text = bytes := by
  induction text generalizing bytes offset with
  | nil =>
    cases bytes with
    | nil => rfl
    | cons first rest =>
      obtain ⟨c, width, more, _, _, split⟩ := decodeBlock_cons_eq_ok.mp h
      contradiction
  | cons c text ih =>
    cases bytes with
    | nil => rw [decodeBlock] at h; cases h
    | cons first rest =>
      obtain ⟨d, width, more, complete, behind, split⟩ := decodeBlock_cons_eq_ok.mp h
      obtain ⟨rfl, rfl⟩ := List.cons.inj split
      obtain ⟨bytes, tail, rfl, coded, rfl⟩ := starts_of_start complete
      rw [Nat.add_sub_cancel, List.drop_left] at behind
      rw [encode, List.flatMap_cons, (coded_encodeChar c).unique coded, ← encode, ih behind]
      rfl

theorem decode_eq_ok_iff {bytes : Bytes} {text : Text} :
    decode bytes = .ok text ↔ encode text = bytes := by
  constructor
  · intro h
    rw [decode] at h
    cases block : decodeBlock true 0 bytes with
    | error e => rw [block] at h; contradiction
    | ok found =>
      rw [block] at h
      cases h
      exact encode_of_decodeBlock block
  · rintro rfl
    rw [decode, decodeBlock_encode]
    rfl

end MonkeySyntax.Utf8
