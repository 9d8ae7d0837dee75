import MonkeySyntax.Parser.Program
import MonkeySyntax.Proofs.Lexing.Items
import MonkeySyntax.Proofs.Parsing.Reads

/-!
# What the turns of a source read and keep

The turns read the items one after another and leave those of their ending. `Judged` says what
becomes of a numeral that is read, and `mem_errors_keep` which problems are kept as errors.
-/

namespace MonkeySyntax.Parser

variable {finish : Position}

/-! ### Numerals -/

/-- A numeral is an integer, is refused because it is too great, or cannot be converted. -/
def Judged (t : Token) (tooGreat tooLong : Prop) : Prop :=
  (t.literal.length ≤ Decimal.maxDigits ∧ Decimal.value t.literal ≤ maxInteger) ∨
    (t.literal.length ≤ Decimal.maxDigits ∧ maxInteger < Decimal.value t.literal ∧ tooGreat) ∨
    (Decimal.maxDigits < t.literal.length ∧ tooLong)

theorem Judged.imp {t : Token} {tooGreat tooLong p q : Prop} (judged : Judged t tooGreat tooLong)
    (great : tooGreat → p) (long : tooLong → q) : Judged t p q := by
  rcases judged with inRange | ⟨short, great', refused⟩ | ⟨long', stopped⟩
  · exact .inl inRange
  · exact .inr (.inl ⟨short, great', great refused⟩)
  · exact .inr (.inr ⟨long', long stopped⟩)

/-- Parsing up to a value or a fault reads a beginning of the items, and judges its numerals. -/
theorem Reads.split {start left : List Item} {fault : Option Fault}
    (reads : Reads finish start fault left) :
    ∃ read, start = read ++ left ∧ ∀ t, .token t ∈ read → t.kind = .int →
      Judged t (fault = some (.problem (.overflow t.literal) t.position))
        (fault = some (.tooLong ⟨t.literal.length⟩)) := by
  induction reads with
  | done => exact ⟨[], rfl, by simp⟩
  | @token t _ _ _ readable _ ih =>
    obtain ⟨read, rfl, judged⟩ := ih
    refine ⟨.token t :: read, rfl, fun u member isInt => ?_⟩
    rcases List.mem_cons.mp member with same | member
    · cases same
      exact .inl (readable isInt)
    · exact judged u member isInt
  | fault stops =>
    cases stops with
    | unexpected | unexpectedEnd | badNameAhead | noOperandAtEnd => exact ⟨[], rfl, by simp⟩
    | badName => exact ⟨[.badName _ _], rfl, by simp⟩
    | noOperand refused =>
      refine ⟨[.token _], rfl, fun u member isInt => ?_⟩
      cases List.mem_singleton.mp member
      rw [isInt] at refused
      contradiction
    | illegal isIllegal =>
      refine ⟨[.token _], rfl, fun u member isInt => ?_⟩
      cases List.mem_singleton.mp member
      rw [isIllegal] at isInt
      contradiction
    | overflow _ short great =>
      refine ⟨[.token _], rfl, fun u member isInt => ?_⟩
      cases List.mem_singleton.mp member
      exact .inr (.inl ⟨short, great, rfl⟩)
    | tooLong _ long =>
      refine ⟨[.token _], rfl, fun u member isInt => ?_⟩
      cases List.mem_singleton.mp member
      exact .inr (.inr ⟨long, rfl⟩)

/-- A fault occurs behind tokens. -/
theorem Reads.stops {start left : List Item} {fault : Option Fault} {met : Fault}
    (reads : Reads finish start fault left) (isFault : fault = some met) :
    ∃ tokens : List Token, ∃ items, start = tokens.map .token ++ items ∧
      Stops finish items met left := by
  induction reads with
  | done => contradiction
  | @token t _ _ _ _ _ ih =>
    obtain ⟨tokens, items, rfl, stops⟩ := ih isFault
    exact ⟨t :: tokens, items, rfl, stops⟩
  | fault stops =>
    obtain rfl := Option.some.inj isFault
    exact ⟨[], _, rfl, stops⟩

theorem reads_of_done {t : Token} {rest left : List Item} {node : Node} {suffix : left <:+ rest}
    (eq : statement finish t rest = .done node left suffix) :
    Reads finish (.token t :: rest) none left := by
  have reads : (statement finish t rest).Reads finish (.token t :: rest) := reads_statement t rest
  rwa [eq] at reads

theorem reads_of_failed {t : Token} {rest left : List Item} {fault : Fault} {suffix : left <:+ rest}
    (eq : statement finish t rest = .failed fault left suffix) :
    Reads finish (.token t :: rest) (some fault) left := by
  have reads : (statement finish t rest).Reads finish (.token t :: rest) := reads_statement t rest
  rwa [eq] at reads

/-! ### Turns -/

/-- What an ending leaves unread. -/
def Ending.unread : Ending → List Item
  | .endOfSource => []
  | .badName _ _ rest | .tooLong _ rest => rest

theorem turns_split (items : List Item) :
    ∃ read, items = read ++ (turns finish items).2.unread ∧
      ∀ t, .token t ∈ read → t.kind = .int →
        Judged t (.problem (.overflow t.literal) t.position ∈ (turns finish items).1)
          ((turns finish items).2 =
            .tooLong ⟨t.literal.length⟩ (turns finish items).2.unread) := by
  fun_induction turns finish items with
  | case1 => exact ⟨[], rfl, by simp⟩
  | case2 literal position rest => exact ⟨[.badName literal position], rfl, by simp⟩
  | case3 t rest node left suffix eq ih =>
    obtain ⟨first, split, judgedFirst⟩ := (reads_of_done eq).split
    obtain ⟨more, behind, judgedMore⟩ := ih
    have whole : .token t :: rest = first ++ more ++ (turns finish left).2.unread := by
      rw [split, List.append_assoc, ← behind]
    refine ⟨first ++ more, whole, fun u member isInt => ?_⟩
    rcases List.mem_append.mp member with member | member
    · exact (judgedFirst u member isInt).imp nofun nofun
    · exact (judgedMore u member isInt).imp (List.mem_cons_of_mem _) id
  | case4 t rest cause position left suffix eq ih =>
    obtain ⟨first, split, judgedFirst⟩ := (reads_of_failed eq).split
    obtain ⟨more, behind, judgedMore⟩ := ih
    have whole : .token t :: rest = first ++ more ++ (turns finish left).2.unread := by
      rw [split, List.append_assoc, ← behind]
    refine ⟨first ++ more, whole, fun u member isInt => ?_⟩
    rcases List.mem_append.mp member with member | member
    · refine (judgedFirst u member isInt).imp (fun refused => ?_) nofun
      obtain ⟨rfl, rfl⟩ := Fault.problem.inj (Option.some.inj refused)
      exact List.mem_cons_self
    · exact (judgedMore u member isInt).imp (List.mem_cons_of_mem _) id
  | case5 t rest numeral left suffix eq =>
    obtain ⟨first, split, judgedFirst⟩ := (reads_of_failed eq).split
    refine ⟨first, split, fun u member isInt => ?_⟩
    refine (judgedFirst u member isInt).imp nofun fun stopped => ?_
    rw [Fault.tooLong.inj (Option.some.inj stopped)]
    rfl

theorem tooGreat_of_mem_turns {items : List Item} {literal : Text} {position : Position}
    (refused : .problem (.overflow literal) position ∈ (turns finish items).1) :
    maxInteger < Decimal.value literal := by
  fun_induction turns finish items with
  | case1 | case2 | case5 => simp at refused
  | case3 _ _ _ _ _ _ ih =>
    rcases List.mem_cons.mp refused with same | refused
    · cases same
    · exact ih refused
  | case4 _ _ _ _ _ _ eq ih =>
    rcases List.mem_cons.mp refused with same | refused
    · obtain ⟨rfl, rfl⟩ := Turn.problem.inj same
      obtain ⟨_, _, _, stops⟩ := (reads_of_failed eq).stops rfl
      cases stops with
      | overflow _ _ great => exact great
    · exact ih refused

/-- Parsing ends at a numeral only right behind it, and only if it is too long. -/
theorem tooLong_of_turns {items : List Item} {numeral : Decimal.TooLong} {rest : List Item}
    (ends : (turns finish items).2 = .tooLong numeral rest) :
    ∃ before t, items = before ++ .token t :: rest ∧ t.kind = .int ∧
      t.literal.length = numeral.digits ∧ Decimal.maxDigits < numeral.digits := by
  fun_induction turns finish items with
  | case1 | case2 => cases ends
  | case3 t rest node left suffix eq ih =>
    obtain ⟨first, split, _⟩ := (reads_of_done eq).split
    obtain ⟨before, u, rfl, found⟩ := ih ends
    exact ⟨first ++ before, u, by rw [split, List.append_assoc], found⟩
  | case4 t rest cause position left suffix eq ih =>
    obtain ⟨first, split, _⟩ := (reads_of_failed eq).split
    obtain ⟨before, u, rfl, found⟩ := ih ends
    exact ⟨first ++ before, u, by rw [split, List.append_assoc], found⟩
  | case5 t rest numeral left suffix eq =>
    cases ends
    obtain ⟨tokens, items, split, stops⟩ := (reads_of_failed eq).stops rfl
    cases stops with
    | tooLong isInt long => exact ⟨tokens.map .token, _, split, isInt, rfl, long⟩

theorem badName_of_turns {items : List Item} {literal : Text} {position : Position}
    {rest : List Item} (ends : (turns finish items).2 = .badName literal position rest) :
    .badName literal position ∈ items := by
  fun_induction turns finish items with
  | case1 | case5 => cases ends
  | case2 =>
    cases ends
    exact List.mem_cons_self
  | case3 _ _ _ _ suffix _ ih | case4 _ _ _ _ _ suffix _ ih =>
    exact List.mem_cons_of_mem _ (suffix.subset (ih ends))

theorem yields_of_mem_turns {items : List Item} {node : Node}
    (member : .statement node ∈ (turns finish items).1) :
    ∃ t inner rest, .token t :: inner <:+ items ∧ (statement finish t inner).Yields node rest := by
  fun_induction turns finish items with
  | case1 | case2 | case5 => simp at member
  | case3 t inner first left suffix eq ih =>
    rcases List.mem_cons.mp member with same | member
    · cases same
      exact ⟨t, inner, left, List.suffix_rfl, suffix, eq⟩
    · obtain ⟨u, after, rest, behind, yields⟩ := ih member
      exact ⟨u, after, rest, (behind.trans suffix).trans (List.suffix_cons ..), yields⟩
  | case4 t inner cause position left suffix eq ih =>
    rcases List.mem_cons.mp member with same | member
    · cases same
    · obtain ⟨u, after, rest, behind, yields⟩ := ih member
      exact ⟨u, after, rest, (behind.trans suffix).trans (List.suffix_cons ..), yields⟩

/-! ### Errors -/

/-- A problem is kept as an error behind the last one, unless it repeats that. -/
theorem keep_problem (last : Option Error) (lexer : Lexer) (cause : Cause) (position : Position)
    (turns : List Turn) : ∃ after : Lexer, after.filename = lexer.filename ∧
      (keep last lexer (.problem cause position :: turns)).errors =
        if repeats last ⟨cause, lexer.filename, position⟩ then (keep last after turns).errors
        else ⟨cause, lexer.filename, position⟩ ::
          (keep (some ⟨cause, lexer.filename, position⟩) after turns).errors := by
  cases cause with
  | badName literal =>
    refine ⟨(lexer.report (.badName literal position)).2, lexer.filename_report _, ?_⟩
    simp only [keep]
    exact apply_ite Kept.errors _ _ _
  | _ =>
    refine ⟨lexer, rfl, ?_⟩
    simp only [keep]
    exact apply_ite Kept.errors _ _ _

theorem mem_statements_keep {node : Node} (last : Option Error) (lexer : Lexer)
    (turns : List Turn) (member : node ∈ (keep last lexer turns).statements) :
    .statement node ∈ turns := by
  induction turns generalizing last lexer with
  | nil => simp [keep] at member
  | cons turn turns ih =>
    cases turn with
    | statement first =>
      rcases List.mem_cons.mp member with rfl | member
      · exact List.mem_cons_self
      · exact List.mem_cons_of_mem _ (ih last lexer member)
    | problem cause position =>
      unfold keep at member
      dsimp only at member
      split at member
      · exact List.mem_cons_of_mem _ (ih _ _ member)
      · exact List.mem_cons_of_mem _ (ih _ _ member)

/-- Only an error that is a bad name can repeat another. -/
theorem not_repeats {last : Option Error} {e : Error}
    (other : ∀ literal, e.cause ≠ .badName literal) : repeats last e = false := by
  unfold repeats
  split
  · exact absurd rfl (other _)
  · rfl

theorem mem_errors_keep {cause : Cause} {position : Position}
    (other : ∀ literal, cause ≠ .badName literal) (last : Option Error) (lexer : Lexer)
    (turns : List Turn) :
    ⟨cause, lexer.filename, position⟩ ∈ (keep last lexer turns).errors ↔
      .problem cause position ∈ turns := by
  induction turns generalizing last lexer with
  | nil => simp [keep]
  | cons turn turns ih =>
    cases turn with
    | statement node => simpa [keep] using ih last lexer
    | problem found place =>
      obtain ⟨after, filename, errors⟩ := keep_problem last lexer found place turns
      have tail := fun last => ih last after
      rw [filename] at tail
      rw [errors]
      split
      · rename_i again
        have different : cause ≠ found := by
          rintro rfl
          rw [not_repeats other] at again
          contradiction
        simp [tail, different]
      · simp [tail]

/-- What is kept behind a bad name at the end ends with an error at its place. -/
theorem getLast?_keep_badName (last : Option Error) (lexer : Lexer) (turns : List Turn)
    (literal : Text) (position : Position) :
    ∃ found filename, (last.toList ++ (keep last lexer
      (turns ++ [.problem (.badName literal) position])).errors).getLast? =
        some ⟨.badName found, filename, position⟩ := by
  induction turns generalizing last lexer with
  | nil =>
    obtain ⟨after, _, errors⟩ := keep_problem last lexer (.badName literal) position []
    rw [List.nil_append, errors]
    -- If it is dropped, the last error before it is a bad name at the same place.
    split
    · rename_i again
      unfold repeats at again
      split at again
      · rename_i same
        cases same
        rw [of_decide_eq_true again]
        exact ⟨_, _, rfl⟩
      · contradiction
    · simp [keep]
  | cons turn turns ih =>
    cases turn with
    | statement node => exact ih last lexer
    | problem cause place =>
      obtain ⟨after, _, errors⟩ := keep_problem last lexer cause place
        (turns ++ [.problem (.badName literal) position])
      rw [List.cons_append, errors]
      split
      · exact ih last after
      · obtain ⟨found, filename, ends⟩ := ih (some ⟨cause, lexer.filename, place⟩) after
        refine ⟨found, filename, ?_⟩
        rw [List.getLast?_append]
        exact (congrArg (Option.or · last.toList.getLast?) ends).trans (Option.some_or ..)

end MonkeySyntax.Parser
