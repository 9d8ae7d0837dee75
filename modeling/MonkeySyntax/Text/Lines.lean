import MonkeySyntax.Text.Decimal

/-!
# Lines of text

Line endings, the lines of an input, and which lines count as blank. `flatten_inputLines` says that
splitting an input into lines loses nothing.
-/

namespace MonkeySyntax

/-- Every carriage return, and every carriage return with its line feed, becomes one line feed. -/
def unifyLineEndings : Text → Text
  | '\r' :: '\n' :: rest => '\n' :: unifyLineEndings rest
  | '\r' :: rest => '\n' :: unifyLineEndings rest
  | c :: rest => c :: unifyLineEndings rest
  | [] => []

/-- The lines of an input, each with the line feed that ends it; only the last may lack one. -/
def inputLines : Text → List Text
  | [] => []
  | '\n' :: rest => ['\n'] :: inputLines rest
  | c :: rest =>
    match inputLines rest with
    | [] => [[c]]
    | line :: lines => (c :: line) :: lines

theorem flatten_inputLines (text : Text) : (inputLines text).flatten = text := by
  fun_induction inputLines text with
  | case1 => rfl
  | case2 rest ih => simp [ih]
  | case3 c rest _ none ih => simp [none] at ih; simp [← ih]
  | case4 c rest _ line lines some ih => simp [some] at ih; simp [← ih]

/-- The white space that makes a line blank: the Unicode spaces and the ASCII separators. -/
def isWhiteSpace (c : Char) : Bool :=
  [(0x09, 0x0d), (0x1c, 0x20), (0x85, 0x85), (0xa0, 0xa0), (0x1680, 0x1680), (0x2000, 0x200a),
    (0x2028, 0x2029), (0x202f, 0x202f), (0x205f, 0x205f), (0x3000, 0x3000)].any
    fun range : Nat × Nat => range.1 ≤ c.toNat && c.toNat ≤ range.2

def withoutEnding (line : Text) : Text :=
  (line.reverse.dropWhile fun c => c = '\r' || c = '\n').reverse

def isBlankLine (line : Text) : Bool := line.all isWhiteSpace

end MonkeySyntax
