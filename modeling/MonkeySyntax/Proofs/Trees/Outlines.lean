import MonkeySyntax.Proofs.Parsing.Faithful
import MonkeySyntax.Proofs.RoundTrip
import MonkeySyntax.Proofs.Trees.Printing
import MonkeySyntax.Proofs.Trees.Shapes

/-!
# Outlines of parsed programs

An outline of a parsed program shows the program and where its listed nodes stand, and no more:
`outline_eq_iff` says when two programs have the same.
-/

namespace MonkeySyntax

/-! ### Lines -/

/-- The place of a node, as a line shows it. -/
def Position.shown : Option Position → Text
  | none => []
  | some position =>
    if position.line = 0 then []
    else
      " (line ".toList ++ Decimal.ofInt position.line ++ ", column ".toList ++
        Decimal.ofInt position.column ++ [')']

/-- The detail of a node, as a line shows it. -/
def shownDetail (detail : Text) : Text := if detail = [] then [] else ':' :: ' ' :: detail

/-- What a line of an outline shows. -/
structure Row where
  shape : Shape
  place : Option Position

def Row.line (row : Row) : Text :=
  List.replicate (2 * row.shape.depth) ' ' ++
    (row.shape.kind.name ++ (shownDetail row.shape.detail ++ (Position.shown row.place ++ ['\n'])))

/-- A character that goes on with a detail: what stands behind one begins with a blank or ends the
line. -/
def isClear (c : Char) : Bool := c != ' ' && c != '\n'

/-- A row is all in its line: its detail does not look like the text behind it, and its place is
not left out. -/
structure Row.IsPlain (row : Row) : Prop where
  detail : ∀ c ∈ row.shape.detail, isClear c
  place : ∀ position ∈ row.place, position.line ≠ 0

theorem isClear_of_class {p : Char → Bool} (noBlank : p ' ' = false) (noLineFeed : p '\n' = false)
    {c : Char} (inClass : p c) : isClear c := by
  have notBlank : c ≠ ' ' := by
    rintro rfl
    simp [noBlank] at inClass
  have notLineFeed : c ≠ '\n' := by
    rintro rfl
    simp [noLineFeed] at inClass
  simp [isClear, notBlank, notLineFeed]

namespace NodeKind

theorem isLetter_of_mem_name (kind : NodeKind) : ∀ c ∈ kind.name, isLetter c := by
  have letters : kind.name.all isLetter := by cases kind <;> decide +kernel
  exact List.all_eq_true.mp letters

def all : List NodeKind :=
  [.identifier, .integer, .boolean, .unary, .binary, .letStatement, .returnStatement,
    .expressionStatement, .block, .conditional, .function, .call, .program]

theorem find?_name (kind : NodeKind) : all.find? (·.name == kind.name) = some kind := by
  cases kind <;> decide +kernel

theorem name_inj {a b : NodeKind} (eq : a.name = b.name) : a = b :=
  Option.some.inj ((find?_name a).symm.trans (eq ▸ find?_name b))

theorem name_starts (kind : NodeKind) : ∃ text, kind.name = 'M' :: text := by
  cases kind <;> exact ⟨_, rfl⟩

end NodeKind

section

variable {place other : Option Position} {detail otherDetail r s : Text}

theorem shown_stops (place : Option Position) (text : Text) :
    ∀ c ∈ (Position.shown place ++ '\n' :: text).head?, isClear c = false := by
  cases place with
  | none => exact cons_stops text rfl
  | some position =>
    by_cases unknown : position.line = 0 <;> simp [Position.shown, unknown, isClear]

theorem shown_append_inj (known : ∀ position ∈ place, position.line ≠ 0)
    (otherKnown : ∀ position ∈ other, position.line ≠ 0)
    (eq : Position.shown place ++ '\n' :: r = Position.shown other ++ '\n' :: s) :
    place = other ∧ r = s := by
  cases place with
  | none =>
    cases other with
    | none => exact ⟨rfl, (List.cons.inj eq).2⟩
    | some position => simp [Position.shown, otherKnown] at eq
  | some position =>
    cases other with
    | none => simp [Position.shown, known] at eq
    | some otherPosition =>
      simp only [Position.shown, known position rfl, otherKnown otherPosition rfl, if_false,
        List.append_assoc] at eq
      have separator : ", column ".toList = ',' :: " column ".toList := rfl
      rw [separator, List.cons_append, List.cons_append] at eq
      obtain ⟨lines, behindLine⟩ := Decimal.ofInt_append_cons_inj rfl (List.append_cancel_left eq)
      obtain ⟨columns, behindColumn⟩ :=
        Decimal.ofInt_append_cons_inj rfl (List.append_cancel_left behindLine)
      refine ⟨congrArg some (Position.mk.injEq .. ▸ ⟨lines, columns⟩), ?_⟩
      simpa using behindColumn

theorem shownDetail_append_inj (clear : ∀ c ∈ detail, isClear c)
    (otherClear : ∀ c ∈ otherDetail, isClear c) (rStops : ∀ c ∈ r.head?, isClear c = false)
    (sStops : ∀ c ∈ s.head?, isClear c = false)
    (eq : shownDetail detail ++ r = shownDetail otherDetail ++ s) :
    detail = otherDetail ∧ r = s := by
  have noColon {text : Text} (stops : ∀ c ∈ text.head?, isClear c = false) (rest : Text) :
      text ≠ ':' :: rest := by
    rintro rfl
    exact absurd (stops ':' rfl) (by decide)
  by_cases empty : detail = [] <;> by_cases otherEmpty : otherDetail = []
  · exact ⟨empty.trans otherEmpty.symm, by simpa [shownDetail, empty, otherEmpty] using eq⟩
  · rw [shownDetail, shownDetail, if_pos empty, if_neg otherEmpty] at eq
    exact absurd eq (noColon rStops _)
  · rw [shownDetail, shownDetail, if_neg empty, if_pos otherEmpty] at eq
    exact absurd eq.symm (noColon sStops _)
  · rw [shownDetail, shownDetail, if_neg empty, if_neg otherEmpty] at eq
    exact append_inj_of_stops clear otherClear rStops sStops
      (List.cons.inj (List.cons.inj eq).2).2

theorem shownDetail_stops (detail : Text) (stops : ∀ c ∈ r.head?, isClear c = false) :
    ∀ c ∈ (shownDetail detail ++ r).head?, isLetter c = false := by
  intro c isFirst
  by_cases empty : detail = []
  · rw [shownDetail, if_pos empty] at isFirst
    by_contra letter
    have clear : isClear c := isClear_of_class rfl rfl (Bool.eq_true_of_not_eq_false letter)
    rw [stops c isFirst] at clear
    contradiction
  · rw [shownDetail, if_neg empty] at isFirst
    obtain rfl := Option.some.inj isFirst
    rfl

end

theorem Row.delimited_line : Delimited line IsPlain := by
  rintro ⟨⟨depth, kind, detail⟩, place⟩ ⟨⟨depth', kind', detail'⟩, place'⟩ r s plain plain' lines
  simp only [line, List.append_assoc, List.singleton_append] at lines
  obtain ⟨text, starts⟩ := kind.name_starts
  obtain ⟨text', starts'⟩ := kind'.name_starts
  -- The indentation ends at the kind, the kind at a character that is no letter, and the detail at a
  -- blank or with the line.
  have noBlank {text rest : Text} : ∀ c ∈ ('M' :: text ++ rest).head?, (c == ' ') = false := by simp
  obtain ⟨indents, behindIndent⟩ := append_inj_of_stops (p := (· == ' '))
    (fun c member => by simp [List.eq_of_mem_replicate member])
    (fun c member => by simp [List.eq_of_mem_replicate member])
    (starts ▸ noBlank) (starts' ▸ noBlank) lines
  obtain ⟨kinds, behindKind⟩ := append_inj_of_stops kind.isLetter_of_mem_name
    kind'.isLetter_of_mem_name (shownDetail_stops detail (shown_stops place r))
    (shownDetail_stops detail' (shown_stops place' s)) behindIndent
  obtain ⟨details, behindDetail⟩ := shownDetail_append_inj plain.detail plain'.detail
    (shown_stops place r) (shown_stops place' s) behindKind
  obtain ⟨places, rest⟩ := shown_append_inj plain.place plain'.place behindDetail
  have depths := congrArg List.length indents
  simp only [List.length_replicate] at depths
  obtain rfl : depth = depth' := by omega
  obtain rfl := NodeKind.name_inj kinds
  cases details
  cases places
  exact ⟨rfl, rest⟩

/-! ### Outlines -/

namespace Node

def place (node : Node) : Option Position := node.token?.map Token.position

/-- Where the listed nodes of a tree stand. -/
def places (root : Node) : List (Option Position) := root.listed.map fun (_, node) => node.place

/-- What the outline of a tree shows of a listed node. -/
def row (depth : Nat) (node : Node) : Row := ⟨node.shape depth, node.place⟩

def rows (root : Node) : List Row := root.listed.map fun (depth, node) => node.row depth

theorem line_eq (depth : Nat) (node : Node) : node.line depth = (node.row depth).line := by
  rw [line, label, Row.line, row, place, shape]
  cases node.token? <;> simp [shownDetail, Position.shown]

theorem outline_eq_rows (root : Node) : root.outline = root.rows.flatMap Row.line := by
  rw [outline_eq_lines, rows, List.flatMap_map, lines]
  exact List.flatMap_congr fun entry _ => line_eq entry.1 entry.2

theorem rows_eq_iff (a b : Node) :
    a.rows = b.rows ↔ shapes a.listed = shapes b.listed ∧ a.places = b.places := by
  have shapesOf (root : Node) : shapes root.listed = root.rows.map Row.shape := by
    rw [rows, List.map_map]
    rfl
  have placesOf (root : Node) : root.places = root.rows.map Row.place := by
    rw [rows, List.map_map]
    rfl
  have rowsOf (root : Node) : root.rows = List.zipWith Row.mk (shapes root.listed) root.places := by
    rw [shapes, places, List.zipWith_map, List.zipWith_self, rows]
    rfl
  constructor
  · intro same
    rw [shapesOf, shapesOf, placesOf, placesOf, same]
    exact ⟨rfl, rfl⟩
  · rintro ⟨sameShapes, samePlaces⟩
    rw [rowsOf, rowsOf, sameShapes, samePlaces]

theorem outline_eq_iff_rows {a b : Node} (aPlain : ∀ row ∈ a.rows, row.IsPlain)
    (bPlain : ∀ row ∈ b.rows, row.IsPlain) : a.outline = b.outline ↔ a.rows = b.rows := by
  have some (row : Row) : row.line ≠ [] := by simp [Row.line]
  rw [outline_eq_rows, outline_eq_rows]
  constructor
  · exact Row.delimited_line.flatMap_inj aPlain bPlain fun row _ => some row
  · intro same
    rw [same]

/-! ### Parsed programs -/

theorem isClear_of_isName {name : Text} (isAName : isName name) : ∀ c ∈ name, isClear c :=
  fun c member => isClear_of_class rfl rfl (isWordChar_of_isName isAName c member)

theorem isClear_of_spelling (kind : Kind) : ∀ c ∈ kind.spelling, isClear c := by
  have all : kind.spelling.all isClear := by cases kind <;> decide +kernel
  exact List.all_eq_true.mp all

/-- What a line shows of a node of a program does not look like anything else in the line. -/
theorem IsPart.clear {node : Node} (isPart : node.IsPart) : ∀ c ∈ node.detail, isClear c := by
  cases isPart with
  | parameter isParameter =>
    obtain ⟨isAName⟩ := isParameter
    exact isClear_of_isName isAName
  | expression isExpression =>
    cases isExpression with
    | identifier isAName => exact isClear_of_isName isAName
    | integer =>
      exact fun c member => isClear_of_class rfl rfl (Decimal.isNumeralChar_of_mem_ofInt c member)
    | @boolean _ value =>
      have all : (Form.boolean value).all isClear := by cases value <;> rfl
      exact List.all_eq_true.mp all
    | @unary _ kind _ _ _ spelling => exact spelling ▸ isClear_of_spelling kind
    | @binary _ kind _ _ _ _ spelling => exact spelling ▸ isClear_of_spelling kind
    | _ => simp [detail]
  | block isBlock =>
    cases isBlock
    simp [detail]
  | statement isStatement =>
    cases isStatement with
    | bind isAName =>
      rw [detail, render]
      exact isClear_of_isName isAName
    | _ => simp [detail]

theorem IsPart.bindsName {node : Node} (isPart : node.IsPart) : node.BindsName := by
  cases isPart with
  | statement isStatement =>
    cases isStatement with
    | bind => exact ⟨_, _, rfl⟩
    | _ => trivial
  | parameter part | expression part | block part => cases part <;> trivial

theorem IsPart.all {property : Node → Prop} (holds : ∀ node, IsPart node → property node)
    {node : Node} (isPart : node.IsPart) : All property node := by
  induction node using childrenInduction with
  | step node ih =>
    exact .node (holds node isPart) fun child isChild =>
      ih child isChild (isPart.children child isChild)

theorem all_of_isStatement {property : Node → Prop} {statements : List Node}
    (isStatement : ∀ statement ∈ statements, IsStatement statement)
    (holds : ∀ node, IsPart node → property node) (root : property (.program statements)) :
    All property (.program statements) :=
  .node root fun statement member => (IsPart.statement (isStatement statement member)).all holds

end Node

namespace Parser

open Node

section

variable {source other filename otherFilename : Text} {statements others : List Node}

theorem isPlain_of_returns (returns : (parseSource source filename).outcome = .ok statements) :
    ∀ row ∈ (program statements).rows, row.IsPlain := by
  have isStatement := isStatement_of_returns returns
  have clear : All (fun node => ∀ c ∈ node.detail, isClear c) (program statements) :=
    all_of_isStatement isStatement (fun _ isPart => isPart.clear) (by simp [detail])
  intro row member
  obtain ⟨⟨depth, node⟩, isListed, rfl⟩ := List.mem_map.mp member
  have inPreorder := mem_preorderFrom_of_mem_listedFrom isListed
  refine ⟨clear.of_mem_preorderFrom inPreorder, ?_⟩
  intro position isPlace
  rcases Nat.eq_zero_or_pos depth with rfl | below
  · rw [eq_of_mem_preorder inPreorder] at isPlace
    contradiction
  · obtain ⟨t, own, meets, _⟩ := (parseSource_faithful returns).tokens depth node inPreorder below
    simp only [row, place, own, Option.map_some, Option.mem_some] at isPlace
    obtain rfl := isPlace
    have line_pos : 1 ≤ t.position.line := meets.line_pos
    omega

theorem bindsName_of_returns (returns : (parseSource source filename).outcome = .ok statements) :
    All BindsName (program statements) :=
  all_of_isStatement (isStatement_of_returns returns) (fun _ isPart => isPart.bindsName) trivial

/-- Two parsed programs have the same outline just if they are the same and their listed nodes stand
at the same places, whatever has been printed before. -/
theorem outline_eq_iff (returns : (parseSource source filename).outcome = .ok statements)
    (returnsOther : (parseSource other otherFilename).outcome = .ok others)
    (printer another : Printer) :
    (printer.format (program statements)).1 = (another.format (program others)).1 ↔
      (program statements).same (program others) ∧
        (program statements).places = (program others).places := by
  rw [Printer.format_eq_outline, Printer.format_eq_outline,
    outline_eq_iff_rows (isPlain_of_returns returns) (isPlain_of_returns returnsOther), rows_eq_iff,
    ← same_iff_shapes (bindsName_of_returns returns) (bindsName_of_returns returnsOther)]

end

/-- Where a name that is bound stands does not show, nor does an error behind the statement. -/
theorem outline_eq_iff_spaced :
    let bound (column : Int) : Node := .letStatement ⟨.letKeyword, "let".toList, ⟨1, 1⟩⟩
      (.identifier ⟨.ident, ['a'], ⟨1, column⟩⟩ ['a']) (.integer ⟨.int, ['1'], ⟨1, 9⟩⟩ 1)
    (parseSource "let a = 1; )".toList Lexer.defaultFilename).outcome = .ok [bound 5] ∧
      (parseSource "let  a= 1;".toList Lexer.defaultFilename).outcome = .ok [bound 6] ∧
      (Printer.format {} (program [bound 5])).1 = (Printer.format {} (program [bound 6])).1 := by
  intro bound
  have returns :
      (parseSource "let a = 1; )".toList Lexer.defaultFilename).outcome = .ok [bound 5] := by cbv
  have returnsOther :
      (parseSource "let  a= 1;".toList Lexer.defaultFilename).outcome = .ok [bound 6] := by cbv
  refine ⟨returns, returnsOther, (outline_eq_iff returns returnsOther {} {}).mpr ⟨?_, ?_⟩⟩
  · rfl
  · simp [places, listed, listedFrom_eq, shownChildren, children, place, token?, bound]

end Parser

end MonkeySyntax
