import MonkeySyntax.Proofs.Json.Read
import MonkeySyntax.Proofs.Settings.Refused

/-!
# Settings from an object

A file with a JSON object gives settings that depend on the last values of the four known names and
on nothing else that is written in it: `load_onlyLast`. Values are the same if they have the same
`normal` form, in which no object has a name twice.
-/

namespace MonkeySyntax

namespace Json

/-! ### Names that stand once -/

theorem eraseDups_eraseDups (names : List RawText) :
    names.eraseDups.eraseDups = names.eraseDups := by
  match names with
  | [] => rfl
  | name :: names =>
    have others : (names.filter fun other => !other == name).eraseDups.filter
        (fun other => !other == name) = (names.filter fun other => !other == name).eraseDups := by
      refine List.filter_eq_self.mpr fun other member => ?_
      exact (List.mem_filter.mp (List.mem_eraseDups.mp member)).2
    rw [List.eraseDups_cons, List.eraseDups_cons, others, eraseDups_eraseDups]
termination_by names.length
decreasing_by exact Nat.lt_succ_of_le (List.length_filter_le _ names)

section

variable {α β : Type}

theorem last?_map (f : α → β) (name : RawText) (members : List (RawText × α)) :
    last? name (members.map fun (name, value) => (name, f value)) = (last? name members).map f := by
  simp only [last?, ← List.map_reverse, List.find?_map, Option.map_map]
  rfl

theorem last?_eq_none_iff {name : RawText} {members : List (RawText × α)} :
    last? name members = none ↔ name ∉ members.map Prod.fst := by
  rw [last?, Option.map_eq_none_iff, List.find?_eq_none]
  simp only [List.mem_reverse, beq_iff_eq, List.mem_map, not_exists, not_and]

theorem mem_of_last? {name : RawText} {members : List (RawText × α)} {value : α}
    (last : last? name members = some value) : (name, value) ∈ members := by
  obtain ⟨member, found, rfl⟩ := Option.map_eq_some_iff.mp last
  have same : member.1 = name := by simpa using List.find?_some found
  exact same ▸ List.mem_reverse.mp (List.mem_of_find?_eq_some found)

theorem merged_map (f : α → β) (members : List (RawText × α)) :
    merged (members.map fun (name, value) => (name, f value)) =
      (merged members).map fun (name, value) => (name, f value) := by
  simp only [merged, List.map_map, List.map_filterMap, last?_map, Option.map_map]
  rfl

theorem names_merged (members : List (RawText × α)) :
    (merged members).map Prod.fst = (members.map Prod.fst).eraseDups := by
  rw [merged, List.map_filterMap]
  refine (List.filterMap_congr fun name member => ?_).trans List.filterMap_some
  cases last : last? name members with
  | none => exact absurd (List.mem_eraseDups.mp member) (last?_eq_none_iff.mp last)
  | some value => rfl

theorem last?_merged (name : RawText) (members : List (RawText × α)) :
    last? name (merged members) = last? name members := by
  cases last : last? name (merged members) with
  | none =>
    rw [last?_eq_none_iff, names_merged, List.mem_eraseDups] at last
    exact (last?_eq_none_iff.mpr last).symm
  | some value =>
    obtain ⟨other, _, found⟩ := List.mem_filterMap.mp (mem_of_last? last)
    obtain ⟨value, found, same⟩ := Option.map_eq_some_iff.mp found
    cases same
    exact found.symm

theorem merged_merged (members : List (RawText × α)) :
    merged (merged members) = merged members := by
  rw [merged, names_merged, eraseDups_eraseDups]
  simp only [last?_merged]
  rfl

end

namespace Value

mutual

/-- A value with each name of an object once, where it stands first, with what it has last. -/
def normal : Value → Value
  | array values => array (normalEach values)
  | object members => object (merged (normalMembers members))
  | value => value

def normalEach : List Value → List Value
  | [] => []
  | value :: rest => normal value :: normalEach rest

def normalMembers : List (RawText × Value) → List (RawText × Value)
  | [] => []
  | (name, value) :: rest => (name, normal value) :: normalMembers rest

end

theorem normalMembers_eq (members : List (RawText × Value)) :
    normalMembers members = members.map fun (name, value) => (name, value.normal) := by
  induction members with
  | nil => rfl
  | cons member members ih => rw [normalMembers, ih, List.map_cons]

theorem innerMembers_eq (members : List (RawText × Value)) :
    innerMembers members = members.map fun (name, value) => (name, value.inner) := by
  induction members with
  | nil => rfl
  | cons member members ih => rw [innerMembers, ih, List.map_cons]

mutual

theorem inner_normal : (v : Value) → v.normal.inner = v.inner
  | null | bool _ | integer _ | float _ | string _ => rfl
  | array values => by rw [normal, inner, inner, innerEach_normalEach values]
  | object members => by
    have once : merged (innerMembers (merged (normalMembers members))) =
        merged (innerMembers members) := by
      rw [innerMembers_eq, ← merged_map, merged_merged, ← innerMembers_eq,
        innerMembers_normalMembers members]
    rw [normal, inner, inner, once]

theorem innerEach_normalEach : (values : List Value) →
    innerEach (normalEach values) = innerEach values
  | [] => rfl
  | value :: rest => by
    rw [normalEach, innerEach, innerEach, inner_normal value, innerEach_normalEach rest]

theorem innerMembers_normalMembers : (members : List (RawText × Value)) →
    innerMembers (normalMembers members) = innerMembers members
  | [] => rfl
  | (name, value) :: rest => by
    rw [normalMembers, innerMembers, innerMembers, inner_normal value,
      innerMembers_normalMembers rest]

end

theorem plain_normal (v : Value) : v.normal.plain = v.plain := by
  cases v with
  | null | bool | integer | float | string => rfl
  | array values => exact congrArg codePoints (inner_normal (array values))
  | object members => exact congrArg codePoints (inner_normal (object members))

end Value

end Json

namespace Settings

open Json (last?)

/-! ### Known names -/

/-- Two objects have the same values last for the known names, or both have none. An object in a
value has the last of what its own names have. -/
def SameLast (members others : List (RawText × Json.Value)) : Prop :=
  ∀ name ∈ [promptKey, filenameKey, showFaceKey, logLevelKey],
    (last? (codePoints name) members).map Json.Value.normal =
      (last? (codePoints name) others).map Json.Value.normal

/-- What settings have from the last values of the known names, or else by default. -/
structure TakenFrom (members : List (RawText × Json.Value)) (settings : Loaded) : Prop where
  prompt : settings.prompt =
    match last? (codePoints promptKey) members with
    | some value => value.plain
    | none => codePoints ({} : Settings).prompt
  filename : settings.filename =
    match last? (codePoints filenameKey) members with
    | some value => value.plain
    | none => codePoints ({} : Settings).filename
  /-- Nothing but a boolean counts, whatever the name had before. -/
  showFace : settings.showFace =
    match last? (codePoints showFaceKey) members with
    | some (.bool flag) => flag
    | _ => ({} : Settings).showFace
  logLevel : settings.logLevel =
    match last? (codePoints logLevelKey) members with
    | some value => upperRaw value.plain
    | none => codePoints ({} : Settings).logLevel

theorem takenFrom_ofMembers (members : List (RawText × Json.Value)) :
    TakenFrom members (ofMembers members) where
  prompt := rfl
  filename := rfl
  showFace := rfl
  logLevel := by
    show upperRaw (textOr _ logLevelKey members) = _
    unfold textOr
    cases last? (codePoints logLevelKey) members with
    | some value => rfl
    | none =>
      have isUpper : upper ({} : Settings).logLevel = ({} : Settings).logLevel := by
        rw [upper_of_ascii (by simp)]
        rfl
      exact (upperRaw_codePoints _).trans (congrArg codePoints isUpper)

theorem textOr_normalMembers (fallback : RawText) (name : Text)
    (members : List (RawText × Json.Value)) :
    textOr fallback name (Json.Value.normalMembers members) = textOr fallback name members := by
  rw [textOr, textOr, Json.Value.normalMembers_eq, Json.last?_map]
  cases last? (codePoints name) members with
  | none => rfl
  | some value => exact value.plain_normal

theorem ofMembers_normalMembers (members : List (RawText × Json.Value)) :
    ofMembers (Json.Value.normalMembers members) = ofMembers members := by
  simp only [ofMembers, textOr_normalMembers]
  congr 1
  rw [Json.Value.normalMembers_eq, Json.last?_map]
  cases last? (codePoints showFaceKey) members with
  | none => rfl
  | some value => cases value <;> rfl

theorem ofMembers_of_sameLast {members others : List (RawText × Json.Value)}
    (same : SameLast members others) : ofMembers members = ofMembers others := by
  rw [← ofMembers_normalMembers members, ← ofMembers_normalMembers others]
  refine ofMembers_congr fun name known => ?_
  rw [Json.Value.normalMembers_eq, Json.Value.normalMembers_eq, Json.last?_map, Json.last?_map]
  exact same name known

/-! ### Files with an object -/

/-- A file holds a JSON object with the given members, however it is written. -/
def HoldsObject (files : FileTree) (path : Text) (members : List (RawText × Json.Value)) : Prop :=
  ∃ written, files.read path = .ok (Utf8.encode written) ∧
    Json.Grammar.TextOf written (.object members)

section

variable {files : FileTree} {path : Text} {members : List (RawText × Json.Value)}

theorem load_of_holdsObject (holds : HoldsObject files path members) :
    load files path = .ok (ofMembers members) ∨
      ∃ numeral, load files path = .error (.malformed (.tooLong numeral)) := by
  obtain ⟨written, found, isText⟩ := holds
  have holds : Holds files path (unifyLineEndings written) := ⟨written, found, rfl⟩
  rw [load_of_holds holds]
  rcases Json.read_of_textOf isText.unified with read | ⟨numeral, read⟩
  · rw [read]
    exact .inl rfl
  · rw [read]
    exact .inr ⟨numeral, rfl⟩

theorem ofMembers_of_load {settings : Loaded} (holds : HoldsObject files path members)
    (loaded : load files path = .ok settings) : settings = ofMembers members := by
  rcases load_of_holdsObject holds with read | ⟨numeral, failed⟩
  · exact Except.ok.inj (loaded.symm.trans read)
  · rw [failed] at loaded
    contradiction

end

/-- What the settings from a file with an object depend on. -/
structure OnlyLast (files : FileTree) (path : Text) (members : List (RawText × Json.Value)) :
    Prop where
  /-- Nothing but a numeral that is too long keeps the settings from being loaded. -/
  returns : (∃ settings, load files path = .ok settings) ∨
    ∃ numeral, load files path = .error (.malformed (.tooLong numeral))
  taken {settings : Loaded} : load files path = .ok settings → TakenFrom members settings
  /-- Another file with the same last values gives the same settings. -/
  same {others : FileTree} {other : Text} {otherMembers : List (RawText × Json.Value)}
    {settings otherSettings : Loaded} :
    HoldsObject others other otherMembers → SameLast members otherMembers →
    load files path = .ok settings → load others other = .ok otherSettings →
    settings = otherSettings

theorem load_onlyLast {files : FileTree} {path : Text} {members : List (RawText × Json.Value)}
    (holds : HoldsObject files path members) : OnlyLast files path members where
  returns := (load_of_holdsObject holds).imp (fun loaded => ⟨_, loaded⟩) id
  taken := fun loaded => by
    rw [ofMembers_of_load holds loaded]
    exact takenFrom_ofMembers members
  same := fun otherHolds sameLast loaded otherLoaded => by
    rw [ofMembers_of_load holds loaded, ofMembers_of_load otherHolds otherLoaded]
    exact ofMembers_of_sameLast sameLast

/-- Names and strings with escapes and without, in another order, with a line ending of two
characters and a name that is not known. A boolean that is not the last does not count. No surrogate
counts as another one. -/
theorem load_onlyLast_of_escapes :
    let written :=
      '{' :: r#""prompt": "$\ud800", "show_face": false, "show_face": 0"#.toList ++ ['}']
    let prompt : RawText := [.char '$', .surrogate 0]
    let members : List (RawText × Json.Value) := [
      (codePoints promptKey, .string prompt), (codePoints showFaceKey, .bool false),
      (codePoints showFaceKey, .integer 0)]
    let other := '{' :: '\r' :: '\n' ::
      r#""show_face" :-0,"x":[[],null],"\u0070rompt":"$\udfff","promp\u0074" :"\u0024\uD800""#.toList
        ++ ['}']
    let others : List (RawText × Json.Value) := [
      (codePoints showFaceKey, .integer 0), (codePoints ['x'], .array [.array [], .null]),
      (codePoints promptKey, .string [.char '$', .surrogate 0x7ff]),
      (codePoints promptKey, .string prompt)]
    let path := "s.json".toList
    let file := Cli.settingsFile (Utf8.encode written)
    let otherFile := Cli.settingsFile (Utf8.encode other)
    HoldsObject file path members ∧ HoldsObject otherFile path others ∧ SameLast members others ∧
      OnlyLast file path members ∧
      ∃ settings, load file path = .ok settings ∧ load otherFile path = .ok settings ∧
        settings.prompt = prompt ∧ settings.showFace = true := by
  intro written prompt members other others path file otherFile
  have holds : HoldsObject file path members := by
    refine ⟨written, rfl, Json.textOf_of_read ?_⟩
    dsimp only [written, members]
    cbv
  have otherHolds : HoldsObject otherFile path others := by
    refine ⟨other, rfl, Json.textOf_of_read ?_⟩
    dsimp only [other, others]
    cbv
  have same : SameLast members others := by
    simp only [SameLast, List.forall_mem_cons]
    exact ⟨rfl, rfl, rfl, rfl, fun _ unknown => absurd unknown List.not_mem_nil⟩
  have onlyLast := load_onlyLast holds
  have loaded : load file path = .ok (ofMembers members) := by
    have read : Json.read (unifyLineEndings written) = .ok (.object members) := by
      dsimp only [written, members]
      cbv
    rw [load_of_holds ⟨written, rfl, rfl⟩, read]
  have otherLoaded : load otherFile path = .ok (ofMembers others) := by
    have read : Json.read (unifyLineEndings other) = .ok (.object others) := by
      dsimp only [other, others]
      cbv
    rw [load_of_holds ⟨other, rfl, rfl⟩, read]
  refine ⟨holds, otherHolds, same, onlyLast, ofMembers members, loaded, ?_, ?_⟩
  · rw [onlyLast.same otherHolds same loaded otherLoaded, otherLoaded]
  · exact ⟨(onlyLast.taken loaded).prompt, (onlyLast.taken loaded).showFace⟩

end Settings

end MonkeySyntax
