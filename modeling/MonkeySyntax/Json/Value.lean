import MonkeySyntax.Decimal.Binary64
import MonkeySyntax.Text.CodePoint

/-!
# JSON values

A JSON value with the members of an object as they are written, and the text that stands for a value
where a text is wanted. `last?_append` says that a later member replaces an earlier one.
-/

namespace MonkeySyntax.Json

/-- A JSON value. An object may have several members of one name. Surrogates may stand alone in its
names and in strings. -/
inductive Value where
  | null
  | bool (value : Bool)
  | integer (value : Int)
  | float (value : Binary64)
  | string (text : RawText)
  | array (values : List Value)
  | object (members : List (RawText × Value))

instance : Inhabited Value := ⟨.null⟩

/-- The member that a name has last. -/
def last? {α : Type} (name : RawText) (members : List (RawText × α)) : Option α :=
  (members.reverse.find? (·.1 == name)).map Prod.snd

theorem last?_append {α : Type} (name : RawText) (members more : List (RawText × α)) :
    last? name (members ++ more) = (last? name more).or (last? name members) := by
  simp only [last?, List.reverse_append, List.find?_append]
  cases List.find? (fun x => x.1 == name) more.reverse <;> simp

/-- Each name once, where it stands first, with what it has last. -/
def merged {α : Type} (members : List (RawText × α)) : List (RawText × α) :=
  ((members.map Prod.fst).eraseDups).filterMap fun name =>
    (last? name members).map fun value => (name, value)

namespace Value

def bracketed (opening closing : Char) (texts : List Text) : Text :=
  opening :: joined [',', ' '] texts ++ [closing]

def wordOf : Bool → Text
  | true => "True".toList
  | false => "False".toList

def nothing : Text := "None".toList

mutual

def inner : Value → Text
  | null => nothing
  | bool value => wordOf value
  | integer value => Decimal.ofInt value
  | float value => value.text
  | string text => quotedRaw text
  | array values => bracketed '[' ']' (innerEach values)
  | object members =>
    bracketed '{' '}' ((merged (innerMembers members)).map fun (name, text) =>
      quotedRaw name ++ ':' :: ' ' :: text)

def innerEach : List Value → List Text
  | [] => []
  | value :: rest => inner value :: innerEach rest

def innerMembers : List (RawText × Value) → List (RawText × Text)
  | [] => []
  | (name, value) :: rest => (name, inner value) :: innerMembers rest

end

/-- The text that stands for a value: a string is its own text. -/
def plain : Value → RawText
  | string text => text
  | value => codePoints value.inner

end Value

end MonkeySyntax.Json
