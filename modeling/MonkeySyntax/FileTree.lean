import MonkeySyntax.Text.Utf8

/-!
# Files and directories

A tree of files and directories, and the operations that programs use on it with their errors. There
are no permissions, links or devices, and what is written to a file is what is read from it again.
`find?_put` says that an entry that was put is there.
-/

namespace MonkeySyntax

inductive FileFault where
  | missing | alreadyExists | notDirectory | isDirectory | nameTooLong | nulInPath
deriving DecidableEq

structure FileError where
  fault : FileFault
  path : Text
deriving DecidableEq

/-- The number of a fault and its description; a path that holds a NUL never gets as far. -/
def FileFault.numbered? : FileFault → Option (Nat × Text)
  | missing => some (2, "No such file or directory".toList)
  | alreadyExists => some (17, "File exists".toList)
  | notDirectory => some (20, "Not a directory".toList)
  | isDirectory => some (21, "Is a directory".toList)
  | nameTooLong => some (36, "File name too long".toList)
  | nulInPath => none

def FileError.message (e : FileError) : Text :=
  match e.fault.numbered? with
  | some (number, description) =>
    "[Errno ".toList ++ Decimal.ofNat number ++ ']' :: ' ' :: description ++ ':' :: ' ' ::
      quoted e.path
  | none => "embedded null byte".toList

inductive Entry where
  | directory
  | file (content : Bytes)
deriving DecidableEq

/-- Files and directories by the names on the way to them from the root, and the directory where
relative paths start. -/
structure FileTree where
  workingDirectory : List Text := []
  entries : List (List Text × Entry) := []

namespace FileTree

def empty : FileTree where
  workingDirectory := ["work".toList]
  entries := [(["work".toList], .directory)]

/-- What stands at the end of a list of names. The root is always there. -/
def find? (tree : FileTree) : List Text → Option Entry
  | [] => some .directory
  | names => (tree.entries.find? (·.1 == names)).map Prod.snd

/-- The tree with an entry added or replaced. -/
def put (tree : FileTree) (names : List Text) (entry : Entry) : FileTree :=
  { tree with entries := (names, entry) :: tree.entries.filter (·.1 != names) }

theorem find?_put (tree : FileTree) {names : List Text} (entry : Entry) (h : names ≠ []) :
    (tree.put names entry).find? names = some entry := by
  cases names with
  | nil => contradiction
  | cons name names => simp [put, find?]

theorem find?_put_of_ne (tree : FileTree) {names other : List Text} (entry : Entry)
    (h : other ≠ names) : (tree.put names entry).find? other = tree.find? other := by
  cases other with
  | nil => rfl
  | cons name rest =>
    have ne : (names == name :: rest) = false := by simpa using h.symm
    simp only [put, find?, List.find?_cons, ne, List.find?_filter]
    congr 2
    funext pair
    by_cases same : pair.1 = name :: rest
    · simp [same, h]
    · simp [same]

/-! ### Paths -/

/-- Where a path leads: to an entry, or to a name that is free in a directory. A free name may have
a slash behind it. -/
inductive Place where
  | found (names : List Text) (entry : Entry)
  | free (names : List Text) (slash : Bool)

def parts (path : Text) : List Text :=
  path.foldr (fun c parts =>
    if c = '/' then [] :: parts
    else
      match parts with
      | [] => [[c]]
      | part :: rest => (c :: part) :: rest) [[]]

def maxName : Nat := 255
def maxPath : Nat := 4095

/-- Follows the parts of a path from a directory that is given by its names. -/
def follow (tree : FileTree) (names : List Text) : List Text → Except FileFault Place
  | [] =>
    match tree.find? names with
    | some entry => .ok (.found names entry)
    | none => .error .missing
  | part :: rest =>
    match tree.find? names with
    | none => .error .missing
    | some (.file _) => .error .notDirectory
    | some .directory =>
      if part = [] ∨ part = ['.'] then follow tree names rest
      else if part = ['.', '.'] then follow tree names.dropLast rest
      else if (Utf8.encode part).length > maxName then .error .nameTooLong
      else
        match tree.find? (names ++ [part]) with
        | some _ => follow tree (names ++ [part]) rest
        | none =>
          if rest.all List.isEmpty then .ok (.free (names ++ [part]) (!rest.isEmpty))
          else .error .missing

def locate (tree : FileTree) (path : Text) : Except FileFault Place :=
  if path.contains '\x00' then .error .nulInPath
  else if path = [] then .error .missing
  else if (Utf8.encode path).length > maxPath then .error .nameTooLong
  else tree.follow (if path.head? = some '/' then [] else tree.workingDirectory) (parts path)

def entryAt? (tree : FileTree) (path : Text) : Option Entry :=
  match tree.locate path with
  | .ok (.found _ entry) => some entry
  | _ => none

/-- Whether a path leads to a file. Only a path that is too long is an error. -/
def isFile (tree : FileTree) (path : Text) : Except FileError Bool :=
  match tree.locate path with
  | .ok (.found _ (.file _)) => .ok true
  | .error .nameTooLong => .error ⟨.nameTooLong, path⟩
  | _ => .ok false

def isDirectory (tree : FileTree) (path : Text) : Bool := tree.entryAt? path = some .directory

/-! ### Operations -/

def read (tree : FileTree) (path : Text) : Except FileError Bytes :=
  match tree.locate path with
  | .error fault => .error ⟨fault, path⟩
  | .ok (.found _ .directory) => .error ⟨.isDirectory, path⟩
  | .ok (.found _ (.file content)) => .ok content
  | .ok (.free ..) => .error ⟨.missing, path⟩

/-- Changes the content of a file, which is made if its name is free. -/
def modifyFile (tree : FileTree) (path : Text) (change : Bytes → Bytes) :
    Except FileError FileTree :=
  match tree.locate path with
  | .error fault => .error ⟨fault, path⟩
  | .ok (.found _ .directory) | .ok (.free _ true) => .error ⟨.isDirectory, path⟩
  | .ok (.found names (.file content)) => .ok (tree.put names (.file (change content)))
  | .ok (.free names false) => .ok (tree.put names (.file (change [])))

def writeFile (tree : FileTree) (path : Text) (content : Bytes) : Except FileError FileTree :=
  tree.modifyFile path fun _ => content

def appendFile (tree : FileTree) (path : Text) (content : Bytes) : Except FileError FileTree :=
  tree.modifyFile path fun before => before ++ content

def makeDirectory (tree : FileTree) (path : Text) : Except FileError FileTree :=
  match tree.locate path with
  | .error fault => .error ⟨fault, path⟩
  | .ok (.found ..) => .error ⟨.alreadyExists, path⟩
  | .ok (.free names _) => .ok (tree.put names .directory)

/-- A path up to its last slash, and what is behind it. Of slashes at the end of the first part only
those of a path that is all slashes stay. -/
def splitPath (path : Text) : Text × Text :=
  let tail := (path.reverse.takeWhile (· ≠ '/')).reverse
  let front := path.take (path.length - tail.length)
  let trimmed := (front.reverse.dropWhile (· = '/')).reverse
  (if trimmed = [] then front else trimmed, tail)

def directoryOf (path : Text) : Text := (splitPath path).1

/-- Makes a directory and those on the way to it. One that is there already will do, but not a file.
The directories that were made stay when a later one cannot be made. -/
def makeDirectories (tree : FileTree) (path : Text) : Except FileError Unit × FileTree :=
  let (front, last) :=
    if (splitPath path).2 = [] then splitPath (splitPath path).1 else splitPath path
  let make (tree : FileTree) : Except FileError Unit × FileTree :=
    match tree.makeDirectory path with
    | .ok made => (.ok (), made)
    | .error e => if tree.isDirectory path then (.ok (), tree) else (.error e, tree)
  if h : front ≠ [] ∧ last ≠ [] ∧ (tree.entryAt? front).isNone ∧ front.length < path.length then
    have := h.2.2.2
    match tree.makeDirectories front with
    | (.error e, made) =>
      if e.fault = .alreadyExists then
        if last = ['.'] then (.ok (), made) else make made
      else (.error e, made)
    | (.ok (), made) => if last = ['.'] then (.ok (), made) else make made
  else make tree
termination_by path.length

/-- Writes a file in a directory that is made first if it is not there. -/
def saveFile (tree : FileTree) (path : Text) (content : Bytes) :
    Except FileError Unit × FileTree :=
  let (ready, tree) :=
    if directoryOf path = [] then (.ok (), tree) else tree.makeDirectories (directoryOf path)
  match ready with
  | .error e => (.error e, tree)
  | .ok () =>
    match tree.writeFile path content with
    | .ok written => (.ok (), written)
    | .error e => (.error e, tree)

/-- The slashes that a path keeps at its beginning: one of any number but two. -/
def leadingSlashes : Text → Text
  | '/' :: '/' :: '/' :: _ => ['/']
  | '/' :: '/' :: _ => ['/', '/']
  | '/' :: _ => ['/']
  | _ => []

/-- A path without the parts that lead nowhere: empty ones and single points. -/
def plainPath (path : Text) : Text :=
  let kept := (parts path).filter fun part => part ≠ [] && part ≠ ['.']
  if leadingSlashes path = [] ∧ kept = [] then ['.']
  else leadingSlashes path ++ joined ['/'] kept

end FileTree

end MonkeySyntax
