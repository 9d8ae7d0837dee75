import MonkeySyntax.FileTree

/-!
# Files that were written

A file is read back as it was written: `read_of_saveFile`. Writing does not change where paths lead,
since they lead through directories alone.
-/

namespace MonkeySyntax.FileTree

variable {tree after : FileTree} {names : List Text} {place : Place}

/-! ### Where parts lead -/

/-- A part of a path that is a name, and not too long for one. -/
structure IsName (part : Text) : Prop where
  goes : ¬ (part = [] ∨ part = ['.'])
  down : ¬ part = ['.', '.']
  short : ¬ (Utf8.encode part).length > maxName

/-- Parts lead from a directory to a place, step by step. -/
inductive Leads (tree : FileTree) : List Text → List Text → Place → Prop
  | here {start : List Text} {entry : Entry} : tree.find? start = some entry →
      Leads tree start [] (.found start entry)
  | stay {start rest : List Text} {part : Text} {place : Place} :
      tree.find? start = some .directory → part = [] ∨ part = ['.'] →
      Leads tree start rest place → Leads tree start (part :: rest) place
  | parent {start rest : List Text} {place : Place} : tree.find? start = some .directory →
      Leads tree start.dropLast rest place → Leads tree start (['.', '.'] :: rest) place
  | name {start rest : List Text} {part : Text} {entry : Entry} {place : Place} :
      tree.find? start = some .directory → IsName part →
      tree.find? (start ++ [part]) = some entry → Leads tree (start ++ [part]) rest place →
      Leads tree start (part :: rest) place
  | free {start rest : List Text} {part : Text} : tree.find? start = some .directory →
      IsName part → tree.find? (start ++ [part]) = none → rest.all List.isEmpty →
      Leads tree start (part :: rest) (.free (start ++ [part]) (!rest.isEmpty))

theorem leads_of_follow {start path : List Text} (follows : tree.follow start path = .ok place) :
    Leads tree start path place := by
  induction path generalizing start with
  | nil =>
    rw [follow] at follows
    split at follows
    · cases follows
      exact .here ‹_›
    · contradiction
  | cons part rest ih =>
    rw [follow] at follows
    split at follows
    · contradiction
    · contradiction
    split at follows
    · exact .stay ‹_› ‹_› (ih follows)
    split at follows
    · rename_i isParent
      subst isParent
      exact .parent ‹_› (ih follows)
    split at follows
    · contradiction
    split at follows
    · exact .name ‹_› ⟨‹_›, ‹_›, ‹_›⟩ ‹_› (ih follows)
    · split at follows
      · cases follows
        exact .free ‹_› ⟨‹_›, ‹_›, ‹_›⟩ ‹_› ‹_›
      · contradiction

theorem follow_of_leads {start path : List Text} (leads : Leads tree start path place) :
    tree.follow start path = .ok place := by
  induction leads with
  | here found => rw [follow, found]
  | stay directory stays _ ih =>
    rw [follow, directory]
    exact (if_pos stays).trans ih
  | parent directory _ ih =>
    rw [follow, directory]
    exact ih
  | name directory isName found _ ih =>
    rw [follow, directory]
    dsimp only
    rw [if_neg isName.goes, if_neg isName.down, if_neg isName.short, found]
    exact ih
  | free directory isName none empty =>
    rw [follow, directory]
    dsimp only
    rw [if_neg isName.goes, if_neg isName.down, if_neg isName.short, none]
    exact if_pos empty

/-! ### Writing a file -/

/-- A file can be written at a place: one is there already, or its name is free. -/
def Open (names : List Text) : Place → Prop
  | .found other (.file _) => other = names
  | .found _ .directory => False
  | .free other slash => other = names ∧ slash = false

theorem Leads.open_names {start path : List Text} (leads : Leads tree start path place)
    (isOpen : Open names place) : names ≠ [] ∧ tree.find? names ≠ some .directory := by
  induction leads with
  | @here start entry found =>
    cases entry with
    | directory => exact isOpen.elim
    | file before =>
      obtain rfl := isOpen
      refine ⟨?_, by rw [found]; exact nofun⟩
      rintro rfl
      cases found
  | stay _ _ _ ih => exact ih isOpen
  | parent _ _ ih => exact ih isOpen
  | name _ _ _ _ ih => exact ih isOpen
  | @free start rest part _ _ none _ =>
    obtain ⟨rfl, _⟩ := isOpen
    exact ⟨by simp, by rw [none]; exact nofun⟩

/-- No directory is where a file can be written, so the parts lead there as before. -/
theorem Leads.put {start path : List Text} (leads : Leads tree start path place)
    (isOpen : Open names place) (content : Bytes) :
    Leads (tree.put names (.file content)) start path (.found names (.file content)) := by
  obtain ⟨notRoot, noDirectory⟩ := leads.open_names isOpen
  have written := find?_put tree (.file content) notRoot
  have enters {other : List Text} (directory : tree.find? other = some .directory) :
      (tree.put names (.file content)).find? other = some .directory :=
    (find?_put_of_ne tree _ (by rintro rfl; exact noDirectory directory)).trans directory
  induction leads with
  | @here start entry found =>
    cases entry with
    | directory => exact isOpen.elim
    | file before =>
      obtain rfl := isOpen
      exact .here written
  | stay directory stays _ ih => exact .stay (enters directory) stays (ih isOpen)
  | parent directory _ ih => exact .parent (enters directory) (ih isOpen)
  | @name start rest part entry _ directory isName found _ ih =>
    have stands : ∃ entry, (tree.put names (.file content)).find? (start ++ [part]) = some entry := by
      by_cases isLast : start ++ [part] = names
      · exact ⟨_, by rw [isLast]; exact written⟩
      · exact ⟨entry, (find?_put_of_ne tree _ isLast).trans found⟩
    obtain ⟨entry, stands⟩ := stands
    exact .name (enters directory) isName stands (ih isOpen)
  | @free start rest part directory isName _ _ =>
    obtain ⟨rfl, isEmpty⟩ := isOpen
    obtain rfl : rest = [] := by simpa using isEmpty
    exact .name (enters directory) isName written (.here written)

/-! ### Paths -/

variable {path : Text} {content : Bytes}

theorem locate_put (located : tree.locate path = .ok place) (isOpen : Open names place)
    (content : Bytes) :
    (tree.put names (.file content)).locate path = .ok (.found names (.file content)) := by
  unfold locate at located ⊢
  split at located
  · contradiction
  rename_i noNul
  split at located
  · contradiction
  rename_i notEmpty
  split at located
  · contradiction
  rename_i short
  rw [if_neg noNul, if_neg notEmpty, if_neg short]
  exact follow_of_leads ((leads_of_follow located).put isOpen content)

theorem read_of_writeFile (written : tree.writeFile path content = .ok after) :
    after.read path = .ok content := by
  rw [writeFile, modifyFile] at written
  split at written
  · contradiction
  · contradiction
  · contradiction
  · rename_i names before located
    cases written
    rw [read, locate_put located rfl]
  · rename_i names located
    cases written
    rw [read, locate_put located ⟨rfl, rfl⟩]

theorem read_of_saveFile (saved : tree.saveFile path content = (.ok (), after)) :
    after.read path = .ok content := by
  rw [saveFile] at saved
  dsimp only at saved
  split at saved
  · cases saved
  · split at saved
    · rename_i written
      cases saved
      exact read_of_writeFile written
    · cases saved

end MonkeySyntax.FileTree
