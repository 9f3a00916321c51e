set_option autoImplicit false

/-!
# File trees

A file tree says which names are in a directory, and which of them are directories again. Names are
followed from a place in the tree; what is above the place is kept, nearest first, for the way back.
Where the way ends in nothing, going on does not help (`follow_append`).
-/

namespace Telepathy

/-- What is at a place: a directory with its entries, or a file, of which nothing else is known. -/
inductive FileTree
  | file
  | directory (entries : List (String × FileTree))

namespace FileTree

/-- A directory without entries that are known. -/
def empty : FileTree := directory []

/-- A directory of given directories and files. -/
def ofNames (directories files : List String) : FileTree :=
  directory (directories.map (·, empty) ++ files.map (·, file))

/-! ## Following names -/

/-- What following names comes to. -/
inductive Finding
  | found (place : FileTree)
  /-- A directory has no entry of the next name. -/
  | absent
  /-- The next name cannot be looked for: it is too long, or the place is a file. -/
  | refused

/-- How long a name may be, in bytes. -/
def maxNameSize : Nat := 255

/-- Follows names from a place that has the given directories above it. The root is above itself. -/
def follow : (place : FileTree) → (above : List FileTree) → (names : List String) → Finding
  | place, _, [] => .found place
  | file, _, _ :: _ => .refused
  | directory entries, above, name :: rest =>
    if name = "." then follow (directory entries) above rest
    else if name = ".." then
      match above with
      | parent :: above => follow parent above rest
      | [] => follow (directory entries) [] rest
    else if maxNameSize < name.utf8ByteSize then .refused
    else
      match entries.lookup name with
      | some place => follow place (directory entries :: above) rest
      | none => .absent

/-- What names do not find, they do not find as the beginning of more names. -/
theorem follow_append {place : FileTree} {above : List FileTree} {names : List String}
    (more : List String) (h : ∀ last, follow place above names ≠ .found last) :
    follow place above (names ++ more) = follow place above names := by
  induction names generalizing place above with
  | nil => exact absurd rfl (h place)
  | cons name rest ih =>
    cases place with
    | file => rfl
    | directory entries =>
      simp only [List.cons_append, follow] at h ⊢
      repeat' split at h
      all_goals simp_all

end FileTree

end Telepathy
