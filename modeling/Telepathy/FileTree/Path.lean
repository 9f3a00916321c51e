import Telepathy.FileTree.Standard

set_option autoImplicit false

/-!
# Paths

A path is a text of names with slashes between them. It starts at the root if a slash comes first,
else at the directory at hand, of which nothing is known but that it is two levels below the root.
-/

namespace Telepathy.FileTree

/-- The names of a path. -/
def names (path : String) : List String := (path.splitOn "/").filter (· ≠ "")

/-- The name of the file that a path can stand for; none if the path is one of a directory by its
form. -/
def fileName? (path : String) : Option String :=
  match ((names path).filter (· ≠ ".")).getLast? with
  | some name => if name = ".." then none else some name
  | none => none

/-- How long a path may be, in bytes. -/
def maxPathSize : Nat := 4095

/-- Looks for the file that a path stands for. -/
def find (path : String) : Finding :=
  if (fileName? path).isNone ∨ maxPathSize < path.utf8ByteSize then .refused
  else if path.startsWith "/" then follow standard [] (names path)
  else follow empty [empty, standard] (names path)

end Telepathy.FileTree
