/-
# Paths

A path is followed through a tree of folders, one step after the other; the steps are what stands
between its slashes.  A step can only be taken in a folder.

| step | leads |
| --- | --- |
| empty, `.` | nowhere else |
| `..` | to the folder around |
| a name of at most 255 bytes | to what has the name in the folder |
| a longer name | nowhere, as nothing has it |

So a path that ends in a slash or in `/.` leads to a folder or nowhere, and the last name of a path
need not be there.  A path of more than 4095 bytes leads nowhere.
-/

namespace BoardBlocks
namespace CommandLine

/-- The names on the way from a top to a folder or file below it. -/
abbrev Trail := List (List Char)

/-- The trail that a path is if its names are taken as they are. -/
def trailOf (path : String) : Trail :=
  (path.toList.splitOn '/').filter fun name => name ≠ [] ∧ name ≠ ['.']

/-- Whether a trail leads to a folder in or below which the other trail ends. -/
def leadsTo (folder trail : Trail) : Bool :=
  folder.isPrefixOf trail && folder.length < trail.length

/-- Places, some of which are folders. -/
structure Tree (Spot : Type) where
  isFolder : Spot → Bool
  /-- The folder around a place. -/
  parent : Spot → Spot
  /-- Where a name in a folder leads. -/
  child : Spot → List Char → Spot

/-- How many bytes a name may have. -/
def nameLimit : Nat := 255

/-- How many bytes a path may have. -/
def pathLimit : Nat := 4095

/-- Whether a name is short enough for a file or folder. -/
def fits (name : List Char) : Bool :=
  (String.ofList name).utf8ByteSize ≤ nameLimit

/-- Takes steps from a place. -/
def Tree.follow {Spot : Type} (t : Tree Spot) : Spot → List (List Char) → Option Spot
  | here, [] => some here
  | here, step :: steps =>
    if !t.isFolder here then none
    else if step = [] ∨ step = ['.'] then t.follow here steps
    else if step = ['.', '.'] then t.follow (t.parent here) steps
    else if fits step then t.follow (t.child here step) steps
    else none

/-- The steps of a path; none if the path is too long. -/
def stepsOf? (path : String) : Option (List (List Char)) :=
  if path.utf8ByteSize ≤ pathLimit then some (path.toList.splitOn '/') else none

/-- Whether a path starts at the root of all folders. -/
def isAbsolute (path : String) : Bool :=
  path.toList.head? = some '/'

end CommandLine
end BoardBlocks
