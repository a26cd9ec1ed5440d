/-!
# Paths

Names of files and directories, with segments between slashes. A segment that is empty or a single
point says nothing, except a point at the very start.

* `Path.join` — the path of a name in a directory;
* `Path.lineage` — the directories that a path passes through.
-/

namespace SoundScenes.Path

/-- The path of a name in a directory. The empty path is the working directory. -/
def join (dir name : String) : String :=
  if dir = "" then name
  else if dir.toList.getLast? = some '/' then dir ++ name
  else dir ++ "/" ++ name

/-- Whether a path begins at the root. -/
def isAbsolute (path : String) : Bool := path.toList.head? = some '/'

/-- What stands between the slashes of a path. -/
def names (path : String) : List String := (path.toList.splitOn '/').map String.ofList

/-- The segments of a path, without the slash of the root. -/
def segments (path : String) : List String :=
  let all := names path
  if isAbsolute path then all.drop 1 else all

/-- Whether the segment at a place names a step of the way. -/
def isStep (path : String) (place : Nat) (segment : String) : Bool :=
  segment ≠ "" ∧ (segment ≠ "." ∨ (place = 0 ∧ isAbsolute path = false))

/-- What stands before the segments of a path. -/
def base (path : String) : String := if isAbsolute path then "/" else ""

/-- The path itself and all directories that it passes through, the innermost first. The root and
the working directory are not listed. -/
def lineage (path : String) : List String :=
  let all := segments path
  let ends := all.zipIdx.filter fun s => isStep path s.2 s.1
  ends.reverse.map fun s => base path ++ "/".intercalate (all.take (s.2 + 1))

/-- The directory that a path lies in. -/
def parent (path : String) : String := (lineage path).getD 1 (base path)

end SoundScenes.Path
