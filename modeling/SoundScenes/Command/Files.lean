import SoundScenes.Command.Path

/-!
# Files in memory

The files and directories below a working directory, and what the system does with them: it follows
paths, reads and writes files, and makes directories one at a time. Nothing exists outside the
working directory.

* `Files.read`, `Files.makeDir`, `Files.write` — the operations, with the errors that they meet.
-/

namespace SoundScenes

/-- Why an operation on files fails. -/
inductive FileError where
  | notFound
  | exists
  | notDirectory
  | isDirectory
  | nameTooLong
  /-- The path holds a character that no path can hold. -/
  | nulCharacter
  /-- The file is not a text. -/
  | notText
  | other (reason : String)
  deriving DecidableEq, Repr

/-- The wording of the operating system. -/
def FileError.message : FileError → String
  | notFound => "No such file or directory (os error 2)"
  | «exists» => "File exists (os error 17)"
  | notDirectory => "Not a directory (os error 20)"
  | isDirectory => "Is a directory (os error 21)"
  | nameTooLong => "File name too long (os error 36)"
  | nulCharacter => "file name contained an unexpected NUL byte"
  | notText => "stream did not contain valid UTF-8"
  | other reason => reason

/-- What stands at a place. -/
inductive Entry where
  | directory
  | text (s : String)
  /-- A file that is not a text. -/
  | binary
  deriving DecidableEq, Repr

/-- A place: the names on the way to it from the working directory. -/
abbrev Place := List String

/-- What stands where below the working directory. -/
structure Files where
  entries : List (Place × Entry)
  deriving Repr

namespace Files

/-- Nothing at all. -/
def empty : Files := ⟨[]⟩

/-- What stands at a place. -/
def at? (fs : Files) (place : Place) : Option Entry :=
  if place = [] then some .directory else fs.entries.lookup place

/-- Puts an entry at a place. -/
def put (fs : Files) (place : Place) (e : Entry) : Files :=
  ⟨(place, e) :: fs.entries.filter fun f => f.1 ≠ place⟩

/-- Puts a file at a place together with the directories that it lies in. -/
def putDeep (fs : Files) (place : Place) (e : Entry) : Files :=
  let dirs := (List.range place.length).drop 1
  (dirs.foldl (fun fs n => fs.put (place.take n) .directory) fs).put place e

/-- The length of the longest name, in bytes. -/
def nameLimit : Nat := 255

/-- The length of the longest path, in bytes. -/
def pathLimit : Nat := 4095

/-- Whether a name is longer than a name may be. -/
def tooLong (name : String) : Bool := nameLimit < name.utf8ByteSize

/-- Goes from a directory into another one by its name. -/
def enter (fs : Files) (dir : Place) (name : String) : Except FileError Place :=
  if name = "" ∨ name = "." then .ok dir
  else if name = ".." then .ok dir.dropLast
  else if tooLong name then .error .nameTooLong
  else match fs.at? (dir ++ [name]) with
    | none => .error .notFound
    | some .directory => .ok (dir ++ [name])
    | some _ => .error .notDirectory

/-- Where a path leads: the directory that its last name is looked up in, the name, and whether a
slash stands behind it. -/
def locate (fs : Files) (path : String) : Except FileError (Place × String × Bool) :=
  if '\x00' ∈ path.toList then .error .nulCharacter
  else if pathLimit < path.utf8ByteSize then .error .nameTooLong
  else if path = "" ∨ Path.isAbsolute path then .error .notFound
  else do
    let names := Path.names path
    let steps := names.filter (· ≠ "")
    let dir ← steps.dropLast.foldlM fs.enter []
    return (dir, steps.getLastD ".", names.getLastD "" = "")

/-- Whether a name stands for a directory that must be there already. -/
def isDots (name : String) : Bool := name = "." ∨ name = ".."

/-- The place and the entry that a path leads to. -/
def lookup (fs : Files) (path : String) : Except FileError (Place × Entry) := do
  let (dir, name, slash) ← fs.locate path
  if isDots name then return (← fs.enter dir name, .directory)
  if tooLong name then throw .nameTooLong
  match fs.at? (dir ++ [name]) with
  | none => throw .notFound
  | some e => if slash ∧ e ≠ .directory then throw .notDirectory else return (dir ++ [name], e)

/-- The text of a file. -/
def read (fs : Files) (path : String) : Except FileError String := do
  match (← fs.lookup path).2 with
  | .directory => throw .isDirectory
  | .binary => throw .notText
  | .text s => return s

/-- Whether a path leads to a directory. -/
def isDir (fs : Files) (path : String) : Bool :=
  match fs.lookup path with
  | .ok (_, .directory) => true
  | _ => false

/-- Makes a directory in one that is there. -/
def makeDir (fs : Files) (path : String) : Except FileError Files := do
  let (dir, name, _) ← fs.locate path
  if isDots name then throw .exists
  if tooLong name then throw .nameTooLong
  match fs.at? (dir ++ [name]) with
  | some _ => throw .exists
  | none => return fs.put (dir ++ [name]) .directory

/-- Writes a file into a directory that is there, over the file that may stand there. Gives its
place too. -/
def write (fs : Files) (path text : String) : Except FileError (Place × Files) := do
  let (dir, name, slash) ← fs.locate path
  if isDots name ∨ slash then throw .isDirectory
  if tooLong name then throw .nameTooLong
  match fs.at? (dir ++ [name]) with
  | some .directory => throw .isDirectory
  | _ => return (dir ++ [name], fs.put (dir ++ [name]) (.text text))

end Files

end SoundScenes
