import SoundScenes.Command.Files
import SoundScenes.Search.Run
import SoundScenes.Random.Pcg

/-!
# Hosts

A command works on a host, which reads and writes its files, knows the day and runs its searches by
a clock. Commands are the same on every host.

* `Host` — what a host can do;
* `Host.makeDirs` — makes a directory and all that it lies in;
* `Desk` — a host in memory.
-/

namespace SoundScenes

/-- What commands need from where they run. -/
class Host (m : Type → Type) where
  readText : String → m (Except FileError String)
  /-- Makes one directory. -/
  makeDir : String → m (Except FileError Unit)
  isDir : String → m Bool
  writeText : String → String → m (Except FileError Unit)
  /-- The day, such as `2024-01-31`. -/
  today : m String
  /-- The milliseconds since some moment that does not change. -/
  now : m Nat
  /-- Runs a search by the clock of the host. -/
  search : Search → Pcg → m (Outcome Pcg)

namespace Host

variable {m : Type → Type} [Monad m] [Host m]

/-- Makes a directory, unless it is there. -/
def ensureDir (path : String) : m (Except FileError Unit) := do
  match ← makeDir path with
  | .ok () => return .ok ()
  | .error e => if ← isDir path then return .ok () else return .error e

/-- Makes a directory after the directories that it lies in, which are listed innermost first. What
is there already is left as it is. -/
def makeDirs : List String → m (Except FileError Unit)
  | [] => return .ok ()
  | path :: outer => do
    match ← ensureDir path with
    | .error .notFound =>
      match ← makeDirs outer with
      | .ok () => ensureDir path
      | .error e => return .error e
    | r => return r

end Host

/-- A host in memory, on a given day. Only searches take time there. -/
structure Desk where
  files : Files
  /-- The places of files that have been written. -/
  written : List Place
  day : String
  /-- The milliseconds that have passed after some steps of a search. -/
  clock : Nat → Nat

namespace Desk

/-- A host with some files on which nothing has been written. -/
def ofFiles (files : Files) (day : String) (clock : Nat → Nat) : Desk := ⟨files, [], day, clock⟩

/-- The texts that have been written, by place. -/
def output (d : Desk) : List (Place × String) :=
  d.written.filterMap fun place =>
    match d.files.at? place with
    | some (.text s) => some (place, s)
    | _ => none

/-- Makes one directory. -/
def makeDir (path : String) (d : Desk) : Except FileError Unit × Desk :=
  match d.files.makeDir path with
  | .ok files => (.ok (), { d with files := files })
  | .error e => (.error e, d)

/-- Writes one file. -/
def writeText (path text : String) (d : Desk) : Except FileError Unit × Desk :=
  match d.files.write path text with
  | .ok (place, files) =>
    (.ok (), { d with
      files := files
      written := if place ∈ d.written then d.written else d.written ++ [place] })
  | .error e => (.error e, d)

instance : Host (StateM Desk) where
  readText path := fun d => (d.files.read path, d)
  makeDir := makeDir
  isDir path := fun d => (d.files.isDir path, d)
  writeText := writeText
  today := fun d => (d.day, d)
  now := fun d => (0, d)
  search s g := fun d => (s.run d.clock g, d)

end Desk

end SoundScenes
