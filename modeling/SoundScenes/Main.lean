import SoundScenes.Command.Program
import Std.Time.Format

/-!
# The program on its own machine

The host of a command line: real files, the local day, and searches by the machine's clock.
-/

namespace SoundScenes

/-- An error of the system as commands report it. -/
def fileError : IO.Error → FileError
  | .noFileOrDirectory .. => .notFound
  | .alreadyExists .. => .exists
  | .inappropriateType _ code details | .permissionDenied _ code details
  | .invalidArgument _ code details => .other (details ++ " (os error " ++ toString code ++ ")")
  | e => .other (toString e)

/-- Does something with a path that the system can take. -/
def withPath {α : Type} (path : String) (act : IO (Except FileError α)) :
    IO (Except FileError α) := do
  if '\x00' ∈ path.toList then return .error .nulCharacter
  try act
  catch e => return .error (fileError e)

/-- Takes the steps of a search until it has ended. -/
partial def takeSteps (s : Search) (started : Nat) (m : Search.State Pcg) :
    IO (Search.State Pcg) := do
  if m.isDone then return m
  takeSteps s started (s.step ((← IO.monoMsNow) - started) m)

instance : Host IO where
  readText path := withPath path do
    match String.fromUTF8? (← IO.FS.readBinFile path) with
    | some text => return .ok text
    | none => return .error .notText
  makeDir path := withPath path do
    IO.FS.createDir path
    return .ok ()
  isDir path := do
    try return ← (← IO.FS.realPath path).isDir
    catch _ => return false
  writeText path text := withPath path do
    IO.FS.writeFile path text
    return .ok ()
  today := do
    return (← Std.Time.PlainDate.now).format "uuuu-MM-dd"
  now := IO.monoMsNow
  search s g := do
    return (← takeSteps s (← IO.monoMsNow) (s.start g)).outcome

end SoundScenes

/-- Runs a command line. -/
def main (args : List String) : IO UInt32 := do
  let ending ← (SoundScenes.Request.ofArguments args).execute
  IO.print ending.printed
  if ending.exit = 2 then
    IO.eprintln "usage: aqa [-v] generate|validate|catalog --catalog <file> [options]"
  return ending.exit.toUInt32
