import SoundScenes.Command.Arguments
import SoundScenes.Command.Screen

/-!
# The program

Does what a command line asks for, on any host, and says what it prints and how it ends.
-/

namespace SoundScenes

/-- How much is logged when an option has been given so many times. -/
def logFilter (verbosity : Nat) : String :=
  match verbosity with
  | 0 => "warn"
  | 1 => "info"
  | 2 => "debug"
  | _ => "trace"

/-- The end of a run: its exit code and what it prints. -/
structure Ending where
  exit : Nat
  printed : String
  deriving DecidableEq, Repr

namespace Ending

/-- The end of a run that prints lines. -/
def ofLines (success : Bool) (lines : List String) : Ending :=
  ⟨if success then 0 else 1, String.join (lines.map (· ++ "\n"))⟩

/-- The end of a command, which prints a document or lines. -/
def ofOutput (json success : Bool) (document : Json) (lines : List String) : Ending :=
  ofLines success (if json then [document.pretty] else lines)

end Ending

section

variable {m : Type → Type} [Monad m] [Host m]

/-- Does the work of a command. -/
def Task.run (json : Bool) : Task → m Ending
  | .generate c => do
    let o ← c.execute
    return .ofOutput json o.success o.toJson (o.lines c.catalog)
  | .validate c => do
    let o ← c.execute
    return .ofOutput json o.success o.toJson (o.lines c.catalog)
  | .families catalog => do
    let o ← listFamilies catalog
    return .ofOutput json o.success o.toJson (o.lines catalog)

/-- Does what a command line asks for. -/
def Request.execute : Request → m Ending
  | .run task json => task.run json
  | .version program => return .ofLines true [program ++ " " ++ release]
  | .help => return ⟨0, ""⟩
  | .usage => return ⟨2, ""⟩

end

end SoundScenes
