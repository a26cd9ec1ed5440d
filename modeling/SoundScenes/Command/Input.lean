import SoundScenes.Catalog
import SoundScenes.Command.Host
import SoundScenes.Config
import SoundScenes.Report

/-!
# Input of commands

Commands read a catalog and a configuration. The configuration has three layers: the defaults, a
file if there is one, and settings from the command line.
-/

namespace SoundScenes

/-- The codes of errors that only commands have. -/
inductive CommandCode where
  | catalogLoad
  | configLoad
  | outputWrite
  | generation
  | budgetExceeded
  deriving DecidableEq, Repr

def CommandCode.code : CommandCode → String
  | catalogLoad => "CLI_001"
  | configLoad => "CLI_002"
  | outputWrite => "CLI_003"
  | generation => "CLI_004"
  | budgetExceeded => "CLI_005"

/-- A remark under a command's own code. -/
def CommandCode.remark (c : CommandCode) (message : String) : Remark := .plain c.code message

/-- An error of a catalog with its cause, which its message names already. -/
def CatalogError.chain (e : CatalogError) : String :=
  match e with
  | .unreadable _ reason => e.message ++ ": " ++ reason
  | .unparsable r => e.message ++ ": " ++ r.message
  | _ => e.message

/-- The settings of a command line, and the file that they change. -/
structure Layers where
  /-- The file with the configuration. -/
  file : Option String
  settings : List Setting

section

variable {m : Type → Type} [Monad m] [Host m]

/-- The catalog in a file. -/
def readCatalog (path : String) : m (Except CatalogError Catalog) := do
  match ← Host.readText path with
  | .ok text => return Catalog.ofText text
  | .error e => return .error (.unreadable path e.message)

/-- The catalog in a file, or a remark on why there is none. -/
def loadCatalog (path : String) : m (Except Remark Catalog) := do
  return (← readCatalog path).mapError fun e =>
    CommandCode.catalogLoad.remark ("Failed to load catalog: " ++ path ++ ": " ++ e.chain)

/-- The configuration in a file, or a remark on why there is none. -/
def readConfig (path : String) : m (Except Remark Config) := do
  match ← Host.readText path with
  | .ok text => return (Config.ofText text).mapError fun e =>
      CommandCode.configLoad.remark ("Failed to parse config file: " ++ path ++ ": " ++ e.message)
  | .error e => return .error (CommandCode.configLoad.remark
      ("Failed to read config file: " ++ path ++ ": " ++ e.message))

/-- The configuration of all layers. -/
def loadConfig (layers : Layers) : m (Except Remark Config) := do
  match layers.file with
  | some path => return (← readConfig path).map (·.setAll layers.settings)
  | none => return .ok (Config.standard.setAll layers.settings)

/-- Catalog and configuration, or a remark on the first that is missing. -/
def loadInput (catalog : String) (layers : Layers) : m (Except Remark (Catalog × Config)) := do
  match ← loadCatalog catalog with
  | .error r => return .error r
  | .ok c => return (← loadConfig layers).map (c, ·)

end

end SoundScenes
