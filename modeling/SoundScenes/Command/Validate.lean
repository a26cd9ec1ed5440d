import SoundScenes.Command.Input
import SoundScenes.Validation

/-!
# The command that validates a configuration

Checks a configuration against a catalog and searches nothing.
-/

namespace SoundScenes

/-- A request to validate a configuration. -/
structure ValidateCommand where
  catalog : String
  layers : Layers

/-- What the command has to say. -/
structure ValidateOutput where
  success : Bool
  errors : List Remark
  warnings : List Remark
  configHash : Option String
  deriving DecidableEq, Repr

/-- The document of the output. -/
def ValidateOutput.toJson (o : ValidateOutput) : Json :=
  .object (
    [("success", .bool o.success), ("errors", Remark.listToJson o.errors),
      ("warnings", Remark.listToJson o.warnings)] ++
    Json.optionalEntry "config_hash" (o.configHash.map .string))

namespace ValidateCommand

/-- The output for a catalog and a configuration. -/
def judge (catalog : Catalog) (config : Config) : ValidateOutput :=
  let verdict := config.validateFor catalog.summary
  { success := verdict.ok
    errors := verdict.errors.map Remark.ofFinding
    warnings := verdict.warnings.map Remark.ofFinding
    configHash := some config.hash }

/-- Does what is asked for. -/
def execute {m : Type → Type} [Monad m] [Host m] (c : ValidateCommand) : m ValidateOutput := do
  match ← loadInput c.catalog c.layers with
  | .error r => return ⟨false, [r], [], none⟩
  | .ok (catalog, config) => return judge catalog config

end ValidateCommand

end SoundScenes
