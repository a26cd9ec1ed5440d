import SoundScenes.Command.Input
import SoundScenes.Generation

/-!
# The command that generates a dataset

Searches scenes, and writes one document for each split and a report. When the configuration is
refused only the report is written; when the input cannot be read nothing is.

* `GenerateCommand.execute` — the work of the command;
* `GenerateOutput.toJson`, `GenerateOutput.lines` — what it says about it.
-/

namespace SoundScenes

/-- A request to generate a dataset. -/
structure GenerateCommand where
  catalog : String
  layers : Layers
  /-- The directory that everything is written to. -/
  root : String
  /-- Whether a search that a budget cuts off is a failure. -/
  strict : Bool

/-- What has been generated. -/
structure GeneratedFiles where
  sizes : SplitSizes
  termination : Termination
  fingerprint : String
  /-- The documents with scenes, seen from the root. -/
  files : List String
  report : String
  /-- How long the run took, in milliseconds. -/
  duration : Nat
  deriving DecidableEq, Repr

/-- What the command has to say. -/
structure GenerateOutput where
  success : Bool
  errors : List Remark
  warnings : List Remark
  result : Option GeneratedFiles
  deriving DecidableEq, Repr

/-- The document of what has been generated. -/
def GeneratedFiles.toJson (g : GeneratedFiles) : Json :=
  .object [
    ("split_sizes", g.sizes.toJson), ("termination", g.termination.toJson),
    ("scene_fingerprint", .string g.fingerprint), ("scene_files", .array (g.files.map .string)),
    ("report_path", .string g.report), ("duration_ms", .nat g.duration)]

namespace GenerateOutput

/-- A run that has failed. -/
def failure (errors warnings : List Remark) : GenerateOutput := ⟨false, errors, warnings, none⟩

/-- The document of the output. -/
def toJson (o : GenerateOutput) : Json :=
  .object (
    [("success", .bool o.success), ("errors", Remark.listToJson o.errors),
      ("warnings", Remark.listToJson o.warnings)] ++
    Json.optionalEntry "result" (o.result.map GeneratedFiles.toJson))

end GenerateOutput

namespace GenerateCommand

/-- The directory with the documents of scenes. -/
def scenesDir (root : String) : String := Path.join root "scenes"

/-- The document with the scenes of a split. -/
def scenesPath (root : String) (naming : Naming) (split : Split) : String :=
  Path.join (scenesDir root) (naming.scenesFile split)

/-- The document with the report. -/
def reportPath (root : String) (naming : Naming) : String := Path.join root naming.reportFile

/-- The names by which a report is found whose configuration has been refused. Names that have been
refused themselves do not count. -/
def refusedNaming (naming : Naming) (errors : List ErrorFinding) : Naming :=
  if errors.any fun e => e.code.isNaming then .standard else naming

/-- The report of a run before it has done anything. -/
def startReport (config : Config) (catalog : Catalog) (date : String) : Report :=
  { Report.start config config.hash ("aqa-cli v" ++ release) with
    catalog := catalog.summary
    date := some date }

/-- The report of a run whose configuration has been refused. -/
def refusedReport (report : Report) (errors : List ErrorFinding) : Report :=
  (errors.map Remark.ofFinding).foldl Report.addError report

/-- The report of a run that has given a dataset. -/
def finishedReport (report : Report) (g : Generated) : Report :=
  let report := (g.warnings.map Remark.ofFinding).foldl Report.addWarning report
  { report with
    sizes := some g.dataset.sizes
    termination := some g.termination
    fingerprint := some g.fingerprint }.addStats g.stats

/-- What is wrong with a search that a budget has cut off, where that is a failure. -/
def strictErrors (strict : Bool) (t : Termination) : List Remark :=
  if strict ∧ t.byBudget then
    [CommandCode.budgetExceeded.remark (t.phrase ++ " with --strict-budget")]
  else []

section

variable {m : Type → Type} [Monad m] [Host m]

/-- Writes a document and makes the directories that it lies in. -/
def writeDocument (path : String) (document : Json) : m (Except Remark Unit) := do
  match ← Host.makeDirs (Path.lineage path).tail with
  | .error e => return .error (CommandCode.outputWrite.remark
      ("Failed to create directory: " ++ Path.parent path ++ ": " ++ e.message))
  | .ok () =>
    match ← Host.writeText path document.pretty with
    | .error e => return .error (CommandCode.outputWrite.remark
        ("Failed to write " ++ path ++ ": " ++ e.message))
    | .ok () => return .ok ()

/-- Writes documents in order, up to the first that cannot be written. -/
def writeDocuments : List (String × Json) → m (Except Remark Unit)
  | [] => return .ok ()
  | (path, document) :: rest => do
    match ← writeDocument path document with
    | .error r => return .error r
    | .ok () => writeDocuments rest

/-- The end of a run that has failed: its report is written, and an error of writing is one more
error. -/
def fail (report : Report) (path : String) (errors : List Remark) : m GenerateOutput := do
  match ← writeDocument path report.toJson with
  | .ok () => return .failure errors []
  | .error r => return .failure (errors ++ [r]) []

/-- The end of a run that has given a dataset: scenes and report are written. -/
def finish (c : GenerateCommand) (config : Config) (report : Report) (started : Nat)
    (g : Generated) : m GenerateOutput := do
  let warnings := g.warnings.map Remark.ofFinding
  match ← writeDocuments (g.dataset.sets.map fun (split, set) =>
      (scenesPath c.root config.output split, set.toJson)) with
  | .error r => return .failure [r] warnings
  | .ok () =>
    let errors := strictErrors c.strict g.termination
    let duration := (← Host.now) - started
    let report :=
      { finishedReport (errors.foldl Report.addError report) g with duration := duration }
    let path := reportPath c.root config.output
    match ← writeDocument path report.toJson with
    | .error r => return .failure [r] warnings
    | .ok () => return {
        success := errors.isEmpty
        errors := errors
        warnings := warnings
        result := some {
          sizes := g.dataset.sizes
          termination := g.termination
          fingerprint := g.fingerprint
          files := g.dataset.sets.map fun (split, _) =>
            Path.join "scenes" (config.output.scenesFile split)
          report := path
          duration := duration } }

/-- The end of a run: writes what has been generated, or why nothing has been. -/
def conclude (c : GenerateCommand) (config : Config) (report : Report) (started : Nat) :
    Except GenerationError Generated → m GenerateOutput
  | .ok g => c.finish config report started g
  | .error (.invalidConfig errors) | .error (.infeasible errors) => do
    let duration := (← Host.now) - started
    fail { refusedReport report errors with duration := duration }
      (reportPath c.root (refusedNaming config.output errors)) (errors.map Remark.ofFinding)
  | .error e =>
    fail (report.addError (.plain e.code e.message)) (reportPath c.root config.output)
      [CommandCode.generation.remark e.message]

/-- The work on a catalog and a configuration, since it was started. -/
def process (c : GenerateCommand) (started : Nat) (catalog : Catalog) (config : Config) :
    m GenerateOutput := do
  let date ← Host.today
  let generated ← match config.check catalog.summary with
    | .error e => pure (.error e)
    | .ok warnings => do
      let outcome ← Host.search (.ofConfig catalog config) (Pcg.ofSeed config.seed)
      pure (Generated.ofOutcome catalog config date warnings outcome)
  c.conclude config (startReport config catalog date) started generated

/-- Does what is asked for. -/
def execute (c : GenerateCommand) : m GenerateOutput := do
  let started ← Host.now
  match ← loadInput c.catalog c.layers with
  | .error r => return .failure [r] []
  | .ok (catalog, config) => c.process started catalog config

end

end GenerateCommand

end SoundScenes
