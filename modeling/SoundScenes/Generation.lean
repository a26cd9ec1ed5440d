import SoundScenes.Scene.Fingerprint
import SoundScenes.Scene.Partition
import SoundScenes.Search.Run
import SoundScenes.Validation

/-!
# Generation of datasets

A dataset is made in three parts: the configuration is checked against the catalog, scenes are
searched, and what has been found becomes a dataset. A search that a budget cuts off still gives a
dataset of the scenes found until then.

* `Config.check` — the warnings, or the error that forbids the run;
* `Generated.ofOutcome` — the dataset of a search's outcome;
* `generate` — all parts in order.
-/

namespace SoundScenes

/-- What generation makes of a catalog and a configuration. -/
structure Generated where
  dataset : Dataset
  stats : Stats
  termination : Termination
  /-- The fingerprint of the scenes found. -/
  fingerprint : String
  warnings : List WarningFinding

/-- Why generation fails. -/
inductive GenerationError where
  | invalidConfig (errors : List ErrorFinding)
  | infeasible (errors : List ErrorFinding)
  | catalog (e : CatalogError)
  /-- A budget cut the search off. What it found is kept. -/
  | budgetExceeded (partly : Generated)

namespace GenerationError

/-- Errors in one line. -/
def joined (errors : List ErrorFinding) : String :=
  "; ".intercalate (errors.map Finding.display)

def message : GenerationError → String
  | invalidConfig errors => "invalid generation config: " ++ joined errors
  | infeasible errors => "infeasible constraints: " ++ joined errors
  | catalog e => e.message
  | budgetExceeded g =>
    g.termination.phrase ++ " after " ++ toString g.dataset.total ++ " scenes"

/-- The stable code of an error. -/
def code : GenerationError → String
  | invalidConfig _ => "SCENES_001"
  | infeasible _ => "SCENES_002"
  | catalog _ => "SCENES_003"
  | budgetExceeded _ => "SCENES_004"

/-- The findings that an error is about. -/
def findings : GenerationError → List ErrorFinding
  | invalidConfig errors | infeasible errors => errors
  | catalog _ | budgetExceeded _ => []

end GenerationError

/-- Checks a configuration, first on its own and then against a catalog. -/
def Config.check (config : Config) (catalog : Summary) :
    Except GenerationError (List WarningFinding) := do
  let own ← config.validate.toResult.mapError .invalidConfig
  let joint ← (config.feasibility catalog).toResult.mapError .infeasible
  return own ++ joint

namespace Generated

/-- The seed by which scenes are shuffled, if they are. -/
def shuffleSeed (config : Config) : Option Nat :=
  if config.shuffle then some config.seed else none

/-- The dataset of what a search has found. -/
def ofOutcome {σ : Type} (catalog : Catalog) (config : Config) (date : String)
    (warnings : List WarningFinding) (outcome : Outcome σ) : Except GenerationError Generated := do
  let dataset ← (Dataset.ofScenes catalog config.output config.trainingRatio (shuffleSeed config)
    date outcome.scenes).mapError .catalog
  return {
    dataset := dataset
    stats := outcome.stats
    termination := outcome.termination
    fingerprint := SoundScenes.fingerprint outcome.scenes
    warnings := warnings }

/-- The same, unless a budget cut the search off. -/
def complete (g : Generated) : Except GenerationError Generated :=
  if g.termination.byBudget then .error (.budgetExceeded g) else .ok g

end Generated

/-- Makes the dataset that a configuration asks for. -/
def generate (catalog : Catalog) (config : Config) (date : String) (clock : Nat → Nat) :
    Except GenerationError Generated := do
  let warnings ← config.check catalog.summary
  Generated.ofOutcome catalog config date warnings
    ((Search.ofConfig catalog config).run clock (Pcg.ofSeed config.seed))

end SoundScenes
