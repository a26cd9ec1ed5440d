import SoundScenes.Scene.Split
import SoundScenes.Json.Hash

/-!
# Configurations

A configuration fixes everything that a dataset depends on besides the catalog. Every field has a
default, so that a document may give only some of them.

* `Naming` — the names of the dataset and of its files;
* `Setting`, `Config.set` — changes of single fields;
* `Config.hash` — the digest of the canonical document of a configuration.
-/

namespace SoundScenes

/-- What a scene must hold: a number of families, and a number of families that reach a quota of
sounds. -/
structure Constraints where
  minFamilies : Nat
  /-- The sounds that a family needs to reach the quota. -/
  quota : Nat
  /-- The number of families that must reach the quota. -/
  minQuotaFamilies : Nat
  deriving DecidableEq, Repr

namespace Constraints

/-- The default constraints. -/
def standard : Constraints := ⟨3, 2, 2⟩

/-- Constraints that every scene meets. -/
def none : Constraints := ⟨0, 0, 0⟩

/-- The document of constraints. -/
def toJson (c : Constraints) : Json :=
  .object [
    ("min_families", .nat c.minFamilies),
    ("min_objects_per_family", .nat c.quota),
    ("min_families_meeting_quota", .nat c.minQuotaFamilies)]

/-- How constraints are read. -/
def record : Record Constraints where
  name := "SceneConstraints"
  fields := [
    .of "min_families" .defaulted .size fun v c => { c with minFamilies := v },
    .of "min_objects_per_family" .defaulted .size fun v c => { c with quota := v },
    .of "min_families_meeting_quota" .defaulted .size fun v c => { c with minQuotaFamilies := v }]
  blank := standard

end Constraints

/-- Names of the dataset and of its files. -/
structure Naming where
  /-- What every name begins with. -/
  stem : String
  /-- The version of the dataset. -/
  version : String
  /-- The extension of the files that the scenes will be rendered to. -/
  extension : String
  license : String
  deriving DecidableEq, Repr

namespace Naming

/-- The default names. -/
def standard : Naming where
  stem := "AQA"
  version := "0.1"
  extension := "png"
  license := "Creative Commons Attribution (CC-BY 4.0)"

/-- The name of the dataset, such as `AQA-V0.1`. -/
def datasetName (n : Naming) : String := n.stem ++ "-V" ++ n.version

/-- A number with leading zeros to a width. -/
def padded (width n : Nat) : List Char :=
  let digits := Nat.toDigits 10 n
  List.replicate (width - digits.length) '0' ++ digits

/-- The file of a scene, such as `AQA_train_000042.png`. -/
def sceneFile (n : Naming) (split : Split) (index : Nat) : String :=
  n.stem ++ "_" ++ split.name ++ "_" ++ String.ofList (padded 6 index) ++ "." ++ n.extension

/-- The document with the scenes of a split, such as `AQA_V0.1_val_scenes.json`. -/
def scenesFile (n : Naming) (split : Split) : String :=
  n.stem ++ "_V" ++ n.version ++ "_" ++ split.name ++ "_scenes.json"

/-- The document with the report, such as `AQA_V0.1.report.json`. -/
def reportFile (n : Naming) : String := n.stem ++ "_V" ++ n.version ++ ".report.json"

/-- The document of names. -/
def toJson (n : Naming) : Json :=
  .object [
    ("prefix", .string n.stem), ("version", .string n.version),
    ("extension", .string n.extension), ("license", .string n.license)]

/-- How names are read. -/
def record : Record Naming where
  name := "OutputNaming"
  fields := [
    .of "prefix" .defaulted .string fun v n => { n with stem := v },
    .of "version" .defaulted .string fun v n => { n with version := v },
    .of "extension" .defaulted .string fun v n => { n with extension := v },
    .of "license" .defaulted .string fun v n => { n with license := v }]
  blank := standard

end Naming

/-- Everything that a dataset depends on besides the catalog. -/
structure Config where
  /-- The number of sounds in every scene. -/
  sceneLength : Nat
  /-- The number of continuations that are tried at every point of a scene. -/
  treeWidth : Nat
  constraints : Constraints
  /-- The share of scenes for training. -/
  trainingRatio : Float
  seed : Nat
  /-- Whether scenes are shuffled before they are split. -/
  shuffle : Bool
  /-- Stop after so many scenes. -/
  maxScenes : Option Nat
  /-- Stop after so many steps of the search. -/
  stepBudget : Option Nat
  /-- Stop after so many milliseconds. -/
  timeBudget : Option Nat
  output : Naming

/-- A change of a configuration. -/
inductive Setting where
  | sceneLength (n : Nat)
  | treeWidth (n : Nat)
  | constraints (c : Constraints)
  | minFamilies (n : Nat)
  | quota (n : Nat)
  | minQuotaFamilies (n : Nat)
  | trainingRatio (x : Float)
  | seed (n : Nat)
  | shuffle (b : Bool)
  | maxScenes (n : Nat)
  | stepBudget (n : Nat)
  | timeBudget (n : Nat)
  | output (n : Naming)
  | stem (s : String)
  | version (s : String)

namespace Config

/-- The default configuration. -/
def standard : Config where
  sceneLength := 6
  treeWidth := 5
  constraints := .standard
  trainingRatio := 0.7
  seed := 0
  shuffle := true
  maxScenes := none
  stepBudget := none
  timeBudget := none
  output := .standard

/-- Changes one field. -/
def set (c : Config) : Setting → Config
  | .sceneLength n => { c with sceneLength := n }
  | .treeWidth n => { c with treeWidth := n }
  | .constraints k => { c with constraints := k }
  | .minFamilies n => { c with constraints.minFamilies := n }
  | .quota n => { c with constraints.quota := n }
  | .minQuotaFamilies n => { c with constraints.minQuotaFamilies := n }
  | .trainingRatio x => { c with trainingRatio := x }
  | .seed n => { c with seed := n }
  | .shuffle b => { c with shuffle := b }
  | .maxScenes n => { c with maxScenes := some n }
  | .stepBudget n => { c with stepBudget := some n }
  | .timeBudget n => { c with timeBudget := some n }
  | .output n => { c with output := n }
  | .stem s => { c with output.stem := s }
  | .version s => { c with output.version := s }

/-- Changes fields one after another. -/
def setAll (c : Config) (settings : List Setting) : Config := settings.foldl set c

/-- The document of a configuration. Limits that are not set are left out. -/
def toJson (c : Config) : Json :=
  .object (
    [("scene_length", .nat c.sceneLength), ("tree_width", .nat c.treeWidth),
      ("constraints", c.constraints.toJson), ("training_ratio", .float c.trainingRatio),
      ("seed", .nat c.seed), ("shuffle", .bool c.shuffle)] ++
    Json.optionalEntry "max_scenes" (c.maxScenes.map .nat) ++
    Json.optionalEntry "step_budget" (c.stepBudget.map .nat) ++
    Json.optionalEntry "time_budget_ms" (c.timeBudget.map .nat) ++
    [("output", c.output.toJson)])

/-- How a configuration is read. -/
def record : Record Config where
  name := "GenerationConfig"
  fields := [
    .of "scene_length" .defaulted .size fun v c => { c with sceneLength := v },
    .of "tree_width" .defaulted .size fun v c => { c with treeWidth := v },
    .of "constraints" .defaulted Constraints.record.read fun v c => { c with constraints := v },
    .of "training_ratio" .defaulted .float fun v c => { c with trainingRatio := v },
    .of "seed" .defaulted .word32 fun v c => { c with seed := v },
    .of "shuffle" .defaulted .bool fun v c => { c with shuffle := v },
    .of "max_scenes" .defaulted (.option .size) fun v c => { c with maxScenes := v },
    .of "step_budget" .defaulted (.option .word64) fun v c => { c with stepBudget := v },
    .of "time_budget_ms" .defaulted (.option .word64) fun v c => { c with timeBudget := v },
    .of "output" .defaulted Naming.record.read fun v c => { c with output := v }]
  blank := standard

/-- The configuration in a document. -/
def ofText (text : String) : Except ReadError Config := record.read.run text

/-- The digest of a configuration, which identifies it whatever the order and layout of its
document. -/
def hash (c : Config) : String := c.toJson.hash

end Config

end SoundScenes
