import SoundScenes.Catalog.Summary
import SoundScenes.Config
import SoundScenes.Finding
import SoundScenes.Search.Stats
import SoundScenes.Search.Termination

/-!
# Reports

A report tells what a run was asked to do, what it found and what went wrong.

* `Remark` — an error or a warning as a report shows it;
* `Report.addError`, `Report.addStats` — what a run adds to its report;
* `Report.toJson`, `Report.record` — the document of a report, written and read.
-/

namespace SoundScenes

/-- The version of this program. -/
def release : String := "0.1.0"

/-- An error or a warning in a document. -/
structure Remark where
  code : String
  message : String
  /-- The field that is meant. -/
  path : Option String
  deriving DecidableEq, Repr

namespace Remark

/-- A remark about no field. -/
def plain (code message : String) : Remark := ⟨code, message, none⟩

/-- The remark of a finding. -/
def ofFinding {κ : Type} [Coded κ] (f : Finding κ) : Remark :=
  ⟨Coded.code f.code, f.message, f.path⟩

/-- The document of a remark. -/
def toJson (r : Remark) : Json :=
  .object (
    [("code", .string r.code), ("message", .string r.message)] ++
    Json.optionalEntry "path" (r.path.map .string))

/-- The document of several remarks. -/
def listToJson (rs : List Remark) : Json := .array (rs.map toJson)

/-- How a remark is read, under the name that it has in messages. -/
def record (name : String) : Record Remark where
  name := name
  fields := [
    .of "code" .required .string fun v r => { r with code := v },
    .of "message" .required .string fun v r => { r with message := v },
    .of "path" .optional (.option .string) fun v r => { r with path := v }]
  blank := ⟨"", "", none⟩

end Remark

/-- What a run has to tell. -/
structure Report where
  /-- The version of the document's form. -/
  version : Nat
  /-- Whether the run succeeded. -/
  ok : Bool
  generator : String
  configHash : String
  config : Config
  catalog : Summary
  errors : List Remark
  warnings : List Remark
  sizes : Option SplitSizes
  termination : Option Termination
  fingerprint : Option String
  stats : Option Stats
  /-- The draws of each family by its name. -/
  familyDraws : Tally String
  date : Option String
  /-- How long the run took, in milliseconds. -/
  duration : Nat

namespace Report

/-- The version of reports that this program writes. -/
def currentVersion : Nat := 1

/-- The report of a run that has done nothing yet. -/
def start (config : Config) (configHash generator : String) : Report where
  version := currentVersion
  ok := true
  generator := generator
  configHash := configHash
  config := config
  catalog := .empty
  errors := []
  warnings := []
  sizes := none
  termination := none
  fingerprint := none
  stats := none
  familyDraws := ∅
  date := none
  duration := 0

/-- One more error. The run has not succeeded then. -/
def addError (r : Report) (e : Remark) : Report :=
  { r with errors := r.errors ++ [e], ok := false }

/-- One more warning. -/
def addWarning (r : Report) (w : Remark) : Report := { r with warnings := r.warnings ++ [w] }

/-- The statistics of a search. Draws of families are listed by the names in the catalog. -/
def addStats (r : Report) (s : Stats) : Report :=
  { r with stats := some s, familyDraws := s.draws.named (r.catalog.families.map (·.family)) }

/-- The document of a report. What is not known is left out. -/
def toJson (r : Report) : Json :=
  .object (
    [("report_version", .nat r.version), ("ok", .bool r.ok),
      ("generator_version", .string r.generator), ("config_hash", .string r.configHash),
      ("config", r.config.toJson), ("catalog", r.catalog.toJson),
      ("errors", Remark.listToJson r.errors), ("warnings", Remark.listToJson r.warnings)] ++
    Json.optionalEntry "split_sizes" (r.sizes.map SplitSizes.toJson) ++
    Json.optionalEntry "termination" (r.termination.map Termination.toJson) ++
    Json.optionalEntry "scene_fingerprint" (r.fingerprint.map .string) ++
    Json.optionalEntry "stats" (r.stats.map Stats.toJson) ++
    Json.optionalEntry "family_draws" (if r.familyDraws.isEmpty then none
      else some (.object (r.familyDraws.toList.map fun e => (e.1, .nat e.2)))) ++
    Json.optionalEntry "generation_date" (r.date.map .string) ++
    [("duration_ms", .nat r.duration)])

/-- How a report is read. -/
def record : Record Report where
  name := "Report"
  fields := [
    .of "report_version" .required .word32 fun v r => { r with version := v },
    .of "ok" .required .bool fun v r => { r with ok := v },
    .of "generator_version" .required .string fun v r => { r with generator := v },
    .of "config_hash" .required .string fun v r => { r with configHash := v },
    .of "config" .required Config.record.read fun v r => { r with config := v },
    .of "catalog" .required Summary.record.read fun v r => { r with catalog := v },
    .of "errors" .required (.list (Remark.record "ReportError").read) fun v r =>
      { r with errors := v },
    .of "warnings" .required (.list (Remark.record "ReportWarning").read) fun v r =>
      { r with warnings := v },
    .of "split_sizes" .optional (.option SplitSizes.record.read) fun v r => { r with sizes := v },
    .of "termination" .optional (.option Termination.layout.read) fun v r =>
      { r with termination := v },
    .of "scene_fingerprint" .optional (.option .string) fun v r => { r with fingerprint := v },
    .of "stats" .optional (.option Stats.record.read) fun v r => { r with stats := v },
    .of "family_draws" .defaulted (.table Reader.key .word64) fun v r =>
      { r with familyDraws := Tally.ofEntries v },
    .of "generation_date" .optional (.option .string) fun v r => { r with date := v },
    .of "duration_ms" .required .word64 fun v r => { r with duration := v }]
  blank := start .standard "" ""

/-- The report in a document. -/
def ofText (text : String) : Except ReadError Report := record.read.run text

end Report

end SoundScenes
