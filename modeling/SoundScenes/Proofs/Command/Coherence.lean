import SoundScenes.Proofs.Command.Confinement
import SoundScenes.Proofs.Scene.Contents
import SoundScenes.Proofs.Scene.Documents

/-!
# What a command says and what it writes

A command answers, writes a report and writes scenes. All three come from the same generation, and
none of them says anything else than the others.

* `Host.Serves` — hosts that run their searches as they should;
* `Report.Tells` — a report and an answer say the same;
* `GenerateCommand.Agree` — the result, the report and the scenes have the same numbers;
* `GenerateCommand.Legible` — runs whose documents are read back;
* `GenerateCommand.execute_coherent` — what is written and what is said.
-/

namespace SoundScenes

/-- A host runs every search by some clock, and its time is a number of 64 bits. -/
structure Host.Serves (σ : Type) [Host (StateM σ)] : Prop where
  search : ∀ (s : Search) (g : Pcg) (st : σ),
    ∃ clock, ((Host.search s g : StateM σ _) st).1 = s.run clock g
  now : ∀ st, ((Host.now : StateM σ Nat) st).1 < UInt64.size

/-- A report says about the success of a run what the command answers. -/
structure Report.Tells (report : Report) (o : GenerateOutput) : Prop where
  ok : report.ok = o.success
  errors : report.errors = o.errors
  warnings : report.warnings = o.warnings

namespace GenerateCommand

variable {σ : Type} [Host (StateM σ)] {c : GenerateCommand} {catalog : Catalog} {config : Config}
  {date : String} {clock : Nat → Nat} {g : Generated}
  {generated : Except GenerationError Generated} {o : GenerateOutput} {r : GeneratedFiles}
  {ws : List Write} {duration : Nat}

/-- The report that ends a run, with the time that it took. -/
def lastReport (c : GenerateCommand) (catalog : Catalog) (config : Config) (date : String)
    (duration : Nat) (generated : Except GenerationError Generated) : Report :=
  { c.closingReport (startReport config catalog date) generated with duration := duration }

/-! ## Success and failure -/

/-- On a host that serves, nothing but generation is done. -/
theorem generated_eq (hserves : Host.Serves σ)
    (h : GeneratesOn σ catalog config date generated) :
    ∃ clock, generated = generate catalog config date clock := by
  cases h with
  | refused hcheck =>
    refine ⟨fun _ => 0, ?_⟩
    rw [generate, hcheck]
    rfl
  | searched hcheck st =>
    obtain ⟨clock, hclock⟩ := hserves.search (.ofConfig catalog config) (Pcg.ofSeed config.seed) st
    refine ⟨clock, ?_⟩
    rw [generate, hcheck, hclock]
    rfl

theorem duration_lt (hserves : Host.Serves σ) (h : Elapsed σ duration) :
    duration < UInt64.size := by
  rcases h with rfl | ⟨st, hle⟩
  · decide
  · exact Nat.lt_of_le_of_lt hle (hserves.now st)

/-- Whatever comes of a generation, the report says what the command answers. -/
theorem tells_answer (c : GenerateCommand) (catalog : Catalog) (config : Config) (date : String)
    (clock : Nat → Nat) (duration : Nat) :
    let generated := generate catalog config date clock
    (c.lastReport catalog config date duration generated).Tells
      (c.answer config duration generated) := by
  intro generated
  cases hgen : generated with
  | ok g =>
    rw [lastReport, closingReport, finishedReport, Report.foldl_addWarning, Report.foldl_addError]
    exact ⟨rfl, rfl, rfl⟩
  | error e =>
    obtain ⟨errors, hne, he⟩ := generate_error_cases hgen
    have hsome : (errors.map Remark.ofFinding).isEmpty = false :=
      List.isEmpty_eq_false_iff.mpr (mt List.map_eq_nil_iff.mp hne)
    rcases he with rfl | rfl <;>
    · rw [lastReport, closingReport, refusedReport, Report.foldl_addError, hsome]
      exact ⟨rfl, rfl, rfl⟩

theorem strictErrors_isEmpty {strict : Bool} {t : Termination} :
    (strictErrors strict t).isEmpty = false ↔ strict = true ∧ t.byBudget = true := by
  unfold strictErrors
  split
  · next h => exact iff_of_true rfl h
  · next h => exact iff_of_false (by decide) h

/-! ## Numbers -/

/-- The result of a command, its report and its scenes have the same numbers. -/
structure Agree (r : GeneratedFiles) (report : Report) (d : Dataset) : Prop where
  scenes : ∀ split, (d.get split).scenes.length = r.sizes.get split
  sizes : report.sizes = some r.sizes
  /-- The fingerprint can be computed again from the scenes. -/
  recomputed : SoundScenes.fingerprint (d.scenes.map Scene.ids) = r.fingerprint
  fingerprint : report.fingerprint = some r.fingerprint
  termination : report.termination = some r.termination
  emitted : ∃ stats, report.stats = some stats ∧ stats.scenesEmitted = d.total

theorem agree_answer (hgen : generate catalog config date clock = .ok g)
    (hresult : (c.answer config duration (.ok g)).result = some r) :
    Agree r (c.lastReport catalog config date duration (.ok g)) g.dataset := by
  have hids := ids_generate hgen
  obtain ⟨warnings, d, -, hd, rfl⟩ := generate_eq_ok.mp hgen
  cases hresult
  rw [lastReport, closingReport, finishedReport, Report.foldl_addWarning]
  constructor
  case scenes =>
    intro split
    cases split <;> rfl
  case sizes => rfl
  case recomputed =>
    rw [hids]
    exact fingerprint_eq_of_perm (arrange_perm _ _)
  case fingerprint => rfl
  case termination => rfl
  case emitted =>
    refine ⟨_, rfl, ?_⟩
    rw [Dataset.total_ofScenes hd]
    exact (Search.run_bounded (.ofConfig catalog config) clock (Pcg.ofSeed config.seed)).2

/-! ## Reading back -/

/-- Input whose documents are read back: the numbers fit their types, whatever the clock of the
search, and the share is read as some number, as finite numbers are. -/
structure Readable (catalog : Catalog) (config : Config) : Prop where
  numbers : config.InRange
  sounds : ∀ s ∈ catalog.sounds, s.InRange
  size : catalog.size < UInt64.size
  steps : ∀ clock, (searchOutcome catalog config clock).stats.steps < UInt64.size
  share : ∃ ratio, Reader.float.run (Json.float config.trainingRatio).compact = .ok ratio

/-- The report is read back, up to a share that is read as another number. -/
theorem Readable.report (h : Readable catalog config) (hduration : duration < UInt64.size)
    (date : String) (clock : Nat → Nat) :
    let report := c.lastReport catalog config date duration (generate catalog config date clock)
    ∃ ratio, Report.ofText report.toJson.pretty = .ok (report.withRatio ratio) := by
  intro report
  obtain ⟨ratio, hratio⟩ := h.share
  have hrange : (c.reportOn catalog config date clock).InRange :=
    inRange_reportOn h.numbers h.size (h.steps clock)
  have hlast : report.InRange := { hrange with duration := hduration }
  have hconfig : report.config = config := config_reportOn
  refine ⟨ratio, Report.ofText_pretty_withRatio hlast ?_⟩
  rw [hconfig]
  exact hratio

/-- The scenes of every split are read back. -/
theorem Readable.scenes (h : Readable catalog config)
    (hgen : generate catalog config date clock = .ok g) (split : Split) :
    SceneSet.record.read.run (g.dataset.get split).toJson.pretty = .ok (g.dataset.get split) := by
  have hsizes := (inRange_of_generate h.numbers (h.steps clock) hgen).sizes
  obtain ⟨warnings, d, hcheck, hd, rfl⟩ := generate_eq_ok.mp hgen
  refine SceneSet.run_pretty ?_
  refine SceneSet.inRange_ofScenes (Dataset.get_ofScenes hd split) h.sounds ?_ fun ids hids => ?_
  · cases split with
    | train => exact hsizes.train
    | val => exact hsizes.val
    | test => exact hsizes.test
  · have hfound := (arrange_perm _ _).mem_iff.mp (SplitSizes.mem_of_mem_part hids)
    have hcomplete := (searchOutcome_scenes (Config.length_pos_of_check hcheck) hfound).1
    exact hcomplete.length_eq.symm ▸ h.numbers.sceneLength

/-- Whatever a command finds as its input, its documents are read back: its settings are in range,
the catalog and the steps of a search are counted with 64 bits, and the share is read as some
number. -/
def Legible (c : GenerateCommand) (s : σ) : Prop :=
  (∀ x ∈ c.layers.settings, x.InRange) ∧
    ∀ catalog config, c.inputFrom s = .ok (catalog, config) →
      catalog.size < UInt64.size ∧
      (∀ clock, (searchOutcome catalog config clock).stats.steps < UInt64.size) ∧
      ∃ ratio, Reader.float.run (Json.float config.trainingRatio).compact = .ok ratio

theorem Legible.readable {s : σ} (h : c.Legible s)
    (hinput : c.inputFrom s = .ok (catalog, config)) : Readable catalog config := by
  obtain ⟨hsize, hsteps, hshare⟩ := h.2 catalog config hinput
  obtain ⟨text, htext⟩ := exists_text_of_loadCatalog (loadInput_ok hinput).1
  exact ⟨inRange_loadInput h.1 hinput, Catalog.inRange_sounds_ofText htext hsize, hsize, hsteps,
    hshare⟩

/-! ## Runs -/

/-- What is written under the name of a report is the report, and then all documents have been
written. -/
theorem concluded_of_report {report : Report} (h : Concluded σ c config report generated o ws)
    {w : Write} (hw : w ∈ ws) (haccepted : w.accepted = true) {n : Naming}
    (hpath : w.path = reportPath c.root n) :
    ∃ duration, Elapsed σ duration ∧ o = c.answer config duration generated ∧
      w.text = { c.closingReport report generated with duration := duration }.toJson.pretty := by
  have hscenes {d : String × Json} (hd : d ∈ c.sceneDocuments config generated)
      (hname : w.path = d.1) : False := by
    cases generated with
    | error e => cases hd
    | ok g =>
      obtain ⟨⟨split, set⟩, -, rfl⟩ := List.mem_map.mp hd
      exact reportPath_ne_scenesPath c.root n config.output split (hpath.symm.trans hname)
  cases h with
  | spoilt htried =>
    obtain ⟨d, hd, hname⟩ := htried.mem_dropLast_of_accepted hw haccepted
    rw [documents, List.dropLast_concat] at hd
    exact (hscenes hd hname).elim
  | written duration hduration =>
    obtain ⟨d, hd, rfl⟩ := List.mem_map.mp hw
    rcases List.mem_append.mp hd with hd | hd
    · exact (hscenes hd rfl).elim
    · cases List.mem_singleton.mp hd
      exact ⟨duration, hduration, rfl, rfl⟩

/-- A report that has been written tells what the command answers, and is read back. -/
theorem tells_of_report (hserves : Host.Serves σ)
    (hgenerated : GeneratesOn σ catalog config date generated)
    (h : Concluded σ c config (startReport config catalog date) generated o ws) {w : Write}
    (hw : w ∈ ws) (haccepted : w.accepted = true) {n : Naming}
    (hpath : w.path = reportPath c.root n) :
    ∃ report : Report, w.text = report.toJson.pretty ∧ report.Tells o ∧
      (Readable catalog config →
        ∃ ratio, Report.ofText w.text = .ok (report.withRatio ratio)) := by
  obtain ⟨clock, rfl⟩ := generated_eq hserves hgenerated
  obtain ⟨duration, hduration, rfl, htext⟩ := concluded_of_report h hw haccepted hpath
  refine ⟨_, htext, tells_answer c catalog config date clock duration, fun hreadable => ?_⟩
  rw [htext]
  exact hreadable.report (duration_lt hserves hduration) date clock

/-- A run that gives a result has written scenes and a report that agree with it. -/
theorem agree_of_result (hserves : Host.Serves σ)
    (hgenerated : GeneratesOn σ catalog config date generated)
    (h : Concluded σ c config (startReport config catalog date) generated o ws)
    (hr : o.result = some r) :
    ∃ n d report, ws = notesOf c.root n d report ∧ report.Tells o ∧ Agree r report d ∧
      (o.success = false ↔ c.strict = true ∧ r.termination.byBudget = true) ∧
      (Readable catalog config →
        (∃ ratio, Report.ofText report.toJson.pretty = .ok (report.withRatio ratio)) ∧
        ∀ split, SceneSet.record.read.run (d.get split).toJson.pretty = .ok (d.get split)) := by
  obtain ⟨clock, rfl⟩ := generated_eq hserves hgenerated
  have hsome : o.result ≠ none := by
    rw [hr]
    exact Option.some_ne_none r
  obtain ⟨g, duration, hgen, hduration, rfl, hws⟩ := writes_of_result hsome h
  have htells := tells_answer c catalog config date clock duration
  have hreport (hreadable : Readable catalog config) :=
    hreadable.report (c := c) (duration_lt hserves hduration) date clock
  rw [hgen] at htells hreport
  have hagree := agree_answer hgen hr
  cases hr
  exact ⟨_, _, _, hws, htells, hagree, strictErrors_isEmpty, fun hreadable =>
    ⟨hreport hreadable, hreadable.scenes hgen⟩⟩

/-- **A command says what it writes.** On every host that serves and with any input, a report that
has been written says about success, errors and warnings what the command answers. If there is a
result, its sizes, its fingerprint and its end are those of the report and of the scenes that have
been written, and the run counts as a failure exactly if a budget has cut the search off and the
command is strict. If the numbers and the share can be read, so can report and scenes, where nothing
but the share may come back as another number. -/
theorem execute_coherent (hserves : Host.Serves σ) (c : GenerateCommand) (s : σ) :
    let o := (c.runFrom s).1
    let writes := (c.notedFrom s).2.writes
    (∀ w ∈ writes, w.accepted = true → (∃ n, w.path = reportPath c.root n) →
      ∃ report : Report, w.text = report.toJson.pretty ∧ report.Tells o ∧
        (c.Legible s → ∃ ratio, Report.ofText w.text = .ok (report.withRatio ratio))) ∧
      ∀ r, o.result = some r → ∃ n d report, writes = notesOf c.root n d report ∧
        report.Tells o ∧ Agree r report d ∧
        (o.success = false ↔ c.strict = true ∧ r.termination.byBudget = true) ∧
        (c.Legible s →
          (∃ ratio, Report.ofText report.toJson.pretty = .ok (report.withRatio ratio)) ∧
          ∀ split, SceneSet.record.read.run (d.get split).toJson.pretty = .ok (d.get split)) := by
  intro o writes
  obtain ⟨-, -, hhandled⟩ := handled_execute c s
  cases hinput : c.inputFrom s with
  | error e =>
    rw [hinput] at hhandled
    obtain ⟨ho, hnone⟩ := hhandled
    have hnone : writes = [] := hnone
    refine ⟨fun w hw => ?_, fun r hr => ?_⟩
    · rw [hnone] at hw
      cases hw
    · cases (congrArg GenerateOutput.result ho).symm.trans hr
  | ok input =>
    obtain ⟨catalog, config⟩ := input
    rw [hinput] at hhandled
    obtain ⟨date, generated, hgenerated, hconcluded⟩ := hhandled
    refine ⟨fun w hw haccepted ⟨n, hpath⟩ => ?_, fun r hr => ?_⟩
    · obtain ⟨report, htext, htells, hback⟩ :=
        tells_of_report hserves hgenerated hconcluded hw haccepted hpath
      exact ⟨report, htext, htells, fun hlegible => hback (hlegible.readable hinput)⟩
    · obtain ⟨n, d, report, hws, htells, hagree, hfailure, hback⟩ :=
        agree_of_result hserves hgenerated hconcluded hr
      exact ⟨n, d, report, hws, htells, hagree, hfailure, fun hlegible =>
        hback (hlegible.readable hinput)⟩

/-! ## A small run -/

/-- A desk runs searches by its clock, and its time stands still. -/
theorem serves_desk : Host.Serves Desk where
  search _ _ d := ⟨d.clock, rfl⟩
  now _ := show 0 < UInt64.size by decide

/-- What has to be looked up before anything is known of the documents of two sounds. -/
def duetBounded : Bool :=
  match (duetCommand 0.5).inputFrom duetDesk with
  | .ok (catalog, config) =>
    catalog.size < UInt64.size ∧ (Search.ofConfig catalog config).stepBound < UInt64.size ∧
      config.trainingRatio = 0.5
  | .error _ => false

/-- The search for scenes of two sounds is short, whatever the clock. -/
theorem legible_duet : (duetCommand 0.5).Legible duetDesk := by
  have hbounded : duetBounded = true := by decide +kernel
  have hshare : Reader.float.run (Json.float 0.5).compact = .ok 0.5 :=
    toOption_eq_some.mp (by decide +kernel)
  refine ⟨inRange_duetCommand 0.5, fun catalog config hinput => ?_⟩
  rw [duetBounded, hinput] at hbounded
  obtain ⟨hsize, hbound, hratio⟩ := of_decide_eq_true hbounded
  refine ⟨hsize, fun clock => ?_, 0.5, ?_⟩
  · exact Nat.lt_trans (Search.run_steps_lt _ clock _) hbound
  · rw [hratio]
    exact hshare

/-- The scenes of two sounds are written with a report, and both are read back. -/
theorem execute_coherent_duet : ∃ n d report,
    ((duetCommand 0.5).notedFrom duetDesk).2.writes = notesOf "out" n d report ∧
      (∃ ratio, Report.ofText report.toJson.pretty = .ok (report.withRatio ratio)) ∧
      report.fingerprint = some (SoundScenes.fingerprint (d.scenes.map Scene.ids)) ∧
      ∀ split, SceneSet.record.read.run (d.get split).toJson.pretty = .ok (d.get split) := by
  have hsome : ((duetCommand 0.5).runFrom duetDesk).1.result.isSome = true := by decide +kernel
  obtain ⟨r, hr⟩ := Option.isSome_iff_exists.mp hsome
  obtain ⟨n, d, report, hwrites, -, hagree, -, hback⟩ :=
    (execute_coherent serves_desk (duetCommand 0.5) duetDesk).2 r hr
  obtain ⟨hreport, hscenes⟩ := hback legible_duet
  exact ⟨n, d, report, hwrites, hreport, hagree.recomputed ▸ hagree.fingerprint, hscenes⟩

end GenerateCommand

end SoundScenes
