import SoundScenes.Proofs.Catalog.Sizes
import SoundScenes.Proofs.Command.Desk
import SoundScenes.Proofs.Command.Settings
import SoundScenes.Proofs.Generation
import SoundScenes.Proofs.Search.Bounds

/-!
# Reports of generations

A generation reports what it has done in every case: whether it gave a dataset, was cut off by a
budget or had its configuration refused. The report is read back as it was written if its share is a
finite number. Otherwise the share is written as nothing, and the report cannot be read.

* `GenerateCommand.reportOn` — the report of a generation;
* `GenerateCommand.inRange_reportOn` — its numbers fit their types;
* `GenerateCommand.execute_report` — what a command writes, and what is read back.
-/

namespace SoundScenes

namespace Report

/-- Errors are listed behind those that are there already. -/
theorem foldl_addError (r : Report) (es : List Remark) :
    es.foldl addError r = { r with errors := r.errors ++ es, ok := r.ok && es.isEmpty } := by
  induction es generalizing r with
  | nil =>
    rw [List.foldl_nil, List.append_nil, List.isEmpty_nil, Bool.and_true]
  | cons e es ih =>
    rw [List.foldl_cons, ih, addError, List.append_assoc, List.isEmpty_cons, Bool.and_false]
    rfl

theorem foldl_addWarning (r : Report) (ws : List Remark) :
    ws.foldl addWarning r = { r with warnings := r.warnings ++ ws } := by
  induction ws generalizing r with
  | nil => rw [List.foldl_nil, List.append_nil]
  | cons w ws ih =>
    rw [List.foldl_cons, ih, addWarning, List.append_assoc]
    rfl

/-- Errors are no numbers. -/
theorem InRange.addErrors {r : Report} (h : r.InRange) (es : List Remark) :
    (es.foldl addError r).InRange := by
  rw [foldl_addError]
  exact { h with }

end Report

/-! ## Numbers of a generation -/

section

variable {catalog : Catalog} {config : Config} {date : String} {clock : Nat → Nat} {g : Generated}

theorem Catalog.inRange_summary (h : catalog.size < UInt64.size) : catalog.summary.InRange where
  total := h
  families f hf := by
    refine Nat.lt_of_le_of_lt ?_ h
    rw [Summary.sounds_of_mem catalog.sounds hf]
    exact List.count_le_length.trans_eq (List.length_map _)

theorem SplitSizes.inRange_of_total {s : SplitSizes} (h : s.total < UInt64.size) : s.InRange := by
  unfold total at h
  exact ⟨by omega, by omega, by omega⟩

/-- Counts within 64 bits fit their types. -/
theorem Stats.Bounded.inRange {c : Stats} {places : Nat} (h : c.Bounded c.steps places)
    (hsteps : c.steps < UInt64.size) (hplaces : places < UInt64.size) : c.InRange where
  steps := hsteps
  nodesCreated := Nat.lt_of_le_of_lt h.nodesCreated hsteps
  scenesEmitted := Nat.lt_of_le_of_lt h.scenesEmitted hsteps
  finalRejections := Nat.lt_of_le_of_lt h.finalRejections hsteps
  depths e he := ⟨(h.depths e he).1.trans hplaces, Nat.lt_of_le_of_lt (h.depths e he).2 hsteps⟩
  reasons e he := Nat.lt_of_le_of_lt (h.reasons e he) hsteps
  draws := ⟨fun n hn => Nat.lt_of_le_of_lt (h.draws.bySound n hn) hsteps,
    fun n hn => Nat.lt_of_le_of_lt (h.draws.byFamily n hn) hsteps⟩

/-- The numbers of a generation that gives a result fit their types. -/
structure Generated.InRange (g : Generated) : Prop where
  sizes : g.dataset.sizes.InRange
  termination : g.termination.InRange
  stats : g.stats.InRange

theorem inRange_termination (hconfig : config.InRange) :
    (searchOutcome catalog config clock).termination.InRange := by
  rcases Search.run_termination (.ofConfig catalog config) clock (Pcg.ofSeed config.seed) with
    h | ⟨k, hk, h⟩ | ⟨k, hk, h⟩ | ⟨k, hk, h⟩
  · rw [searchOutcome, h]
    trivial
  · rw [searchOutcome, h]
    exact hconfig.maxScenes k hk
  · rw [searchOutcome, h]
    exact hconfig.stepBudget k hk
  · rw [searchOutcome, h]
    exact hconfig.timeBudget k hk

theorem inRange_of_generate (hconfig : config.InRange)
    (hsteps : (searchOutcome catalog config clock).stats.steps < UInt64.size)
    (h : generate catalog config date clock = .ok g) : g.InRange := by
  obtain ⟨warnings, d, -, hd, rfl⟩ := generate_eq_ok.mp h
  obtain ⟨hbounded, hscenes⟩ :=
    Search.run_bounded (.ofConfig catalog config) clock (Pcg.ofSeed config.seed)
  constructor
  case sizes =>
    refine SplitSizes.inRange_of_total ?_
    rw [← Dataset.total, Dataset.total_ofScenes hd]
    have hle := hbounded.scenesEmitted
    rw [hscenes] at hle
    exact Nat.lt_of_le_of_lt hle hsteps
  case termination => exact inRange_termination hconfig
  case stats => exact hbounded.inRange hsteps hconfig.sceneLength

/-- The draws of families by name are counts of draws. -/
theorem Draws.mem_named {d : Draws} {names : List String} {e : String × Nat}
    (h : e ∈ (d.named names).toList) : e.2 ∈ d.byFamily :=
  (List.of_mem_zip (Tally.mem_toList_ofEntries h)).2

end

namespace GenerateCommand

variable {c : GenerateCommand} {catalog : Catalog} {config : Config} {day : String}
  {clock : Nat → Nat} {g : Generated} {report : Report}

/-! ## Reports -/

/-- What a run reports in the end that has given a dataset or failed. -/
def closingReport (c : GenerateCommand) (report : Report) :
    Except GenerationError Generated → Report
  | .ok g => finishedReport ((strictErrors c.strict g.termination).foldl Report.addError report) g
  | .error (.invalidConfig errors) | .error (.infeasible errors) => refusedReport report errors
  | .error e => report.addError (.plain e.code e.message)

/-- Where the report is then. Names that have been refused do not count. -/
def closingPath (c : GenerateCommand) (config : Config) :
    Except GenerationError Generated → String
  | .error (.invalidConfig errors) | .error (.infeasible errors) =>
    reportPath c.root (refusedNaming config.output errors)
  | _ => reportPath c.root config.output

/-- What a generation reports, on a day and by a clock. -/
def reportOn (c : GenerateCommand) (catalog : Catalog) (config : Config) (day : String)
    (clock : Nat → Nat) : Report :=
  c.closingReport (startReport config catalog day) (generate catalog config day clock)

theorem inRange_startReport (hconfig : config.InRange) (hsize : catalog.size < UInt64.size) :
    (startReport config catalog day).InRange where
  version := show Report.currentVersion < UInt32.size by decide
  config := hconfig
  catalog := Catalog.inRange_summary hsize
  sizes _ h := by cases h
  termination _ h := by cases h
  stats _ h := by cases h
  familyDraws e he := absurd he (Tally.not_mem_toList_empty e)
  duration := show 0 < UInt64.size by decide

theorem inRange_finishedReport (h : report.InRange) (hg : g.InRange) :
    (finishedReport report g).InRange := by
  have hsome {α : Type} {q : α → Prop} {a : α} (ha : q a) (b : α) (hb : some a = some b) : q b := by
    cases hb
    exact ha
  rw [finishedReport, Report.foldl_addWarning]
  exact { h with
    sizes := hsome hg.sizes
    termination := hsome hg.termination
    stats := hsome hg.stats
    familyDraws := fun e he => hg.stats.draws.byFamily _ (Draws.mem_named he) }

/-- The numbers of a report fit their types. -/
theorem inRange_reportOn (hconfig : config.InRange) (hsize : catalog.size < UInt64.size)
    (hsteps : (searchOutcome catalog config clock).stats.steps < UInt64.size) :
    (c.reportOn catalog config day clock).InRange := by
  have hstart : (startReport config catalog day).InRange := inRange_startReport hconfig hsize
  rw [reportOn]
  cases hgen : generate catalog config day clock with
  | ok g =>
    exact inRange_finishedReport (hstart.addErrors _) (inRange_of_generate hconfig hsteps hgen)
  | error e =>
    cases e with
    | invalidConfig errors | infeasible errors => exact hstart.addErrors _
    | catalog | budgetExceeded => exact hstart.addErrors [_]

/-- A report is about the configuration of its run. -/
theorem config_reportOn : (c.reportOn catalog config day clock).config = config := by
  rw [reportOn]
  cases generate catalog config day clock with
  | ok g =>
    rw [closingReport, finishedReport, Report.foldl_addWarning, Report.foldl_addError]
    rfl
  | error e =>
    cases e with
    | invalidConfig errors | infeasible errors =>
      rw [closingReport, refusedReport, Report.foldl_addError]
      rfl
    | catalog | budgetExceeded => rfl

/-! ## Runs -/

theorem with_duration_zero (h : report.duration = 0) : { report with duration := 0 } = report := by
  cases report
  cases h
  rfl

theorem finishedReport_with_duration (h : report.duration = 0) (es : List Remark) (g : Generated) :
    { finishedReport (es.foldl Report.addError report) g with duration := 0 } =
      finishedReport (es.foldl Report.addError report) g := by
  refine with_duration_zero ?_
  rw [finishedReport, Report.foldl_addWarning, Report.foldl_addError]
  exact h

theorem refusedReport_with_duration (h : report.duration = 0) (errors : List ErrorFinding) :
    { refusedReport report errors with duration := 0 } = refusedReport report errors := by
  refine with_duration_zero ?_
  rw [refusedReport, Report.foldl_addError]
  exact h

/-- The end of a run writes the scenes of the dataset and the report, and nothing else. -/
theorem keeps_conclude {p : String → Prop} {generated : Except GenerationError Generated}
    (hduration : report.duration = 0)
    (hsets : ∀ g, generated = .ok g → ∀ e ∈ g.dataset.sets, p e.2.toJson.pretty)
    (hreport : p (c.closingReport report generated).toJson.pretty) :
    Desk.Keeps p (c.conclude config report 0 generated : StateM Desk _) := by
  cases generated with
  | ok g =>
    refine keeps_finish (hsets g rfl) ?_
    rw [finishedReport_with_duration hduration]
    exact hreport
  | error e =>
    cases e with
    | invalidConfig errors | infeasible errors =>
      refine Desk.Keeps.now (keeps_fail ?_)
      rw [refusedReport_with_duration hduration]
      exact hreport
    | catalog | budgetExceeded => exact keeps_fail hreport

/-- After the end the report is found, or an error of writing is told. -/
theorem ends_conclude (hduration : report.duration = 0)
    (generated : Except GenerationError Generated) (d : Desk) :
    Desk.Ends (ReportFound (c.closingPath config generated) (c.closingReport report generated))
      (c.conclude config report 0 generated : StateM Desk _) d := by
  cases generated with
  | ok g =>
    rw [closingReport, ← finishedReport_with_duration hduration]
    exact ends_finish c config report g d
  | error e =>
    cases e with
    | invalidConfig errors | infeasible errors =>
      rw [closingReport, ← refusedReport_with_duration hduration]
      exact Desk.Ends.now (ends_fail _ _ _ d)
    | catalog | budgetExceeded => exact ends_fail _ _ _ d

/-- A command writes the scenes of its dataset and its report, and nothing else. -/
theorem mem_output_runOn {d : Desk} (hfresh : d.written = [])
    (hinput : c.inputOn d = .ok (catalog, config)) {place : Place} {text : String}
    (hwritten : (place, text) ∈ (c.runOn d).2.output) :
    text = (c.reportOn catalog config d.day d.clock).toJson.pretty ∨
      ∃ g, generate catalog config d.day d.clock = .ok g ∧
        ∃ e ∈ g.dataset.sets, text = e.2.toJson.pretty := by
  rw [runOn_of_ok hinput, Desk.mem_output] at hwritten
  have hkeeps : Desk.Keeps (fun text =>
      text = (c.reportOn catalog config d.day d.clock).toJson.pretty ∨
        ∃ g, generate catalog config d.day d.clock = .ok g ∧
          ∃ e ∈ g.dataset.sets, text = e.2.toJson.pretty)
      (c.conclude config (startReport config catalog d.day) 0
        (generate catalog config d.day d.clock) : StateM Desk _) :=
    keeps_conclude rfl (fun g hg e he => .inr ⟨g, hg, e, he, rfl⟩) (.inl rfl)
  refine hkeeps d (fun place hplace => ?_) place hwritten.1 text hwritten.2
  rw [hfresh] at hplace
  cases hplace

/-- Unless a command tells an error of writing, its report is there in the end. -/
theorem read_reportOn {d : Desk} (hinput : c.inputOn d = .ok (catalog, config))
    (hnone : ∀ r ∈ (c.runOn d).1.errors, r.code ≠ CommandCode.outputWrite.code) :
    (c.runOn d).2.files.read (c.closingPath config (generate catalog config d.day d.clock)) =
      .ok (c.reportOn catalog config d.day d.clock).toJson.pretty := by
  have hfound : ReportFound (c.closingPath config (generate catalog config d.day d.clock))
      (c.reportOn catalog config d.day d.clock) (c.runOn d).1 (c.runOn d).2 := by
    rw [runOn_of_ok hinput]
    exact ends_conclude rfl _ d
  exact hfound.resolve_right fun ⟨r, hr, hcode⟩ => hnone r hr hcode

/-- A report cannot be read if the share of its configuration is no finite number. -/
theorem ofText_reportOn_error (hconfig : config.InRange) (hsize : catalog.size < UInt64.size)
    (hsteps : (searchOutcome catalog config clock).stats.steps < UInt64.size)
    (hratio : config.trainingRatio.isFinite = false) :
    Report.ofText (c.reportOn catalog config day clock).toJson.pretty =
      .error (.invalidType .null "f64") := by
  refine Report.ofText_pretty_error (inRange_reportOn hconfig hsize hsteps) ?_
  rw [config_reportOn]
  exact hratio

/-- **Reports are read back.** On a fresh desk a command writes only the scenes of its dataset and
its report, whether the run gives a dataset, is cut off by a budget or has its configuration
refused; unless it tells an error of writing, the report is there in the end. The report is read
back as it was written if the share is a finite number. If it is not, the report cannot be read. -/
theorem execute_report {d : Desk} (hs : ∀ x ∈ c.layers.settings, x.InRange)
    (hfresh : d.written = []) (hinput : c.inputOn d = .ok (catalog, config))
    (hsize : catalog.size < UInt64.size)
    (hsteps : (searchOutcome catalog config d.clock).stats.steps < UInt64.size)
    (hratio : config.trainingRatio.isFinite = true →
      Reader.float.run (Json.float config.trainingRatio).compact = .ok config.trainingRatio) :
    let report := c.reportOn catalog config d.day d.clock
    let generated := generate catalog config d.day d.clock
    (∀ place text, (place, text) ∈ (c.runOn d).2.output →
      text = report.toJson.pretty ∨
        ∃ g, generated = .ok g ∧ ∃ e ∈ g.dataset.sets, text = e.2.toJson.pretty) ∧
      ((∀ r ∈ (c.runOn d).1.errors, r.code ≠ CommandCode.outputWrite.code) →
        (c.runOn d).2.files.read (c.closingPath config generated) = .ok report.toJson.pretty) ∧
      (config.trainingRatio.isFinite = true → Report.ofText report.toJson.pretty = .ok report) ∧
      (config.trainingRatio.isFinite = false →
        Report.ofText report.toJson.pretty = .error (.invalidType .null "f64")) := by
  intro report generated
  have hconfig : config.InRange := inRange_loadInput hs hinput
  refine ⟨fun place text => mem_output_runOn hfresh hinput, read_reportOn hinput,
    fun hfinite => ?_, ofText_reportOn_error hconfig hsize hsteps⟩
  refine Report.ofText_pretty (inRange_reportOn hconfig hsize hsteps) ?_
  rw [config_reportOn]
  exact hratio hfinite

/-! ## A small run -/

/-- A desk with a catalog of two sounds. -/
def duetDesk : Desk :=
  .ofFiles (Files.empty.put ["catalog.json"]
    (.text "[\x7b\"instrument\": \"flute\"\x7d, \x7b\"instrument\": \"oboe\"\x7d]"))
    "2024-01-01" fun _ => 0

/-- A command that generates scenes of both sounds, with a share for training. -/
def duetCommand (ratio : Float) : GenerateCommand where
  catalog := "catalog.json"
  layers := ⟨none, [.sceneLength 2, .treeWidth 2, .constraints ⟨2, 1, 2⟩, .shuffle false,
    .trainingRatio ratio]⟩
  root := "out"
  strict := false

/-- What has to be looked up before anything is known of the report of such a command. -/
def duetReady (ratio : Float) : Bool :=
  match (duetCommand ratio).inputOn duetDesk with
  | .ok (catalog, config) =>
    catalog.size < UInt64.size ∧
      (searchOutcome catalog config duetDesk.clock).stats.steps < UInt64.size ∧
      config.trainingRatio = ratio ∧
      (duetCommand ratio).closingPath config
        (generate catalog config duetDesk.day duetDesk.clock) = "out/AQA_V0.1.report.json"
  | .error _ => false

theorem duet_input {ratio : Float} (h : duetReady ratio = true) : ∃ catalog config,
    (duetCommand ratio).inputOn duetDesk = .ok (catalog, config) ∧
      catalog.size < UInt64.size ∧
      (searchOutcome catalog config duetDesk.clock).stats.steps < UInt64.size ∧
      config.trainingRatio = ratio ∧
      (duetCommand ratio).closingPath config
        (generate catalog config duetDesk.day duetDesk.clock) = "out/AQA_V0.1.report.json" := by
  unfold duetReady at h
  split at h
  · next catalog config hinput => exact ⟨catalog, config, hinput, of_decide_eq_true h⟩
  · cases h

theorem inRange_duetCommand (ratio : Float) :
    ∀ x ∈ (duetCommand ratio).layers.settings, x.InRange := by
  intro x hx
  simp only [duetCommand, List.mem_cons, List.not_mem_nil, or_false] at hx
  rcases hx with rfl | rfl | rfl | rfl | rfl
  · exact show 2 < UInt64.size by decide
  · exact show 2 < UInt64.size by decide
  · exact ⟨by decide, by decide, by decide⟩
  · trivial
  · trivial

/-- A dataset is made of two sounds, and its report is read back. -/
theorem report_duet : ∃ text report,
    ((duetCommand 0.5).runOn duetDesk).2.files.read "out/AQA_V0.1.report.json" = .ok text ∧
      Report.ofText text = .ok report ∧ report.config.trainingRatio = 0.5 := by
  obtain ⟨catalog, config, hinput, hsize, hsteps, hratio, hpath⟩ :=
    duet_input (show duetReady 0.5 = true by decide +kernel)
  have hshare : Reader.float.run (Json.float 0.5).compact = .ok 0.5 :=
    toOption_eq_some.mp (by decide +kernel)
  have hfinite : config.trainingRatio.isFinite = true := hratio ▸ rfl
  obtain ⟨-, hread, hback, -⟩ := execute_report (inRange_duetCommand 0.5) rfl hinput hsize hsteps
    fun _ => hratio ▸ hshare
  have hread := hread (by decide +kernel)
  rw [hpath] at hread
  exact ⟨_, _, hread, hback hfinite, config_reportOn ▸ hratio⟩

/-- A share that is not a number is refused, and the report that says so cannot be read. -/
theorem report_duet_nan : ∃ text,
    ((duetCommand (0 / 0)).runOn duetDesk).2.files.read "out/AQA_V0.1.report.json" = .ok text ∧
      Report.ofText text = .error (.invalidType .null "f64") := by
  obtain ⟨catalog, config, hinput, hsize, hsteps, hratio, hpath⟩ :=
    duet_input (show duetReady (0 / 0) = true by decide +kernel)
  have hread := read_reportOn hinput (by decide +kernel)
  rw [hpath] at hread
  refine ⟨_, hread, ofText_reportOn_error ?_ hsize hsteps ?_⟩
  · exact inRange_loadInput (inRange_duetCommand _) hinput
  · rw [hratio]
    rfl

end GenerateCommand

end SoundScenes
