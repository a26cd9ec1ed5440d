import SoundScenes.Command.Generate
import SoundScenes.Proofs.Command.Files

/-!
# What is written on a desk

A desk changes only by directories that are made and by files that are written. So whatever holds of
every text that a command writes holds of every text that is there in the end, and what has been
written last is found under its path.

* `Desk.Keeps` — actions that write only texts with a property;
* `Desk.Ends` — what holds after an action;
* `GenerateCommand.keeps_fail`, `GenerateCommand.keeps_finish` — the texts that are written;
* `GenerateCommand.ends_fail`, `GenerateCommand.ends_finish` — the report is found;
* `GenerateCommand.runOn_of_ok` — a run on the input that it has found.
-/

namespace SoundScenes

/-! ## Actions on a desk -/

namespace Desk

variable {α β : Type} {p : String → Prop}

/-- All texts that have been written have a property. -/
def Wrote (p : String → Prop) (d : Desk) : Prop :=
  ∀ place ∈ d.written, ∀ text, d.files.at? place = some (.text text) → p text

theorem mem_output {d : Desk} {place : Place} {text : String} :
    (place, text) ∈ d.output ↔ place ∈ d.written ∧ d.files.at? place = some (.text text) := by
  rw [output, List.mem_filterMap]
  constructor
  · rintro ⟨q, hq, h⟩
    split at h
    · next s hs =>
      cases h
      exact ⟨hq, hs⟩
    · cases h
  · rintro ⟨hplace, htext⟩
    exact ⟨place, hplace, by rw [htext]⟩

/-- An action writes only texts with a property. -/
def Keeps (p : String → Prop) (act : StateM Desk α) : Prop := ∀ d, d.Wrote p → (act d).2.Wrote p

theorem keeps_pure (a : α) : Keeps p (pure a) := fun _ h => h

theorem Keeps.bind {act : StateM Desk α} {next : α → StateM Desk β} (h : Keeps p act)
    (hnext : ∀ a, Keeps p (next a)) : Keeps p (act >>= next) :=
  fun d hd => hnext (act d).1 _ (h d hd)

/-- The time of a desk stands still. -/
theorem Keeps.now {next : Nat → StateM Desk β} (h : Keeps p (next 0)) :
    Keeps p (Host.now >>= next) := fun d hd => h d hd

/-- What holds of the result of an action and of the desk after it. -/
def Ends (post : α → Desk → Prop) (act : StateM Desk α) (d : Desk) : Prop :=
  post (act d).1 (act d).2

theorem Ends.bind {mid : α → Desk → Prop} {post : β → Desk → Prop} {act : StateM Desk α}
    {next : α → StateM Desk β} {d : Desk} (h : Ends mid act d)
    (hnext : ∀ a d', mid a d' → Ends post (next a) d') : Ends post (act >>= next) d :=
  hnext _ _ h

theorem Ends.now {post : β → Desk → Prop} {next : Nat → StateM Desk β} {d : Desk}
    (h : Ends post (next 0) d) : Ends post (Host.now >>= next) d := h

/-- An action changes nothing. -/
def Still (act : StateM Desk α) : Prop := ∀ d, (act d).2 = d

theorem still_pure (a : α) : Still (pure a) := fun _ => rfl

theorem Still.bind {act : StateM Desk α} {next : α → StateM Desk β} (h : Still act)
    (hnext : ∀ a, Still (next a)) : Still (act >>= next) :=
  fun d => (hnext (act d).1 _).trans (h d)

theorem still_readText (path : String) : Still (Host.readText path : StateM Desk _) := fun _ => rfl

/-! ## Directories and files -/

theorem keeps_makeDir (path : String) : Keeps p (Host.makeDir path : StateM Desk _) := by
  intro d hd
  show (makeDir path d).2.Wrote p
  unfold makeDir
  split
  · next files hmade =>
    obtain ⟨q, rfl⟩ := Files.makeDir_ok hmade
    intro place hplace text htext
    have htext : (d.files.put q .directory).at? place = some (.text text) := htext
    rw [Files.at?_put] at htext
    split at htext
    · cases htext
    · split at htext
      · cases htext
      · exact hd place hplace text htext
  · exact hd

theorem keeps_isDir (path : String) : Keeps p (Host.isDir path : StateM Desk _) := fun _ h => h

theorem keeps_writeText {path text : String} (h : p text) :
    Keeps p (Host.writeText path text : StateM Desk _) := by
  intro d hd
  show (writeText path text d).2.Wrote p
  unfold writeText
  split
  · next q files hwritten =>
    intro place hplace text' htext
    have hplace : place ∈ if q ∈ d.written then d.written else d.written ++ [q] := hplace
    have htext : files.at? place = some (.text text') := htext
    obtain ⟨-, -, -, -, -, -, -, rfl⟩ := Files.write_ok hwritten
    rw [Files.at?_put] at htext
    split at htext
    · cases htext
    · split at htext
      · cases htext
        exact h
      · next hne =>
        refine hd place ?_ text' htext
        split at hplace
        · exact hplace
        · exact (List.mem_append.mp hplace).resolve_right fun hq => hne (List.mem_singleton.mp hq)
  · exact hd

theorem ends_writeText (path text : String) (d : Desk) :
    Ends (fun wrote d => wrote = .ok () → d.files.read path = .ok text)
      (Host.writeText path text : StateM Desk _) d := by
  show (writeText path text d).1 = .ok () → (writeText path text d).2.files.read path = .ok text
  rw [writeText]
  cases hwritten : d.files.write path text with
  | error e => exact fun h => by cases h
  | ok found => exact fun _ => Files.read_of_write hwritten

theorem keeps_ensureDir (path : String) : Keeps p (Host.ensureDir path : StateM Desk _) := by
  refine (keeps_makeDir path).bind fun made => ?_
  cases made with
  | ok _ => exact keeps_pure _
  | error e =>
    refine (keeps_isDir path).bind fun there => ?_
    cases there <;> exact keeps_pure _

theorem keeps_makeDirs (paths : List String) : Keeps p (Host.makeDirs paths : StateM Desk _) := by
  induction paths with
  | nil => exact keeps_pure _
  | cons path outer ih =>
    refine (keeps_ensureDir path).bind fun made => ?_
    split
    · refine ih.bind fun deep => ?_
      cases deep with
      | ok _ => exact keeps_ensureDir path
      | error e => exact keeps_pure _
    · exact keeps_pure _

end Desk

/-! ## The end of a run -/

/-- Loading the input changes nothing. -/
theorem still_loadInput (catalog : String) (layers : Layers) :
    Desk.Still (loadInput catalog layers) := by
  have hcatalog : Desk.Still (loadCatalog catalog) := by
    refine Desk.Still.bind ((Desk.still_readText catalog).bind fun text => ?_)
      fun _ => Desk.still_pure _
    cases text <;> exact Desk.still_pure _
  have hconfig : Desk.Still (loadConfig layers) := by
    unfold loadConfig
    split
    · next path hpath =>
      refine Desk.Still.bind ((Desk.still_readText path).bind fun text => ?_)
        fun _ => Desk.still_pure _
      cases text <;> exact Desk.still_pure _
    · exact Desk.still_pure _
  refine hcatalog.bind fun found => ?_
  cases found with
  | error r => exact Desk.still_pure _
  | ok found => exact hconfig.bind fun _ => Desk.still_pure _

namespace GenerateCommand

open Desk

variable {p : String → Prop}

theorem keeps_writeDocument {path : String} {document : Json} (h : p document.pretty) :
    Keeps p (writeDocument path document : StateM Desk _) := by
  refine (keeps_makeDirs _).bind fun made => ?_
  cases made with
  | error e => exact keeps_pure _
  | ok _ =>
    refine (keeps_writeText h).bind fun wrote => ?_
    cases wrote <;> exact keeps_pure _

theorem keeps_writeDocuments {documents : List (String × Json)}
    (h : ∀ e ∈ documents, p e.2.pretty) :
    Keeps p (writeDocuments documents : StateM Desk _) := by
  induction documents with
  | nil => exact keeps_pure _
  | cons e documents ih =>
    refine (keeps_writeDocument (h e List.mem_cons_self)).bind fun wrote => ?_
    cases wrote with
    | error r => exact keeps_pure _
    | ok _ => exact ih fun e' he' => h e' (List.mem_cons_of_mem e he')

theorem keeps_fail {report : Report} {path : String} {errors : List Remark}
    (h : p report.toJson.pretty) : Keeps p (fail report path errors : StateM Desk _) := by
  refine (keeps_writeDocument h).bind fun wrote => ?_
  cases wrote <;> exact keeps_pure _

/-- As no time passes while files are written, the report tells of none. -/
theorem keeps_finish {c : GenerateCommand} {config : Config} {report : Report} {g : Generated}
    (hsets : ∀ e ∈ g.dataset.sets, p e.2.toJson.pretty)
    (hreport : p {
      finishedReport ((strictErrors c.strict g.termination).foldl Report.addError report) g with
        duration := 0 }.toJson.pretty) :
    Keeps p (c.finish config report 0 g : StateM Desk _) := by
  have hdocuments : ∀ e ∈ g.dataset.sets.map fun e =>
      (scenesPath c.root config.output e.1, e.2.toJson), p e.2.pretty := fun e he => by
    obtain ⟨s, hs, rfl⟩ := List.mem_map.mp he
    exact hsets s hs
  refine (keeps_writeDocuments hdocuments).bind fun wrote => ?_
  cases wrote with
  | error r => exact keeps_pure _
  | ok _ =>
    refine Keeps.now ((keeps_writeDocument hreport).bind fun wrote => ?_)
    cases wrote <;> exact keeps_pure _

/-! ## What is found afterwards -/

/-- An error of writing has a code of its own. -/
def IsWriteError (r : Remark) : Prop := r.code = CommandCode.outputWrite.code

/-- A document that has been written is found under its path. -/
theorem ends_writeDocument (path : String) (document : Json) (d : Desk) :
    Ends (fun wrote d => (wrote = .ok () → d.files.read path = .ok document.pretty) ∧
        ∀ r, wrote = .error r → IsWriteError r)
      (writeDocument path document : StateM Desk _) d := by
  have hmade : Ends (fun _ _ => True) (Host.makeDirs (Path.lineage path).tail : StateM Desk _) d :=
    trivial
  refine hmade.bind fun made d _ => ?_
  cases made with
  | error e =>
    refine ⟨fun h => (by cases h), fun r h => ?_⟩
    cases h
    rfl
  | ok _ =>
    refine (ends_writeText path document.pretty d).bind fun wrote d h => ?_
    cases wrote with
    | error e =>
      refine ⟨fun h => (by cases h), fun r h => ?_⟩
      cases h
      rfl
    | ok _ => exact ⟨fun _ => h rfl, fun r h => (by cases h)⟩

theorem ends_writeDocuments (documents : List (String × Json)) (d : Desk) :
    Ends (fun wrote _ => ∀ r, wrote = .error r → IsWriteError r)
      (writeDocuments documents : StateM Desk _) d := by
  induction documents generalizing d with
  | nil => exact fun r h => by cases h
  | cons e documents ih =>
    refine (ends_writeDocument e.1 e.2 d).bind fun wrote d h => ?_
    cases wrote with
    | ok _ => exact ih d
    | error r =>
      intro r' hr
      cases hr
      exact h.2 r rfl

/-- A report is found under a path, or an error of writing is told. -/
def ReportFound (path : String) (report : Report) (o : GenerateOutput) (d : Desk) : Prop :=
  d.files.read path = .ok report.toJson.pretty ∨ ∃ r ∈ o.errors, IsWriteError r

theorem ends_fail (report : Report) (path : String) (errors : List Remark) (d : Desk) :
    Ends (ReportFound path report) (fail report path errors : StateM Desk _) d := by
  refine (ends_writeDocument path report.toJson d).bind fun wrote d h => ?_
  cases wrote with
  | ok _ => exact .inl (h.1 rfl)
  | error r => exact .inr ⟨r, List.mem_append_right _ List.mem_cons_self, h.2 r rfl⟩

theorem ends_finish (c : GenerateCommand) (config : Config) (report : Report) (g : Generated)
    (d : Desk) :
    Ends (ReportFound (reportPath c.root config.output)
        { finishedReport ((strictErrors c.strict g.termination).foldl Report.addError report) g with
          duration := 0 })
      (c.finish config report 0 g : StateM Desk _) d := by
  refine (ends_writeDocuments _ d).bind fun wrote d h => ?_
  cases wrote with
  | error r => exact .inr ⟨r, List.mem_cons_self, h r rfl⟩
  | ok _ =>
    refine Ends.now ((ends_writeDocument _ _ d).bind fun wrote d h => ?_)
    cases wrote with
    | ok _ => exact .inl (h.1 rfl)
    | error r => exact .inr ⟨r, List.mem_cons_self, h.2 r rfl⟩

/-! ## Runs -/

variable {c : GenerateCommand} {catalog : Catalog} {config : Config}

/-- On a desk nothing is written before the end, and the day and the clock are those of the desk. -/
theorem process_desk (c : GenerateCommand) (catalog : Catalog) (config : Config) (d : Desk) :
    (c.process 0 catalog config : StateM Desk _) d =
      (c.conclude config (startReport config catalog d.day) 0
        (generate catalog config d.day d.clock) : StateM Desk _) d := by
  unfold process generate
  cases config.check catalog.summary <;> rfl

/-- What a command finds in its files on a desk. -/
def inputOn (c : GenerateCommand) (d : Desk) : Except Remark (Catalog × Config) :=
  ((loadInput c.catalog c.layers : StateM Desk _) d).1

/-- What a command says on a desk, and the desk afterwards. -/
def runOn (c : GenerateCommand) (d : Desk) : GenerateOutput × Desk := (c.execute : StateM Desk _) d

theorem runOn_eq (c : GenerateCommand) (d : Desk) : c.runOn d =
    (match c.inputOn d with
      | .error r => pure (.failure [r] [])
      | .ok (catalog, config) => c.process 0 catalog config : StateM Desk GenerateOutput) d := by
  have hexecute : c.runOn d =
      (match c.inputOn d with
        | .error r => pure (.failure [r] [])
        | .ok (catalog, config) => c.process 0 catalog config : StateM Desk GenerateOutput)
          ((loadInput c.catalog c.layers : StateM Desk _) d).2 := rfl
  rw [hexecute, still_loadInput]

theorem runOn_of_ok {d : Desk} (h : c.inputOn d = .ok (catalog, config)) :
    c.runOn d =
      (c.conclude config (startReport config catalog d.day) 0
        (generate catalog config d.day d.clock) : StateM Desk _) d := by
  rw [runOn_eq, h, ← process_desk]

end GenerateCommand

end SoundScenes
