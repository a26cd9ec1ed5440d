import SoundScenes.Proofs.Command.Reports

/-!
# What commands try to write

Beside any host stands a ledger, on which every file is noted that a command tries to write. The
command does the same with the ledger and without it. So what is noted is what the command has tried
to write on the host.

* `Ledger` — a host and what has been noted;
* `Ledger.Notes` — what an action does on the host, and what is noted of it;
* `Tried` — documents that have been tried in order, up to the first that could not be written;
* `GenerateCommand.notes_conclude` — what is noted of the end of a run;
* `GenerateCommand.handled_execute` — what is said and noted of a run.
-/

namespace SoundScenes

/-- A file that a command has tried to write. -/
structure Write where
  path : String
  text : String
  /-- Whether the host has written it. -/
  accepted : Bool
  deriving DecidableEq, Repr

/-- A host with a list of the files that it was told to write, in order. -/
structure Ledger (σ : Type) where
  host : σ
  writes : List Write

/-! ## Actions on a ledger -/

namespace Ledger

variable {σ α β : Type}

/-- An action of the host that writes no file. -/
def silently (act : StateM σ α) : StateM (Ledger σ) α := fun l =>
  ((act l.host).1, ⟨(act l.host).2, l.writes⟩)

/-- On a ledger an action does what another one does on the host alone, and what is noted of it has
a property that may depend on its result. -/
def Notes (act : StateM σ α) (noted : StateM (Ledger σ) α) (post : α → List Write → Prop) : Prop :=
  ∀ l, (noted l).1 = (act l.host).1 ∧ (noted l).2.host = (act l.host).2 ∧
    ∃ ws, (noted l).2.writes = l.writes ++ ws ∧ post (noted l).1 ws

section Rules

variable {act : StateM σ α} {noted : StateM (Ledger σ) α} {post mid : α → List Write → Prop}

theorem notes_pure {a : α} (h : post a []) : Notes (pure a : StateM σ α) (pure a) post :=
  fun _ => ⟨rfl, rfl, [], (List.append_nil _).symm, h⟩

theorem Notes.imp (h : Notes act noted mid) (himp : ∀ a ws, mid a ws → post a ws) :
    Notes act noted post := fun l =>
  have ⟨hresult, hhost, ws, hws, hmid⟩ := h l
  ⟨hresult, hhost, ws, hws, himp _ ws hmid⟩

/-- What is noted of two actions in order. -/
theorem Notes.bind {post : β → List Write → Prop} {next : α → StateM σ β}
    {notedNext : α → StateM (Ledger σ) β} (h : Notes act noted mid)
    (hnext : ∀ a ws, mid a ws → Notes (next a) (notedNext a) fun b ws' => post b (ws ++ ws')) :
    Notes (act >>= next) (noted >>= notedNext) post := by
  intro l
  obtain ⟨hresult, hhost, ws, hws, hmid⟩ := h l
  obtain ⟨hresult', hhost', ws', hws', hpost⟩ := hnext _ ws hmid (noted l).2
  rw [hresult, hhost] at hresult' hhost'
  refine ⟨?_, ?_, ws ++ ws', ?_, ?_⟩
  · show (notedNext (noted l).1 (noted l).2).1 = _
    rw [hresult, hresult']
    rfl
  · show (notedNext (noted l).1 (noted l).2).2.host = _
    rw [hresult, hhost']
    rfl
  · show (notedNext (noted l).1 (noted l).2).2.writes = _
    rw [hws', hws, List.append_assoc]
  · exact hpost

/-- Nothing is noted of an action. -/
def Silent (_ : α) (ws : List Write) : Prop := ws = []

theorem Notes.bind_silent {post : β → List Write → Prop} {next : α → StateM σ β}
    {notedNext : α → StateM (Ledger σ) β} (h : Notes act noted Silent)
    (hnext : ∀ a, Notes (next a) (notedNext a) post) :
    Notes (act >>= next) (noted >>= notedNext) post := by
  refine h.bind fun a ws hws => ?_
  rw [hws]
  exact hnext a

/-- What has been found is a result that the action gives somewhere. -/
theorem notes_silently (act : StateM σ α) :
    Notes act (silently act) fun a ws => ws = [] ∧ ∃ s, a = (act s).1 :=
  fun l => ⟨rfl, rfl, [], (List.append_nil _).symm, rfl, l.host, rfl⟩

theorem silent_silently (act : StateM σ α) : Notes act (silently act) Silent :=
  (notes_silently act).imp fun _ _ h => h.1

end Rules

variable [Host (StateM σ)]

/-- Writes a file on the host and notes it. -/
def writeText (path text : String) : StateM (Ledger σ) (Except FileError Unit) := fun l =>
  let wrote := (Host.writeText path text : StateM σ _) l.host
  (wrote.1, ⟨wrote.2, l.writes ++ [⟨path, text, wrote.1.isOk⟩]⟩)

instance : Host (StateM (Ledger σ)) where
  readText path := silently (Host.readText path)
  makeDir path := silently (Host.makeDir path)
  isDir path := silently (Host.isDir path)
  writeText := writeText
  today := silently Host.today
  now := silently Host.now
  search s g := silently (Host.search s g)

/-! ## Files and directories -/

theorem notes_ensureDir (path : String) :
    Notes (Host.ensureDir path : StateM σ _) (Host.ensureDir path) Silent := by
  refine (silent_silently (Host.makeDir path)).bind_silent fun made => ?_
  cases made with
  | ok _ => exact notes_pure rfl
  | error e =>
    refine (silent_silently (Host.isDir path)).bind_silent fun there => ?_
    cases there <;> exact notes_pure rfl

theorem notes_makeDirs (paths : List String) :
    Notes (Host.makeDirs paths : StateM σ _) (Host.makeDirs paths) Silent := by
  induction paths with
  | nil => exact notes_pure rfl
  | cons path outer ih =>
    refine (notes_ensureDir path).bind_silent fun made => ?_
    split
    · refine ih.bind_silent fun deep => ?_
      cases deep with
      | ok _ => exact notes_ensureDir path
      | error e => exact notes_pure rfl
    · exact notes_pure rfl

theorem notes_writeText (path text : String) :
    Notes (Host.writeText path text : StateM σ _) (Host.writeText path text) fun wrote ws =>
      ws = [⟨path, text, wrote.isOk⟩] :=
  fun _ => ⟨rfl, rfl, _, rfl, rfl⟩

end Ledger

/-- Documents that have been tried in order, up to the first that could not be written. -/
inductive Tried : List (String × Json) → Except Remark Unit → List Write → Prop
  | none : Tried [] (.ok ()) []
  | accepted {path : String} {document : Json} {rest : List (String × Json)}
      {wrote : Except Remark Unit} {ws : List Write} (h : Tried rest wrote ws) :
      Tried ((path, document) :: rest) wrote (⟨path, document.pretty, true⟩ :: ws)
  | refused {path : String} {document : Json} (rest : List (String × Json)) (message : String) :
      Tried ((path, document) :: rest) (.error (CommandCode.outputWrite.remark message))
        [⟨path, document.pretty, false⟩]
  /-- A directory could not be made. -/
  | barred {path : String} {document : Json} (rest : List (String × Json)) (message : String) :
      Tried ((path, document) :: rest) (.error (CommandCode.outputWrite.remark message)) []

namespace Tried

variable {documents rest : List (String × Json)} {wrote : Except Remark Unit} {ws ws' : List Write}
  {w : Write} {r : Remark}

/-- The note of a document that has been written. -/
def note (document : String × Json) : Write := ⟨document.1, document.2.pretty, true⟩

theorem append (h : Tried documents (.ok ()) ws) (h' : Tried rest wrote ws') :
    Tried (documents ++ rest) wrote (ws ++ ws') := by
  generalize hr : (Except.ok () : Except Remark Unit) = r at h
  induction h with
  | none => exact h'
  | accepted _ ih => exact .accepted (ih hr)
  | refused | barred => cases hr

theorem append_error (h : Tried documents (.error r) ws) (rest : List (String × Json)) :
    Tried (documents ++ rest) (.error r) ws := by
  generalize hr : (Except.error r : Except Remark Unit) = wrote at h
  induction h with
  | none => cases hr
  | accepted _ ih => exact .accepted (ih hr)
  | refused rest' message => exact .refused (rest' ++ rest) message
  | barred rest' message => exact .barred (rest' ++ rest) message

/-- Without an error all documents have been written. -/
theorem eq_map_note (h : Tried documents (.ok ()) ws) : ws = documents.map note := by
  generalize hr : (Except.ok () : Except Remark Unit) = r at h
  induction h with
  | none => rfl
  | accepted _ ih => exact congrArg _ (ih hr)
  | refused | barred => cases hr

theorem length_le (h : Tried documents wrote ws) : ws.length ≤ documents.length := by
  induction h with
  | none => exact Nat.le_refl _
  | accepted _ ih => exact Nat.succ_le_succ ih
  | refused rest => exact Nat.succ_le_succ (Nat.zero_le _)
  | barred => exact Nat.zero_le _

/-- After an error the last document has not been written. -/
theorem mem_dropLast_of_accepted (h : Tried documents (.error r) ws) (hw : w ∈ ws)
    (haccepted : w.accepted = true) : ∃ d ∈ documents.dropLast, w.path = d.1 := by
  generalize hr : (Except.error r : Except Remark Unit) = wrote at h
  induction h with
  | none => cases hr
  | @accepted path document rest _ _ hrest ih =>
    subst hr
    have hne : rest ≠ [] := by
      rintro rfl
      cases hrest
    rw [List.dropLast_cons_of_ne_nil hne]
    rcases List.mem_cons.mp hw with rfl | hw
    · exact ⟨_, List.mem_cons_self, rfl⟩
    · obtain ⟨d, hd, hpath⟩ := ih hw rfl
      exact ⟨d, List.mem_cons_of_mem _ hd, hpath⟩
  | refused =>
    cases List.mem_singleton.mp hw
    cases haccepted
  | barred => cases hw

end Tried

namespace GenerateCommand

open Ledger

variable {σ : Type} [Host (StateM σ)]

theorem notes_writeDocument (path : String) (document : Json) :
    Notes (writeDocument path document : StateM σ _) (writeDocument path document)
      (Tried [(path, document)]) := by
  refine (notes_makeDirs _).bind_silent fun made => ?_
  cases made with
  | error e => exact notes_pure (.barred [] _)
  | ok _ =>
    refine (notes_writeText path document.pretty).bind fun wrote ws hws => ?_
    cases hws
    cases wrote with
    | error e => exact notes_pure (.refused [] _)
    | ok _ => exact notes_pure (.accepted .none)

theorem notes_writeDocuments (documents : List (String × Json)) :
    Notes (writeDocuments documents : StateM σ _) (writeDocuments documents) (Tried documents) := by
  induction documents with
  | nil => exact notes_pure .none
  | cons d documents ih =>
    refine (notes_writeDocument d.1 d.2).bind fun wrote ws h => ?_
    cases wrote with
    | error r => exact notes_pure (by rw [List.append_nil]; exact h.append_error documents)
    | ok _ => exact ih.imp fun wrote ws' h' => h.append h'

/-! ## The end of a run -/

/-- The documents with the scenes of a dataset, if there is one. -/
def sceneDocuments (c : GenerateCommand) (config : Config) :
    Except GenerationError Generated → List (String × Json)
  | .ok g => g.dataset.sets.map fun (split, set) =>
      (scenesPath c.root config.output split, set.toJson)
  | .error _ => []

/-- The documents of a run: the scenes, and last the report, which tells how long the run took. -/
def documents (c : GenerateCommand) (config : Config) (report : Report) (duration : Nat)
    (generated : Except GenerationError Generated) : List (String × Json) :=
  c.sceneDocuments config generated ++ [(c.closingPath config generated,
    { c.closingReport report generated with duration := duration }.toJson)]

/-- What a command says when it has written all of them. -/
def answer (c : GenerateCommand) (config : Config) (duration : Nat) :
    Except GenerationError Generated → GenerateOutput
  | .ok g => {
      success := (strictErrors c.strict g.termination).isEmpty
      errors := strictErrors c.strict g.termination
      warnings := g.warnings.map Remark.ofFinding
      result := some {
        sizes := g.dataset.sizes
        termination := g.termination
        fingerprint := g.fingerprint
        files := g.dataset.sets.map fun (split, _) =>
          Path.join "scenes" (config.output.scenesFile split)
        report := reportPath c.root config.output
        duration := duration } }
  | .error (.invalidConfig errors) | .error (.infeasible errors) =>
    .failure (errors.map Remark.ofFinding) []
  | .error e => .failure [CommandCode.generation.remark e.message] []

/-- A time that may have passed on a host. -/
def Elapsed (σ : Type) [Host (StateM σ)] (duration : Nat) : Prop :=
  duration = 0 ∨ ∃ s, duration ≤ ((Host.now : StateM σ Nat) s).1

/-- What a command says in the end and what it has tried to write. -/
inductive Concluded (σ : Type) [Host (StateM σ)] (c : GenerateCommand) (config : Config)
    (report : Report) (generated : Except GenerationError Generated) :
    GenerateOutput → List Write → Prop
  /-- All documents have been written. -/
  | written (duration : Nat) (h : Elapsed σ duration) :
      Concluded σ c config report generated (c.answer config duration generated)
        ((c.documents config report duration generated).map Tried.note)
  /-- A document could not be written, which is told as an error. -/
  | spoilt {duration : Nat} {r : Remark} {ws : List Write} {o : GenerateOutput}
      (h : Tried (c.documents config report duration generated) (.error r) ws)
      (hresult : o.result = none) (herror : r ∈ o.errors) :
      Concluded σ c config report generated o ws

section Conclude

variable {c : GenerateCommand} {config : Config} {report : Report}

theorem notes_now : Notes (Host.now : StateM σ _) Host.now fun now ws =>
    ws = [] ∧ ∀ started, Elapsed σ (now - started) :=
  (notes_silently Host.now).imp fun now _ ⟨hws, s, hnow⟩ =>
    ⟨hws, fun started => .inr ⟨s, hnow ▸ Nat.sub_le now started⟩⟩

/-- Where there is no dataset only the report is written. -/
theorem notes_fail (e : GenerationError) {duration : Nat} {last : Report} {errors : List Remark}
    (hduration : Elapsed σ duration)
    (hlast : last = { c.closingReport report (.error e) with duration := duration })
    (hanswer : c.answer config duration (.error e) = .failure errors []) :
    Notes (fail last (c.closingPath config (.error e)) errors : StateM σ _)
      (fail last (c.closingPath config (.error e)) errors)
      (Concluded σ c config report (.error e)) := by
  subst hlast
  refine (notes_writeDocument _ _).bind fun wrote ws h => ?_
  cases wrote with
  | ok _ =>
    refine notes_pure ?_
    rw [List.append_nil, h.eq_map_note, ← hanswer]
    exact .written duration hduration
  | error r =>
    refine notes_pure ?_
    rw [List.append_nil]
    exact .spoilt h rfl (List.mem_append_right _ List.mem_cons_self)

theorem notes_finish (started : Nat) (g : Generated) :
    Notes (c.finish config report started g : StateM σ _) (c.finish config report started g)
      (Concluded σ c config report (.ok g)) := by
  refine (notes_writeDocuments (c.sceneDocuments config (.ok g))).bind fun wrote ws h => ?_
  cases wrote with
  | error r =>
    have hall : Tried (c.documents config report 0 (.ok g)) (.error r) ws := h.append_error _
    refine notes_pure ?_
    rw [List.append_nil]
    exact .spoilt hall rfl List.mem_cons_self
  | ok _ =>
    refine notes_now.bind fun now ws' ⟨hws, hduration⟩ => ?_
    cases hws
    refine (notes_writeDocument _ _).bind fun wrote ws' h' => ?_
    have hall := h.append h'
    cases wrote with
    | error r =>
      refine notes_pure ?_
      rw [List.append_nil, List.nil_append]
      exact .spoilt hall rfl List.mem_cons_self
    | ok _ =>
      refine notes_pure ?_
      rw [List.append_nil, List.nil_append, hall.eq_map_note]
      exact .written _ (hduration started)

theorem notes_conclude (hreport : report.duration = 0) (started : Nat)
    (generated : Except GenerationError Generated) :
    Notes (c.conclude config report started generated : StateM σ _)
      (c.conclude config report started generated) (Concluded σ c config report generated) := by
  have hzero (r : Remark) : { report.addError r with duration := 0 } = report.addError r :=
    with_duration_zero hreport
  cases generated with
  | ok g => exact notes_finish started g
  | error e =>
    cases e with
    | invalidConfig errors =>
      refine notes_now.bind fun now ws ⟨hws, hduration⟩ => ?_
      cases hws
      exact notes_fail (.invalidConfig errors) (hduration started) rfl rfl
    | infeasible errors =>
      refine notes_now.bind fun now ws ⟨hws, hduration⟩ => ?_
      cases hws
      exact notes_fail (.infeasible errors) (hduration started) rfl rfl
    | catalog e => exact notes_fail (.catalog e) (.inl rfl) (hzero _).symm rfl
    | budgetExceeded g => exact notes_fail (.budgetExceeded g) (.inl rfl) (hzero _).symm rfl

end Conclude

/-! ## Runs -/

/-- What can come of a generation on a host, which runs the search: nothing is searched with a
configuration that has been refused. -/
inductive GeneratesOn (σ : Type) [Host (StateM σ)] (catalog : Catalog) (config : Config)
    (date : String) : Except GenerationError Generated → Prop
  | refused {e : GenerationError} (h : config.check catalog.summary = .error e) :
      GeneratesOn σ catalog config date (.error e)
  | searched {warnings : List WarningFinding} (h : config.check catalog.summary = .ok warnings)
      (s : σ) : GeneratesOn σ catalog config date (Generated.ofOutcome catalog config date warnings
        ((Host.search (.ofConfig catalog config) (Pcg.ofSeed config.seed) : StateM σ _) s).1)

/-- A run that has its input ends with what has been generated. -/
theorem notes_process (c : GenerateCommand) (started : Nat) (catalog : Catalog) (config : Config) :
    Notes (c.process started catalog config : StateM σ _) (c.process started catalog config)
      fun o ws => ∃ date generated, GeneratesOn σ catalog config date generated ∧
        Concluded σ c config (startReport config catalog date) generated o ws := by
  refine (silent_silently Host.today).bind_silent fun date => ?_
  have hend {generated : Except GenerationError Generated}
      (hgenerated : GeneratesOn σ catalog config date generated) :
      Notes (c.conclude config (startReport config catalog date) started generated : StateM σ _)
        (c.conclude config (startReport config catalog date) started generated) fun o ws =>
          ∃ date generated, GeneratesOn σ catalog config date generated ∧
            Concluded σ c config (startReport config catalog date) generated o ws :=
    (notes_conclude rfl started generated).imp fun _ _ h => ⟨date, generated, hgenerated, h⟩
  cases hcheck : config.check catalog.summary with
  | error e => exact hend (.refused hcheck)
  | ok warnings =>
    refine (notes_silently (Host.search _ _)).bind fun outcome ws ⟨hws, s, houtcome⟩ => ?_
    cases hws
    exact hend (houtcome ▸ .searched hcheck s)

theorem notes_loadCatalog (path : String) :
    Notes (loadCatalog path : StateM σ _) (loadCatalog path) Silent := by
  have hread : Notes (readCatalog path : StateM σ _) (readCatalog path) Silent := by
    refine (silent_silently (Host.readText path)).bind_silent fun text => ?_
    cases text <;> exact notes_pure rfl
  exact hread.bind_silent fun found => notes_pure rfl

theorem notes_loadConfig (layers : Layers) :
    Notes (loadConfig layers : StateM σ _) (loadConfig layers) Silent := by
  unfold loadConfig
  cases layers.file with
  | none => exact notes_pure rfl
  | some path =>
    have hread : Notes (readConfig path : StateM σ _) (readConfig path) Silent := by
      refine (silent_silently (Host.readText path)).bind_silent fun text => ?_
      cases text <;> exact notes_pure rfl
    exact hread.bind_silent fun found => notes_pure rfl

/-- Loading the input writes nothing. -/
theorem notes_loadInput (catalog : String) (layers : Layers) :
    Notes (loadInput catalog layers : StateM σ _) (loadInput catalog layers) Silent := by
  refine (notes_loadCatalog catalog).bind_silent fun found => ?_
  cases found with
  | error r => exact notes_pure rfl
  | ok found => exact (notes_loadConfig layers).bind_silent fun config => notes_pure rfl

/-- The input that a command finds on a host. -/
def inputFrom (c : GenerateCommand) (s : σ) : Except Remark (Catalog × Config) :=
  ((loadInput c.catalog c.layers : StateM σ _) ((Host.now : StateM σ Nat) s).2).1

/-- What a command says on a host, and the host afterwards. -/
def runFrom (c : GenerateCommand) (s : σ) : GenerateOutput × σ := (c.execute : StateM σ _) s

/-- The same with a ledger on which nothing has been noted. -/
def notedFrom (c : GenerateCommand) (s : σ) : GenerateOutput × Ledger σ :=
  (c.execute : StateM (Ledger σ) _) ⟨s, []⟩

/-- What a command does with the input that it has found. -/
def afterInput {m : Type → Type} [Monad m] [Host m] (c : GenerateCommand) (started : Nat) :
    Except Remark (Catalog × Config) → m GenerateOutput
  | .error r => return .failure [r] []
  | .ok (catalog, config) => c.process started catalog config

/-- What is said and noted after some input has been found. -/
def Handled (σ : Type) [Host (StateM σ)] (c : GenerateCommand) (o : GenerateOutput)
    (ws : List Write) : Except Remark (Catalog × Config) → Prop
  | .error r => o = .failure [r] [] ∧ ws = []
  | .ok (catalog, config) => ∃ date generated, GeneratesOn σ catalog config date generated ∧
      Concluded σ c config (startReport config catalog date) generated o ws

theorem notes_afterInput (c : GenerateCommand) (started : Nat)
    (input : Except Remark (Catalog × Config)) :
    Notes (c.afterInput started input : StateM σ _) (c.afterInput started input)
      fun o ws => Handled σ c o ws input := by
  cases input with
  | error r => exact notes_pure ⟨rfl, rfl⟩
  | ok input => exact notes_process c started input.1 input.2

/-- With a ledger a command does what it does without. If it has no input, it writes nothing; else it
ends with what has been generated. -/
theorem handled_execute (c : GenerateCommand) (s : σ) :
    (c.notedFrom s).1 = (c.runFrom s).1 ∧ (c.notedFrom s).2.host = (c.runFrom s).2 ∧
      Handled σ c (c.runFrom s).1 (c.notedFrom s).2.writes (c.inputFrom s) := by
  let started := (Host.now : StateM σ Nat) s
  let found := (loadInput c.catalog c.layers : StateM (Ledger σ) _) ⟨started.2, []⟩
  obtain ⟨hinput, hhost, ws, hws, hsilent⟩ := notes_loadInput c.catalog c.layers ⟨started.2, []⟩
  obtain ⟨houtput, hhost', ws', hws', hhandled⟩ := notes_afterInput c started.1 found.1 found.2
  have hfound : found.1 = c.inputFrom s := hinput
  have hnone : found.2.writes = [] := hws.trans hsilent
  have hrun : c.runFrom s = (c.afterInput started.1 found.1 : StateM σ _) found.2.host := by
    rw [hhost, hfound]
    rfl
  have hnoted : c.notedFrom s =
      (c.afterInput started.1 found.1 : StateM (Ledger σ) _) found.2 := rfl
  rw [hnone, List.nil_append, ← hnoted] at hws'
  rw [← hnoted, ← hrun] at houtput hhost'
  rw [← hnoted, houtput, ← hws', hfound] at hhandled
  exact ⟨houtput, hhost', hhandled⟩

end GenerateCommand

end SoundScenes
