import SoundScenes.Proofs.Json.Records
import SoundScenes.Proofs.Tally
import SoundScenes.Report

/-!
# Documents are read back

A configuration, a report and all that a report holds are read back from their documents, provided
that every number fits the type it is read as. A share that is no finite number is written as
nothing, and the document cannot be read.

* `Config.InRange`, `Report.InRange` — the numbers that are read back;
* `Config.reads`, `Config.read_error` — configurations;
* `Stats.reads`, `Report.reads`, `Report.read_error` — statistics and reports;
* `documents_read_back_iff` — when a written document is read back.
-/

namespace SoundScenes

variable {room : Nat}

open Reader

/-! ## Configurations -/

namespace Constraints

/-- Every number fits 64 bits. -/
structure InRange (c : Constraints) : Prop where
  minFamilies : c.minFamilies < UInt64.size
  quota : c.quota < UInt64.size
  minQuotaFamilies : c.minQuotaFamilies < UInt64.size

theorem reads {c : Constraints} (h : c.InRange) : record.read.Reads (room + 1) c.toJson c := by
  refine Record.reads (by decide) ?_
  refine .given ((reads_size h.minFamilies).put _) ?_
  refine .given ((reads_size h.quota).put _) ?_
  refine .given ((reads_size h.minQuotaFamilies).put _) ?_
  exact .nil c

end Constraints

theorem Naming.reads (n : Naming) : record.read.Reads (room + 1) n.toJson n := by
  refine Record.reads (by decide) ?_
  refine .given ((reads_string _ n.stem).put _) ?_
  refine .given ((reads_string _ n.version).put _) ?_
  refine .given ((reads_string _ n.extension).put _) ?_
  refine .given ((reads_string _ n.license).put _) ?_
  exact .nil n

namespace Config

/-- Every number fits the type that it is read as. -/
structure InRange (c : Config) : Prop where
  sceneLength : c.sceneLength < UInt64.size
  treeWidth : c.treeWidth < UInt64.size
  constraints : c.constraints.InRange
  seed : c.seed < UInt32.size
  maxScenes : ∀ n, c.maxScenes = some n → n < UInt64.size
  stepBudget : ∀ n, c.stepBudget = some n → n < UInt64.size
  timeBudget : ∀ n, c.timeBudget = some n → n < UInt64.size

variable {c : Config}

theorem distinct_record : record.Distinct := by decide

/-- What stands in front of the share is read back. -/
theorem fits_beforeRatio (h : c.InRange) : Fits (room + 1) (record.fields.take 3)
    [("scene_length", .nat c.sceneLength), ("tree_width", .nat c.treeWidth),
      ("constraints", c.constraints.toJson)] record.blank
    { Config.standard with
      sceneLength := c.sceneLength, treeWidth := c.treeWidth, constraints := c.constraints } := by
  refine .given ((reads_size h.sceneLength).put _) ?_
  refine .given ((reads_size h.treeWidth).put _) ?_
  refine .given ((Constraints.reads h.constraints).put _) ?_
  exact .nil _

theorem toJson_eq (c : Config) : c.toJson = .object (
    [("scene_length", .nat c.sceneLength), ("tree_width", .nat c.treeWidth),
      ("constraints", c.constraints.toJson)] ++
    ("training_ratio", .float c.trainingRatio) :: (
    [("seed", .nat c.seed), ("shuffle", .bool c.shuffle)] ++
    (Json.optionalEntry "max_scenes" (c.maxScenes.map .nat) ++
    (Json.optionalEntry "step_budget" (c.stepBudget.map .nat) ++
    (Json.optionalEntry "time_budget_ms" (c.timeBudget.map .nat) ++
    [("output", c.output.toJson)]))))) := by
  simp only [toJson, List.append_assoc, List.cons_append, List.nil_append]

/-- A configuration is read back with the share that is read. -/
theorem reads (h : c.InRange) {ratio : Float}
    (hratio : float.Reads (room + 1) (.float c.trainingRatio) ratio) :
    record.read.Reads (room + 2) c.toJson { c with trainingRatio := ratio } := by
  rw [toJson_eq]
  refine Record.reads distinct_record ((fits_beforeRatio h).append ?_)
  refine .given (hratio.put _) ?_
  refine .given ((reads_word32 h.seed).put _) ?_
  refine .given ((reads_bool _ c.shuffle).put _) ?_
  refine .optional (by decide) (fun _ => rfl) (fun n hn => reads_size (h.maxScenes n hn))
    nat_ne_null ?_
  refine .optional (by decide) (fun _ => rfl) (fun n hn => reads_word64 (h.stepBudget n hn))
    nat_ne_null ?_
  refine .optional (by decide) (fun _ => rfl) (fun n hn => reads_word64 (h.timeBudget n hn))
    nat_ne_null ?_
  refine .given ((Naming.reads c.output).put _) ?_
  exact .nil _

/-- A configuration is not read if its share is not. -/
theorem read_error (h : c.InRange) {e : ReadError}
    (hratio : float (room + 1) (Json.float c.trainingRatio).document = .error e) :
    record.read (room + 2) c.toJson.document = .error e := by
  rw [toJson_eq]
  refine Record.read_error distinct_record (record.fields.take 3) (record.fields.drop 4) rfl
    (fits_beforeRatio h) ?_
  show (float (room + 1) (Json.float c.trainingRatio).document).map _ = _
  rw [hratio]
  rfl

/-- The same configuration with another share. -/
def withRatio (c : Config) (ratio : Float) : Config := { c with trainingRatio := ratio }

/-- A written configuration is read like the text of its share. -/
theorem ofText_pretty_eq (h : c.InRange) : ofText c.toJson.pretty =
    (float.run (Json.float c.trainingRatio).compact).map c.withRatio := by
  rw [ofText, run_pretty]
  cases hratio : float.run (Json.float c.trainingRatio).compact with
  | ok ratio => exact reads h (reads_float hratio)
  | error e => exact read_error h (float_error_of_run hratio)

/-- A written configuration is read back exactly if the text of its share is. -/
theorem ofText_pretty_iff (h : c.InRange) :
    ofText c.toJson.pretty = .ok c ↔ ReadsBack c.trainingRatio := by
  rw [ofText_pretty_eq h]
  exact map_eq_ok_iff_of_injective (f := c.withRatio) fun _ _ heq => congrArg trainingRatio heq

end Config

/-! ## Parts of reports -/

namespace Summary

/-- Every number fits 64 bits. -/
structure InRange (s : Summary) : Prop where
  total : s.total < UInt64.size
  families : ∀ f ∈ s.families, f.sounds < UInt64.size

theorem reads_family {f : FamilySize} (h : f.sounds < UInt64.size) :
    familyRecord.read.Reads (room + 1)
      (.object [("family", .string f.family), ("sounds", .nat f.sounds)]) f := by
  refine Record.reads (by decide) ?_
  refine .given ((reads_string _ f.family).put _) ?_
  refine .given ((reads_size h).put _) ?_
  exact .nil f

theorem reads {s : Summary} (h : s.InRange) : record.read.Reads (room + 3) s.toJson s := by
  refine Record.reads (by decide) ?_
  refine .given ((reads_size h.total).put _) ?_
  refine .given ((Reads.list fun f hf => reads_family (h.families f hf)).put _) ?_
  exact .nil s

end Summary

namespace Remark

theorem reads (name : String) (r : Remark) : (record name).read.Reads (room + 1) r.toJson r := by
  have hdistinct : (record name).Distinct := by
    refine List.pairwise_cons.mpr ⟨?_, List.pairwise_cons.mpr ⟨?_, List.pairwise_singleton _ _⟩⟩ <;>
      simp [Field.of, Field.answersTo]
  refine Record.reads hdistinct ?_
  refine .given ((reads_string _ r.code).put _) ?_
  refine .given ((reads_string _ r.message).put _) ?_
  rw [← List.append_nil (Json.optionalEntry _ _)]
  refine .optional (by decide) (fun _ => rfl) (fun s _ => reads_string _ s) (by simp) ?_
  exact .nil r

theorem reads_list (name : String) (rs : List Remark) :
    (list (record name).read).Reads (room + 2) (listToJson rs) rs :=
  Reads.list fun r _ => reads name r

end Remark

namespace SplitSizes

/-- Every number fits 64 bits. -/
structure InRange (s : SplitSizes) : Prop where
  train : s.train < UInt64.size
  val : s.val < UInt64.size
  test : s.test < UInt64.size

theorem reads {s : SplitSizes} (h : s.InRange) : record.read.Reads (room + 1) s.toJson s := by
  refine Record.reads (by decide) ?_
  refine .given ((reads_size h.train).put _) ?_
  refine .given ((reads_size h.val).put _) ?_
  refine .given ((reads_size h.test).put _) ?_
  exact .nil s

end SplitSizes

namespace Termination

/-- The number of a cap or a budget, if there is one, fits 64 bits. -/
def InRange : Termination → Prop
  | treeExhausted => True
  | sceneCap n | stepBudget n | timeBudget n => n < UInt64.size

theorem reads {t : Termination} (h : t.InRange) : layout.read.Reads (room + 1) t.toJson t := by
  have hvalue {n : Nat} (hn : n < UInt64.size) : ∃ j, value room (Json.nat n).document = .ok j := by
    have hread : (Numeral.digits (.integer n)).value = .ok (.integer n) :=
      Numeral.value_digits (by omega) (by omega)
    refine ⟨.number (.integer n), ?_⟩
    show (sound (Numeral.digits (.integer n)).value).map Json.number = _
    rw [hread]
    rfl
  have hmap {r : Reader Nat} {n : Nat} (make : Nat → Termination) (hn : r.Reads room (.nat n) n) :
      Reads (fun room d => (r room d).map make) room (.nat n) (make n) := by
    show (r room (Json.nat n).document).map make = _
    rw [hn]
    rfl
  cases t with
  | treeExhausted => exact Tagged.reads_bare rfl
  | sceneCap n => exact Tagged.reads_holding rfl (by decide) (hmap _ (reads_size h)) (hvalue h)
  | stepBudget n => exact Tagged.reads_holding rfl (by decide) (hmap _ (reads_word64 h)) (hvalue h)
  | timeBudget n => exact Tagged.reads_holding rfl (by decide) (hmap _ (reads_word64 h)) (hvalue h)

end Termination

namespace Draws

/-- Every count fits 64 bits. -/
structure InRange (d : Draws) : Prop where
  bySound : ∀ n ∈ d.bySound, n < UInt64.size
  byFamily : ∀ n ∈ d.byFamily, n < UInt64.size

theorem reads {d : Draws} (h : d.InRange) : layout.read.Reads (room + 2) d.toJson d := by
  refine Record.reads (by decide) ?_
  refine .given ((Reads.list fun n hn => reads_word64 (h.bySound n hn)).put _) ?_
  refine .given ((Reads.list fun n hn => reads_word64 (h.byFamily n hn)).put _) ?_
  exact .nil d

end Draws

/-- A tally is read back from the entries of a table. -/
theorem Reader.put_tally {α κ : Type} [Ord κ] [Std.TransOrd κ] [Std.LawfulEqOrd κ] [DecidableEq κ]
    {name : String} {presence : Presence} {readKey : Document → Except ReadError κ} {v : Json}
    {t : Tally κ} (put : Tally κ → α → α) (h : (table readKey word64).Reads room v t.toList) :
    (Field.of name presence (table readKey word64) fun es => put (Tally.ofEntries es)).read room
      v.document = .ok (put t) := by
  show (table readKey word64 room v.document).map (fun es => put (Tally.ofEntries es)) = _
  rw [h]
  show Except.ok (put (Tally.ofEntries t.toList)) = _
  rw [Tally.ofEntries_toList]

namespace Stats

/-- Every count and every depth fits 64 bits. -/
structure InRange (s : Stats) : Prop where
  steps : s.steps < UInt64.size
  nodesCreated : s.nodesCreated < UInt64.size
  scenesEmitted : s.scenesEmitted < UInt64.size
  finalRejections : s.finalRejections < UInt64.size
  depths : ∀ e ∈ s.prunesByDepth.toList, e.1 < UInt64.size ∧ e.2 < UInt64.size
  reasons : ∀ e ∈ s.prunesByReason.toList, e.2 < UInt64.size
  draws : s.draws.InRange

theorem reads {s : Stats} (h : s.InRange) : record.read.Reads (room + 3) s.toJson s := by
  have hdepths : (table keySize word64).Reads (room + 2)
      (.object (s.prunesByDepth.toList.map fun e => (toString e.1, .nat e.2)))
      s.prunesByDepth.toList :=
    Reads.table toString (fun e he => keySize_pieces (h.depths e he).1)
      fun e he => reads_word64 (h.depths e he).2
  have hreasons : (table (keyAmong PruneReason.cases) word64).Reads (room + 2)
      (.object (s.prunesByReason.toList.map fun e => (e.1.name, .nat e.2)))
      s.prunesByReason.toList :=
    Reads.table PruneReason.name (fun e _ => keyAmong_pieces e.1.lookup_cases)
      fun e he => reads_word64 (h.reasons e he)
  refine Record.reads (by decide) ?_
  refine .given ((reads_word64 h.steps).put _) ?_
  refine .given ((reads_word64 h.nodesCreated).put _) ?_
  refine .given ((reads_word64 h.scenesEmitted).put _) ?_
  refine .given ((reads_word64 h.finalRejections).put _) ?_
  refine .given (put_tally (fun t (s : Stats) => { s with prunesByDepth := t }) hdepths) ?_
  refine .given (put_tally (fun t (s : Stats) => { s with prunesByReason := t }) hreasons) ?_
  refine .given ((Draws.reads h.draws).put _) ?_
  exact .nil s

end Stats

/-! ## Reports -/

namespace Report

/-- Every number of a report besides its configuration fits the type that it is read as. -/
structure InRange (r : Report) : Prop where
  version : r.version < UInt32.size
  config : r.config.InRange
  catalog : r.catalog.InRange
  sizes : ∀ s, r.sizes = some s → s.InRange
  termination : ∀ t, r.termination = some t → t.InRange
  stats : ∀ s, r.stats = some s → s.InRange
  familyDraws : ∀ e ∈ r.familyDraws.toList, e.2 < UInt64.size
  duration : r.duration < UInt64.size

variable {r : Report}

theorem distinct_record : record.Distinct := by decide +kernel

/-- What stands in front of the configuration is read back. -/
theorem fits_beforeConfig (h : r.InRange) : Fits room (record.fields.take 4)
    [("report_version", .nat r.version), ("ok", .bool r.ok),
      ("generator_version", .string r.generator), ("config_hash", .string r.configHash)]
    record.blank
    { start .standard r.configHash r.generator with version := r.version, ok := r.ok } := by
  refine .given ((reads_word32 h.version).put _) ?_
  refine .given ((reads_bool _ r.ok).put _) ?_
  refine .given ((reads_string _ r.generator).put _) ?_
  refine .given ((reads_string _ r.configHash).put _) ?_
  exact .nil _

/-- The draws of families, which are left out where there are none. -/
theorem fits_familyDraws (h : r.InRange) {fs : List (Field Report)} {es : List (String × Json)}
    {a b : Report} (hnone : a.familyDraws = ∅)
    (hrest : Fits (room + 1) fs es { a with familyDraws := r.familyDraws } b) :
    Fits (room + 1)
      (.of "family_draws" .defaulted (.table Reader.key .word64) (fun v r =>
        { r with familyDraws := Tally.ofEntries v }) :: fs)
      (Json.optionalEntry "family_draws" (if r.familyDraws.isEmpty then none
        else some (.object (r.familyDraws.toList.map fun e => (e.1, .nat e.2)))) ++ es) a b := by
  have hdraws : (table key word64).Reads (room + 1)
      (.object (r.familyDraws.toList.map fun e => (e.1, .nat e.2))) r.familyDraws.toList :=
    Reads.table id (fun e _ => key_pieces e.1) fun e he => reads_word64 (h.familyDraws e he)
  split
  · next hempty =>
    rw [Std.ExtTreeMap.isEmpty_iff.mp hempty, ← hnone] at hrest
    exact .absent (by decide) hrest
  · exact .given (put_tally (fun t (r : Report) => { r with familyDraws := t }) hdraws) hrest

theorem toJson_eq (r : Report) : r.toJson = .object (
    [("report_version", .nat r.version), ("ok", .bool r.ok),
      ("generator_version", .string r.generator), ("config_hash", .string r.configHash)] ++
    ("config", r.config.toJson) :: (
    [("catalog", r.catalog.toJson),
      ("errors", Remark.listToJson r.errors), ("warnings", Remark.listToJson r.warnings)] ++
    (Json.optionalEntry "split_sizes" (r.sizes.map SplitSizes.toJson) ++
    (Json.optionalEntry "termination" (r.termination.map Termination.toJson) ++
    (Json.optionalEntry "scene_fingerprint" (r.fingerprint.map .string) ++
    (Json.optionalEntry "stats" (r.stats.map Stats.toJson) ++
    (Json.optionalEntry "family_draws" (if r.familyDraws.isEmpty then none
      else some (.object (r.familyDraws.toList.map fun e => (e.1, .nat e.2)))) ++
    (Json.optionalEntry "generation_date" (r.date.map .string) ++
    [("duration_ms", .nat r.duration)])))))))) := by
  simp only [toJson, List.append_assoc, List.cons_append, List.nil_append]

/-- The same report with another share in its configuration. -/
def withRatio (r : Report) (ratio : Float) : Report :=
  { r with config := { r.config with trainingRatio := ratio } }

/-- A report is read back with the share that is read. -/
theorem reads (h : r.InRange) {ratio : Float}
    (hratio : float.Reads (room + 2) (.float r.config.trainingRatio) ratio) :
    record.read.Reads (room + 4) r.toJson (r.withRatio ratio) := by
  rw [toJson_eq]
  refine Record.reads distinct_record ((fits_beforeConfig h).append ?_)
  refine .given ((Config.reads h.config hratio).put _) ?_
  refine .given ((Summary.reads h.catalog).put _) ?_
  refine .given ((Remark.reads_list _ r.errors).put _) ?_
  refine .given ((Remark.reads_list _ r.warnings).put _) ?_
  refine .optional (by decide) (fun _ => rfl) (fun s hs => SplitSizes.reads (h.sizes s hs))
    (fun _ => by rintro ⟨⟩) ?_
  refine .optional (by decide) (fun _ => rfl) (fun t ht => Termination.reads (h.termination t ht))
    (fun t => by cases t <;> rintro ⟨⟩) ?_
  refine .optional (by decide) (fun _ => rfl) (fun s _ => reads_string _ s) (by simp) ?_
  refine .optional (by decide) (fun _ => rfl) (fun s hs => Stats.reads (h.stats s hs))
    (fun _ => by rintro ⟨⟩) ?_
  refine fits_familyDraws h rfl ?_
  refine .optional (by decide) (fun _ => rfl) (fun s _ => reads_string _ s) (by simp) ?_
  refine .given ((reads_word64 h.duration).put _) ?_
  exact .nil _

/-- A report is not read if the share of its configuration is not. -/
theorem read_error (h : r.InRange) {e : ReadError}
    (hratio : float (room + 2) (Json.float r.config.trainingRatio).document = .error e) :
    record.read (room + 4) r.toJson.document = .error e := by
  rw [toJson_eq]
  refine Record.read_error distinct_record (record.fields.take 4) (record.fields.drop 5) rfl
    (fits_beforeConfig h) ?_
  show (Config.record.read (room + 3) r.config.toJson.document).map _ = _
  rw [Config.read_error h.config hratio]
  rfl

/-- A written report is read like the text of the share in its configuration. -/
theorem ofText_pretty_eq (h : r.InRange) : ofText r.toJson.pretty =
    (float.run (Json.float r.config.trainingRatio).compact).map r.withRatio := by
  rw [ofText, run_pretty]
  cases hratio : float.run (Json.float r.config.trainingRatio).compact with
  | ok ratio => exact reads h (reads_float hratio)
  | error e => exact read_error h (float_error_of_run hratio)

/-- A written report is read back exactly if the text of the share in its configuration is. -/
theorem ofText_pretty_iff (h : r.InRange) :
    ofText r.toJson.pretty = .ok r ↔ ReadsBack r.config.trainingRatio := by
  rw [ofText_pretty_eq h]
  exact map_eq_ok_iff_of_injective (f := r.withRatio) fun _ _ heq =>
    congrArg (·.config.trainingRatio) heq

/-- If the text of its share is read as some number, a written report is read back with that
number as its share. -/
theorem ofText_pretty_withRatio (h : r.InRange) {ratio : Float}
    (hratio : float.run (Json.float r.config.trainingRatio).compact = .ok ratio) :
    ofText r.toJson.pretty = .ok (r.withRatio ratio) := by
  rw [ofText_pretty_eq h, hratio]
  rfl

/-- A written report is read back if the text of its share is. -/
theorem ofText_pretty (h : r.InRange)
    (hratio : float.run (Json.float r.config.trainingRatio).compact = .ok r.config.trainingRatio) :
    ofText r.toJson.pretty = .ok r :=
  (ofText_pretty_iff h).mpr hratio

theorem ofText_pretty_error (h : r.InRange) (hratio : r.config.trainingRatio.isFinite = false) :
    ofText r.toJson.pretty = .error (.invalidType .null "f64") := by
  rw [ofText_pretty_eq h, run_float_of_not_finite hratio]
  rfl

end Report

/-- **Documents are read back.** A written report or configuration is read back as it was, whatever
it holds and leaves out, exactly if the text of its share is read back; and only the text of a
finite number is. -/
theorem documents_read_back_iff {report : Report} {config : Config} (hreport : report.InRange)
    (hconfig : config.InRange) :
    (Report.ofText report.toJson.pretty = .ok report ↔ ReadsBack report.config.trainingRatio) ∧
      (Config.ofText config.toJson.pretty = .ok config ↔ ReadsBack config.trainingRatio) ∧
      ∀ x, ReadsBack x → x.isFinite = true :=
  ⟨Report.ofText_pretty_iff hreport, Config.ofText_pretty_iff hconfig, fun _ => ReadsBack.isFinite⟩

/-- A configuration with one limit out of three. -/
def Config.capped : Config := { Config.standard with maxScenes := some 12 }

/-- A report with statistics, a remark of each kind and nothing left out. -/
def Report.cutOff : Report where
  version := currentVersion
  ok := false
  generator := "aqa-cli v0.1.0"
  configHash := "78dc"
  config := .capped
  catalog := ⟨3, [⟨"flute", 1⟩, ⟨"oboe", 2⟩]⟩
  errors := [⟨"CLI_005", "step budget of 9 exceeded with --strict-budget", none⟩]
  warnings := [⟨"W101",
    "tree_width (5) exceeds the catalog size (3), extra slots stay unused", some "tree_width"⟩]
  sizes := some ⟨1, 0, 0⟩
  termination := some (.stepBudget 9)
  fingerprint := some "a\"b\\c"
  stats := some {
    steps := 9
    nodesCreated := 4
    scenesEmitted := 1
    finalRejections := 0
    prunesByDepth := .ofEntries [(0, 1), (11, 2)]
    prunesByReason := .ofEntries [(.exhaustedCandidates, 1), (.missingFamilies, 2)]
    draws := ⟨[2, 1, 1], [1, 3]⟩ }
  familyDraws := .ofEntries [("oboe", 3), ("flute", 1)]
  date := some "2024-01-01"
  duration := UInt64.size - 1

theorem Config.inRange_capped : capped.InRange where
  sceneLength := by decide
  treeWidth := by decide
  constraints := ⟨by decide, by decide, by decide⟩
  seed := by decide
  maxScenes n hn := by
    cases hn
    decide
  stepBudget n hn := by cases hn
  timeBudget n hn := by cases hn

theorem Report.inRange_cutOff : cutOff.InRange where
  version := by decide
  config := Config.inRange_capped
  catalog := ⟨by decide, by decide⟩
  sizes s hs := by
    cases hs
    exact ⟨by decide, by decide, by decide⟩
  termination t ht := by
    cases ht
    exact show 9 < UInt64.size by decide
  stats s hs := by
    cases hs
    exact {
      steps := by decide
      nodesCreated := by decide
      scenesEmitted := by decide
      finalRejections := by decide
      depths := by decide +kernel
      reasons := by decide +kernel
      draws := ⟨by decide, by decide⟩ }
  familyDraws := by decide +kernel
  duration := by decide

/-- The report and its configuration are read back with their share of seven tenths. -/
theorem read_back_cutOff :
    Report.cutOff.InRange ∧ Config.capped.InRange ∧
      Report.ofText Report.cutOff.toJson.pretty = .ok .cutOff ∧
      Config.ofText Config.capped.toJson.pretty = .ok .capped := by
  have hshare : ReadsBack Config.capped.trainingRatio := by decide +kernel
  obtain ⟨hreport, hconfig, -⟩ :=
    documents_read_back_iff Report.inRange_cutOff Config.inRange_capped
  exact ⟨Report.inRange_cutOff, Config.inRange_capped, hreport.mpr hshare, hconfig.mpr hshare⟩

end SoundScenes
