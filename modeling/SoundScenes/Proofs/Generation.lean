import SoundScenes.Proofs.Scene.Check
import SoundScenes.Proofs.Scene.Instruments
import SoundScenes.Proofs.Scene.Partition
import SoundScenes.Proofs.Search.Enumeration
import SoundScenes.Proofs.Validation

/-!
# Generated datasets

Whatever ends its search, generation makes a dataset in which a check finds nothing wrong: every
scene that has been found is complete and follows the rule, and every place of the dataset holds one
of them.

* `generate_eq_ok` — the parts of a generation that gives a result;
* `Scene.lawful_ofIds` — a scene that has been found is as it should be, wherever it stands;
* `generate_lawful` — so is the dataset.
-/

namespace SoundScenes

variable {catalog : Catalog} {config : Config} {date : String} {clock : Nat → Nat} {g : Generated}

/-- The search of a generation. -/
def searchOutcome (catalog : Catalog) (config : Config) (clock : Nat → Nat) : Outcome Pcg :=
  (Search.ofConfig catalog config).run clock (Pcg.ofSeed config.seed)

/-- A configuration that passes its check asks for scenes that are not empty. -/
theorem Config.length_pos_of_check {warnings : List WarningFinding}
    (h : config.check catalog.summary = .ok warnings) : 0 < config.sceneLength := by
  obtain ⟨hclear, -⟩ := check_eq_ok_iff.mp h
  obtain ⟨hvalid, -⟩ := validateFor_errors_eq_nil_iff.mp hclear
  exact Nat.pos_of_ne_zero (validate_errors_eq_nil_iff.mp hvalid).1

/-- A generation that gives a result has passed the check and made a dataset of the scenes. -/
theorem generate_eq_ok : generate catalog config date clock = .ok g ↔
    ∃ warnings d, config.check catalog.summary = .ok warnings ∧
      Dataset.ofScenes catalog config.output config.trainingRatio (Generated.shuffleSeed config)
        date (searchOutcome catalog config clock).scenes = .ok d ∧
      g = {
        dataset := d
        stats := (searchOutcome catalog config clock).stats
        termination := (searchOutcome catalog config clock).termination
        fingerprint := fingerprint (searchOutcome catalog config clock).scenes
        warnings := warnings } := by
  rw [generate, bind_eq_ok]
  refine exists_congr fun warnings => ?_
  rw [Generated.ofOutcome, bind_eq_ok]
  constructor
  · rintro ⟨hcheck, d, hd, heq⟩
    cases heq
    exact ⟨d, hcheck, mapError_eq_ok.mp hd, rfl⟩
  · rintro ⟨d, hcheck, hd, rfl⟩
    exact ⟨hcheck, d, mapError_eq_ok.mpr hd, rfl⟩

/-- The scenes of a generation are complete and follow the rule. -/
theorem searchOutcome_scenes {ids : List Nat} (hpos : 0 < config.sceneLength)
    (hids : ids ∈ (searchOutcome catalog config clock).scenes) :
    (Search.ofConfig catalog config).Complete ids ∧
      (Search.ofConfig catalog config).rule.reject?
        ((Search.ofConfig catalog config).histogramOf ids) = none := by
  have hlength : 1 ≤ (Search.ofConfig catalog config).rule.length := hpos
  exact Search.run_scenes_complete hlength hids

/-- After the check nothing fails. -/
theorem exists_generate {warnings : List WarningFinding}
    (h : config.check catalog.summary = .ok warnings) (date : String) (clock : Nat → Nat) :
    ∃ g, generate catalog config date clock = .ok g := by
  have hpos := Config.length_pos_of_check h
  have hscenes : ∀ ids ∈ (searchOutcome catalog config clock).scenes, ∀ id ∈ ids,
      id < catalog.size := fun ids hids => (searchOutcome_scenes hpos hids).1.lt_size
  obtain ⟨d, hd⟩ := Dataset.exists_ofScenes config.output config.trainingRatio
    (Generated.shuffleSeed config) date hscenes
  exact ⟨_, generate_eq_ok.mpr ⟨warnings, d, h, hd, rfl⟩⟩

/-- What stops a generation are errors of its configuration. -/
theorem generate_error_cases {e : GenerationError}
    (h : generate catalog config date clock = .error e) :
    ∃ errors, errors ≠ [] ∧ (e = .invalidConfig errors ∨ e = .infeasible errors) := by
  cases hcheck : config.check catalog.summary with
  | ok warnings =>
    obtain ⟨g, hg⟩ := exists_generate hcheck date clock
    rw [hg] at h
    cases h
  | error stop =>
    rw [generate, hcheck] at h
    cases h
    rcases Config.check_error_cases hcheck with ⟨hne, he⟩ | ⟨-, hne, he⟩
    · exact ⟨_, hne, .inl he⟩
    · exact ⟨_, hne, .inr he⟩

/-- A complete scene that follows the rule is as it should be, wherever it stands. -/
theorem Scene.lawful_ofIds {ids : List Nat} {split : Split} {index : Nat} {scene : Scene}
    (hcomplete : (Search.ofConfig catalog config).Complete ids)
    (hok : (Search.ofConfig catalog config).rule.reject?
      ((Search.ofConfig catalog config).histogramOf ids) = none)
    (h : Scene.ofIds catalog config.output split index ids = .ok scene) :
    scene.Lawful config split index := by
  obtain ⟨sounds, hsounds, rfl⟩ := Scene.ofIds_eq_ok.mp h
  obtain ⟨hids, -⟩ := Catalog.mapM_get hsounds
  obtain ⟨hfamilies, hmeeting⟩ := SceneRule.reject?_eq_none_iff.mp hok
  constructor
  case length_eq =>
    show sounds.length = _
    rw [← List.length_map (·.id), hids]
    exact hcomplete.length_eq
  case nodup_ids =>
    show (sounds.map (·.id)).Nodup
    rw [hids]
    exact hcomplete.nodup
  case families => exact hfamilies.trans_eq (Catalog.distinct_eq_instruments hsounds)
  case quota =>
    exact fun hquota => hmeeting.trans_eq (Catalog.meeting_eq_instruments hsounds hquota)
  case relationships_eq => rfl
  case split_eq => rfl
  case index_eq => rfl
  case file_eq => rfl

/-- **A generated dataset passes its check.** Whatever ends the search, every scene is as it should
be and stands where its labels say, and the sizes of the splits follow from the number of scenes. -/
theorem generate_lawful (h : generate catalog config date clock = .ok g) :
    g.dataset.Lawful config ∧ g.dataset.violations config = [] := by
  obtain ⟨warnings, d, hcheck, hd, rfl⟩ := generate_eq_ok.mp h
  have hpos := Config.length_pos_of_check hcheck
  have hlawful : d.Lawful config := by
    refine ⟨?_, fun split => ?_⟩
    · rw [Dataset.total_ofScenes hd]
      exact Dataset.sizes_ofScenes hd
    · obtain ⟨hlabel, -, hscenes⟩ := SceneSet.ofScenes_ok (Dataset.get_ofScenes hd split)
      refine ⟨hlabel, fun index hindex => ?_⟩
      obtain ⟨ids, hids, hmade⟩ := hscenes index hindex
      -- neither the order nor the cut brings in a scene that was not found
      have hfound := (arrange_perm _ _).mem_iff.mp (SplitSizes.mem_of_mem_part hids)
      obtain ⟨hcomplete, hok⟩ := searchOutcome_scenes hpos hfound
      exact Scene.lawful_ofIds hcomplete hok hmade
  exact ⟨hlawful, hlawful.violations⟩

/-- Scenes in which two sounds of different families are played. -/
def duetConfig : Config :=
  { Config.standard with
    sceneLength := 2
    treeWidth := 2
    constraints := ⟨2, 1, 2⟩ }

/-- A dataset of such scenes is made and passes its check. -/
theorem generate_duetConfig : ∃ g, generate .duet duetConfig "2024-01-01" (fun _ => 0) = .ok g ∧
    g.dataset.violations duetConfig = [] := by
  have hcheck : duetConfig.check Catalog.duet.summary = .ok [] := rfl
  obtain ⟨g, hg⟩ := exists_generate hcheck "2024-01-01" fun _ => 0
  exact ⟨g, hg, (generate_lawful hg).2⟩

end SoundScenes
