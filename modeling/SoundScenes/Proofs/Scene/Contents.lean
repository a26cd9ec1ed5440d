import SoundScenes.Proofs.Generation
import SoundScenes.Proofs.Scene.Fingerprint
import SoundScenes.Proofs.Search.Scenes

/-!
# What a dataset holds

The scenes of a dataset are those that the search has found, and no others: in the order of the
search if they are not shuffled, and up to order in any case. So the fingerprint can be computed
again from the dataset. What is searched depends neither on the order, nor on the share for
training, nor on names.

* `Dataset.ids_ofScenes` — the scenes of a dataset, split by split;
* `exists_generate_with` — the same search with another order, share and names;
* `generate_contents` — what generation keeps of the search.
-/

namespace SoundScenes

variable {catalog : Catalog} {config : Config} {naming : Naming} {ratio : Float}
  {seed : Option Nat} {date : String} {clock : Nat → Nat} {split : Split} {index : Nat}
  {ids : List Nat} {scenes : List (List Nat)} {g : Generated}

/-! ## Identifiers -/

/-- The scene of some sounds holds these sounds. -/
theorem Scene.ids_ofIds {scene : Scene}
    (h : Scene.ofIds catalog naming split index ids = .ok scene) : scene.ids = ids := by
  obtain ⟨sounds, hsounds, rfl⟩ := Scene.ofIds_eq_ok.mp h
  exact (Catalog.mapM_get hsounds).1

/-- A set of scenes holds the scenes that were given, in order. -/
theorem SceneSet.ids_ofScenes {set : SceneSet}
    (h : SceneSet.ofScenes catalog naming date split scenes = .ok set) :
    set.scenes.map Scene.ids = scenes := by
  obtain ⟨made, hmade, heq⟩ := bind_eq_ok.mp h
  cases heq
  show made.map Scene.ids = scenes
  have hall := mapM_eq_ok.mp hmade
  have hids : made.map Scene.ids = scenes.zipIdx.map Prod.fst := by
    generalize scenes.zipIdx = entries at hall
    clear hmade h
    induction hall with
    | nil => rfl
    | cons hscene _ ih => rw [List.map_cons, List.map_cons, Scene.ids_ofIds hscene, ih]
  rw [hids, List.zipIdx_map_fst]

/-- The splits put together hold the scenes that were given, in the order in which they were
arranged. -/
theorem Dataset.ids_ofScenes {d : Dataset}
    (h : Dataset.ofScenes catalog naming ratio seed date scenes = .ok d) :
    d.scenes.map Scene.ids = arrange seed scenes := by
  have hset (split : Split) := SceneSet.ids_ofScenes (Dataset.get_ofScenes h split)
  rw [Dataset.scenes, List.map_append, List.map_append]
  exact (congr (congrArg _ (congr (congrArg _ (hset .train)) (hset .val))) (hset .test)).trans
    (SplitSizes.part_append _ _)

/-! ## Generation -/

/-- The scenes of a generated dataset are those found, as they are arranged. -/
theorem ids_generate (h : generate catalog config date clock = .ok g) :
    g.dataset.scenes.map Scene.ids =
      arrange (Generated.shuffleSeed config) (searchOutcome catalog config clock).scenes := by
  obtain ⟨warnings, d, -, hd, rfl⟩ := generate_eq_ok.mp h
  exact Dataset.ids_ofScenes hd

/-- With another order, another share and other names that are valid, generation still gives a
result. -/
theorem exists_generate_with (h : generate catalog config date clock = .ok g) (shuffle : Bool)
    (hratio : Config.ratioOk ratio = true) (hnaming : naming.errors = []) (date' : String) :
    ∃ g', generate catalog { config with shuffle, trainingRatio := ratio, output := naming } date'
      clock = .ok g' := by
  obtain ⟨warnings, -, hcheck, -⟩ := generate_eq_ok.mp h
  obtain ⟨hvalid, hfeasible⟩ :=
    Config.validateFor_errors_eq_nil_iff.mp (Config.check_eq_ok_iff.mp hcheck).1
  obtain ⟨hlength, hwidth, -, -⟩ := Config.validate_errors_eq_nil_iff.mp hvalid
  have hvalid' : { config with shuffle, trainingRatio := ratio, output := naming }.validate.errors =
      [] := Config.validate_errors_eq_nil_iff.mpr ⟨hlength, hwidth, hratio, hnaming⟩
  -- feasibility looks at none of the three
  exact exists_generate (Config.check_of_clear
    (Config.validateFor_errors_eq_nil_iff.mpr ⟨hvalid', hfeasible⟩)) date' clock

/-- **Generation keeps what the search has found.** The dataset holds the scenes found up to order,
and in their order if they are not shuffled; their number is the one counted, and their fingerprint
can be computed from the dataset in any order. Another order, share or naming changes nothing of
this, nor the counts, nor the end of the search. -/
theorem generate_contents (h : generate catalog config date clock = .ok g) :
    let found := (searchOutcome catalog config clock).scenes
    let held := g.dataset.scenes.map Scene.ids
    held.Perm found ∧ (config.shuffle = false → held = found) ∧
      g.dataset.total = g.stats.scenesEmitted ∧
      (∀ scenes, scenes.Perm held → fingerprint scenes = g.fingerprint) ∧
      ∀ shuffle ratio naming date', Config.ratioOk ratio = true → naming.errors = [] →
        ∃ g', generate catalog { config with shuffle, trainingRatio := ratio, output := naming }
            date' clock = .ok g' ∧
          (g'.dataset.scenes.map Scene.ids).Perm held ∧ g'.fingerprint = g.fingerprint ∧
            g'.stats = g.stats ∧ g'.termination = g.termination := by
  intro found held
  have hheld : held = arrange (Generated.shuffleSeed config) found := ids_generate h
  have hperm : held.Perm found := hheld ▸ arrange_perm _ found
  obtain ⟨warnings, d, hcheck, hd, hg⟩ := generate_eq_ok.mp h
  refine ⟨hperm, fun hshuffle => ?_, ?_, fun scenes hscenes => ?_, ?_⟩
  · rw [hheld, Generated.shuffleSeed, hshuffle]
    rfl
  · have hlength : 1 ≤ (Search.ofConfig catalog config).rule.length :=
      Config.length_pos_of_check hcheck
    obtain ⟨-, -, -, -, hemitted⟩ := Search.run_scenes (Search.ofConfig catalog config) hlength
      clock (Pcg.ofSeed config.seed)
    rw [hg]
    exact (Dataset.total_ofScenes hd).trans hemitted.symm
  · rw [fingerprint_eq_of_perm (hscenes.trans hperm), hg]
  · intro shuffle ratio naming date' hratio hnaming
    obtain ⟨g', hg'⟩ := exists_generate_with h shuffle hratio hnaming date'
    obtain ⟨_, _, -, -, hgenerated⟩ := generate_eq_ok.mp hg'
    -- the same is searched, so the same is found
    have hperm' : (g'.dataset.scenes.map Scene.ids).Perm found := by
      rw [ids_generate hg']
      exact arrange_perm _ found
    refine ⟨g', hg', hperm'.trans hperm.symm, ?_⟩
    rw [hgenerated, hg]
    exact ⟨rfl, rfl, rfl⟩

/-- Two sounds make two scenes, and with half of them for training and none shuffled they keep
their fingerprint. -/
theorem generate_duetConfig_unshuffled :
    ∃ g, generate .duet { duetConfig with shuffle := false, trainingRatio := 0.5 } "2024-01-01"
        (fun _ => 0) = .ok g ∧
      g.fingerprint = fingerprint [[0, 1], [1, 0]] ∧ g.stats.scenesEmitted = 2 := by
  have hcheck : duetConfig.check Catalog.duet.summary = .ok [] := rfl
  have hfound : (searchOutcome .duet duetConfig fun _ => 0).scenes.Perm [[0, 1], [1, 0]] := by
    decide +kernel
  have hcount : (searchOutcome .duet duetConfig fun _ => 0).stats.scenesEmitted = 2 := by
    decide +kernel
  obtain ⟨g, hg⟩ := exists_generate hcheck "2024-01-01" fun _ => 0
  obtain ⟨hperm, -, -, hfingerprint, hother⟩ := generate_contents hg
  obtain ⟨g', hg', -, hsame, hstats, -⟩ :=
    hother false 0.5 duetConfig.output "2024-01-01" rfl rfl
  refine ⟨g', hg', ?_, ?_⟩
  · rw [hsame, ← hfingerprint _ (hfound.symm.trans hperm.symm)]
  · obtain ⟨_, _, -, -, rfl⟩ := generate_eq_ok.mp hg
    exact (congrArg _ hstats).trans hcount

end SoundScenes
