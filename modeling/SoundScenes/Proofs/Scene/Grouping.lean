import SoundScenes.Proofs.Scene.Contents
import SoundScenes.Proofs.Search.Grouping

/-!
# What a dataset shows of its catalog

Catalogs that group their sounds alike give the same dataset, but for what the scenes tell about
their sounds: the same scenes of the same identifiers stand at the same places. The counts of the
search are the same too, with the draws of every family under its own number.

* `Scene.outline` — what a scene shows without its sounds;
* `Generated.Renumbers` — datasets that differ in their sounds and in the numbers of families only;
* `generate_grouping` — catalogs that group their sounds alike give such datasets.
-/

namespace SoundScenes

variable {c c' : Catalog} {config : Config} {naming : Naming} {ratio : Float} {seed : Option Nat}
  {date : String} {clock : Nat → Nat} {split : Split} {scenes : List (List Nat)}

/-- What a scene shows besides its sounds: their identifiers, its place and its file. -/
structure Outline where
  ids : List Nat
  split : Split
  index : Nat
  file : String
  deriving DecidableEq, Repr

def Scene.outline (s : Scene) : Outline := ⟨s.ids, s.split, s.index, s.file⟩

/-- The outline of a scene of some sounds does not depend on the catalog. -/
theorem Scene.outline_ofIds {index : Nat} {ids : List Nat} {scene : Scene}
    (h : Scene.ofIds c naming split index ids = .ok scene) :
    scene.outline = ⟨ids, split, index, naming.sceneFile split index⟩ := by
  have hids := Scene.ids_ofIds h
  obtain ⟨sounds, -, rfl⟩ := Scene.ofIds_eq_ok.mp h
  rw [outline, hids]

theorem SceneSet.outlines_ofScenes {set : SceneSet}
    (h : SceneSet.ofScenes c naming date split scenes = .ok set) :
    set.header = ⟨naming.datasetName, naming.license, naming.version, split, date⟩ ∧
      set.scenes.map Scene.outline = scenes.zipIdx.map fun (ids, index) =>
        ⟨ids, split, index, naming.sceneFile split index⟩ := by
  obtain ⟨made, hmade, heq⟩ := bind_eq_ok.mp h
  cases heq
  refine ⟨rfl, ?_⟩
  have hall := mapM_eq_ok.mp hmade
  clear hmade h
  generalize scenes.zipIdx = entries at hall ⊢
  show made.map Scene.outline = _
  induction hall with
  | nil => rfl
  | cons hscene _ ih => rw [List.map_cons, List.map_cons, Scene.outline_ofIds hscene, ih]

/-- Generated datasets of two catalogs that differ in what the scenes tell about their sounds and in
the numbers of families only. -/
structure Generated.Renumbers (g g' : Generated) (families : Nat) (number : Nat → Nat) : Prop where
  header_eq : ∀ split, (g'.dataset.get split).header = (g.dataset.get split).header
  outlines_eq : ∀ split, (g'.dataset.get split).scenes.map Scene.outline =
    (g.dataset.get split).scenes.map Scene.outline
  termination_eq : g'.termination = g.termination
  fingerprint_eq : g'.fingerprint = g.fingerprint
  warnings_eq : g'.warnings = g.warnings
  stats_eq : g'.stats = g.stats.retold g'.stats.draws.byFamily
  length_byFamily : g'.stats.draws.byFamily.length = families
  byFamily : ∀ f < families, g'.stats.draws.byFamily[number f]? = g.stats.draws.byFamily[f]?

/-- **Only the grouping of sounds matters to generation.** Of two catalogs in which the same sounds
share their instruments validation finds the same, and if one gives a dataset, so does the other,
with the same scenes at the same places. How the search ended and what it counted is the same, with
the draws of the families under their numbers in the other catalog, where a family keeps its
sounds. -/
theorem generate_grouping (h : c.GroupedAlike c') (config : Config) (date : String)
    (clock : Nat → Nat) :
    config.validateFor c'.summary = config.validateFor c.summary ∧
      Set.BijOn (c.renumbering c') (Set.Iio c.familyCount) (Set.Iio c'.familyCount) ∧
      (∀ id < c.size, c.families[c.family id]? = c.instrument? id ∧
        c'.families[c.renumbering c' (c.family id)]? = c'.instrument? id) ∧
      ∀ g, generate c config date clock = .ok g →
        ∃ g', generate c' config date clock = .ok g' ∧
          g.Renumbers g' c.familyCount (c.renumbering c') := by
  refine ⟨h.validateFor_eq config, h.bijOn_renumbering, fun id hid => ⟨?_, ?_⟩, fun g hg => ?_⟩
  · exact Catalog.families_getElem?_family hid
  · rw [h.renumbering_family hid]
    exact Catalog.families_getElem?_family (h.size_eq ▸ hid)
  · obtain ⟨warnings, d, hcheck, hd, rfl⟩ := generate_eq_ok.mp hg
    have hcheck' : config.check c'.summary = .ok warnings := (h.check_eq config).trans hcheck
    obtain ⟨g', hg'⟩ := exists_generate hcheck' date clock
    refine ⟨g', hg', ?_⟩
    obtain ⟨warnings', d', hcheck'', hd', rfl⟩ := generate_eq_ok.mp hg'
    -- both searches are one search in two catalogs
    have alike : (Search.ofConfig c config).catalog.GroupedAlike c' := h
    obtain ⟨byFamily, hrun, hlength, hdraws⟩ :=
      Search.run_retold alike clock (Pcg.ofSeed config.seed)
    have hrun : searchOutcome c' config clock = (searchOutcome c config clock).retold byFamily :=
      hrun
    have hscenes : (searchOutcome c' config clock).scenes =
        (searchOutcome c config clock).scenes := by
      rw [hrun]
      rfl
    have hstats : (searchOutcome c' config clock).stats =
        (searchOutcome c config clock).stats.retold byFamily := by
      rw [hrun]
      rfl
    rw [hscenes] at hd'
    have hset (split : Split) := SceneSet.outlines_ofScenes (Dataset.get_ofScenes hd split)
    have hset' (split : Split) := SceneSet.outlines_ofScenes (Dataset.get_ofScenes hd' split)
    constructor
    case header_eq => exact fun split => (hset' split).1.trans (hset split).1.symm
    case outlines_eq => exact fun split => (hset' split).2.trans (hset split).2.symm
    case termination_eq =>
      rw [hrun]
      rfl
    case fingerprint_eq => rw [hscenes]
    case warnings_eq => exact Except.ok.inj (hcheck''.symm.trans hcheck')
    case stats_eq =>
      rw [hstats]
      rfl
    case length_byFamily =>
      rw [hstats]
      exact hlength
    case byFamily =>
      intro f hf
      rw [hstats]
      exact hdraws f hf

/-- Sounds that are grouped like those of `Catalog.winds`, with names in the other order. -/
def Catalog.bows : Catalog where
  sounds := [.ofInstrument 0 "cello", { Sound.ofInstrument 1 "viola" with loudness := some .loud },
    .ofInstrument 2 "cello"]
  families := ["cello", "viola"]
  familyOf := [0, 1, 0]
  sounds_ne_nil := by simp
  ids := rfl
  named := by decide
  families_eq := by decide
  familyOf_eq := by decide

/-- The same scenes are found with names in the other order, and the draws of the two families are
exchanged. -/
theorem generate_bows : Catalog.winds.GroupedAlike .bows ∧
    ∃ g g', generate .winds duetConfig "2024-01-01" (fun _ => 0) = .ok g ∧
      generate .bows duetConfig "2024-01-01" (fun _ => 0) = .ok g' ∧
      g.Renumbers g' 2 (Catalog.winds.renumbering .bows) ∧
      Catalog.winds.renumbering .bows 0 = 1 ∧ Catalog.winds.renumbering .bows 1 = 0 := by
  have halike : Catalog.winds.GroupedAlike .bows := ⟨rfl, by decide⟩
  have hcheck : duetConfig.check Catalog.winds.summary = .ok [] := rfl
  obtain ⟨g, hg⟩ := exists_generate hcheck "2024-01-01" fun _ => 0
  obtain ⟨-, -, -, hgenerate⟩ := generate_grouping halike duetConfig "2024-01-01" fun _ => 0
  obtain ⟨g', hg', hrenumbers⟩ := hgenerate g hg
  exact ⟨halike, g, g', hg, hg', hrenumbers, by decide, by decide⟩

end SoundScenes
