import SoundScenes.Proofs.Generation
import SoundScenes.Proofs.Names

/-!
# Files of a dataset

Every scene of a dataset is rendered to a file that is named for its place, so that the files of its
scenes are as different as their places. Neither is any of them one of the documents that are written
with the dataset.

* `SceneSet.files_ofScenes` — the files of a split, in order;
* `Dataset.nodup_files` — the files of all scenes are different;
* `Naming.names_differ` — all names of a dataset.
-/

namespace SoundScenes

variable {catalog : Catalog} {naming : Naming} {date : String} {scenes : List (List Nat)}

/-- The scenes of a split are rendered to the files for its places, one after another. -/
theorem SceneSet.files_ofScenes {split : Split} {set : SceneSet}
    (h : SceneSet.ofScenes catalog naming date split scenes = .ok set) :
    set.scenes.map (·.file) = (List.range set.scenes.length).map (naming.sceneFile split) := by
  obtain ⟨-, -, hmade⟩ := SceneSet.ofScenes_ok h
  refine List.ext_getElem (by simp) fun index hindex _ => ?_
  obtain ⟨ids, -, hids⟩ := hmade index (by simpa using hindex)
  obtain ⟨sounds, -, hscene⟩ := Scene.ofIds_eq_ok.mp hids
  rw [List.getElem_map, List.getElem_map, List.getElem_range, hscene]

/-- No two scenes of a dataset are rendered to one file. -/
theorem Dataset.nodup_files {ratio : Float} {seed : Option Nat} {d : Dataset}
    (h : Dataset.ofScenes catalog naming ratio seed date scenes = .ok d) :
    (d.scenes.map (·.file)).Nodup := by
  have hfiles (split : Split) := SceneSet.files_ofScenes (Dataset.get_ofScenes h split)
  rw [Dataset.scenes_eq_flatMap, List.map_flatMap]
  simp only [hfiles]
  refine List.nodup_flatMap.mpr ⟨fun split _ => ?_, ?_⟩
  · exact List.Nodup.map (fun _ _ heq => (Naming.sceneFile_inj.mp heq).2) List.nodup_range
  · -- a file that two splits share would belong to both of them
    have hall : Split.all.Nodup := by decide
    refine hall.imp fun hne file hfile hfile' => ?_
    obtain ⟨index, -, rfl⟩ := List.mem_map.mp hfile
    obtain ⟨index', -, heq⟩ := List.mem_map.mp hfile'
    exact hne (Naming.sceneFile_inj.mp heq).1.symm

/-- **No two files of a dataset share a name.** If nothing is wrong with the names, the name of a
scene's file tells its split and its index, however large, stands for an entry of a directory, and
has the extension that is asked for. The documents have different names, none of which any scene
has. So whatever is generated under these names, its scenes all have files of their own. -/
theorem Naming.names_differ {n : Naming} (h : n.errors = []) :
    (∀ split index split' index', n.sceneFile split index = n.sceneFile split' index' ↔
        split = split' ∧ index = index') ∧
      (∀ split index, Path.Plain (n.sceneFile split index) ∧
        ("." ++ n.extension).toList <:+ (n.sceneFile split index).toList ∧
          '.' ∉ n.extension.toList) ∧
      (Split.all.map n.scenesFile ++ [n.reportFile]).Nodup ∧
      (∀ split index, n.sceneFile split index ∉ Split.all.map n.scenesFile ++ [n.reportFile]) ∧
      ∀ (catalog : Catalog) (config : Config) (date : String) (clock : Nat → Nat) (g : Generated),
        config.output = n → generate catalog config date clock = .ok g →
          (g.dataset.scenes.map (·.file)).Nodup := by
  refine ⟨fun _ _ _ _ => sceneFile_inj, fun split index => ⟨plain_sceneFile h split index,
    n.extension_suffix split index, (extension_of_errors h).2⟩, n.nodup_fileNames,
    n.sceneFile_not_mem, ?_⟩
  rintro catalog config date clock g - hg
  obtain ⟨_, d, -, hd, rfl⟩ := generate_eq_ok.mp hg
  exact Dataset.nodup_files hd

/-- Names whose stem looks like the file of a scene, and whose extension is that of documents. -/
def Naming.intricate : Naming := ⟨"aqa_train_000001.json_V1", "0_val_scenes", "json", "none"⟩

/-- Such names are still all different, also for indices that leave no room for zeros. -/
theorem Naming.names_differ_intricate : intricate.errors = [] ∧
    intricate.sceneFile .train 1000000 ≠ intricate.sceneFile .train 100000 ∧
    intricate.sceneFile .val 7 ≠ intricate.reportFile ∧
    Path.Plain (intricate.sceneFile .test 12345678) ∧
    ∃ g, generate .duet { duetConfig with output := intricate } "2024-01-01" (fun _ => 0) = .ok g ∧
      (g.dataset.scenes.map (·.file)).Nodup := by
  have herrors : intricate.errors = [] := rfl
  obtain ⟨hinj, hplain, -, hother, hfiles⟩ := Naming.names_differ herrors
  have hcheck : { duetConfig with output := intricate }.check Catalog.duet.summary = .ok [] := rfl
  obtain ⟨g, hg⟩ := exists_generate hcheck "2024-01-01" fun _ => 0
  refine ⟨herrors, fun heq => ?_, fun heq => ?_, (hplain .test 12345678).1, g, hg,
    hfiles _ _ _ _ _ rfl hg⟩
  · exact absurd ((hinj _ _ _ _).mp heq).2 (by decide)
  · refine hother .val 7 ?_
    rw [heq]
    exact List.mem_append_right _ (List.mem_singleton.mpr rfl)

end SoundScenes
