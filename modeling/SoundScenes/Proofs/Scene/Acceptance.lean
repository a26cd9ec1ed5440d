import SoundScenes.Proofs.Scene.Check
import SoundScenes.Proofs.Scene.Contents
import SoundScenes.Proofs.Scene.Places
import SoundScenes.Proofs.Scene.Rule

/-!
# Scenes that are checked and scenes that are accepted

A scene is judged twice. The rule counts all families of the catalog by their numbers, the check of
a finished scene counts the names of the instruments that it finds there. Whatever the scene, both
come to the same verdict, with one exception: a quota of zero is reached by every family in the eyes
of the rule, which then refuses all scenes if the catalog has too few families, while the check does
not look at such a quota.

* `Catalog.le_meeting_iff` — the quota in the eyes of the rule and of the check;
* `Scene.violations_ofIds_iff` — the verdicts on a scene, whatever the constraints;
* `Dataset.check_agrees_with_rule` — the verdicts on the scenes of a dataset.
-/

namespace SoundScenes

variable {catalog : Catalog} {config : Config} {naming : Naming} {split : Split} {index : Nat}
  {ids : List Nat} {scene : Scene} {scenes : List (List Nat)}

/-- Enough families reach the quota for the rule if enough instruments do, or if the quota is zero
and there are enough families. -/
theorem Catalog.le_meeting_iff {n quota : Nat} (h : ids.mapM catalog.get = .ok scene.sounds) :
    n ≤ (Histogram.ofFamilies catalog.familyCount quota (ids.map catalog.family)).meeting ↔
      (0 < quota →
        n ≤ (scene.instruments.filter fun name => quota ≤ scene.countInstrument name).length) ∧
      (quota = 0 → n ≤ catalog.familyCount) := by
  -- for a quota of zero both sides speak of all families, absent ones included
  by_cases hquota : quota = 0
  · subst hquota
    rw [Histogram.meeting_of_zero]
    simp
  · have hpos : 0 < quota := Nat.pos_of_ne_zero hquota
    rw [Catalog.meeting_eq_instruments h hpos]
    simp [hquota, hpos]

/-- The check finds nothing wrong with a scene, and enough families reach a quota of zero, exactly
if the scene has the right length, repeats no sound and is accepted by the rule. -/
theorem Scene.violations_ofIds_iff (hids : ∀ id ∈ ids, id < catalog.size)
    (h : Scene.ofIds catalog naming split index ids = .ok scene) :
    scene.violations config = [] ∧ (config.constraints.quota = 0 →
        config.constraints.minQuotaFamilies ≤ catalog.familyCount) ↔
      ids.length = config.sceneLength ∧ ids.Nodup ∧
        SceneRule.rejectScene? ⟨config.constraints, config.sceneLength⟩ catalog ids = .ok none := by
  have hscene : scene.ids = ids := Scene.ids_ofIds h
  have hlength : scene.sounds.length = ids.length := by
    rw [← hscene, Scene.ids, List.length_map]
  obtain ⟨sounds, hget, heq⟩ := Scene.ofIds_eq_ok.mp h
  have hsounds : ids.mapM catalog.get = .ok scene.sounds := by rw [heq, hget]
  have horder : scene.relationships.flaws ids.length = [] := by
    rw [← hlength, heq]
    exact (Relationships.orders_positional _).flaws
  rw [SceneRule.rejectScene?_of_lt hids, Except.ok.injEq, SceneRule.reject?_eq_none_iff,
    Catalog.distinct_eq_instruments hsounds, Catalog.le_meeting_iff hsounds, Scene.violations,
    List.map_eq_nil_iff, Scene.flaws_eq_nil_iff, hscene, hlength]
  simp only [horder, and_true, and_assoc]

/-- Every scene of a dataset is that of its sounds at some place. -/
theorem Dataset.exists_ofIds {ratio : Float} {seed : Option Nat} {date : String} {d : Dataset}
    (h : Dataset.ofScenes catalog naming ratio seed date scenes = .ok d)
    (hscene : scene ∈ d.scenes) :
    ∃ split index, Scene.ofIds catalog naming split index scene.ids = .ok scene := by
  obtain ⟨split, hmem⟩ := Dataset.mem_scenes.mp hscene
  obtain ⟨index, hindex, rfl⟩ := List.getElem_of_mem hmem
  obtain ⟨-, -, hmade⟩ := SceneSet.ofScenes_ok (Dataset.get_ofScenes h split)
  obtain ⟨ids, -, hids⟩ := hmade index hindex
  refine ⟨split, index, ?_⟩
  rw [Scene.ids_ofIds hids]
  exact hids

/-- **The check and the rule agree.** From scenes of sounds of the catalog a dataset is made, in
which every scene has its place. If sounds are asked for at the quota, or the catalog has as many
families as should reach it, then for each of them the check finds nothing wrong exactly if the
scene has the right length, repeats no sound and is accepted by the rule. -/
theorem Dataset.check_agrees_with_rule (config : Config) (naming : Naming) (ratio : Float)
    (seed : Option Nat) (date : String) (hids : ∀ ids ∈ scenes, ∀ id ∈ ids, id < catalog.size)
    (hquota : 1 ≤ config.constraints.quota ∨
      config.constraints.minQuotaFamilies ≤ catalog.familyCount) :
    ∃ d, Dataset.ofScenes catalog naming ratio seed date scenes = .ok d ∧
      (d.scenes.map Scene.ids).Perm scenes ∧
      ∀ scene ∈ d.scenes, scene.violations config = [] ↔
        scene.ids.length = config.sceneLength ∧ scene.ids.Nodup ∧
          SceneRule.rejectScene? ⟨config.constraints, config.sceneLength⟩ catalog scene.ids =
            .ok none := by
  obtain ⟨d, hd⟩ := Dataset.exists_ofScenes naming ratio seed date hids
  have hperm : (d.scenes.map Scene.ids).Perm scenes := by
    rw [Dataset.ids_ofScenes hd]
    exact arrange_perm seed scenes
  refine ⟨d, hd, hperm, fun scene hscene => ?_⟩
  obtain ⟨split, index, hmade⟩ := Dataset.exists_ofIds hd hscene
  have hscene : scene.ids ∈ scenes := hperm.mem_iff.mp (List.mem_map_of_mem hscene)
  rw [← Scene.violations_ofIds_iff (hids scene.ids hscene) hmade, and_iff_left]
  -- what is left to show is that enough families reach a quota of zero
  intro hzero
  rcases hquota with hquota | hquota
  · omega
  · exact hquota

/-- Of three scenes one repeats a sound and one lacks a family. If one family is enough and the quota
is zero, the latter is accepted as well. -/
theorem check_agrees_with_rule_winds :
    let scenes := [[0, 1], [0, 2], [1, 1]]
    let lenient := { duetConfig with constraints := ⟨1, 0, 2⟩ }
    ∃ d, Dataset.ofScenes .winds .standard 0.5 (some 7) "2024-01-01" scenes = .ok d ∧
      (∀ scene ∈ d.scenes, scene.violations duetConfig = [] ↔ scene.ids = [0, 1]) ∧
      ∀ scene ∈ d.scenes, scene.violations lenient = [] ↔ scene.ids ≠ [1, 1] := by
  intro scenes lenient
  have hids : ∀ ids ∈ scenes, ∀ id ∈ ids, id < Catalog.winds.size := by decide
  obtain ⟨d, hd, hperm, hstrict⟩ := Dataset.check_agrees_with_rule duetConfig .standard 0.5 (some 7)
    "2024-01-01" hids (.inl (by decide))
  obtain ⟨d', hd', -, hlenient⟩ := Dataset.check_agrees_with_rule lenient .standard 0.5 (some 7)
    "2024-01-01" hids (.inr (by decide))
  obtain rfl : d = d' := Except.ok.inj (hd.symm.trans hd')
  have hcases {scene : Scene} (hscene : scene ∈ d.scenes) :
      scene.ids = [0, 1] ∨ scene.ids = [0, 2] ∨ scene.ids = [1, 1] := by
    simpa [scenes] using hperm.mem_iff.mp (List.mem_map_of_mem hscene)
  refine ⟨d, hd, fun scene hscene => ?_, fun scene hscene => ?_⟩
  · rw [hstrict scene hscene]
    rcases hcases hscene with h | h | h <;> rw [h]
    · exact ⟨fun _ => rfl, fun _ => ⟨rfl, by decide, rfl⟩⟩
    · exact ⟨fun ⟨_, _, hrule⟩ => (by cases hrule), fun h => (by cases h)⟩
    · exact ⟨fun ⟨_, hnodup, _⟩ => absurd hnodup (by decide), fun h => (by cases h)⟩
  · rw [hlenient scene hscene]
    rcases hcases hscene with h | h | h <;> rw [h]
    · exact ⟨fun _ => by decide, fun _ => ⟨rfl, by decide, rfl⟩⟩
    · exact ⟨fun _ => by decide, fun _ => ⟨rfl, by decide, rfl⟩⟩
    · exact ⟨fun ⟨_, hnodup, _⟩ => absurd hnodup (by decide), fun h => absurd rfl h⟩

end SoundScenes
