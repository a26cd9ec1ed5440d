import SoundScenes.Proofs.Scene.Order

/-!
# What a check accepts

What a scene and a dataset must be for a check to find nothing wrong with them. A scene of a dataset
must also stand where its labels say.

* `Scene.flaws_eq_nil_iff` — the parts of the check of a scene;
* `Scene.Lawful`, `Dataset.Lawful` — what is asked of scenes and datasets;
* `Dataset.Lawful.violations` — then nothing is wrong.
-/

namespace SoundScenes

/-! ## Scenes -/

/-- Nothing is wrong with a scene if its length, its sounds, its instruments and its order are as
they should be. A quota of zero asks for nothing. -/
theorem Scene.flaws_eq_nil_iff {c : Config} {s : Scene} : s.flaws c = [] ↔
    s.sounds.length = c.sceneLength ∧ s.ids.Nodup ∧
      c.constraints.minFamilies ≤ s.instruments.length ∧
      (0 < c.constraints.quota → c.constraints.minQuotaFamilies ≤
        (s.instruments.filter fun name => c.constraints.quota ≤ s.countInstrument name).length) ∧
      s.relationships.flaws s.sounds.length = [] := by
  unfold Scene.flaws
  simp only [List.append_eq_nil_iff, findingIf_eq_nil_iff, Decidable.not_not, Nat.not_lt, not_and,
    and_assoc]

/-- What is asked of a scene at a place of a split. -/
structure Scene.Lawful (c : Config) (split : Split) (index : Nat) (s : Scene) : Prop where
  length_eq : s.sounds.length = c.sceneLength
  nodup_ids : s.ids.Nodup
  families : c.constraints.minFamilies ≤ s.instruments.length
  /-- A quota of zero asks for nothing. -/
  quota : 0 < c.constraints.quota → c.constraints.minQuotaFamilies ≤
    (s.instruments.filter fun name => c.constraints.quota ≤ s.countInstrument name).length
  relationships_eq : s.relationships = .positional s.sounds.length
  split_eq : s.split = split
  index_eq : s.index = index
  file_eq : s.file = c.output.sceneFile split index

namespace Scene.Lawful

variable {c : Config} {split : Split} {index : Nat} {s : Scene}

theorem flaws (h : s.Lawful c split index) : s.flaws c = [] := by
  refine Scene.flaws_eq_nil_iff.mpr ⟨h.length_eq, h.nodup_ids, h.families, h.quota, ?_⟩
  rw [h.relationships_eq]
  exact (Relationships.orders_positional _).flaws

theorem placeViolations (h : s.Lawful c split index) : s.placeViolations c split index = [] := by
  have hplace : ¬ (s.split ≠ split ∨ s.index ≠ index) := by
    rintro (hne | hne)
    · exact hne h.split_eq
    · exact hne h.index_eq
  rw [Scene.placeViolations, findingIf_of_not hplace, findingIf_of_not (not_not_intro h.file_eq)]
  rfl

end Scene.Lawful

/-! ## Datasets -/

/-- What is asked of the scenes of a split. -/
structure SceneSet.Lawful (c : Config) (split : Split) (set : SceneSet) : Prop where
  label : set.header.split = split
  scenes : ∀ index (h : index < set.scenes.length), set.scenes[index].Lawful c split index

theorem SceneSet.Lawful.violations {c : Config} {split : Split} {set : SceneSet}
    (h : set.Lawful c split) : set.violations c split = [] := by
  rw [SceneSet.violations, findingIf_of_not (not_not_intro h.label), List.nil_append,
    List.flatMap_eq_nil_iff]
  rintro ⟨scene, index⟩ hmem
  obtain ⟨hlt, heq⟩ := List.mem_zipIdx' hmem
  have hscene : scene.Lawful c split index := heq ▸ h.scenes index hlt
  show scene.placeViolations c split index ++ scene.violations c = []
  rw [hscene.placeViolations, Scene.violations, hscene.flaws]
  rfl

/-- What is asked of a dataset. -/
structure Dataset.Lawful (c : Config) (d : Dataset) : Prop where
  sizes_eq : d.sizes = .compute d.total c.trainingRatio
  sets : ∀ split, (d.get split).Lawful c split

/-- Nothing is wrong with a dataset that is as it should be. -/
theorem Dataset.Lawful.violations {c : Config} {d : Dataset} (h : d.Lawful c) :
    d.violations c = [] := by
  unfold Dataset.violations
  simp only
  rw [findingIf_of_not (not_not_intro h.sizes_eq), List.nil_append, List.flatMap_eq_nil_iff]
  rintro ⟨split, set⟩ hmem
  obtain ⟨split, -, heq⟩ := List.mem_map.mp hmem
  cases heq
  exact (h.sets split).violations

end SoundScenes
