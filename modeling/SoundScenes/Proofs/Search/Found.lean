import SoundScenes.Proofs.Feasibility

/-!
# When a search finds anything

A beginning of a scene is given up as if a family on its way to the quota were absent. So a scene
can only be found if there are places for the large families and, besides, for all but one sound of
another family; and if there are, the scene in which the large families come first and whole is
never given up.

* `run_scenes_allKept` — the beginnings of a scene that has been found;
* `Complete.waste_le` — the places that a scene needs to be found;
* `Complete.allKept_of_meeting` — a scene whose families reach the quota one after another is kept;
* `run_finds_scene` — when a search finds a scene.
-/

namespace SoundScenes.Search

variable {σ : Type} {s : Search}

/-! ## What is needed -/

/-- All beginnings of a scene that has been found are kept, whatever ends the search. -/
theorem run_scenes_allKept [RandomSource σ] {clock : Nat → Nat} {source : σ}
    (hlength : 1 ≤ s.rule.length) {scene : List Nat}
    (hscene : scene ∈ (s.run clock source).scenes) : s.Complete scene ∧ s.AllKept scene := by
  obtain ⟨t, id, hgrown, hid, hfollows, rfl⟩ := exists_follows_of_mem_run hlength hscene
  exact ⟨((hgrown.follows_iff hid).mp hfollows).1,
    hgrown.allKept_of_follows hlength hid hfollows⟩

variable {scene : List Nat}

/-- Where all beginnings of a scene are kept, there are places for all but one sound of a family
besides those at the quota. -/
theorem Complete.waste_le (h : s.Complete scene) (hkept : s.AllKept scene)
    (hok : s.rule.rejectScene? s.catalog scene = .ok none)
    (hlimit : s.rule.length ≤ countLimit) (hquota : 1 ≤ s.rule.constraints.quota)
    (hreaching : 1 ≤ s.rule.constraints.minQuotaFamilies) :
    s.rule.constraints.minQuotaFamilies * s.rule.constraints.quota +
      (s.rule.constraints.quota - 1) ≤ s.rule.length := by
  have hplaces := h.places_le hok
  have hone := Nat.le_mul_of_pos_left s.rule.constraints.quota hreaching
  rcases Nat.eq_or_lt_of_le hquota with hquota | hquota
  · rw [← hquota] at hplaces ⊢
    omega
  · -- one sound short of the quota, no family has reached it and all of them still count
    have hlength : (scene.take (s.rule.constraints.quota - 1)).length =
        s.rule.constraints.quota - 1 := by
      rw [List.length_take_of_le]
      rw [h.length_eq]
      omega
    have hkeeps := h.allKept_iff.mp hkept (s.rule.constraints.quota - 1) (by
      rw [h.length_eq]
      omega)
    rcases hkeeps with hnil | hkeeps
    · rw [hnil, List.length_nil] at hlength
      omega
    · have hfamilies : ∀ f ∈ (scene.take (s.rule.constraints.quota - 1)).map s.catalog.family,
          f < s.catalog.familyCount := fun f hf =>
        h.families_lt f ((List.take_sublist _ _).map _ |>.mem hf)
      have hnone : (s.histogramOf (scene.take (s.rule.constraints.quota - 1))).meeting = 0 := by
        refine Histogram.meeting_of_length_lt hfamilies ?_
        rw [List.length_map, hlength]
        omega
      obtain ⟨-, -, hobjects⟩ := SceneRule.prune?_eq_none_iff.mp hkeeps
      rw [hnone, hlength, Nat.sub_zero, ← Nat.not_lt, lt_boundedMul_iff] at hobjects
      omega

/-! ## What is enough -/

/-- The places that are left when families come whole, and those that the families that are still
missing need. -/
theorem missing_mul_le {reaching quota length k : Nat} (hquota : 1 ≤ quota)
    (hwaste : reaching * quota + (quota - 1) ≤ length) :
    (reaching - min reaching (k / quota)) * quota ≤ length - k := by
  have hdiv := Nat.div_add_mod k quota
  have hmod := Nat.mod_lt k hquota
  have hmin : reaching - min reaching (k / quota) = reaching - k / quota := by omega
  rw [hmin, Nat.sub_mul, Nat.mul_comm (k / quota)]
  omega

/-- A scene whose families reach the quota one after another is never given up. -/
theorem Complete.allKept_of_meeting (h : s.Complete scene)
    (hquota : 1 ≤ s.rule.constraints.quota)
    (hwaste : s.rule.constraints.minQuotaFamilies * s.rule.constraints.quota +
      (s.rule.constraints.quota - 1) ≤ s.rule.length)
    (hdistinct : s.rule.constraints.minFamilies ≤ (s.histogramOf scene).distinct)
    (hmeeting : ∀ k, min s.rule.constraints.minQuotaFamilies (k / s.rule.constraints.quota) ≤
      (s.histogramOf (scene.take k)).meeting) : s.AllKept scene := by
  refine h.allKept_iff.mpr fun k hk => ?_
  rcases Nat.eq_zero_or_pos k with rfl | hpos
  · exact .inl rfl
  · refine .inr (SceneRule.prune?_eq_none_iff.mpr ?_)
    have hplaces : s.rule.length - ((scene.take k).length - 1 + 1) = s.rule.length - k := by
      rw [List.length_take_of_le hk, Nat.sub_add_cancel hpos]
    rw [hplaces]
    -- each sound that is left brings at most one family more
    have hpresent : s.rule.constraints.minFamilies - (s.histogramOf (scene.take k)).distinct ≤
        s.rule.length - k := by
      have hgrow := Histogram.distinct_append_le s.catalog.familyCount s.rule.constraints.quota
        ((scene.take k).map s.catalog.family) ((scene.drop k).map s.catalog.family)
      rw [← List.map_append, List.take_append_drop, List.length_map, List.length_drop,
        h.length_eq] at hgrow
      simp only [histogramOf] at hdistinct ⊢
      omega
    have hobjects : (s.rule.constraints.minQuotaFamilies -
        (s.histogramOf (scene.take k)).meeting) * s.rule.constraints.quota ≤ s.rule.length - k :=
      calc _ ≤ (s.rule.constraints.minQuotaFamilies -
              min s.rule.constraints.minQuotaFamilies (k / s.rule.constraints.quota)) *
                s.rule.constraints.quota :=
            Nat.mul_le_mul_right _ (Nat.sub_le_sub_left (hmeeting k) _)
        _ ≤ s.rule.length - k := missing_mul_le hquota hwaste
    exact ⟨hpresent, (Nat.le_mul_of_pos_right _ hquota).trans hobjects,
      (SceneRule.boundedMul_le _ _).trans hobjects⟩

/-- Where the check finds nothing and there are places enough, some scene is never given up. -/
theorem exists_allKept {catalog : Catalog} {config : Config}
    (hfeasible : (config.feasibility catalog.summary).errors = [])
    (hquota : 1 ≤ config.constraints.quota)
    (hwaste : config.constraints.minQuotaFamilies * config.constraints.quota +
      (config.constraints.quota - 1) ≤ config.sceneLength)
    (hplaces : config.constraints.minQuotaFamilies * config.constraints.quota +
      (config.constraints.minFamilies - config.constraints.minQuotaFamilies) ≤
        config.sceneLength) :
    ∃ scene, (ofConfig catalog config).Complete scene ∧
      (ofConfig catalog config).AllKept scene := by
  obtain ⟨hpresent, -, -, hreaching, hsize⟩ := Config.feasibility_errors_eq_nil_iff.mp hfeasible
  rw [Catalog.familyCount_summary] at hpresent
  obtain ⟨scene, hcomplete, hdistinct, hmeeting⟩ := exists_complete
    (s := ofConfig catalog config) hquota hpresent hreaching hplaces hsize
  exact ⟨scene, hcomplete, hcomplete.allKept_of_meeting hquota hwaste hdistinct hmeeting⟩

/-- **When a search finds a scene.** Every search that finds one has places for the families at the
quota with all but one sound of another, and for those that must be present besides. Where the check
of a configuration finds nothing, these places are enough for a search of full width. -/
theorem run_finds_scene [RandomSource σ] (catalog : Catalog) (config : Config)
    (hlength : 1 ≤ config.sceneLength) (hlimit : config.sceneLength ≤ countLimit)
    (hquota : 1 ≤ config.constraints.quota) (hreaching : 1 ≤ config.constraints.minQuotaFamilies)
    (clock : Nat → Nat) (source : σ) :
    let s := ofConfig catalog config
    let k := config.constraints
    s.EndsWith clock source (s.run clock source) ∧
    s.unlimited.EndsWith clock source (s.unlimited.run clock source) ∧
    ((s.run clock source).scenes ≠ [] →
      k.minQuotaFamilies * k.quota + (k.quota - 1) ≤ config.sceneLength ∧
      k.minQuotaFamilies * k.quota + (k.minFamilies - k.minQuotaFamilies) ≤ config.sceneLength) ∧
    ((config.validateFor catalog.summary).errors = [] → catalog.size ≤ config.treeWidth →
      k.minQuotaFamilies * k.quota + (k.quota - 1) ≤ config.sceneLength →
      k.minQuotaFamilies * k.quota + (k.minFamilies - k.minQuotaFamilies) ≤ config.sceneLength →
      (s.unlimited.run clock source).scenes ≠ []) := by
  intro s k
  refine ⟨endsWith_run s clock source, endsWith_run _ clock source, fun hfound => ?_, ?_⟩
  · obtain ⟨scene, hscene⟩ := List.exists_mem_of_ne_nil _ hfound
    obtain ⟨hcomplete, hkept⟩ := run_scenes_allKept (s := s) hlength hscene
    have hok : s.rule.rejectScene? s.catalog scene = .ok none := by
      rw [rejectScene?_eq hcomplete.lt_size, (run_scenes_complete hlength hscene).2]
    exact ⟨hcomplete.waste_le hkept hok hlimit hquota hreaching, hcomplete.places_le hok⟩
  · intro hvalid hwidth hwaste hplaces
    obtain ⟨-, hfeasible⟩ := Config.validateFor_errors_eq_nil_iff.mp hvalid
    obtain ⟨scene, hscene⟩ := exists_allKept hfeasible hquota hwaste hplaces
    exact List.ne_nil_of_mem ((mem_run_scenes_iff (s := s) hlength hwidth).mpr hscene)

/-- Scenes in which a family is played twice. -/
def pairConfig (length : Nat) : Config :=
  { Config.standard with
    sceneLength := length
    treeWidth := 3
    constraints := ⟨1, 2, 1⟩ }

/-- Of three sounds of one family a scene of three is found but none of two, though the check has
nothing against either. -/
theorem run_unison :
    ((pairConfig 2).validateFor Catalog.unison.summary).errors = [] ∧
    ((ofConfig .unison (pairConfig 2)).run (fun _ => 0) (Pcg.ofSeed 7)).scenes = [] ∧
    ((ofConfig .unison (pairConfig 3)).unlimited.run (fun _ => 0) (Pcg.ofSeed 7)).scenes ≠ [] := by
  refine ⟨rfl, ?_, ?_⟩
  · obtain ⟨-, -, hneeded, -⟩ := run_finds_scene .unison (pairConfig 2) (by decide) (by decide)
      (by decide) (by decide) (fun _ => 0) (Pcg.ofSeed 7)
    by_contra hfound
    exact absurd (hneeded hfound).1 (by decide)
  · obtain ⟨-, -, -, henough⟩ := run_finds_scene .unison (pairConfig 3) (by decide) (by decide)
      (by decide) (by decide) (fun _ => 0) (Pcg.ofSeed 7)
    exact henough rfl (by decide) (by decide) (by decide)

end SoundScenes.Search
