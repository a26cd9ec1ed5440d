import SoundScenes.Proofs.Scene.Composition
import SoundScenes.Proofs.Search.Enumeration
import SoundScenes.Proofs.Validation

/-!
# What the feasibility check can tell

The check looks at one constraint after another. A scene that follows the rule meets each of them,
so that nothing is rejected without need. Conversely only one thing escapes the check: the families
at the quota and those that must be present besides share the places of a scene.

The places that the quota needs are a product, and it is held at the largest count. Only a scene of
exactly that length can then pass for long enough although it is not. If the summary lists no more
sounds than can be counted, it lacks the families for such a quota, and the verdict is right again.

* `Search.exists_complete` — a scene that uses as few places as can be;
* `exists_scene_iff_feasible` — when a catalog has a scene that follows the rule;
* `Config.MetBy` — what is demanded of a catalog, in unbounded arithmetic;
* `Config.feasibility_against_exact` — the check against these demands.
-/

namespace SoundScenes

namespace Search

variable {s : Search}

/-! ## A scene exists -/

/-- A scene with so many families, whose large families come first and whole. -/
theorem exists_complete {present quota reaching : Nat} (hquota : 0 < quota)
    (hpresent : present ≤ s.catalog.familyCount)
    (hreaching : reaching ≤ s.catalog.summary.familiesWithAtLeast quota)
    (hplaces : reaching * quota + (present - reaching) ≤ s.rule.length)
    (hsize : s.rule.length ≤ s.catalog.size) :
    ∃ scene, s.Complete scene ∧
      present ≤ (Histogram.ofFamilies s.catalog.familyCount quota
        (scene.map s.catalog.family)).distinct ∧
      ∀ k, min reaching (k / quota) ≤ (Histogram.ofFamilies s.catalog.familyCount quota
        ((scene.take k).map s.catalog.family)).meeting := by
  obtain ⟨chosen, others, hnodup, hchosen, hothers, hmem, hmem'⟩ :=
    s.catalog.exists_selection hpresent hreaching
  refine ⟨s.catalog.compose s.rule.length quota chosen others, ⟨?_, ?_, ?_⟩, ?_, ?_⟩
  · exact Catalog.length_compose hnodup (by rw [hchosen, hothers]; exact hplaces) hsize
  · exact Catalog.nodup_compose hnodup
  · exact fun id hid => Catalog.lt_size_of_mem_compose hid
  · refine Nat.le_trans ?_ (Catalog.length_le_distinct_compose hnodup hquota hmem hmem')
    rw [List.length_append]
    omega
  · intro k
    rw [← hchosen]
    exact Catalog.min_le_meeting_compose (List.nodup_append.mp hnodup).1 hmem k

/-! ## Scenes that follow the rule -/

/-- A complete scene that follows the rule has enough families, and enough of them at the quota. -/
theorem Complete.rejectScene?_iff {scene : List Nat} (h : s.Complete scene) :
    s.rule.rejectScene? s.catalog scene = .ok none ↔
      s.rule.constraints.minFamilies ≤ (s.histogramOf scene).distinct ∧
      s.rule.constraints.minQuotaFamilies ≤ (s.histogramOf scene).meeting := by
  rw [rejectScene?_eq h.lt_size, Except.ok.injEq, SceneRule.reject?_eq_none_iff]

theorem Complete.families_lt {scene : List Nat} (h : s.Complete scene) :
    ∀ f ∈ scene.map s.catalog.family, f < s.catalog.familyCount := by
  intro f hf
  obtain ⟨id, hid, rfl⟩ := List.mem_map.mp hf
  exact Catalog.family_lt (h.lt_size id hid)

/-- A complete scene that follows the rule has the places that it needs. -/
theorem Complete.places_le {scene : List Nat} (h : s.Complete scene)
    (hok : s.rule.rejectScene? s.catalog scene = .ok none) :
    s.rule.constraints.minQuotaFamilies * s.rule.constraints.quota +
      (s.rule.constraints.minFamilies - s.rule.constraints.minQuotaFamilies) ≤ s.rule.length := by
  obtain ⟨hpresent, hreaching⟩ := h.rejectScene?_iff.mp hok
  have hplaces := Histogram.places_le h.families_lt hpresent hreaching
  rwa [List.length_map, h.length_eq] at hplaces

/-- No more families of a scene reach the quota than families of the catalog are large enough. -/
theorem Complete.meeting_le {scene : List Nat} (h : s.Complete scene) :
    (s.histogramOf scene).meeting ≤
      s.catalog.summary.familiesWithAtLeast s.rule.constraints.quota := by
  rw [histogramOf, Histogram.meeting_ofFamilies, Catalog.familiesWithAtLeast_summary,
    ← List.countP_eq_length_filter, ← List.countP_eq_length_filter]
  refine List.countP_mono_left fun f _ hf => decide_eq_true ?_
  exact (of_decide_eq_true hf).trans (Catalog.count_family_le h.nodup h.lt_size f)

end Search

variable {config : Config} {catalog : Catalog}

/-- The check rejects nothing that has a scene. -/
theorem Config.feasibility_of_scene {scene : List Nat}
    (h : (Search.ofConfig catalog config).Complete scene)
    (hok : (Search.ofConfig catalog config).rule.rejectScene? catalog scene = .ok none) :
    (config.feasibility catalog.summary).errors = [] := by
  obtain ⟨hpresent, hreaching⟩ := h.rejectScene?_iff.mp hok
  have hlength : scene.length = config.sceneLength := h.length_eq
  have hplaces := h.places_le hok
  refine feasibility_errors_eq_nil_iff.mpr ⟨?_, ?_, ?_, ?_, ?_⟩
  · rw [Catalog.familyCount_summary]
    refine hpresent.trans ?_
    rw [Search.histogramOf, Histogram.distinct_ofFamilies]
    exact (List.length_filter_le _ _).trans (Nat.le_of_eq List.length_range)
  · have hle := hpresent.trans (Histogram.distinct_le_length _ _ _)
    rwa [List.length_map, hlength] at hle
  · exact (SceneRule.boundedMul_le _ _).trans (Nat.le_of_add_right_le hplaces)
  · exact hreaching.trans h.meeting_le
  · rw [← hlength]
    exact Search.Grown.length_le_size h.nodup h.lt_size

/-- Where the check finds nothing and the places suffice, there is a scene. -/
theorem exists_scene_of_feasible (h : (config.feasibility catalog.summary).errors = [])
    (hplaces : config.constraints.minQuotaFamilies * config.constraints.quota +
      (config.constraints.minFamilies - config.constraints.minQuotaFamilies) ≤
        config.sceneLength) :
    ∃ scene, (Search.ofConfig catalog config).Complete scene ∧
      (Search.ofConfig catalog config).rule.rejectScene? catalog scene = .ok none := by
  obtain ⟨hpresent, hlength, -, hreaching, hsize⟩ := Config.feasibility_errors_eq_nil_iff.mp h
  rw [Catalog.familyCount_summary] at hpresent
  rcases Nat.eq_zero_or_pos config.constraints.quota with hzero | hquota
  · -- a quota of zero asks only that the catalog has so many families
    obtain ⟨scene, hcomplete, hdistinct, -⟩ := Search.exists_complete
      (s := .ofConfig catalog config) Nat.one_pos hpresent (Nat.zero_le _)
      (by rw [Nat.zero_mul, Nat.zero_add, Nat.sub_zero]; exact hlength) hsize
    refine ⟨scene, hcomplete, hcomplete.rejectScene?_iff.mpr ⟨?_, ?_⟩⟩
    · rw [Histogram.distinct_ofFamilies] at hdistinct
      rw [Search.histogramOf, Histogram.distinct_ofFamilies]
      exact hdistinct
    · have hcount : config.constraints.minQuotaFamilies ≤ catalog.familyCount := by
        rw [← Catalog.familyCount_summary]
        exact hreaching.trans (List.length_filter_le _ _)
      show _ ≤ (Histogram.ofFamilies catalog.familyCount config.constraints.quota _).meeting
      rwa [hzero, Histogram.meeting_of_zero]
  · obtain ⟨scene, hcomplete, hdistinct, hmeeting⟩ := Search.exists_complete
      (s := .ofConfig catalog config) hquota hpresent hreaching hplaces hsize
    refine ⟨scene, hcomplete, hcomplete.rejectScene?_iff.mpr ⟨hdistinct, ?_⟩⟩
    have hroom : config.constraints.minQuotaFamilies ≤ scene.length / config.constraints.quota := by
      rw [Nat.le_div_iff_mul_le hquota, hcomplete.length_eq]
      exact Nat.le_of_add_right_le hplaces
    have hfull := hmeeting scene.length
    rwa [List.take_length, Nat.min_eq_left hroom] at hfull

/-- **What the feasibility check can tell.** A catalog has a complete scene that follows the rule
exactly if the check finds nothing and the families at the quota leave places for those that must be
present besides. -/
theorem exists_scene_iff_feasible (catalog : Catalog) (config : Config) :
    (∃ scene, (Search.ofConfig catalog config).Complete scene ∧
      (Search.ofConfig catalog config).rule.rejectScene? catalog scene = .ok none) ↔
    (config.feasibility catalog.summary).errors = [] ∧
      config.constraints.minQuotaFamilies * config.constraints.quota +
        (config.constraints.minFamilies - config.constraints.minQuotaFamilies) ≤
          config.sceneLength := by
  constructor
  · rintro ⟨scene, hcomplete, hok⟩
    exact ⟨Config.feasibility_of_scene hcomplete hok, hcomplete.places_le hok⟩
  · rintro ⟨hfeasible, hplaces⟩
    exact exists_scene_of_feasible hfeasible hplaces

/-! ## Unbounded arithmetic -/

/-- A count holds a bounded product if it holds the product or is as large as a count can be. -/
theorem boundedMul_le_iff {a b n : Nat} : boundedMul a b ≤ n ↔ a * b ≤ n ∨ countLimit ≤ n := by
  rw [← Nat.not_lt, lt_boundedMul_iff, not_and_or, Nat.not_lt, Nat.not_lt]

/-- The product for families that are large enough is bounded by the sounds that are listed. -/
theorem Summary.boundedMul_eq {summary : Summary} {families quota : Nat}
    (h : summary.listed ≤ countLimit) (hlarge : families ≤ summary.familiesWithAtLeast quota) :
    boundedMul families quota = families * quota := by
  refine Nat.min_eq_left ?_
  calc families * quota ≤ summary.familiesWithAtLeast quota * quota :=
        Nat.mul_le_mul_right _ hlarge
    _ ≤ summary.listed := summary.familiesWithAtLeast_mul_le quota
    _ ≤ countLimit := h

namespace Config

/-- A summary meets every demand of a configuration, each on its own. -/
structure MetBy (config : Config) (summary : Summary) : Prop where
  families_le : config.constraints.minFamilies ≤ min summary.familyCount config.sceneLength
  places_le : config.constraints.minQuotaFamilies * config.constraints.quota ≤ config.sceneLength
  largeFamilies_le :
    config.constraints.minQuotaFamilies ≤ summary.familiesWithAtLeast config.constraints.quota
  sounds_le : config.sceneLength ≤ summary.total

variable {config : Config} {summary : Summary}

/-- What meets every demand passes the check. -/
theorem MetBy.feasibility (h : config.MetBy summary) :
    (config.feasibility summary).errors = [] := by
  obtain ⟨hfamilies, hlength⟩ := Nat.le_min.mp h.families_le
  exact feasibility_errors_eq_nil_iff.mpr ⟨hfamilies, hlength,
    (SceneRule.boundedMul_le _ _).trans h.places_le, h.largeFamilies_le, h.sounds_le⟩

/-- What passes the check meets every demand where the product for the quota is compared rightly:
with a length below the largest count, or for families that hold no more sounds than that. -/
theorem MetBy.of_feasibility
    (hexact : config.sceneLength < countLimit ∨ summary.listed ≤ countLimit)
    (h : (config.feasibility summary).errors = []) : config.MetBy summary := by
  obtain ⟨hfamilies, hlength, hplaces, hlarge, hsounds⟩ := feasibility_errors_eq_nil_iff.mp h
  refine ⟨Nat.le_min.mpr ⟨hfamilies, hlength⟩, ?_, hlarge, hsounds⟩
  rcases hexact with hshort | hlisted
  · exact (boundedMul_le_iff.mp hplaces).resolve_right (Nat.not_le.mpr hshort)
  · rwa [Summary.boundedMul_eq hlisted hlarge] at hplaces

/-- **The feasibility check against unbounded arithmetic.** Whatever the numbers, a scene is told to
be too short for the quota exactly if the product that the quota needs exceeds its length, unless
the scene is as long as a count can be. What passes is enough in all other respects, and in this one
with the same exception. For shorter scenes, and whenever the families together hold no more sounds
than can be counted, exactly what meets every demand passes. So it is for every catalog. -/
theorem feasibility_against_exact (config : Config) (summary : Summary) :
    let k := config.constraints
    let verdict := config.feasibility summary
    (verdict.Reports .sceneTooShortForQuota ↔
      config.sceneLength < k.minQuotaFamilies * k.quota ∧ config.sceneLength < countLimit) ∧
    (verdict.errors = [] ↔
      k.minFamilies ≤ min summary.familyCount config.sceneLength ∧
        (k.minQuotaFamilies * k.quota ≤ config.sceneLength ∨ countLimit ≤ config.sceneLength) ∧
        k.minQuotaFamilies ≤ summary.familiesWithAtLeast k.quota ∧
        config.sceneLength ≤ summary.total) ∧
    (config.sceneLength < countLimit ∨ summary.listed ≤ countLimit →
      (verdict.errors = [] ↔ config.MetBy summary)) ∧
    ∀ catalog : Catalog, catalog.size ≤ countLimit →
      ((config.feasibility catalog.summary).errors = [] ↔ config.MetBy catalog.summary) := by
  intro k verdict
  refine ⟨?_, ?_, fun hexact => ⟨MetBy.of_feasibility hexact, MetBy.feasibility⟩,
    fun catalog hsize => ⟨MetBy.of_feasibility (.inr ?_), MetBy.feasibility⟩⟩
  · rw [feasibility_reports_iff, lt_boundedMul_iff]
  · rw [feasibility_errors_eq_nil_iff, boundedMul_le_iff, Nat.le_min, and_assoc]
  · rw [Catalog.summary, Summary.listed_ofSounds]
    exact hsize

/-- Scenes as long as a count can be, in which two families must reach a quota. -/
def boundless (quota : Nat) : Config :=
  { Config.standard with sceneLength := countLimit, constraints := ⟨2, quota, 2⟩ }

end Config

/-- Two families, with as many sounds in all as a count can be. -/
def Summary.pair (n m : Nat) : Summary := ⟨countLimit, [⟨"cello", n⟩, ⟨"flute", m⟩]⟩

namespace Config

/-- Of two families that share the largest count the smaller one sets the highest quota that can be
met. -/
theorem metBy_pair :
    let summary := Summary.pair (UInt64.size / 2) (UInt64.size / 2 - 1)
    summary.listed = countLimit ∧ (boundless (UInt64.size / 2 - 1)).MetBy summary ∧
      ¬ (boundless (UInt64.size / 2)).MetBy summary := by
  intro summary
  have hlisted : summary.listed = countLimit := by decide
  have hexact (quota : Nat) : ((boundless quota).feasibility summary).errors = [] ↔
      (boundless quota).MetBy summary := by
    obtain ⟨-, -, hexact, -⟩ := feasibility_against_exact (boundless quota) summary
    exact hexact (.inr (Nat.le_of_eq hlisted))
  exact ⟨hlisted, (hexact _).mp (by decide), mt (hexact _).mpr (by decide)⟩

/-- A quota that needs one place more than a count can tell, and a scene of the largest length. That
the scene is too short is not told for a catalog of two sounds. With two families of as many sounds
as the quota nothing is found at all. -/
theorem boundless_accepted :
    let config := boundless (UInt64.size / 2)
    let summary := Summary.pair (UInt64.size / 2) (UInt64.size / 2)
    config.sceneLength + 1 = config.constraints.minQuotaFamilies * config.constraints.quota ∧
      ¬ (config.feasibility Catalog.duet.summary).Reports .sceneTooShortForQuota ∧
      (∀ f ∈ summary.families, f.sounds < UInt64.size) ∧
      (config.feasibility summary).errors = [] := by
  refine ⟨by decide, by decide, by decide, by decide⟩

end Config

end SoundScenes
