import SoundScenes.Scene.Rule
import SoundScenes.Proofs.Results
import SoundScenes.Proofs.Catalog.Families
import SoundScenes.Proofs.Scene.Histogram

/-!
# The rule for scenes and their beginnings

At the last place of a scene nothing can be reached any more, and both checks of the rule agree. A
beginning that is given up because families are missing, or although a family needs at most one
sound for the quota, cannot be completed. Holding a product at the largest count never makes a
difference, as there are always fewer places left.

* `prune?_last` — both checks agree at the last place;
* `missing_le_of_reject?_append` — what a beginning of a good scene can be short of;
* `prune?_eq_exact` — why a beginning is given up, in unbounded arithmetic;
* `pruneScene?_loses_nothing` — the scenes that are given up with a beginning.
-/

namespace SoundScenes

/-- The number of families of which a scene holds at least so many sounds. -/
def Catalog.held (c : Catalog) (n : Nat) (scene : List Nat) : Nat :=
  ((List.range c.familyCount).filter fun f => n ≤ (scene.map c.family).count f).length

namespace SceneRule

variable {rule : SceneRule} {catalog : Catalog} {scene : List Nat}

/-! ## Both checks -/

theorem prune?_eq_none_iff {h : Histogram} {depth : Nat} :
    rule.prune? h depth = none ↔
      rule.constraints.minFamilies - h.distinct ≤ rule.length - (depth + 1) ∧
      rule.constraints.minQuotaFamilies - h.meeting ≤ rule.length - (depth + 1) ∧
      boundedMul (rule.constraints.minQuotaFamilies - h.meeting) rule.constraints.quota ≤
        rule.length - (depth + 1) := by
  unfold prune?
  grind

theorem reject?_eq_none_iff {h : Histogram} :
    rule.reject? h = none ↔
      rule.constraints.minFamilies ≤ h.distinct ∧
      rule.constraints.minQuotaFamilies ≤ h.meeting := by
  unfold reject?
  grind

/-- A bounded product is no larger than the product. -/
theorem boundedMul_le (a b : Nat) : boundedMul a b ≤ a * b := Nat.min_le_left _ _

/-- At the last place a beginning is kept exactly when the scene follows the rule. -/
theorem prune?_last {h : Histogram} {depth : Nat} (hd : rule.length ≤ depth + 1) :
    rule.prune? h depth = none ↔ rule.reject? h = none := by
  rw [prune?_eq_none_iff, reject?_eq_none_iff]
  have hplaces : rule.length - (depth + 1) = 0 := by omega
  rw [hplaces]
  constructor
  · rintro ⟨hfamilies, hquota, -⟩
    omega
  · rintro ⟨hfamilies, hquota⟩
    have hzero : rule.constraints.minQuotaFamilies - h.meeting = 0 := by omega
    have hmul := boundedMul_le 0 rule.constraints.quota
    rw [Nat.zero_mul] at hmul
    rw [hzero]
    omega

/-! ## Beginnings of good scenes -/

/-- There are places for the families that a beginning of a good scene is short of: each further
sound brings at most one. -/
theorem missing_le_of_reject?_append {families : Nat} {front rest : List Nat}
    (hlength : (front ++ rest).length ≤ rule.length)
    (h : rule.reject? (.ofFamilies families rule.constraints.quota (front ++ rest)) = none) :
    rule.constraints.minFamilies -
        (Histogram.ofFamilies families rule.constraints.quota front).distinct ≤
          rule.length - front.length ∧
      rule.constraints.minQuotaFamilies -
        (Histogram.ofFamilies families rule.constraints.quota front).meeting ≤
          rule.length - front.length := by
  rw [reject?_eq_none_iff] at h
  rw [List.length_append] at hlength
  have hdistinct := Histogram.distinct_append_le families rule.constraints.quota front rest
  have hmeeting := Histogram.meeting_append_le families rule.constraints.quota front rest
  omega

/-- Only for want of sounds a beginning of a good scene is given up. -/
theorem prune?_cases_of_reject?_append {families : Nat} {front rest : List Nat}
    (hfront : front ≠ []) (hlength : (front ++ rest).length ≤ rule.length)
    (h : rule.reject? (.ofFamilies families rule.constraints.quota (front ++ rest)) = none)
    {reason : PruneReason} (hprune : rule.prune?
      (.ofFamilies families rule.constraints.quota front) (front.length - 1) = some reason) :
    reason = .quotaObjectsUnreachable := by
  obtain ⟨hfamilies, hquota⟩ := missing_le_of_reject?_append hlength h
  have hpos : 0 < front.length := List.length_pos_iff.mpr hfront
  unfold prune? at hprune
  simp only at hprune
  rw [Nat.sub_add_cancel hpos, if_neg (Nat.not_lt.mpr hfamilies),
    if_neg (Nat.not_lt.mpr hquota)] at hprune
  split at hprune
  · exact (Option.some.inj hprune).symm
  · cases hprune

/-- If a family needs at most one sound for the quota, every beginning of a scene that follows the
rule is kept. -/
theorem prune?_of_reject?_append {families : Nat} {front rest : List Nat}
    (hquota : rule.constraints.quota ≤ 1) (hfront : front ≠ [])
    (hlength : (front ++ rest).length ≤ rule.length)
    (h : rule.reject? (.ofFamilies families rule.constraints.quota (front ++ rest)) = none) :
    rule.prune? (.ofFamilies families rule.constraints.quota front) (front.length - 1) = none := by
  obtain ⟨hfamilies, hreaching⟩ := missing_le_of_reject?_append hlength h
  have hpos : 0 < front.length := List.length_pos_iff.mpr hfront
  generalize Histogram.ofFamilies families rule.constraints.quota front = g at *
  -- the sounds that are missing at the quota are no more than the families
  have hmul : boundedMul (rule.constraints.minQuotaFamilies - g.meeting) rule.constraints.quota ≤
      rule.constraints.minQuotaFamilies - g.meeting :=
    calc _ ≤ (rule.constraints.minQuotaFamilies - g.meeting) * rule.constraints.quota :=
            boundedMul_le _ _
      _ ≤ (rule.constraints.minQuotaFamilies - g.meeting) * 1 := Nat.mul_le_mul_left _ hquota
      _ = rule.constraints.minQuotaFamilies - g.meeting := Nat.mul_one _
  rw [prune?_eq_none_iff, Nat.sub_add_cancel hpos]
  exact ⟨hfamilies, hreaching, Nat.le_trans hmul hreaching⟩

/-! ## Unbounded arithmetic -/

/-- Why a beginning with so many families present, and so many at the quota, is given up, in
integers without a bound. -/
def exactPrune? (rule : SceneRule) (present reaching depth : Nat) : Option PruneReason :=
  let places : Int := rule.length - (depth + 1)
  let missing : Int := rule.constraints.minQuotaFamilies - reaching
  if places < rule.constraints.minFamilies - present then some .missingFamilies
  else if places < missing then some .quotaFamiliesUnreachable
  else if places < missing * rule.constraints.quota then some .quotaObjectsUnreachable
  else none

/-- A product of what is missing exceeds the places in bounded arithmetic exactly if it does in
unbounded arithmetic. There are fewer places than the largest count. -/
theorem lt_boundedMul_sub_iff {places a b q : Nat} (hplaces : places < countLimit) :
    places < boundedMul (a - b) q ↔ (places : Int) < ((a : Int) - b) * q := by
  rw [lt_boundedMul_iff, and_iff_left hplaces]
  rcases Nat.le_total b a with hle | hle
  · rw [← Int.ofNat_sub hle, ← Int.natCast_mul, Int.ofNat_lt]
  · -- nothing is missing, and both products are too small for any number of places
    have hneg : ((a : Int) - b) * q ≤ 0 :=
      Int.mul_nonpos_of_nonpos_of_nonneg (by omega) (Int.natCast_nonneg q)
    rw [Nat.sub_eq_zero_of_le hle, Nat.zero_mul]
    omega

/-- Bounded arithmetic makes no difference. -/
theorem prune?_eq_exact {h : Histogram} {depth : Nat} (hdepth : depth < rule.length)
    (hlimit : rule.length < UInt64.size) :
    rule.prune? h depth = rule.exactPrune? h.distinct h.meeting depth := by
  have hplaces : (rule.length : Int) - (depth + 1) = (rule.length - (depth + 1) : Nat) := by omega
  have hfew : rule.length - (depth + 1) < countLimit := by
    rw [countLimit]
    omega
  unfold prune? exactPrune?
  simp only [hplaces, lt_boundedMul_sub_iff hfew]
  have hfamilies : rule.length - (depth + 1) < rule.constraints.minFamilies - h.distinct ↔
      ((rule.length - (depth + 1) : Nat) : Int) < rule.constraints.minFamilies - h.distinct := by
    omega
  have hquota : rule.length - (depth + 1) < rule.constraints.minQuotaFamilies - h.meeting ↔
      ((rule.length - (depth + 1) : Nat) : Int) <
        rule.constraints.minQuotaFamilies - h.meeting := by
    omega
  simp only [hfamilies, hquota]

/-! ## Scenes -/

theorem pruneScene?_of_lt (h : ∀ id ∈ scene, id < catalog.size) (depth : Nat) :
    rule.pruneScene? catalog scene depth = .ok (rule.prune?
      (.ofFamilies catalog.familyCount rule.constraints.quota (scene.map catalog.family)) depth) := by
  rw [pruneScene?, Histogram.ofScene_eq h]
  rfl

theorem rejectScene?_of_lt (h : ∀ id ∈ scene, id < catalog.size) :
    rule.rejectScene? catalog scene = .ok (rule.reject?
      (.ofFamilies catalog.familyCount rule.constraints.quota (scene.map catalog.family))) := by
  rw [rejectScene?, Histogram.ofScene_eq h]
  rfl

/-- Only scenes of sounds of the catalog follow the rule. -/
theorem lt_size_of_rejectScene? (h : rule.rejectScene? catalog scene = .ok none) :
    ∀ id ∈ scene, id < catalog.size := by
  obtain ⟨g, hg, -⟩ := bind_eq_ok.mp h
  obtain ⟨families, hfamilies, -⟩ := bind_eq_ok.mp hg
  exact Histogram.lt_size_of_mapM_familyIndex hfamilies

/-- **What is given up with a beginning.** Why a beginning of a scene is given up is decided as in
unbounded arithmetic, whatever the constraints. If it is for want of families, present or at the
quota, or for any reason while a family needs at most one sound for the quota, then no scene that
begins like this follows the rule. -/
theorem pruneScene?_loses_nothing (hids : ∀ id ∈ scene, id < catalog.size)
    (hpos : 1 ≤ scene.length) (hle : scene.length ≤ rule.length)
    (hlimit : rule.length < UInt64.size) :
    rule.pruneScene? catalog scene (scene.length - 1) = .ok (rule.exactPrune?
        (catalog.held 1 scene) (catalog.held rule.constraints.quota scene) (scene.length - 1)) ∧
      ∀ reason, rule.pruneScene? catalog scene (scene.length - 1) = .ok (some reason) →
        reason = .missingFamilies ∨ reason = .quotaFamiliesUnreachable ∨
          rule.constraints.quota ≤ 1 →
        ∀ rest, (scene ++ rest).length = rule.length →
          rule.rejectScene? catalog (scene ++ rest) ≠ .ok none := by
  rw [pruneScene?_of_lt hids]
  constructor
  · rw [prune?_eq_exact (by omega) hlimit, Histogram.distinct_ofFamilies,
      Histogram.meeting_ofFamilies]
    rfl
  · intro reason hprune hreason rest hlength hok
    rw [rejectScene?_of_lt (lt_size_of_rejectScene? hok), List.map_append] at hok
    have hgood := Except.ok.inj hok
    have hfront : scene.map catalog.family ≠ [] :=
      mt List.map_eq_nil_iff.mp (List.length_pos_iff.mp hpos)
    have hall : (scene.map catalog.family ++ rest.map catalog.family).length ≤ rule.length := by
      rw [← List.map_append, List.length_map]
      exact Nat.le_of_eq hlength
    have hprune := Except.ok.inj hprune
    rw [← List.length_map catalog.family] at hprune
    rcases hreason with rfl | rfl | hquota
    · cases prune?_cases_of_reject?_append hfront hall hgood hprune
    · cases prune?_cases_of_reject?_append hfront hall hgood hprune
    · rw [prune?_of_reject?_append hquota hfront hall hgood] at hprune
      cases hprune

/-- Two sounds, of which two families are to reach a quota as large as a count can be. -/
def unreachable : SceneRule := ⟨⟨1, countLimit, 2⟩, 2⟩

/-- With one of two places left and no family at the quota, no second sound helps. -/
theorem unreachable_duet :
    unreachable.exactPrune? (Catalog.duet.held 1 [0]) (Catalog.duet.held countLimit [0]) 0 =
        some .quotaFamiliesUnreachable ∧
      ∀ rest, ([0] ++ rest).length = 2 →
        unreachable.rejectScene? .duet ([0] ++ rest) ≠ .ok none := by
  obtain ⟨hexact, hnone⟩ := @pruneScene?_loses_nothing unreachable .duet [0] (by decide)
    (by decide) (by decide) (by decide)
  have hverdict : unreachable.pruneScene? .duet [0] 0 = .ok (some .quotaFamiliesUnreachable) := rfl
  exact ⟨Except.ok.inj (hexact.symm.trans hverdict), hnone _ hverdict (.inr (.inl rfl))⟩

end SceneRule

end SoundScenes
