import SoundScenes.Proofs.Catalog.Indexing
import SoundScenes.Proofs.Search.Enumeration

/-!
# Searches under tighter constraints

Constraints are ordered by what they ask for. A beginning that is kept under some constraints is
kept under all that ask for less: as the quota falls, more families reach it, and those that are
missing need fewer sounds. The two searches make other draws and go other ways, but at full width
each of them comes to every sequence whose beginnings it keeps. So the search under the tighter
constraints finds a part of what the other one finds.

* `SceneRule.prune?_of_le` — what a tighter rule keeps is kept;
* `Complete.allKept_of_le` — so are all beginnings of a scene;
* `run_under_tighter` — the scenes of both searches.
-/

namespace SoundScenes

/-! ## Constraints by what they ask for -/

/-- Constraints are below others that ask for at least as much in every part. -/
instance : LE Constraints :=
  ⟨fun k k' => k.minFamilies ≤ k'.minFamilies ∧ k.quota ≤ k'.quota ∧
    k.minQuotaFamilies ≤ k'.minQuotaFamilies⟩

instance : DecidableLE Constraints := fun k k' =>
  inferInstanceAs (Decidable (k.minFamilies ≤ k'.minFamilies ∧ k.quota ≤ k'.quota ∧
    k.minQuotaFamilies ≤ k'.minQuotaFamilies))

theorem boundedMul_le_boundedMul {a a' b b' : Nat} (ha : a ≤ a') (hb : b ≤ b') :
    boundedMul a b ≤ boundedMul a' b' :=
  min_le_min_right countLimit (Nat.mul_le_mul ha hb)

/-- As the quota falls, more families reach it. A quota of zero is reached even by those that are
absent. -/
theorem Histogram.meeting_le_of_quota_le {quota quota' : Nat} (h : quota ≤ quota') (families : Nat)
    (sequence : List Nat) :
    (ofFamilies families quota' sequence).meeting ≤
      (ofFamilies families quota sequence).meeting := by
  rw [meeting_ofFamilies, meeting_ofFamilies, ← List.countP_eq_length_filter,
    ← List.countP_eq_length_filter]
  refine List.countP_mono_left fun f _ hf => ?_
  rw [decide_eq_true_eq] at hf ⊢
  exact Nat.le_trans h hf

/-- Which families are present does not depend on the quota. -/
theorem Histogram.distinct_congr_quota (families quota quota' : Nat) (sequence : List Nat) :
    (ofFamilies families quota' sequence).distinct =
      (ofFamilies families quota sequence).distinct := by
  rw [distinct_ofFamilies, distinct_ofFamilies]

namespace SceneRule

/-- The same rule with other constraints. -/
def under (rule : SceneRule) (k : Constraints) : SceneRule := { rule with constraints := k }

/-- A beginning that is kept under some constraints is kept under all that ask for less. -/
theorem prune?_of_le {k k' : Constraints} (hle : k ≤ k') (rule : SceneRule) (families : Nat)
    (sequence : List Nat) (depth : Nat)
    (hkeep : (rule.under k').prune? (.ofFamilies families k'.quota sequence) depth = none) :
    (rule.under k).prune? (.ofFamilies families k.quota sequence) depth = none := by
  obtain ⟨hfamilies, hquota, hreaching⟩ := hle
  have hmeeting := Histogram.meeting_le_of_quota_le hquota families sequence
  have hmissing : k.minQuotaFamilies - (Histogram.ofFamilies families k.quota sequence).meeting ≤
      k'.minQuotaFamilies - (Histogram.ofFamilies families k'.quota sequence).meeting := by
    omega
  rw [prune?_eq_none_iff] at hkeep ⊢
  rw [Histogram.distinct_congr_quota families k.quota] at hkeep
  obtain ⟨hpresent, hplaces, hsounds⟩ := hkeep
  refine ⟨?_, Nat.le_trans hmissing hplaces, ?_⟩
  · exact Nat.le_trans (Nat.sub_le_sub_right hfamilies _) hpresent
  · exact Nat.le_trans (boundedMul_le_boundedMul hmissing hquota) hsounds

end SceneRule

namespace Search

variable {s : Search} {k k' : Constraints} {scene : List Nat}

/-! ## The scenes of both searches -/

/-- The same search under other constraints. -/
def under (s : Search) (k : Constraints) : Search := { s with rule := s.rule.under k }

theorem complete_under (k : Constraints) : (s.under k).Complete scene ↔ s.Complete scene :=
  ⟨fun h => ⟨h.length_eq, h.nodup, h.lt_size⟩, fun h => ⟨h.length_eq, h.nodup, h.lt_size⟩⟩

/-- A scene all of whose beginnings are kept under some constraints is kept under all that ask for
less. -/
theorem Complete.allKept_of_le (h : s.Complete scene) (hle : k ≤ k')
    (hkept : (s.under k').AllKept scene) : (s.under k).AllKept scene := by
  have hcomplete (k : Constraints) : (s.under k).Complete scene := (complete_under k).mpr h
  rw [(hcomplete k').allKept_iff] at hkept
  rw [(hcomplete k).allKept_iff]
  intro n hn
  refine (hkept n hn).imp_right fun hkeep => ?_
  exact SceneRule.prune?_of_le hle s.rule s.catalog.familyCount _ _ hkeep

variable {σ τ : Type} [RandomSource σ] [RandomSource τ]

/-- **Tighter constraints never add scenes.** At full width and without limits, whatever either
search draws, the scenes under the tighter constraints are those of the scenes under the others
whose beginnings the tighter constraints keep, and none of them is found more often. -/
theorem run_under_tighter (s : Search) (hlength : 1 ≤ s.rule.length)
    (hwidth : s.catalog.size ≤ s.width) (hle : k ≤ k') (clock clock' : Nat → Nat) (source : σ)
    (source' : τ) :
    let o := (s.under k).unlimited.run clock source
    let o' := (s.under k').unlimited.run clock' source'
    (s.under k).unlimited.EndsWith clock source o ∧
      (s.under k').unlimited.EndsWith clock' source' o' ∧
      (∀ scene, scene ∈ o'.scenes ↔ scene ∈ o.scenes ∧ (s.under k').AllKept scene) ∧
      o'.scenes.Subperm o.scenes := by
  intro o o'
  have hfound (scene : List Nat) :
      scene ∈ o.scenes ↔ s.Complete scene ∧ (s.under k).AllKept scene := by
    rw [← complete_under k]
    exact mem_run_scenes_iff (s := s.under k) hlength hwidth
  have hfound' (scene : List Nat) :
      scene ∈ o'.scenes ↔ s.Complete scene ∧ (s.under k').AllKept scene := by
    rw [← complete_under k']
    exact mem_run_scenes_iff (s := s.under k') hlength hwidth
  have hmem (scene : List Nat) :
      scene ∈ o'.scenes ↔ scene ∈ o.scenes ∧ (s.under k').AllKept scene := by
    rw [hfound, hfound']
    constructor
    · rintro ⟨hcomplete, hkept⟩
      exact ⟨⟨hcomplete, hcomplete.allKept_of_le hle hkept⟩, hkept⟩
    · rintro ⟨⟨hcomplete, -⟩, hkept⟩
      exact ⟨hcomplete, hkept⟩
  refine ⟨endsWith_run _ clock source, endsWith_run _ clock' source', hmem, ?_⟩
  have hnodup : o'.scenes.Nodup := nodup_run_scenes (s := s.under k') hlength
  exact hnodup.subperm fun scene hscene => ((hmem scene).mp hscene).1

/-- A search for scenes of all three sounds. -/
def windsTrio : Search := ⟨.winds, ⟨.none, 3⟩, 3, none, none, none⟩

/-- If one family must be played twice, the scene with both oboes in front is still found. The one
with the flute in front is not: after the flute and one oboe two more sounds of a family are taken
to be missing. -/
theorem run_windsTrio : (⟨1, 1, 1⟩ : Constraints) ≤ ⟨2, 2, 1⟩ ∧
    [0, 2, 1] ∈ ((windsTrio.under ⟨2, 2, 1⟩).unlimited.run (fun _ => 0) (Pcg.ofSeed 8)).scenes ∧
    [0, 2, 1] ∈ ((windsTrio.under ⟨1, 1, 1⟩).unlimited.run (fun _ => 0) (Pcg.ofSeed 7)).scenes ∧
    [1, 0, 2] ∈ ((windsTrio.under ⟨1, 1, 1⟩).unlimited.run (fun _ => 0) (Pcg.ofSeed 7)).scenes ∧
    [1, 0, 2] ∉
      ((windsTrio.under ⟨2, 2, 1⟩).unlimited.run (fun _ => 0) (Pcg.ofSeed 8)).scenes := by
  have hle : (⟨1, 1, 1⟩ : Constraints) ≤ ⟨2, 2, 1⟩ := by decide
  obtain ⟨-, -, hmem, -⟩ := run_under_tighter windsTrio (by decide) (by decide) hle (fun _ => 0)
    (fun _ => 0) (Pcg.ofSeed 7) (Pcg.ofSeed 8)
  have hfound : [0, 2, 1] ∈
      ((windsTrio.under ⟨2, 2, 1⟩).unlimited.run (fun _ => 0) (Pcg.ofSeed 8)).scenes := by
    decide +kernel
  refine ⟨hle, hfound, ((hmem _).mp hfound).1, by decide +kernel, fun hflute => ?_⟩
  have hkept := ((hmem _).mp hflute).2 2 (by decide) (by decide)
  have hpruned : (windsTrio.under ⟨2, 2, 1⟩).rule.pruneScene? .winds ([1, 0, 2].take 2) (2 - 1) =
      .ok (some .quotaObjectsUnreachable) := rfl
  rw [show (windsTrio.under ⟨2, 2, 1⟩).catalog = .winds from rfl, hpruned] at hkept
  cases hkept

end Search

end SoundScenes
