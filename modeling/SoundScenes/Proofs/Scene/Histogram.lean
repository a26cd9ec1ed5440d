import SoundScenes.Scene.Histogram
import SoundScenes.Proofs.Results
import Mathlib.Data.List.Induction

/-!
# Histograms of sequences

The histogram of a sequence of families is that of the counts of the families in it, so that both
numbers that are kept up to date can be read off the sequence. A family that is pushed and popped
again leaves no trace.

* `ofFamilies_eq_ofCounts` — the histogram of a sequence, counted afresh;
* `ofFamilies_eq_iff` — sequences with the same histogram;
* `pop_push_ofCounts`, `push_push_ofCounts` — popping undoes pushing, and pushes commute;
* `distinct_append_le`, `meeting_append_le` — a longer sequence gains at most one family with each
  further sound.
-/

namespace SoundScenes.Histogram

variable {families quota family : Nat} {sequence : List Nat}

/-! ## Sequences -/

theorem ofFamilies_concat (families quota : Nat) (sequence : List Nat) (family : Nat) :
    ofFamilies families quota (sequence ++ [family]) =
      (ofFamilies families quota sequence).push family := by
  rw [ofFamilies, List.foldl_append, List.foldl_cons, List.foldl_nil, ofFamilies]

/-- How often each family occurs in a sequence. -/
def tally (families : Nat) (sequence : List Nat) : List Nat :=
  (List.range families).map fun f => sequence.count f

theorem tally_nil (families : Nat) : tally families [] = List.replicate families 0 := by
  simp [tally, List.map_const']

theorem tally_concat (families : Nat) (sequence : List Nat) (family : Nat) :
    tally families (sequence ++ [family]) = (tally families sequence).modify family (· + 1) := by
  refine List.ext_getElem (by simp [tally]) fun i h _ => ?_
  rw [List.getElem_modify]
  simp only [tally, List.getElem_map, List.getElem_range, List.count_append, List.count_singleton,
    beq_iff_eq]
  split <;> omega

/-- The histogram of a sequence is that of the counts in it. -/
theorem ofFamilies_eq_ofCounts (families quota : Nat) (sequence : List Nat) :
    ofFamilies families quota sequence = ofCounts (tally families sequence) quota := by
  induction sequence using List.reverseRecOn with
  | nil =>
    rw [tally_nil, ← empty_eq_ofCounts]
    rfl
  | append_singleton sequence family ih =>
    rw [ofFamilies_concat, ih, push_ofCounts, tally_concat]

/-- The histogram of a sequence tells how often each family occurs in it, and nothing else. -/
theorem ofFamilies_eq_iff {sequence' : List Nat} :
    ofFamilies families quota sequence = ofFamilies families quota sequence' ↔
      ∀ f < families, sequence.count f = sequence'.count f := by
  rw [ofFamilies_eq_ofCounts, ofFamilies_eq_ofCounts]
  constructor
  · intro h f hf
    have hcounts : tally families sequence = tally families sequence' :=
      congrArg Histogram.counts h
    exact List.map_inj_left.mp hcounts f (List.mem_range.mpr hf)
  · intro h
    exact congrArg (ofCounts · quota) (List.map_congr_left fun f hf => h f (List.mem_range.mp hf))

/-- A family that is pushed and popped again leaves no trace. -/
theorem pop_push_ofCounts (counts : List Nat) (quota family : Nat) :
    ((ofCounts counts quota).push family).pop family = ofCounts counts quota := by
  rw [push_ofCounts, pop_ofCounts]
  refine congrArg (ofCounts · quota) (List.ext_getElem (by simp) fun i h _ => ?_)
  rw [List.getElem_modify, List.getElem_modify]
  split <;> omega

theorem pop_push (families quota : Nat) (sequence : List Nat) (family : Nat) :
    ((ofFamilies families quota sequence).push family).pop family =
      ofFamilies families quota sequence := by
  rw [ofFamilies_eq_ofCounts, pop_push_ofCounts]

/-- Families can be pushed in either order. -/
theorem push_push_ofCounts (counts : List Nat) (quota f g : Nat) :
    ((ofCounts counts quota).push f).push g = ((ofCounts counts quota).push g).push f := by
  rw [push_ofCounts, push_ofCounts, push_ofCounts, push_ofCounts]
  refine congrArg (ofCounts · quota) (List.ext_getElem (by simp) fun i h _ => ?_)
  simp only [List.getElem_modify]
  split <;> split <;> rfl

/-! ## Numbers of families -/

/-- The families that are present are those that occur in the sequence. -/
theorem distinct_ofFamilies (families quota : Nat) (sequence : List Nat) :
    (ofFamilies families quota sequence).distinct =
      ((List.range families).filter fun f => 0 < sequence.count f).length := by
  rw [ofFamilies_eq_ofCounts, ofCounts, tally, List.countP_map, List.countP_eq_length_filter]
  rfl

/-- The families that reach the quota are those that occur often enough in the sequence. -/
theorem meeting_ofFamilies (families quota : Nat) (sequence : List Nat) :
    (ofFamilies families quota sequence).meeting =
      ((List.range families).filter fun f => quota ≤ sequence.count f).length := by
  rw [ofFamilies_eq_ofCounts, meeting, ofCounts, tally]
  split
  · next hq =>
    have hq : quota = 0 := hq
    subst hq
    rw [List.filter_eq_self.mpr (by simp), List.length_map]
  · next hq =>
    have hq : 0 < quota := Nat.pos_of_ne_zero hq
    show ((List.range families).map fun f => sequence.count f).countP _ = _
    rw [List.countP_map, List.countP_eq_length_filter]
    simp only [Function.comp_def, hq, true_and]

/-! ## Longer sequences -/

theorem distinct_push_le (h : Histogram) (family : Nat) :
    (h.push family).distinct ≤ h.distinct + 1 := by
  unfold push
  split
  · omega
  · simp only
    split <;> omega

theorem meeting_push_le (h : Histogram) (family : Nat) :
    (h.push family).meeting ≤ h.meeting + 1 := by
  unfold push
  split
  · omega
  · simp only [meeting, List.length_set]
    split
    · omega
    · split <;> omega

theorem distinct_append_le (families quota : Nat) (front rest : List Nat) :
    (ofFamilies families quota (front ++ rest)).distinct ≤
      (ofFamilies families quota front).distinct + rest.length := by
  induction rest using List.reverseRecOn with
  | nil => simp
  | append_singleton rest family ih =>
    rw [← List.append_assoc, ofFamilies_concat, List.length_append, List.length_singleton]
    have := distinct_push_le (ofFamilies families quota (front ++ rest)) family
    omega

theorem meeting_append_le (families quota : Nat) (front rest : List Nat) :
    (ofFamilies families quota (front ++ rest)).meeting ≤
      (ofFamilies families quota front).meeting + rest.length := by
  induction rest using List.reverseRecOn with
  | nil => simp
  | append_singleton rest family ih =>
    rw [← List.append_assoc, ofFamilies_concat, List.length_append, List.length_singleton]
    have := meeting_push_le (ofFamilies families quota (front ++ rest)) family
    omega

/-! ## Scenes -/

/-- Sounds that are in the catalog have families. -/
theorem mapM_familyIndex {catalog : Catalog} {scene : List Nat}
    (h : ∀ id ∈ scene, id < catalog.size) :
    scene.mapM catalog.familyIndex = .ok (scene.map catalog.family) := by
  induction scene with
  | nil => rfl
  | cons id scene ih =>
    have hid : id < catalog.familyOf.length := by
      rw [catalog.length_familyOf]
      exact h id List.mem_cons_self
    have hfamily : catalog.familyIndex id = .ok (catalog.family id) := by
      simp [Catalog.familyIndex, Catalog.family, List.getElem?_eq_getElem hid,
        List.getD_eq_getElem?_getD]
    rw [List.mapM_cons, hfamily, ih fun i hi => h i (List.mem_cons_of_mem _ hi)]
    rfl

/-- Sounds that have families are in the catalog. -/
theorem lt_size_of_mapM_familyIndex {catalog : Catalog} {scene families : List Nat}
    (h : scene.mapM catalog.familyIndex = .ok families) : ∀ id ∈ scene, id < catalog.size := by
  intro id hid
  obtain ⟨f, hf⟩ := exists_ok_of_mapM h hid
  unfold Catalog.familyIndex at hf
  split at hf
  · next hsome =>
    rw [← catalog.length_familyOf]
    exact (List.getElem?_eq_some_iff.mp hsome).1
  · cases hf

/-- The histogram of a scene whose sounds are in the catalog. -/
theorem ofScene_eq {catalog : Catalog} {scene : List Nat} (h : ∀ id ∈ scene, id < catalog.size)
    (quota : Nat) :
    ofScene catalog scene quota =
      .ok (ofFamilies catalog.familyCount quota (scene.map catalog.family)) := by
  rw [ofScene, mapM_familyIndex h]
  rfl

end SoundScenes.Histogram
