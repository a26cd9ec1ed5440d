import SoundScenes.Proofs.Scene.Histogram
import Mathlib.Algebra.Order.BigOperators.Group.Finset
import Mathlib.Algebra.BigOperators.Ring.Finset
import Mathlib.Data.List.Perm.Subperm
import Mathlib.Order.Interval.Finset.Nat

/-!
# Places that a sequence of families needs

Every sound of a sequence stands at a place of its own. A family that reaches the quota takes as
many places as the quota says, any other family that is present takes one.

* `meeting_mul_add_distinct_le` — the places that the families of a sequence take;
* `places_le` — the places that are needed for numbers of families;
* `length_le_distinct`, `length_le_meeting` — families that occur often enough are counted.
-/

namespace SoundScenes

theorem length_filter_range (p : Nat → Bool) (n : Nat) :
    ((List.range n).filter p).length = ((Finset.range n).filter fun i => p i = true).card := by
  rw [← List.toFinset_card_of_nodup (List.nodup_range.filter _), List.toFinset_filter,
    List.toFinset_range]

namespace Histogram

variable {families quota : Nat} {sequence : List Nat}

theorem sum_count_eq_length (h : ∀ f ∈ sequence, f < families) :
    ∑ f ∈ Finset.range families, sequence.count f = sequence.length := by
  have hsum : ∑ f ∈ Finset.range families, (sequence : Multiset Nat).count f =
      (sequence : Multiset Nat).card :=
    Multiset.sum_count_eq_card fun f hf => Finset.mem_range.mpr (h f hf)
  simpa only [Multiset.coe_count, Multiset.coe_card] using hsum

/-- A family that reaches the quota takes its places, and every other one that is present takes
one. -/
theorem meeting_mul_add_distinct_le (hquota : 0 < quota) (h : ∀ f ∈ sequence, f < families) :
    (ofFamilies families quota sequence).meeting * (quota - 1) +
      (ofFamilies families quota sequence).distinct ≤ sequence.length := by
  rw [meeting_ofFamilies, distinct_ofFamilies, length_filter_range, length_filter_range,
    Finset.card_filter, Finset.card_filter, Finset.sum_mul, ← Finset.sum_add_distrib,
    ← sum_count_eq_length h]
  refine Finset.sum_le_sum fun f _ => ?_
  simp only [decide_eq_true_eq]
  split
  · rw [if_pos (by omega)]
    omega
  · split <;> omega

/-- A quota of zero is reached by every family, whether or not it is present. -/
theorem meeting_of_zero (families : Nat) (sequence : List Nat) :
    (ofFamilies families 0 sequence).meeting = families := by
  rw [meeting_ofFamilies, List.filter_eq_self.mpr fun f _ => decide_eq_true (Nat.zero_le _),
    List.length_range]

theorem meeting_le_distinct (families : Nat) (sequence : List Nat) (hquota : 0 < quota) :
    (ofFamilies families quota sequence).meeting ≤
      (ofFamilies families quota sequence).distinct := by
  rw [meeting_ofFamilies, distinct_ofFamilies, ← List.countP_eq_length_filter,
    ← List.countP_eq_length_filter]
  refine List.countP_mono_left fun f _ hf => ?_
  exact decide_eq_true (hquota.trans_le (of_decide_eq_true hf))

theorem distinct_le_length (families quota : Nat) (sequence : List Nat) :
    (ofFamilies families quota sequence).distinct ≤ sequence.length := by
  have hle := distinct_append_le families quota [] sequence
  have hnone : (ofFamilies families quota []).distinct = 0 := rfl
  rwa [hnone, Nat.zero_add] at hle

/-- The places that a sequence needs for so many families, and so many of them at the quota. -/
theorem places_le {present reaching : Nat} (h : ∀ f ∈ sequence, f < families)
    (hpresent : present ≤ (ofFamilies families quota sequence).distinct)
    (hreaching : reaching ≤ (ofFamilies families quota sequence).meeting) :
    reaching * quota + (present - reaching) ≤ sequence.length := by
  rcases Nat.eq_zero_or_pos quota with rfl | hquota
  · have hle := distinct_le_length families 0 sequence
    omega
  · have hplaces := meeting_mul_add_distinct_le hquota h
    have hdistinct := meeting_le_distinct families sequence hquota
    have hmul : reaching * (quota - 1) ≤
        (ofFamilies families quota sequence).meeting * (quota - 1) :=
      Nat.mul_le_mul_right _ hreaching
    have hsplit : reaching * quota = reaching * (quota - 1) + reaching := by
      rw [← Nat.mul_succ, Nat.succ_eq_add_one, Nat.sub_add_cancel hquota]
    omega

/-- Fewer sounds than the quota bring no family to it. -/
theorem meeting_of_length_lt (h : ∀ f ∈ sequence, f < families)
    (hlt : sequence.length < quota) : (ofFamilies families quota sequence).meeting = 0 := by
  by_contra hne
  have hplaces := places_le h (Nat.zero_le _) (Nat.pos_of_ne_zero hne)
  omega

/-! ## Families that are counted -/

theorem length_le_filter_range {chosen : List Nat} {p : Nat → Bool} (hnodup : chosen.Nodup)
    (h : ∀ f ∈ chosen, f < families ∧ p f = true) :
    chosen.length ≤ ((List.range families).filter p).length := by
  refine (hnodup.subperm fun f hf => ?_).length_le
  exact List.mem_filter.mpr ⟨List.mem_range.mpr (h f hf).1, (h f hf).2⟩

/-- Different families that occur are among those that are present. -/
theorem length_le_distinct {chosen : List Nat} (quota : Nat) (hnodup : chosen.Nodup)
    (h : ∀ f ∈ chosen, f < families ∧ 0 < sequence.count f) :
    chosen.length ≤ (ofFamilies families quota sequence).distinct := by
  rw [distinct_ofFamilies]
  exact length_le_filter_range hnodup fun f hf => ⟨(h f hf).1, decide_eq_true (h f hf).2⟩

/-- Different families that occur often enough are among those that reach the quota. -/
theorem length_le_meeting {chosen : List Nat} (hnodup : chosen.Nodup)
    (h : ∀ f ∈ chosen, f < families ∧ quota ≤ sequence.count f) :
    chosen.length ≤ (ofFamilies families quota sequence).meeting := by
  rw [meeting_ofFamilies]
  exact length_le_filter_range hnodup fun f hf => ⟨(h f hf).1, decide_eq_true (h f hf).2⟩

end Histogram

end SoundScenes
