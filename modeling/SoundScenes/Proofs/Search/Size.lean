import SoundScenes.Search.Run
import SoundScenes.Proofs.Search.Grown
import Mathlib.Algebra.BigOperators.Intervals
import Mathlib.Algebra.BigOperators.Ring.Finset
import Mathlib.Algebra.Order.BigOperators.Group.Finset

/-!
# The size of a search tree

A node at a level has at most as many children as the width and the sounds that are left there
allow. So there are at most as many nodes at a level as the product of these numbers over the levels
above it, and the tree has at most their sum. From this number a run takes its bound on steps.

* `Grown.card_atLevel_le` — the nodes at a level;
* `nodeBound_eq` — the bound of a run as a sum of products;
* `Grown.size_le` — the nodes of the whole tree.
-/

namespace SoundScenes

/-! ## The bound of a run -/

/-- The nodes below a level, as a sum over the levels. -/
theorem nodesBelow_eq (sounds width level deeper : Nat) :
    nodesBelow sounds width level deeper =
      ∑ j ∈ Finset.range deeper, ∏ k ∈ Finset.range (j + 1), min width (sounds - (level + k)) := by
  induction deeper generalizing level with
  | zero => rfl
  | succ deeper ih =>
    have hshift (j : Nat) :
        ∏ k ∈ Finset.range (j + 2), min width (sounds - (level + k)) =
          min width (sounds - level) *
            ∏ k ∈ Finset.range (j + 1), min width (sounds - (level + 1 + k)) := by
      rw [Finset.prod_range_succ', Nat.mul_comm, Nat.add_zero]
      congr 1
      exact Finset.prod_congr rfl fun k _ => by rw [Nat.add_right_comm level 1 k, Nat.add_assoc]
    rw [nodesBelow, ih, Finset.sum_range_succ', Finset.sum_congr rfl fun j _ => hshift j,
      ← Finset.mul_sum, Finset.prod_range_one, Nat.mul_add, Nat.mul_one, Nat.add_comm]
    rfl

/-- There are no nodes deeper than there are sounds. -/
theorem prod_left_eq_zero {sounds width d : Nat} (h : sounds < d) :
    ∏ k ∈ Finset.range d, min width (sounds - k) = 0 :=
  Finset.prod_eq_zero (Finset.mem_range.mpr h) (by rw [Nat.sub_self, Nat.min_zero])

theorem sum_Icc_one_eq (f : Nat → Nat) (n : Nat) :
    ∑ d ∈ Finset.Icc 1 n, f d = ∑ j ∈ Finset.range n, f (j + 1) := by
  rw [Finset.range_eq_Ico, Finset.sum_Ico_add' f 0 n 1, Nat.zero_add]
  rfl

/-- The bound of a run: for every level the product of the children that the levels above allow. -/
theorem nodeBound_eq (sounds width length : Nat) :
    nodeBound sounds width length =
      ∑ d ∈ Finset.Icc 1 length, ∏ k ∈ Finset.range d, min width (sounds - k) := by
  rw [nodeBound, nodesBelow_eq, sum_Icc_one_eq]
  simp only [Nat.zero_add]
  refine Finset.sum_subset ?_ fun j hj hnot => ?_
  · exact Finset.range_subset_range.mpr (Nat.min_le_left _ _)
  · rw [Finset.mem_range] at hj hnot
    exact prod_left_eq_zero (by omega)

/-- Four sounds, of which two are tried at every node. -/
example : nodeBound 4 2 3 = 2 + 2 * 2 + 2 * 2 * 2 := by decide

namespace Search

variable {s : Search} {t : Tree}

/-! ## Levels of a tree -/

/-- The nodes at a level. -/
def atLevel (t : Tree) (d : Nat) : Finset Nat :=
  (Finset.range t.size).filter fun id => (t.node id).level = d

theorem mem_atLevel {d id : Nat} :
    id ∈ atLevel t d ↔ id < t.size ∧ (t.node id).level = d := by
  rw [atLevel, Finset.mem_filter, Finset.mem_range]

namespace Grown

theorem atLevel_zero (h : s.Grown t) : atLevel t 0 = {0} := by
  ext id
  rw [mem_atLevel, Finset.mem_singleton]
  constructor
  · rintro ⟨hid, hlevel⟩
    exact h.wellFormed.eq_root_of_level hid hlevel
  · rintro rfl
    exact ⟨h.wellFormed.size_pos, h.wellFormed.root_level⟩

/-- The nodes at a level are children of those at the level above. -/
theorem atLevel_succ_subset (h : s.Grown t) (d : Nat) :
    atLevel t (d + 1) ⊆ (atLevel t d).biUnion fun id => (t.node id).children.toFinset := by
  intro id hid
  obtain ⟨hid, hlevel⟩ := mem_atLevel.mp hid
  obtain ⟨o, ho, hlt, hl⟩ := h.wellFormed.exists_origin hid (by omega)
  refine Finset.mem_biUnion.mpr ⟨o.parent, ?_, ?_⟩
  · exact mem_atLevel.mpr ⟨by omega, by omega⟩
  · exact List.mem_toFinset.mpr (h.wellFormed.mem_children_of_origin ho)

/-- A level has at most as many nodes as the levels above it allow. -/
theorem card_atLevel_le (h : s.Grown t) (d : Nat) :
    (atLevel t d).card ≤ ∏ k ∈ Finset.range d, min s.width (s.catalog.size - k) := by
  -- every node of a level has its parent on the level above
  induction d with
  | zero => rw [h.atLevel_zero, Finset.card_singleton, Finset.prod_range_zero]
  | succ d ih =>
    have hchildren : ∀ id ∈ atLevel t d,
        (t.node id).children.toFinset.card ≤ min s.width (s.catalog.size - d) := by
      intro id hid
      obtain ⟨hlt, rfl⟩ := mem_atLevel.mp hid
      exact (List.toFinset_card_le _).trans (h.children_length_le hlt)
    calc (atLevel t (d + 1)).card
        ≤ ((atLevel t d).biUnion fun id => (t.node id).children.toFinset).card :=
          Finset.card_le_card (h.atLevel_succ_subset d)
      _ ≤ (atLevel t d).card * min s.width (s.catalog.size - d) :=
          Finset.card_biUnion_le_card_mul _ _ _ hchildren
      _ ≤ (∏ k ∈ Finset.range d, min s.width (s.catalog.size - k)) *
            min s.width (s.catalog.size - d) := Nat.mul_le_mul_right _ ih
      _ = ∏ k ∈ Finset.range (d + 1), min s.width (s.catalog.size - k) :=
          (Finset.prod_range_succ _ _).symm

/-- The nodes of a tree by their levels. -/
theorem size_eq (h : s.Grown t) :
    t.size = 1 + ∑ d ∈ Finset.Icc 1 s.rule.length, (atLevel t d).card := by
  have hmaps : ((Finset.range t.size : Finset Nat) : Set Nat).MapsTo
      (fun id => (t.node id).level) (Finset.range (s.rule.length + 1) : Finset Nat) := by
    intro id _
    exact Finset.mem_coe.mpr (Finset.mem_range.mpr (Nat.lt_succ_of_le (h.level id)))
  have hsum := Finset.card_eq_sum_card_fiberwise hmaps
  rw [Finset.card_range, Finset.sum_range_succ'] at hsum
  rw [sum_Icc_one_eq, hsum, Nat.add_comm]
  congr 1
  exact (congrArg Finset.card h.atLevel_zero).trans (Finset.card_singleton 0)

/-- A tree is no larger than the bound of a run. -/
theorem size_le (h : s.Grown t) :
    t.size ≤ 1 + nodeBound s.catalog.size s.width s.rule.length := by
  rw [h.size_eq, nodeBound_eq]
  exact Nat.add_le_add_left (Finset.sum_le_sum fun d _ => h.card_atLevel_le d) 1

end Grown

end Search

end SoundScenes
