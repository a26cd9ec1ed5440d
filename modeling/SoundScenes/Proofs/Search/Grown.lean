import SoundScenes.Search.Explore
import SoundScenes.Proofs.Search.Arena
import Mathlib.Data.List.Perm.Subperm

/-!
# Trees that a search has grown

Along every path of such a tree the sounds are different, and so are those of siblings. A node has
children, or is marked as exhausted, only if it is neither given up nor at the end of a complete
scene. A marked node has a child for every sound that is not on its path.

* `Grown.add`, `Grown.exhaust` — what a search does to its tree keeps it so;
* `Grown.children_length_le` — a node has at most one child for every sound that is left;
* `Grown.exists_child` — a node that may have no other child has one for every sound that is left,
  if the width allows for all of them.
-/

namespace SoundScenes.Search

/-- A beginning is not given up at its last sound. -/
def Keeps (s : Search) (scene : List Nat) : Prop :=
  scene = [] ∨ s.rule.prune? (s.histogramOf scene) (scene.length - 1) = none

/-- What a search keeps true of its tree. -/
structure Grown (s : Search) (t : Tree) : Prop where
  wellFormed : t.WellFormed
  path_nodup : ∀ id, id < t.size → (t.path id).Nodup
  path_lt : ∀ id, id < t.size → ∀ x ∈ t.path id, x < s.catalog.size
  siblings : ∀ id, (t.childSounds id).Nodup
  width : ∀ id, (t.node id).children.length ≤ s.width
  level : ∀ id, (t.node id).level ≤ s.rule.length
  /-- Only beginnings are continued, and only if they are kept. -/
  inner : ∀ id, id < t.size → (t.node id).children ≠ [] ∨ (t.node id).exhausted = true →
    (t.node id).level < s.rule.length ∧ s.Keeps (t.path id)
  spent : ∀ id, id < t.size → (t.node id).exhausted = true →
    s.catalog.eligible (t.path id ++ t.childSounds id) = []

variable {s : Search} {t : Tree} {parent sound : Nat}

theorem grown_start (s : Search) : s.Grown .start where
  wellFormed := Tree.wellFormed_start
  path_nodup id _ := by
    rw [Tree.path_of_origin_none (by rw [Tree.node_start]; rfl)]
    exact List.nodup_nil
  path_lt id _ x hx := by
    rw [Tree.path_of_origin_none (by rw [Tree.node_start]; rfl)] at hx
    cases hx
  siblings id := by
    rw [Tree.childSounds, Tree.node_start]
    exact List.nodup_nil
  width id := by
    rw [Tree.node_start]
    exact Nat.zero_le _
  level id := by
    rw [Tree.node_start]
    exact Nat.zero_le _
  inner id _ h := by
    rw [Tree.node_start] at h
    rcases h with h | h
    · exact absurd rfl h
    · cases h
  spent id _ h := by
    rw [Tree.node_start] at h
    cases h

theorem hasRoom_iff {width id : Nat} :
    t.hasRoom id width = true ↔
      (t.node id).exhausted = false ∧ (t.node id).children.length < width := by
  rw [Tree.hasRoom, Bool.and_eq_true, Bool.not_eq_true', decide_eq_true_eq]

namespace Grown

/-- A new child with a sound that is not taken. -/
theorem add (h : s.Grown t) (hp : parent < t.size)
    (hlevel : (t.node parent).level < s.rule.length) (hkeeps : s.Keeps (t.path parent))
    (hroom : t.hasRoom parent s.width = true)
    (hsound : sound ∈ s.catalog.eligible (t.path parent ++ t.childSounds parent)) :
    s.Grown (t.add parent sound) := by
  obtain ⟨hlt, hfree⟩ := Catalog.mem_eligible.mp hsound
  rw [List.mem_append, not_or] at hfree
  obtain ⟨hexhausted, hwidth⟩ := hasRoom_iff.mp hroom
  have hpath (id : Nat) (hid : id < t.size + 1) :
      id < t.size ∧ (t.add parent sound).path id = t.path id ∨
        id = t.size ∧ (t.add parent sound).path id = t.path parent ++ [sound] := by
    rcases Nat.lt_succ_iff_lt_or_eq.mp hid with hid | rfl
    · exact .inl ⟨hid, Tree.path_add_of_lt hp hid⟩
    · exact .inr ⟨rfl, Tree.path_add_size hp⟩
  constructor
  case wellFormed => exact h.wellFormed.add hp
  case path_nodup =>
    intro id hid
    rw [Tree.size_add] at hid
    rcases hpath id hid with ⟨hid, heq⟩ | ⟨-, heq⟩
    · rw [heq]
      exact h.path_nodup id hid
    · rw [heq, List.nodup_append]
      refine ⟨h.path_nodup parent hp, List.nodup_singleton sound, ?_⟩
      intro x hx y hy hxy
      rw [List.mem_singleton.mp hy] at hxy
      exact hfree.1 (hxy ▸ hx)
  case path_lt =>
    intro id hid x hx
    rw [Tree.size_add] at hid
    rcases hpath id hid with ⟨hid, heq⟩ | ⟨-, heq⟩
    · exact h.path_lt id hid x (heq ▸ hx)
    · rw [heq, List.mem_append, List.mem_singleton] at hx
      rcases hx with hx | rfl
      · exact h.path_lt parent hp x hx
      · exact hlt
  case siblings =>
    intro id
    rw [h.wellFormed.childSounds_add hp]
    split
    · rw [List.nodup_append]
      refine ⟨h.siblings parent, List.nodup_singleton sound, ?_⟩
      intro x hx y hy hxy
      rw [List.mem_singleton.mp hy] at hxy
      exact hfree.2 (hxy ▸ hx)
    · exact h.siblings id
  case width =>
    intro id
    rw [Tree.children_add hp]
    split
    · rw [List.length_append, List.length_singleton]
      exact hwidth
    · exact h.width id
  case level =>
    intro id
    rw [Tree.level_add hp]
    split
    · exact hlevel
    · exact h.level id
  case inner =>
    intro id hid hinner
    rw [Tree.size_add] at hid
    rw [Tree.children_add hp, Tree.exhausted_add hp] at hinner
    rw [Tree.level_add hp]
    rcases hpath id hid with ⟨hid, heq⟩ | ⟨rfl, -⟩
    · rw [heq, if_neg (Nat.ne_of_lt hid)]
      by_cases hidp : id = parent
      · exact hidp ▸ ⟨hlevel, hkeeps⟩
      · rw [if_neg hidp] at hinner
        exact h.inner id hid hinner
    · rw [if_neg (Nat.ne_of_gt hp), Tree.node_of_size_le (Nat.le_refl t.size)] at hinner
      -- a new node has no child and no mark
      simp [Node.root] at hinner
  case spent =>
    intro id hid hspent
    rw [Tree.size_add] at hid
    rw [Tree.exhausted_add hp] at hspent
    rw [h.wellFormed.childSounds_add hp]
    rcases hpath id hid with ⟨hid, heq⟩ | ⟨rfl, -⟩
    · rw [heq, if_neg (fun hidp => by rw [hidp, hexhausted] at hspent; cases hspent)]
      exact h.spent id hid hspent
    · rw [Tree.node_of_size_le (Nat.le_refl t.size)] at hspent
      cases hspent

/-- A mark at a node whose children hold all sounds that are not on its path. -/
theorem exhaust (h : s.Grown t) (hp : parent < t.size)
    (hlevel : (t.node parent).level < s.rule.length) (hkeeps : s.Keeps (t.path parent))
    (hnone : s.catalog.eligible (t.path parent ++ t.childSounds parent) = []) :
    s.Grown (t.exhaust parent) where
  wellFormed := h.wellFormed.exhaust hp
  path_nodup id hid := by
    rw [Tree.path_exhaust hp]
    exact h.path_nodup id (by rwa [Tree.size_exhaust] at hid)
  path_lt id hid := by
    rw [Tree.path_exhaust hp]
    exact h.path_lt id (by rwa [Tree.size_exhaust] at hid)
  siblings id := by
    rw [Tree.WellFormed.childSounds_exhaust hp]
    exact h.siblings id
  width id := by
    rw [Tree.node_exhaust_eq hp]
    exact h.width id
  level id := by
    rw [Tree.node_exhaust_eq hp]
    exact h.level id
  inner id hid hinner := by
    rw [Tree.size_exhaust] at hid
    rw [Tree.path_exhaust hp, Tree.node_exhaust_eq hp]
    rw [Tree.node_exhaust_eq hp] at hinner
    by_cases hidp : id = parent
    · subst hidp
      exact ⟨hlevel, hkeeps⟩
    · simp only [hidp, decide_false, Bool.or_false] at hinner
      exact h.inner id hid hinner
  spent id hid hspent := by
    rw [Tree.size_exhaust] at hid
    rw [Tree.path_exhaust hp, Tree.WellFormed.childSounds_exhaust hp]
    rw [Tree.node_exhaust_eq hp] at hspent
    by_cases hidp : id = parent
    · exact hidp ▸ hnone
    · simp only [hidp, decide_false, Bool.or_false] at hspent
      exact h.spent id hid hspent

/-! ## Children and the sounds that are left -/

/-- The sound of a child is in the catalog and not on the path of its parent. -/
theorem childSounds_mem (h : s.Grown t) {id x : Nat} (hx : x ∈ t.childSounds id) :
    x < s.catalog.size ∧ x ∉ t.path id := by
  obtain ⟨child, ho⟩ := h.wellFormed.mem_childSounds.mp hx
  have hchild := (h.wellFormed.origin_some ho).1
  have hpath := h.wellFormed.path_eq ho
  have hnodup := h.path_nodup child hchild
  rw [hpath, List.nodup_append] at hnodup
  refine ⟨h.path_lt child hchild x ?_, fun hmem => hnodup.2.2 x hmem x (by simp) rfl⟩
  rw [hpath]
  simp

/-- The path of a node and the sounds of its children are together without repetition. -/
theorem nodup_path_append (h : s.Grown t) {id : Nat} (hid : id < t.size) :
    (t.path id ++ t.childSounds id).Nodup := by
  rw [List.nodup_append]
  refine ⟨h.path_nodup id hid, h.siblings id, ?_⟩
  intro x hx y hy hxy
  exact (h.childSounds_mem hy).2 (hxy ▸ hx)

/-- Different sounds of a catalog are at most all of them. -/
theorem length_le_size {c : Catalog} {ids : List Nat} (hnodup : ids.Nodup)
    (hlt : ∀ id ∈ ids, id < c.size) : ids.length ≤ c.size := by
  have hsub : ids ⊆ List.range c.size := fun id hid => List.mem_range.mpr (hlt id hid)
  have hle := (hnodup.subperm hsub).length_le
  rwa [List.length_range] at hle

theorem path_append_lt (h : s.Grown t) {id : Nat} (hid : id < t.size) :
    ∀ x ∈ t.path id ++ t.childSounds id, x < s.catalog.size := by
  intro x hx
  rcases List.mem_append.mp hx with hx | hx
  · exact h.path_lt id hid x hx
  · exact (h.childSounds_mem hx).1

/-- A node has at most as many children as the width and the sounds that are left allow. -/
theorem children_length_le (h : s.Grown t) {id : Nat} (hid : id < t.size) :
    (t.node id).children.length ≤ min s.width (s.catalog.size - (t.node id).level) := by
  have hle := length_le_size (h.nodup_path_append hid) (h.path_append_lt hid)
  rw [List.length_append, h.wellFormed.length_path hid, h.wellFormed.length_childSounds] at hle
  have := h.width id
  omega

/-- Where the width allows for all sounds, a node that may have no other child has one for every
sound that is left. -/
theorem exists_child (h : s.Grown t) {id x : Nat} (hid : id < t.size)
    (hwidth : s.catalog.size ≤ s.width) (hroom : t.hasRoom id s.width = false)
    (hx : x < s.catalog.size) (hfree : x ∉ t.path id) :
    ∃ child, child < t.size ∧ t.path child = t.path id ++ [x] := by
  have hmem : x ∈ t.childSounds id := by
    by_cases hexhausted : (t.node id).exhausted = true
    · by_contra hnot
      have hin : x ∈ s.catalog.eligible (t.path id ++ t.childSounds id) := by
        rw [Catalog.mem_eligible, List.mem_append, not_or]
        exact ⟨hx, hfree, hnot⟩
      rw [h.spent id hid hexhausted] at hin
      cases hin
    · have hlength : s.catalog.size ≤ (t.childSounds id).length := by
        rw [h.wellFormed.length_childSounds]
        by_contra hlt
        rw [← Bool.not_eq_true, hasRoom_iff] at hroom
        exact hroom ⟨Bool.eq_false_iff.mpr hexhausted, by omega⟩
      -- as many different sounds as there are must be all of them
      have hsub : t.childSounds id ⊆ List.range s.catalog.size := fun y hy =>
        List.mem_range.mpr (h.childSounds_mem hy).1
      have hperm := ((h.siblings id).subperm hsub).perm_of_length_le (by simpa using hlength)
      exact hperm.mem_iff.mpr (List.mem_range.mpr hx)
  obtain ⟨child, ho⟩ := h.wellFormed.mem_childSounds.mp hmem
  exact ⟨child, (h.wellFormed.origin_some ho).1, h.wellFormed.path_eq ho⟩

/-- Every node on the way to a node is kept. -/
theorem keeps_take (h : s.Grown t) {id k : Nat} (hid : id < t.size)
    (hk : k < (t.path id).length) : s.Keeps ((t.path id).take k) := by
  -- a parent has a smaller number than its children
  induction id using Nat.strongRecOn with
  | _ id ih =>
    have hlevel := h.wellFormed.length_path hid
    obtain ⟨o, ho, hlt, -⟩ := h.wellFormed.exists_origin hid (by omega)
    have hpath := h.wellFormed.path_eq ho
    rw [hpath, List.length_append, List.length_singleton] at hk
    rw [hpath, List.take_append_of_le_length (by omega)]
    rcases Nat.lt_or_eq_of_le (Nat.le_of_lt_succ hk) with hk | rfl
    · exact ih o.parent hlt (by omega) hk
    · rw [List.take_length]
      refine (h.inner o.parent (by omega) (.inl fun hnil => ?_)).2
      have hmem := h.wellFormed.mem_children_of_origin ho
      rw [hnil] at hmem
      cases hmem

end Grown

end SoundScenes.Search
