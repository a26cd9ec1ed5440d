import SoundScenes.Proofs.Search.Ends

/-!
# The tree of a search

Whatever the limits and the random choices, the tree is a tree at every moment of a search: parents
come before their children, siblings hold different sounds, and the walk from a node up to the root
ends and tells the node from every other.

* `Climbs` — the walk from a node to the root;
* `WellFormed.climbs_iff` — it ends, and it collects the path;
* `Grown.lawful` — what is true of the tree of a search;
* `steps_lawful` — so it is at every moment and at the end.
-/

namespace SoundScenes

namespace Tree

variable {t : Tree}

/-! ## Walks to the root -/

/-- The walk from a node to the root puts the sounds on its way before those it starts with. It has
a result only if it stays within the tree and ends. -/
inductive Climbs (t : Tree) : Option Nat → List Nat → List Nat → Prop
  | top {sounds : List Nat} : Climbs t none sounds sounds
  | up {id : Nat} {n : Node} {sounds path : List Nat} (hnode : t.node? id = some n)
      (hrest : Climbs t n.parent (n.sound.toList ++ sounds) path) : Climbs t (some id) sounds path

theorem Climbs.unique {place : Option Nat} {sounds path path' : List Nat}
    (h : t.Climbs place sounds path) (h' : t.Climbs place sounds path') : path = path' := by
  induction h with
  | top =>
    cases h'
    rfl
  | up hnode _ ih =>
    cases h' with
    | up hnode' hrest' =>
      rw [hnode] at hnode'
      cases hnode'
      exact ih hrest'

namespace WellFormed

theorem climbs (h : t.WellFormed) {id : Nat} (hid : id < t.size) (sounds : List Nat) :
    t.Climbs (some id) sounds (t.path id ++ sounds) := by
  induction id using Nat.strongRecOn generalizing sounds with
  | _ id ih =>
    refine .up (node?_eq hid) ?_
    rcases Nat.eq_zero_or_pos id with rfl | h0
    · rw [Node.parent, Node.sound, h.root_origin, h.path_root]
      exact .top
    · obtain ⟨o, ho, hlt, -⟩ := h.origin id h0 hid
      have hrest := ih o.parent hlt (hlt.trans hid) (o.sound :: sounds)
      rw [Node.parent, Node.sound, ho, h.path_eq ho, List.append_assoc]
      exact hrest

/-- The walk from a node ends at the root, and what it has collected is the path. -/
theorem climbs_iff (h : t.WellFormed) {id : Nat} (hid : id < t.size) {path : List Nat} :
    t.Climbs (some id) [] path ↔ path = t.path id := by
  have hpath := h.climbs hid []
  rw [List.append_nil] at hpath
  constructor
  · intro hclimbs
    exact hclimbs.unique hpath
  · rintro rfl
    exact hpath

theorem lt_of_mem_children (h : t.WellFormed) {id child : Nat}
    (hchild : child ∈ (t.node id).children) : id < child ∧ child < t.size := by
  obtain ⟨hlt, hparent⟩ := (h.mem_children id child).mp hchild
  rw [Node.parent, Option.map_eq_some_iff] at hparent
  obtain ⟨o, ho, rfl⟩ := hparent
  exact ⟨(h.origin_some ho).2.1, hlt⟩

theorem nodup_children (h : t.WellFormed) (id : Nat) : (t.node id).children.Nodup :=
  (h.sorted id).imp Nat.ne_of_lt

/-- A node is a child of its parent, once, and of no other node. -/
theorem count_children (h : t.WellFormed) {child : Nat} {o : Origin}
    (ho : (t.node child).origin = some o) (id : Nat) :
    (t.node id).children.count child = if id = o.parent then 1 else 0 := by
  split
  · next heq =>
    subst heq
    exact List.count_eq_one_of_mem (h.nodup_children _) (h.mem_children_of_origin ho)
  · next hne =>
    refine List.count_eq_zero.mpr fun hmem => hne ?_
    have hparent := ((h.mem_children id child).mp hmem).2
    rw [Node.parent, ho] at hparent
    exact (Option.some.inj hparent).symm

end WellFormed

/-! ## Lawful trees -/

/-- A tree in which every node has at most so many children, for scenes of a length. -/
structure Lawful (t : Tree) (width length : Nat) : Prop where
  root : 0 < t.size ∧ (t.node 0).origin = none
  /-- Every other node is a child of one node, which has a smaller number and is one level above. -/
  origin : ∀ id, 0 < id → id < t.size → ∃ o : Origin,
    (t.node id).origin = some o ∧ o.parent < id ∧
      (t.node id).depth = (t.node o.parent).depth + 1 ∧ (t.node id).depth ≤ (length : Int) - 1 ∧
      ∀ i, (t.node i).children.count id = if i = o.parent then 1 else 0
  children : ∀ id < t.size, ∀ child ∈ (t.node id).children, id < child ∧ child < t.size
  sorted : ∀ id < t.size, (t.node id).children.Pairwise (· < ·)
  width : ∀ id < t.size, (t.node id).children.length ≤ width
  /-- Siblings hold different sounds, which are not on the path of their parent. -/
  siblings : ∀ id < t.size, (t.childSounds id).length = (t.node id).children.length ∧
    (t.childSounds id).Nodup ∧ ∀ sound ∈ t.childSounds id, sound ∉ t.path id
  path : ∀ id < t.size, (∀ path, t.Climbs (some id) [] path ↔ path = t.path id) ∧
    (t.path id).length = (t.node id).depth + 1 ∧ (t.path id).Nodup
  path_injective : ∀ id < t.size, ∀ id' < t.size, t.path id = t.path id' → id = id'

end Tree

namespace Search

variable {σ : Type} {s : Search}

theorem Grown.lawful {t : Tree} (h : s.Grown t) : t.Lawful s.width s.rule.length := by
  have hwf := h.wellFormed
  constructor
  case root => exact ⟨hwf.size_pos, hwf.root_origin⟩
  case origin =>
    intro id h0 hid
    obtain ⟨o, ho, hlt, hlevel⟩ := hwf.origin id h0 hid
    have hle := h.level id
    refine ⟨o, ho, hlt, ?_, ?_, hwf.count_children ho⟩
    · simp only [Node.depth]
      omega
    · simp only [Node.depth]
      omega
  case children => exact fun id _ child hchild => hwf.lt_of_mem_children hchild
  case sorted => exact fun id _ => hwf.sorted id
  case width => exact fun id _ => h.width id
  case siblings =>
    intro id _
    refine ⟨hwf.length_childSounds id, h.siblings id, ?_⟩
    intro sound hsound
    exact (h.childSounds_mem hsound).2
  case path =>
    intro id hid
    refine ⟨fun path => hwf.climbs_iff hid, ?_, h.path_nodup id hid⟩
    rw [hwf.length_path hid, Node.depth]
    omega
  case path_injective =>
    intro id hid id' hid' heq
    exact hwf.path_injective h.siblings hid hid' heq

theorem steps_grown [RandomSource σ] (s : Search) (clock : Nat → Nat) (source : σ) (n : Nat) :
    s.Grown (s.steps clock n (s.start source)).tree := by
  obtain ⟨m, hm, heq | ⟨t, -, heq⟩⟩ := steps_reachable s clock source n
  · rw [heq]
    exact hm.invariant.tree
  · rw [heq]
    exact hm.invariant.tree

/-- **The tree of a search is lawful** after any number of steps, and so is the tree that a run
returns. -/
theorem steps_lawful [RandomSource σ] (s : Search) (clock : Nat → Nat) (source : σ) :
    (∀ n, (s.steps clock n (s.start source)).tree.Lawful s.width s.rule.length) ∧
      s.EndsWith clock source (s.run clock source) ∧
      (s.run clock source).tree.Lawful s.width s.rule.length := by
  refine ⟨?_, endsWith_run s clock source, ?_⟩
  · intro n
    exact (steps_grown s clock source n).lawful
  · exact (steps_grown s clock source s.stepBound).lawful

end Search

end SoundScenes
