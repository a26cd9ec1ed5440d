import SoundScenes.Search.Tree
import Mathlib.Data.List.Nodup
import Mathlib.Data.List.Pairwise

/-!
# Search trees that grow by `add` and `exhaust`

A tree that the search has grown is well formed: every node but the root has a parent with a smaller
number and stands among the children of that parent and of no other node. What follows says how both
operations change the fields of a node, its path and the sounds of its children.

* `WellFormed.add`, `WellFormed.exhaust` — both operations keep a tree well formed;
* `WellFormed.path_injective` — where siblings hold different sounds, different nodes have
  different paths.
-/

namespace SoundScenes.Tree

variable {t t' : Tree} {parent sound id : Nat}

/-! ## Fields of a node -/

theorem node_start (id : Nat) : start.node id = .root := by
  cases id <;> rfl

/-- Beyond the last node everything looks like a root without children. -/
theorem node_of_size_le (h : t.size ≤ id) : t.node id = .root := by
  rw [node, Array.getD_eq_getD_getElem?, Array.getElem?_eq_none h, Option.getD_none]

theorem node?_eq (h : id < t.size) : t.node? id = some (t.node id) := by
  rw [node?, node, Array.getD_eq_getD_getElem?, Array.getElem?_eq_getElem h, Option.getD_some]

theorem origin_add (h : parent < t.size) (id : Nat) :
    ((t.add parent sound).node id).origin =
      if id = t.size then some ⟨parent, sound⟩ else (t.node id).origin := by
  rw [node_add t sound h]
  split
  · rfl
  · split
    · next hid => rw [hid]
    · rfl

theorem level_add (h : parent < t.size) (id : Nat) :
    ((t.add parent sound).node id).level =
      if id = t.size then (t.node parent).level + 1 else (t.node id).level := by
  rw [node_add t sound h]
  split
  · rfl
  · split
    · next hid => rw [hid]
    · rfl

theorem children_add (h : parent < t.size) (id : Nat) :
    ((t.add parent sound).node id).children =
      if id = parent then (t.node parent).children ++ [t.size] else (t.node id).children := by
  rw [node_add t sound h]
  split
  · next hid =>
    rw [if_neg (by omega), node_of_size_le (Nat.le_of_eq hid.symm)]
    rfl
  · split <;> rfl

theorem exhausted_add (h : parent < t.size) (id : Nat) :
    ((t.add parent sound).node id).exhausted = (t.node id).exhausted := by
  rw [node_add t sound h]
  split
  · next hid =>
    rw [node_of_size_le (Nat.le_of_eq hid.symm)]
    rfl
  · split
    · next hid => rw [hid]
    · rfl

theorem node_add_size (h : parent < t.size) :
    (t.add parent sound).node t.size =
      ⟨(t.node parent).level + 1, some ⟨parent, sound⟩, [], false⟩ := by
  rw [node_add t sound h, if_pos rfl]

theorem node_add_of_ne (h : parent < t.size) (hid : id < t.size) (hne : id ≠ parent) :
    (t.add parent sound).node id = t.node id := by
  rw [node_add t sound h, if_neg (Nat.ne_of_lt hid), if_neg hne]

theorem length_children_add (h : parent < t.size) :
    ((t.add parent sound).node parent).children.length =
      (t.node parent).children.length + 1 := by
  rw [children_add h, if_pos rfl, List.length_append, List.length_singleton]

/-- Marking a node changes nothing but the mark. -/
theorem node_exhaust_eq (h : parent < t.size) (id : Nat) :
    (t.exhaust parent).node id =
      { t.node id with exhausted := (t.node id).exhausted || decide (id = parent) } := by
  rw [node_exhaust t h]
  split
  · next hid => simp [hid]
  · next hid => simp [hid]

/-! ## Paths -/

theorem path_of_origin_none (h : (t.node id).origin = none) : t.path id = [] := by
  rw [path, pathBefore, h]

/-- A path depends on nothing but the origins of the nodes up to its end. -/
theorem path_congr (h : ∀ j ≤ id, (t'.node j).origin = (t.node j).origin) :
    t'.path id = t.path id := by
  induction id using Nat.strongRecOn with
  | _ id ih =>
    have hid := h id (Nat.le_refl id)
    cases ho : (t.node id).origin with
    | none => rw [path_of_origin_none ho, path_of_origin_none (hid.trans ho)]
    | some o =>
      by_cases hlt : o.parent < id
      · rw [path_of_origin ho hlt, path_of_origin (hid.trans ho) hlt,
          ih o.parent hlt fun j hj => h j (by omega)]
      · rw [path, pathBefore, path, pathBefore, hid, ho]
        simp only [hlt, if_false]

theorem path_add_of_lt (h : parent < t.size) (hid : id < t.size) :
    (t.add parent sound).path id = t.path id := by
  refine path_congr fun j hj => ?_
  rw [origin_add h, if_neg (by omega)]

theorem path_add_size (h : parent < t.size) :
    (t.add parent sound).path t.size = t.path parent ++ [sound] := by
  have ho : ((t.add parent sound).node t.size).origin = some ⟨parent, sound⟩ := by
    rw [origin_add h, if_pos rfl]
  rw [path_of_origin ho h, path_add_of_lt h h]

theorem path_exhaust (h : parent < t.size) (id : Nat) : (t.exhaust parent).path id = t.path id :=
  path_congr fun j _ => by rw [node_exhaust_eq h]

/-! ## Well-formed trees -/

/-- Every node but the root is a child of one node, which has a smaller number. -/
structure WellFormed (t : Tree) : Prop where
  size_pos : 0 < t.size
  root_origin : (t.node 0).origin = none
  root_level : (t.node 0).level = 0
  origin : ∀ id, 0 < id → id < t.size →
    ∃ o, (t.node id).origin = some o ∧ o.parent < id ∧
      (t.node id).level = (t.node o.parent).level + 1
  mem_children : ∀ id child,
    child ∈ (t.node id).children ↔ child < t.size ∧ (t.node child).parent = some id
  /-- Children stand in the order in which they were made. -/
  sorted : ∀ id, (t.node id).children.Pairwise (· < ·)

theorem wellFormed_start : start.WellFormed where
  size_pos := Nat.one_pos
  root_origin := rfl
  root_level := rfl
  origin id h0 h := by
    rw [size_start] at h
    omega
  mem_children id child := by simp [node_start, Node.root, Node.parent]
  sorted id := by simp [node_start, Node.root]

namespace WellFormed

theorem add (h : t.WellFormed) (hp : parent < t.size) : (t.add parent sound).WellFormed where
  size_pos := by
    rw [size_add]
    omega
  root_origin := by rw [origin_add hp, if_neg (by omega), h.root_origin]
  root_level := by rw [level_add hp, if_neg (by omega), h.root_level]
  origin id h0 hid := by
    rw [size_add] at hid
    rw [origin_add hp, level_add hp]
    by_cases heq : id = t.size
    · subst heq
      refine ⟨⟨parent, sound⟩, by rw [if_pos rfl], hp, ?_⟩
      rw [if_pos rfl, level_add hp, if_neg (by simp only; omega)]
    · obtain ⟨o, ho, hlt, hl⟩ := h.origin id h0 (by omega)
      refine ⟨o, by rw [if_neg heq, ho], hlt, ?_⟩
      rw [if_neg heq, level_add hp, if_neg (by omega), hl]
  mem_children id child := by
    rw [children_add hp, Node.parent, origin_add hp, size_add]
    by_cases hc : child = t.size
    · subst hc
      have hnew : ∀ i, t.size ∉ (t.node i).children := fun i hi =>
        Nat.lt_irrefl _ ((h.mem_children i _).mp hi).1
      by_cases hid : id = parent
      · simp [hid]
      · simp [hid, hnew, Ne.symm hid]
    · rw [if_neg hc]
      have hlt : child < t.size + 1 ↔ child < t.size := by omega
      rw [hlt, ← Node.parent, ← h.mem_children]
      by_cases hid : id = parent <;> simp [hid, hc]
  sorted id := by
    rw [children_add hp]
    split
    · rw [List.pairwise_append]
      refine ⟨h.sorted parent, List.pairwise_singleton _ _, ?_⟩
      intro c hc d hd
      rw [List.mem_singleton.mp hd]
      exact ((h.mem_children parent c).mp hc).1
    · exact h.sorted id

theorem exhaust (h : t.WellFormed) (hp : parent < t.size) : (t.exhaust parent).WellFormed where
  size_pos := by rw [size_exhaust]; exact h.size_pos
  root_origin := by rw [node_exhaust_eq hp]; exact h.root_origin
  root_level := by rw [node_exhaust_eq hp]; exact h.root_level
  origin id h0 hid := by
    rw [size_exhaust] at hid
    obtain ⟨o, ho, hlt, hl⟩ := h.origin id h0 hid
    refine ⟨o, ?_, hlt, ?_⟩
    · rw [node_exhaust_eq hp]; exact ho
    · rw [node_exhaust_eq hp, node_exhaust_eq hp]; exact hl
  mem_children id child := by
    rw [node_exhaust_eq hp, node_exhaust_eq hp, size_exhaust]
    exact h.mem_children id child
  sorted id := by rw [node_exhaust_eq hp]; exact h.sorted id

/-- An origin that is given is the one of a node beyond the root. -/
theorem origin_some (h : t.WellFormed) {o : Origin} (ho : (t.node id).origin = some o) :
    id < t.size ∧ o.parent < id ∧ (t.node id).level = (t.node o.parent).level + 1 := by
  have hid : id < t.size := by
    by_cases hlt : id < t.size
    · exact hlt
    · rw [node_of_size_le (Nat.le_of_not_lt hlt)] at ho
      cases ho
  have h0 : 0 < id := by
    rcases Nat.eq_zero_or_pos id with rfl | h0
    · rw [h.root_origin] at ho
      cases ho
    · exact h0
  obtain ⟨o', ho', hlt, hl⟩ := h.origin id h0 hid
  rw [ho] at ho'
  cases ho'
  exact ⟨hid, hlt, hl⟩

/-- A node stands among the children of its parent. -/
theorem mem_children_of_origin (h : t.WellFormed) {o : Origin}
    (ho : (t.node id).origin = some o) : id ∈ (t.node o.parent).children := by
  refine (h.mem_children _ _).mpr ⟨(h.origin_some ho).1, ?_⟩
  rw [Node.parent, ho]
  rfl

theorem path_eq (h : t.WellFormed) {o : Origin} (ho : (t.node id).origin = some o) :
    t.path id = t.path o.parent ++ [o.sound] :=
  path_of_origin ho (h.origin_some ho).2.1

theorem path_root (h : t.WellFormed) : t.path 0 = [] := path_of_origin_none h.root_origin

/-- The level of a node is the length of its path. -/
theorem length_path (h : t.WellFormed) (hid : id < t.size) :
    (t.path id).length = (t.node id).level := by
  induction id using Nat.strongRecOn with
  | _ id ih =>
    rcases Nat.eq_zero_or_pos id with rfl | h0
    · rw [h.path_root, h.root_level, List.length_nil]
    · obtain ⟨o, ho, hlt, hl⟩ := h.origin id h0 hid
      rw [h.path_eq ho, hl, List.length_append, ih o.parent hlt (by omega), List.length_singleton]

theorem eq_root_of_level (h : t.WellFormed) (hid : id < t.size) (hl : (t.node id).level = 0) :
    id = 0 := by
  rcases Nat.eq_zero_or_pos id with rfl | h0
  · rfl
  · obtain ⟨o, -, -, ho⟩ := h.origin id h0 hid
    omega

/-- A node beyond the level of the root has an origin. -/
theorem exists_origin (h : t.WellFormed) (hid : id < t.size) (hl : 0 < (t.node id).level) :
    ∃ o : Origin, (t.node id).origin = some o ∧ o.parent < id ∧
      (t.node id).level = (t.node o.parent).level + 1 := by
  refine h.origin id (Nat.pos_of_ne_zero ?_) hid
  rintro rfl
  rw [h.root_level] at hl
  exact Nat.lt_irrefl 0 hl

/-! ## The sounds of the children -/

/-- The children of a node hold sounds, so that none is lost among them. -/
theorem length_childSounds (h : t.WellFormed) (id : Nat) :
    (t.childSounds id).length = (t.node id).children.length := by
  refine List.filterMap_length_eq_length.mpr fun child hc => ?_
  have hp := ((h.mem_children id child).mp hc).2
  rw [Node.parent, Option.map_eq_some_iff] at hp
  obtain ⟨o, ho, -⟩ := hp
  rw [Node.sound, ho]
  rfl

theorem mem_childSounds (h : t.WellFormed) {x : Nat} :
    x ∈ t.childSounds id ↔ ∃ child, (t.node child).origin = some ⟨id, x⟩ := by
  rw [childSounds, List.mem_filterMap]
  constructor
  · rintro ⟨child, hc, hx⟩
    refine ⟨child, ?_⟩
    have hp := ((h.mem_children id child).mp hc).2
    rw [Node.sound, Option.map_eq_some_iff] at hx
    rw [Node.parent, Option.map_eq_some_iff] at hp
    obtain ⟨o, ho, rfl⟩ := hx
    obtain ⟨o', ho', rfl⟩ := hp
    rw [ho] at ho'
    cases ho'
    exact ho
  · rintro ⟨child, ho⟩
    refine ⟨child, h.mem_children_of_origin ho, ?_⟩
    rw [Node.sound, ho]
    rfl

theorem childSounds_add (h : t.WellFormed) (hp : parent < t.size) (id : Nat) :
    (t.add parent sound).childSounds id =
      if id = parent then t.childSounds parent ++ [sound] else t.childSounds id := by
  have hold (i : Nat) : (t.node i).children.filterMap
      (fun child => ((t.add parent sound).node child).sound) = t.childSounds i := by
    refine List.filterMap_congr fun child hc => ?_
    have hlt := ((h.mem_children i child).mp hc).1
    rw [Node.sound, origin_add hp, if_neg (by omega), Node.sound]
  rw [childSounds, children_add hp]
  split
  · have hnew : ((t.add parent sound).node t.size).sound = some sound := by
      rw [Node.sound, origin_add hp, if_pos rfl]
      rfl
    rw [List.filterMap_append, hold, List.filterMap_cons, hnew, List.filterMap_nil]
  · exact hold id

theorem childSounds_exhaust (hp : parent < t.size) (id : Nat) :
    (t.exhaust parent).childSounds id = t.childSounds id := by
  rw [childSounds, node_exhaust_eq hp]
  refine List.filterMap_congr fun child _ => ?_
  rw [node_exhaust_eq hp]
  rfl

/-- Where siblings hold different sounds, a node is found by its parent and its sound. -/
theorem eq_of_origin_eq (h : t.WellFormed) (hs : ∀ id, (t.childSounds id).Nodup) {a b : Nat}
    {o : Origin} (ha : (t.node a).origin = some o) (hb : (t.node b).origin = some o) : a = b := by
  have hsound (c : Nat) (hc : (t.node c).origin = some o) : (t.node c).sound = some o.sound := by
    rw [Node.sound, hc]
    rfl
  -- both are children of one node, where no two hold the same sound
  have hpair := hs o.parent
  rw [childSounds, List.Nodup, List.pairwise_filterMap] at hpair
  let alike (x y : Nat) : Prop :=
    (t.node x).sound = some o.sound → (t.node y).sound = some o.sound → x = y
  have : Std.Symm alike := ⟨fun x y hxy hy hx => (hxy hx hy).symm⟩
  have hall : (t.node o.parent).children.Pairwise alike :=
    hpair.imp fun hxy hx hy => absurd rfl (hxy _ hx _ hy)
  exact hall.forall_of_forall (fun _ _ _ _ => rfl) (h.mem_children_of_origin ha)
    (h.mem_children_of_origin hb) (hsound a ha) (hsound b hb)

/-- Where siblings hold different sounds, a node is found by its path. -/
theorem path_injective (h : t.WellFormed) (hs : ∀ id, (t.childSounds id).Nodup) {a b : Nat}
    (ha : a < t.size) (hb : b < t.size) (hab : t.path a = t.path b) : a = b := by
  induction a using Nat.strongRecOn generalizing b with
  | _ a ih =>
    have hlevel : (t.node a).level = (t.node b).level := by
      rw [← h.length_path ha, ← h.length_path hb, hab]
    rcases Nat.eq_zero_or_pos a with rfl | ha0
    · rw [h.root_level] at hlevel
      exact (h.eq_root_of_level hb hlevel.symm).symm
    · obtain ⟨o, ho, hlt, hl⟩ := h.origin a ha0 ha
      obtain ⟨o', ho', hlt', -⟩ := h.exists_origin hb (by omega)
      rw [h.path_eq ho, h.path_eq ho'] at hab
      obtain ⟨hparent, hsound⟩ := List.append_inj' hab rfl
      have hparents : o.parent = o'.parent := ih _ hlt (by omega) (by omega) hparent
      have heq : o = o' := by
        cases o
        cases o'
        simp_all
      exact h.eq_of_origin_eq hs ho (heq ▸ ho')

end WellFormed

end SoundScenes.Tree
