import SoundScenes.Proofs.Scene.Places
import SoundScenes.Proofs.Search.Lawful
import SoundScenes.Proofs.Search.Scenes

/-!
# The shape of a tree that has been tried

A search that ends by itself leaves no place open. A node that may be continued has a child for each
place that the width allows, as far as sounds are left for them, and it is marked exactly if there
were fewer sounds than places. All other nodes are leaves. Where every beginning is kept, the number
of nodes at each level follows.

* `Move.markedShort` — a node is marked only while it has places left;
* `Reachable.filled` — the children and the mark of every node;
* `Grown.card_atLevel_succ` — the nodes of a level are the children of those above it;
* `run_exhausted_shape` — the tree of a run that has tried everything.
-/

namespace SoundScenes.Search

variable {σ : Type} {s : Search} {t : Tree} {m m' : State σ}

/-! ## Marks -/

/-- A marked node has fewer children than the width allows. -/
def MarkedShort (s : Search) (t : Tree) : Prop :=
  ∀ id, (t.node id).exhausted = true → (t.node id).children.length < s.width

theorem markedShort_start (s : Search) : s.MarkedShort .start := by
  intro id h
  rw [Tree.node_start] at h
  cases h

theorem MarkedShort.add (h : s.MarkedShort t) {parent : Nat} (hp : parent < t.size)
    (hroom : t.hasRoom parent s.width = true) (sound : Nat) :
    s.MarkedShort (t.add parent sound) := by
  intro id hmarked
  rw [Tree.exhausted_add hp] at hmarked
  have hne : id ≠ parent := by
    rintro rfl
    rw [(hasRoom_iff.mp hroom).1] at hmarked
    cases hmarked
  rw [Tree.children_add hp, if_neg hne]
  exact h id hmarked

theorem MarkedShort.exhaust (h : s.MarkedShort t) {parent : Nat} (hp : parent < t.size)
    (hroom : t.hasRoom parent s.width = true) : s.MarkedShort (t.exhaust parent) := by
  intro id hmarked
  rw [Tree.node_exhaust_eq hp] at hmarked ⊢
  by_cases hid : id = parent
  · rw [hid]
    exact (hasRoom_iff.mp hroom).2
  · rw [decide_eq_false hid, Bool.or_false] at hmarked
    exact h id hmarked

/-- A node gets its mark, and no child any more, while it has places left. -/
theorem Move.markedShort (h : Move s m m') (inv : Invariant s m) (hm : s.MarkedShort m.tree) :
    s.MarkedShort m'.tree := by
  cases h with
  | keep sound source hphase hlevel hroom => exact hm.add inv.current_lt hroom sound
  | prune sound source reason hphase hlevel hroom => exact hm.add inv.current_lt hroom sound
  | exhaust hphase hlevel hroom => exact hm.exhaust inv.current_lt hroom
  | _ => exact hm

theorem Reachable.markedShort [RandomSource σ] {source : σ} (h : Reachable s source m) :
    s.MarkedShort m.tree := by
  induction h with
  | start => exact markedShort_start s
  | act h hopen ih => exact (act_move hopen).markedShort h.invariant ih

/-! ## Children -/

/-- A node that may be continued: the root, or a node before the last depth whose path, looked at by
itself, is not given up. -/
def Continued (s : Search) (t : Tree) (id : Nat) : Prop :=
  id = 0 ∨ (t.node id).depth < (s.rule.length : Int) - 1 ∧
    s.rule.pruneScene? s.catalog (t.path id) (t.node id).depth.toNat = .ok none

theorem Grown.continued_iff (h : s.Grown t) (hlength : 1 ≤ s.rule.length) {id : Nat}
    (hid : id < t.size) :
    s.Continued t id ↔ (t.node id).level < s.rule.length ∧ s.Keeps (t.path id) := by
  have hlevel := h.wellFormed.length_path hid
  rcases Nat.eq_zero_or_pos id with rfl | h0
  · rw [h.wellFormed.root_level, h.wellFormed.path_root]
    exact ⟨fun _ => ⟨hlength, .inl rfl⟩, fun _ => .inl rfl⟩
  · obtain ⟨o, -, -, ho⟩ := h.wellFormed.origin id h0 hid
    have hne : t.path id ≠ [] := fun hnil => by
      rw [hnil, List.length_nil] at hlevel
      omega
    have hdepth : (t.node id).depth.toNat = (t.path id).length - 1 := by
      rw [Node.depth]
      omega
    have hinner : (t.node id).depth < (s.rule.length : Int) - 1 ↔
        (t.node id).level < s.rule.length := by
      rw [Node.depth]
      omega
    rw [Continued, or_iff_right (Nat.ne_of_gt h0), hinner, hdepth,
      pruneScene?_eq (h.path_lt id hid), Except.ok.injEq, Keeps, or_iff_right hne]

/-- No place is left open: the children and the mark of every node. -/
structure Filled (s : Search) (t : Tree) : Prop where
  children : ∀ id < t.size, s.Continued t id →
    (t.node id).children.length = min s.width (s.catalog.size - (t.path id).length)
  marked : ∀ id < t.size, s.Continued t id →
    ((t.node id).exhausted = true ↔ s.catalog.size - (t.path id).length < s.width)
  leaf : ∀ id < t.size, ¬ s.Continued t id →
    (t.node id).children = [] ∧ (t.node id).exhausted = false

/-- The path of a marked node and the sounds of its children are all sounds. -/
theorem Grown.length_of_marked (h : s.Grown t) {id : Nat} (hid : id < t.size)
    (hmarked : (t.node id).exhausted = true) :
    (t.path id).length + (t.node id).children.length = s.catalog.size := by
  have hall : List.range s.catalog.size ⊆ t.path id ++ t.childSounds id := by
    intro x hx
    by_contra hfree
    have hmem : x ∈ s.catalog.eligible (t.path id ++ t.childSounds id) :=
      Catalog.mem_eligible.mpr ⟨List.mem_range.mp hx, hfree⟩
    rw [h.spent id hid hmarked] at hmem
    cases hmem
  have hge := (List.nodup_range.subperm hall).length_le
  have hle := length_le_size (h.nodup_path_append hid) (h.path_append_lt hid)
  rw [List.length_append, h.wellFormed.length_childSounds] at hge hle
  rw [List.length_range] at hge
  omega

section Runs

variable [RandomSource σ] {source : σ} {clock : Nat → Nat}

/-- A search that has tried everything has left no place open. -/
theorem Reachable.filled (h : Reachable s source m) (hdone : m.phase = .done .treeExhausted)
    (hlength : 1 ≤ s.rule.length) : s.Filled m.tree := by
  have hgrown := h.invariant.tree
  have hplaces (id : Nat) (hid : id < m.tree.size) (hcontinued : s.Continued m.tree id) :
      (m.tree.node id).children.length =
          min s.width (s.catalog.size - (m.tree.path id).length) ∧
        ((m.tree.node id).exhausted = true ↔
          s.catalog.size - (m.tree.path id).length < s.width) := by
    obtain ⟨hlevel, hkeeps⟩ := (hgrown.continued_iff hlength hid).mp hcontinued
    have hroom := h.no_room hdone hid hlevel hkeeps
    have hle := hgrown.children_length_le hid
    rw [← hgrown.wellFormed.length_path hid] at hle
    cases hmarked : (m.tree.node id).exhausted with
    | true =>
      -- the sounds have run out before the places
      have hall := hgrown.length_of_marked hid hmarked
      have hshort := h.markedShort id hmarked
      exact ⟨by omega, iff_of_true rfl (by omega)⟩
    | false =>
      -- the places have run out, so that there are at least as many sounds
      have hfull : ¬ (m.tree.node id).children.length < s.width := fun hlt => by
        rw [hasRoom_iff.mpr ⟨hmarked, hlt⟩] at hroom
        cases hroom
      exact ⟨by omega, iff_of_false Bool.false_ne_true (by omega)⟩
  constructor
  case children => exact fun id hid hcontinued => (hplaces id hid hcontinued).1
  case marked => exact fun id hid hcontinued => (hplaces id hid hcontinued).2
  case leaf =>
    intro id hid hnot
    rw [hgrown.continued_iff hlength hid] at hnot
    have hinner := mt (hgrown.inner id hid) hnot
    rw [not_or, not_not, Bool.not_eq_true] at hinner
    exact hinner

/-- The state in which a run has tried everything. -/
theorem exists_of_treeExhausted (h : (s.run clock source).termination = .treeExhausted) :
    ∃ m, Reachable s source m ∧ m.phase = .done .treeExhausted ∧
      s.run clock source = m.outcome := by
  obtain ⟨t, ht⟩ := isDone_eq_true_iff.mp (isDone_run s clock source)
  have htermination : (s.run clock source).termination = t := by
    rw [run, State.outcome, ht]
  rw [h] at htermination
  subst htermination
  obtain ⟨m, hm, heq | ⟨t, hbudget, heq⟩⟩ := steps_reachable s clock source s.stepBound
  · rw [heq] at ht
    exact ⟨m, hm, ht, congrArg State.outcome heq⟩
  · -- a budget is no end of the tree
    rw [heq] at ht
    cases ht
    cases hbudget

end Runs

/-! ## Levels -/

/-- The nodes of a level are the children of those above it, each of one of them. -/
theorem Grown.card_atLevel_succ (h : s.Grown t) (d : Nat) :
    (atLevel t (d + 1)).card = ∑ id ∈ atLevel t d, (t.node id).children.length := by
  have hunion : atLevel t (d + 1) =
      (atLevel t d).biUnion fun id => (t.node id).children.toFinset := by
    refine Finset.Subset.antisymm (h.atLevel_succ_subset d) fun child hchild => ?_
    obtain ⟨id, hid, hchild⟩ := Finset.mem_biUnion.mp hchild
    obtain ⟨hlt, hparent⟩ := (h.wellFormed.mem_children id child).mp (List.mem_toFinset.mp hchild)
    rw [Node.parent, Option.map_eq_some_iff] at hparent
    obtain ⟨o, ho, rfl⟩ := hparent
    obtain ⟨-, -, hlevel⟩ := h.wellFormed.origin_some ho
    rw [(mem_atLevel.mp hid).2] at hlevel
    exact mem_atLevel.mpr ⟨hlt, hlevel⟩
  have hdisjoint : ∀ i ∈ atLevel t d, ∀ j ∈ atLevel t d, i ≠ j →
      Disjoint (t.node i).children.toFinset (t.node j).children.toFinset := by
    intro i _ j _ hne
    refine Finset.disjoint_left.mpr fun child hi hj => hne ?_
    have hi := ((h.wellFormed.mem_children i child).mp (List.mem_toFinset.mp hi)).2
    have hj := ((h.wellFormed.mem_children j child).mp (List.mem_toFinset.mp hj)).2
    exact Option.some.inj (hi.symm.trans hj)
  rw [hunion, Finset.card_biUnion hdisjoint]
  refine Finset.sum_congr rfl fun id _ => ?_
  exact List.toFinset_card_of_nodup (h.wellFormed.nodup_children id)

/-- Where every beginning is kept, a level has as many nodes as the levels above it allow. -/
theorem Filled.card_atLevel (hfilled : s.Filled t) (h : s.Grown t)
    (hkept : ∀ scene, s.Keeps scene) {d : Nat} (hd : d ≤ s.rule.length) :
    (atLevel t d).card = ∏ k ∈ Finset.range d, min s.width (s.catalog.size - k) := by
  -- every node of a level has its children on the next one
  induction d with
  | zero => rw [h.atLevel_zero, Finset.card_singleton, Finset.prod_range_zero]
  | succ d ih =>
    have hchildren : ∀ id ∈ atLevel t d,
        (t.node id).children.length = min s.width (s.catalog.size - d) := by
      intro id hid
      obtain ⟨hlt, hlevel⟩ := mem_atLevel.mp hid
      have hcontinued : s.Continued t id :=
        (h.continued_iff (by omega) hlt).mpr ⟨by omega, hkept _⟩
      rw [hfilled.children id hlt hcontinued, h.wellFormed.length_path hlt, hlevel]
    rw [h.card_atLevel_succ, Finset.sum_const_nat hchildren, ih (Nat.le_of_succ_le hd),
      Finset.prod_range_succ]

/-- Where every scene follows the rule, those of a tree stand at its last level. -/
theorem length_leaves (s : Search) (t : Tree) (hok : ∀ h, s.rule.reject? h = none) :
    (s.leaves t t.size).length = (atLevel t s.rule.length).card := by
  have hlast : s.follows t = fun id => decide ((t.node id).level = s.rule.length) := by
    funext id
    simp only [follows, hok, and_true]
  rw [leaves, List.length_map, hlast, length_filter_range, atLevel]
  simp only [decide_eq_true_eq]

theorem keeps_of_none (h : s.rule.constraints = .none) (scene : List Nat) : s.Keeps scene := by
  refine .inr (SceneRule.prune?_eq_none_iff.mpr ?_)
  rw [h]
  simp [Constraints.none, boundedMul]

theorem reject?_of_none (h : s.rule.constraints = .none) (g : Histogram) :
    s.rule.reject? g = none := by
  rw [SceneRule.reject?_eq_none_iff, h]
  exact ⟨Nat.zero_le _, Nat.zero_le _⟩

/-! ## Runs -/

/-- **The tree of a search that has ended by itself.** Every node that may be continued has as many
children as the width and the sounds that are left allow, and it is marked exactly if the sounds did
not fill the width; the others are leaves. Without constraints this gives the number of scenes and
of nodes, whatever the random choices. -/
theorem run_exhausted_shape [RandomSource σ] (s : Search) (hlength : 1 ≤ s.rule.length)
    (clock : Nat → Nat) (source : σ)
    (hend : (s.run clock source).termination = .treeExhausted) :
    let o := s.run clock source
    s.EndsWith clock source o ∧ s.Filled o.tree ∧
      (s.rule.constraints = .none →
        o.scenes.length = ∏ k ∈ Finset.range s.rule.length, min s.width (s.catalog.size - k) ∧
        o.stats.scenesEmitted = o.scenes.length ∧
        o.stats.nodesCreated = ∑ d ∈ Finset.Icc 1 s.rule.length,
          ∏ k ∈ Finset.range d, min s.width (s.catalog.size - k)) := by
  intro o
  obtain ⟨m, hm, hdone, hrun⟩ := exists_of_treeExhausted hend
  have ho : o = m.outcome := hrun
  have inv := hm.invariant
  have hfilled := hm.filled hdone hlength
  rw [ho]
  refine ⟨hrun ▸ endsWith_run s clock source, hfilled, fun hnone => ?_⟩
  have hlevels {d : Nat} (hd : d ≤ s.rule.length) :=
    hfilled.card_atLevel inv.tree (keeps_of_none hnone) hd
  refine ⟨?_, hm.emitted_eq, ?_⟩
  · show m.scenes.toList.length = _
    rw [inv.found hlength (not_pending_of_done hdone), length_leaves s _ (reject?_of_none hnone),
      hlevels (Nat.le_refl _)]
  · have hsize := inv.tree.size_eq
    rw [← inv.nodes, Nat.add_comm 1] at hsize
    refine (Nat.add_right_cancel hsize).trans (Finset.sum_congr rfl fun d hd => ?_)
    exact hlevels (Finset.mem_Icc.mp hd).2

/-- Two sounds can follow one another in two ways, and the tree holds each of them twice. -/
theorem run_duetSearch_free :
    let s := { duetSearch.unlimited with rule := ⟨.none, 2⟩ }
    let o := s.run (fun _ => 0) (Pcg.ofSeed 7)
    o.termination = .treeExhausted ∧ o.scenes.length = 2 ∧ o.stats.nodesCreated = 4 ∧
      s.Filled o.tree := by
  intro s o
  have hend : o.termination = .treeExhausted := by
    obtain ⟨m, -, hdone, hrun⟩ := run_unlimited_state s (fun _ => 0) (Pcg.ofSeed 7)
    have ho : o = m.outcome := hrun
    rw [ho, State.outcome, hdone]
  obtain ⟨-, hfilled, hcount⟩ := run_exhausted_shape s (by decide) (fun _ => 0) (Pcg.ofSeed 7) hend
  obtain ⟨hscenes, -, hnodes⟩ := hcount rfl
  exact ⟨hend, hscenes.trans (by decide), hnodes.trans (by decide), hfilled⟩

end SoundScenes.Search
