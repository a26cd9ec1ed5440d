import SoundScenes.Random.Pcg
import SoundScenes.Proofs.Catalog.Families
import SoundScenes.Proofs.Search.Ends

/-!
# What a search of full width finds

If every node may have a child for each sound, a search without limits leaves no gap: every sequence
of different sounds is the path of a node, as far as its beginnings are kept. So the scenes are all
the sequences whose beginnings are kept, each of them once, whatever the random choices.

* `Reachable.exists_node` — every kept beginning is the path of a node;
* `Reachable.mem_scenes_iff` — the scenes of a search that has tried everything;
* `run_full_width` — the scenes of a whole run.
-/

namespace SoundScenes.Search

variable {σ : Type} {s : Search} {m : State σ}

/-! ## Complete scenes -/

/-- A sequence of different sounds of the catalog that fills a scene. -/
structure Complete (s : Search) (scene : List Nat) : Prop where
  length_eq : scene.length = s.rule.length
  nodup : scene.Nodup
  lt_size : ∀ id ∈ scene, id < s.catalog.size

theorem complete_unlimited {scene : List Nat} :
    s.unlimited.Complete scene ↔ s.Complete scene :=
  ⟨fun h => ⟨h.length_eq, h.nodup, h.lt_size⟩, fun h => ⟨h.length_eq, h.nodup, h.lt_size⟩⟩

/-- All beginnings of a scene are kept when they are looked at by themselves. -/
def AllKept (s : Search) (scene : List Nat) : Prop :=
  ∀ k, 1 ≤ k → k ≤ scene.length →
    s.rule.pruneScene? s.catalog (scene.take k) (k - 1) = .ok none

theorem pruneScene?_eq {scene : List Nat} (h : ∀ id ∈ scene, id < s.catalog.size) (depth : Nat) :
    s.rule.pruneScene? s.catalog scene depth =
      .ok (s.rule.prune? (s.histogramOf scene) depth) :=
  SceneRule.pruneScene?_of_lt h depth

theorem rejectScene?_eq {scene : List Nat} (h : ∀ id ∈ scene, id < s.catalog.size) :
    s.rule.rejectScene? s.catalog scene = .ok (s.rule.reject? (s.histogramOf scene)) :=
  SceneRule.rejectScene?_of_lt h

/-- The beginnings that are kept by the search are those that are kept by themselves. -/
theorem Complete.allKept_iff {scene : List Nat} (h : s.Complete scene) :
    s.AllKept scene ↔ ∀ k ≤ scene.length, s.Keeps (scene.take k) := by
  have hlt (k : Nat) : ∀ id ∈ scene.take k, id < s.catalog.size := fun id hid =>
    h.lt_size id (List.mem_of_mem_take hid)
  constructor
  · intro hkept k hk
    rcases Nat.eq_zero_or_pos k with rfl | hpos
    · exact .inl rfl
    · refine .inr ?_
      have hone := hkept k hpos hk
      rw [pruneScene?_eq (hlt k)] at hone
      rw [List.length_take_of_le hk]
      exact Except.ok.inj hone
  · intro hkeeps k hpos hk
    rw [pruneScene?_eq (hlt k)]
    rcases hkeeps k hk with hnil | hkeep
    · have hlength := congrArg List.length hnil
      rw [List.length_take_of_le hk, List.length_nil] at hlength
      omega
    · rw [List.length_take_of_le hk] at hkeep
      rw [hkeep]

/-- A complete scene that is kept to its end follows the rule. -/
theorem Complete.keeps_iff {scene : List Nat} (h : s.Complete scene) (hpos : 0 < s.rule.length) :
    s.Keeps scene ↔ s.rule.reject? (s.histogramOf scene) = none := by
  have hne : scene ≠ [] := fun hnil => by
    have hlength := h.length_eq
    rw [hnil, List.length_nil] at hlength
    omega
  have hlast : s.rule.length ≤ scene.length - 1 + 1 := by
    rw [h.length_eq]
    omega
  rw [Keeps, or_iff_right hne, SceneRule.prune?_last hlast]

/-- If a family needs at most one sound for the quota, only the end of a scene matters. -/
theorem Complete.allKept_iff_reject {scene : List Nat} (h : s.Complete scene)
    (hpos : 0 < s.rule.length) (hquota : s.rule.constraints.quota ≤ 1) :
    s.AllKept scene ↔ s.rule.rejectScene? s.catalog scene = .ok none := by
  rw [h.allKept_iff, rejectScene?_eq h.lt_size, Except.ok.injEq, ← h.keeps_iff hpos]
  constructor
  · intro hkeeps
    have hfull := hkeeps scene.length (Nat.le_refl _)
    rwa [List.take_length] at hfull
  · intro hfull k hk
    rw [h.keeps_iff hpos] at hfull
    by_cases hnil : scene.take k = []
    · exact .inl hnil
    · have hsplit : scene.map s.catalog.family =
          (scene.take k).map s.catalog.family ++ (scene.drop k).map s.catalog.family := by
        rw [← List.map_append, List.take_append_drop]
      have hlength : (scene.map s.catalog.family).length ≤ s.rule.length := by
        rw [List.length_map, h.length_eq]
      rw [histogramOf, hsplit] at hfull
      rw [hsplit] at hlength
      refine .inr ?_
      rw [← List.length_map s.catalog.family]
      exact SceneRule.prune?_of_reject?_append hquota (mt List.map_eq_nil_iff.mp hnil) hlength hfull

/-! ## The scenes of a tree -/

theorem mem_leaves {t : Tree} {n : Nat} {scene : List Nat} :
    scene ∈ s.leaves t n ↔ ∃ id < n, s.follows t id = true ∧ t.path id = scene := by
  simp only [leaves, List.mem_map, List.mem_filter, List.mem_range, and_assoc]

/-- No scene stands at two nodes. -/
theorem Grown.nodup_leaves {t : Tree} (h : s.Grown t) : (s.leaves t t.size).Nodup := by
  refine List.Nodup.map_on ?_ (List.nodup_range.filter _)
  intro i hi j hj heq
  have hi := List.mem_range.mp (List.mem_filter.mp hi).1
  have hj := List.mem_range.mp (List.mem_filter.mp hj).1
  exact h.wellFormed.path_injective h.siblings hi hj heq

theorem Grown.follows_iff {t : Tree} (h : s.Grown t) {id : Nat} (hid : id < t.size) :
    s.follows t id = true ↔
      s.Complete (t.path id) ∧ s.rule.reject? (s.histogramOf (t.path id)) = none := by
  rw [follows, decide_eq_true_iff, ← h.wellFormed.length_path hid]
  constructor
  · rintro ⟨hlength, hok⟩
    exact ⟨⟨hlength, h.path_nodup id hid, h.path_lt id hid⟩, hok⟩
  · rintro ⟨hcomplete, hok⟩
    exact ⟨hcomplete.length_eq, hok⟩

/-- All beginnings of a scene that stands at a node are kept. -/
theorem Grown.allKept_of_follows {t : Tree} (h : s.Grown t) (hlength : 1 ≤ s.rule.length) {id : Nat}
    (hid : id < t.size) (hfollows : s.follows t id = true) : s.AllKept (t.path id) := by
  obtain ⟨hcomplete, hok⟩ := (h.follows_iff hid).mp hfollows
  refine hcomplete.allKept_iff.mpr fun k hk => ?_
  rcases Nat.lt_or_eq_of_le hk with hk | rfl
  · exact h.keeps_take hid hk
  · rw [List.take_length]
    exact (hcomplete.keeps_iff hlength).mpr hok

section Runs

variable [RandomSource σ] {source : σ} {clock : Nat → Nat}

/-- The scenes found so far stand at nodes. -/
theorem Reachable.mem_scenes (h : Reachable s source m) (hlength : 1 ≤ s.rule.length)
    {scene : List Nat} (hscene : scene ∈ m.scenes.toList) :
    scene ∈ s.leaves m.tree m.tree.size := by
  have inv := h.invariant
  by_cases hpending : s.Pending m
  · obtain ⟨hlast, hfound⟩ := inv.pending hpending
    rw [← hlast, leaves_succ]
    exact List.mem_append_left _ (hfound ▸ hscene)
  · exact inv.found hlength hpending ▸ hscene

/-- Whatever ends a search, its scenes stand at nodes of its tree. -/
theorem exists_follows_of_mem_run (hlength : 1 ≤ s.rule.length) {scene : List Nat}
    (hscene : scene ∈ (s.run clock source).scenes) :
    ∃ t id, s.Grown t ∧ id < t.size ∧ s.follows t id = true ∧ t.path id = scene := by
  obtain ⟨m, hm, heq⟩ : ∃ m, Reachable s source m ∧
      (s.run clock source).scenes = m.scenes.toList := by
    rcases steps_cases s clock source s.stepBound with h | ⟨m, t, _, h, _, _, heq⟩
    · exact ⟨_, h, rfl⟩
    · refine ⟨m, h, ?_⟩
      rw [run, heq]
      rfl
  rw [heq] at hscene
  obtain ⟨id, hid, hfollows, hpath⟩ := mem_leaves.mp (hm.mem_scenes hlength hscene)
  exact ⟨m.tree, id, hm.invariant.tree, hid, hfollows, hpath⟩

/-- Whatever ends a search, its scenes are complete and follow the rule. -/
theorem run_scenes_complete (hlength : 1 ≤ s.rule.length) {scene : List Nat}
    (hscene : scene ∈ (s.run clock source).scenes) :
    s.Complete scene ∧ s.rule.reject? (s.histogramOf scene) = none := by
  obtain ⟨t, id, hgrown, hid, hfollows, rfl⟩ := exists_follows_of_mem_run hlength hscene
  exact (hgrown.follows_iff hid).mp hfollows

/-- A search that has tried everything has left every node that may be continued. -/
theorem Reachable.no_room (h : Reachable s source m) (hdone : m.phase = .done .treeExhausted)
    {id : Nat} (hid : id < m.tree.size) (hlevel : (m.tree.node id).level < s.rule.length)
    (hkeeps : s.Keeps (m.tree.path id)) : m.tree.hasRoom id s.width = false := by
  have inv := h.invariant
  have hcurrent := inv.finished hdone
  by_cases h0 : id = 0
  · have hleft := inv.left (.inr hdone)
    rw [hcurrent, ← h0] at hleft
    exact hleft hlevel
  · refine inv.closed id hid hlevel hkeeps fun hbegins => h0 ?_
    rw [inv.scene_eq, hcurrent, inv.tree.wellFormed.path_root, List.prefix_nil] at hbegins
    refine inv.tree.wellFormed.eq_root_of_level hid ?_
    rw [← inv.tree.wellFormed.length_path hid, hbegins, List.length_nil]

/-- Every sequence of different sounds is the path of a node, as far as its beginnings are kept. -/
theorem Reachable.exists_node (h : Reachable s source m) (hdone : m.phase = .done .treeExhausted)
    (hwidth : s.catalog.size ≤ s.width) {scene : List Nat} (hcomplete : s.Complete scene) {k : Nat}
    (hk : k ≤ scene.length) (hkeeps : ∀ i < k, s.Keeps (scene.take i)) :
    ∃ id < m.tree.size, m.tree.path id = scene.take k := by
  have hgrown := h.invariant.tree
  -- the node of the first sounds has a child for the next one
  induction k with
  | zero => exact ⟨0, hgrown.wellFormed.size_pos, hgrown.wellFormed.path_root⟩
  | succ k ih =>
    have hk : k < scene.length := hk
    obtain ⟨id, hid, hpath⟩ := ih hk.le fun i hi => hkeeps i (Nat.lt_succ_of_lt hi)
    have hlevel : (m.tree.node id).level < s.rule.length := by
      rw [← hgrown.wellFormed.length_path hid, hpath, List.length_take_of_le hk.le,
        ← hcomplete.length_eq]
      exact hk
    have hroom := h.no_room hdone hid hlevel (hpath ▸ hkeeps k (Nat.lt_succ_self k))
    have hfree : scene[k] ∉ m.tree.path id := by
      have hnodup := hcomplete.nodup.sublist (List.take_sublist (k + 1) scene)
      rw [List.take_succ_eq_append_getElem hk, List.nodup_append] at hnodup
      rw [hpath]
      exact fun hmem => hnodup.2.2 _ hmem _ List.mem_cons_self rfl
    obtain ⟨child, hchild, hchildPath⟩ := hgrown.exists_child hid hwidth hroom
      (hcomplete.lt_size _ (List.getElem_mem hk)) hfree
    refine ⟨child, hchild, ?_⟩
    rw [hchildPath, hpath, List.take_succ_eq_append_getElem hk]

/-- The scenes of a search that has tried everything. -/
theorem Reachable.mem_scenes_iff (h : Reachable s source m)
    (hdone : m.phase = .done .treeExhausted) (hlength : 1 ≤ s.rule.length)
    (hwidth : s.catalog.size ≤ s.width) {scene : List Nat} :
    scene ∈ m.scenes.toList ↔ s.Complete scene ∧ s.AllKept scene := by
  have hgrown := h.invariant.tree
  rw [h.invariant.found hlength (not_pending_of_done hdone), mem_leaves]
  constructor
  · rintro ⟨id, hid, hfollows, rfl⟩
    exact ⟨((hgrown.follows_iff hid).mp hfollows).1,
      hgrown.allKept_of_follows hlength hid hfollows⟩
  · rintro ⟨hcomplete, hkept⟩
    have hkeeps := hcomplete.allKept_iff.mp hkept
    obtain ⟨id, hid, hpath⟩ := h.exists_node hdone hwidth hcomplete (Nat.le_refl _)
      fun i hi => hkeeps i hi.le
    have hfull := hkeeps scene.length (Nat.le_refl _)
    rw [List.take_length] at hpath hfull
    refine ⟨id, hid, (hgrown.follows_iff hid).mpr ?_, hpath⟩
    rw [hpath]
    exact ⟨hcomplete, (hcomplete.keeps_iff hlength).mp hfull⟩

/-- The scenes of a run of full width without limits. -/
theorem mem_run_scenes_iff (hlength : 1 ≤ s.rule.length) (hwidth : s.catalog.size ≤ s.width)
    {scene : List Nat} :
    scene ∈ (s.unlimited.run clock source).scenes ↔ s.Complete scene ∧ s.AllKept scene := by
  obtain ⟨m, hm, hdone, hrun⟩ := run_unlimited_state s clock source
  rw [hrun, ← complete_unlimited]
  exact hm.mem_scenes_iff hdone hlength hwidth

/-- No scene is found twice. -/
theorem nodup_run_scenes (hlength : 1 ≤ s.rule.length) :
    (s.unlimited.run clock source).scenes.Nodup := by
  obtain ⟨m, hm, hdone, hrun⟩ := run_unlimited_state s clock source
  rw [hrun, State.outcome, hm.invariant.found hlength (not_pending_of_done hdone)]
  exact hm.invariant.tree.nodup_leaves

/-- **A search of full width enumerates.** It finds exactly the complete scenes all of whose
beginnings are kept, each of them once and whatever the random choices. If a family needs at most
one sound for the quota, these are the complete scenes that follow the rule. -/
theorem run_full_width (s : Search) (hlength : 1 ≤ s.rule.length)
    (hwidth : s.catalog.size ≤ s.width) (clock : Nat → Nat) (source : σ) :
    let o := s.unlimited.run clock source
    s.unlimited.EndsWith clock source o ∧ o.termination = .treeExhausted ∧ o.scenes.Nodup ∧
      (∀ scene, scene ∈ o.scenes ↔ s.Complete scene ∧ s.AllKept scene) ∧
      (s.rule.constraints.quota ≤ 1 → ∀ scene, scene ∈ o.scenes ↔
        s.Complete scene ∧ s.rule.rejectScene? s.catalog scene = .ok none) ∧
      ∀ {τ : Type} [RandomSource τ] (clock' : Nat → Nat) (source' : τ),
        (s.unlimited.run clock' source').scenes.Perm o.scenes := by
  intro o
  have hmem (scene : List Nat) : scene ∈ o.scenes ↔ s.Complete scene ∧ s.AllKept scene :=
    mem_run_scenes_iff hlength hwidth
  refine ⟨endsWith_run _ clock source, ?_, nodup_run_scenes hlength, hmem, ?_, ?_⟩
  · obtain ⟨m, -, hdone, hrun⟩ := run_unlimited_state s clock source
    show (s.unlimited.run clock source).termination = _
    rw [hrun, State.outcome, hdone]
  · intro hquota scene
    rw [hmem]
    exact and_congr_right fun h => h.allKept_iff_reject hlength hquota
  · intro τ _ clock' source'
    refine (List.perm_ext_iff_of_nodup (nodup_run_scenes hlength)
      (nodup_run_scenes hlength)).mpr fun scene => ?_
    rw [hmem]
    exact mem_run_scenes_iff hlength hwidth

end Runs

/-! ## An example -/

/-- Scenes in which both sounds are played. -/
def duetSearch : Search where
  catalog := .duet
  rule := ⟨⟨2, 1, 2⟩, 2⟩
  width := 5
  cap := none
  stepBudget := none
  timeBudget := none

/-- Both sounds are played in either order, but no sound is played twice. -/
theorem mem_run_duetSearch :
    [1, 0] ∈ (duetSearch.unlimited.run (fun _ => 0) (Pcg.ofSeed 7)).scenes ∧
      [1, 1] ∉ (duetSearch.unlimited.run (fun _ => 0) (Pcg.ofSeed 7)).scenes := by
  have hfull := run_full_width duetSearch (by decide) (by decide) (fun _ => 0) (Pcg.ofSeed 7)
  have hmem := hfull.2.2.2.2.1 (by decide)
  refine ⟨(hmem [1, 0]).mpr ⟨⟨rfl, by decide, by decide⟩, rfl⟩, fun h => ?_⟩
  exact absurd ((hmem [1, 1]).mp h).1.nodup (by decide)

end SoundScenes.Search
