import SoundScenes.Proofs.Scene.Rule
import SoundScenes.Proofs.Search.Grown
import SoundScenes.Proofs.Search.Move

/-!
# The invariant of a search

In every state that a search comes to, the scene is the path of the current node and the histogram
is that of the scene. Off this path nothing is left to do: a node that is kept may have no other
child there, and the complete scenes that follow the rule are exactly the scenes found so far, in the
order of their nodes.

* `Move.invariant` — every move keeps the invariant;
* `Reachable.invariant` — so it holds in every state that a search comes to.
-/

namespace SoundScenes.Search

variable {σ : Type} {s : Search} {m m' : State σ}

/-- Whether a node is at the end of a complete scene that follows the rule. -/
def follows (s : Search) (t : Tree) (id : Nat) : Bool :=
  (t.node id).level = s.rule.length ∧ s.rule.reject? (s.histogramOf (t.path id)) = none

/-- The complete scenes that follow the rule, of the first so many nodes. -/
def leaves (s : Search) (t : Tree) (n : Nat) : List (List Nat) :=
  ((List.range n).filter (s.follows t)).map t.path

theorem leaves_succ (s : Search) (t : Tree) (n : Nat) :
    s.leaves t (n + 1) = s.leaves t n ++ if s.follows t n then [t.path n] else [] := by
  rw [leaves, List.range_succ, List.filter_append, List.map_append, leaves]
  split
  · next h => rw [List.filter_cons_of_pos h, List.filter_nil, List.map_cons, List.map_nil]
  · next h => rw [List.filter_cons_of_neg h, List.filter_nil, List.map_nil]

theorem leaves_congr {t t' : Tree} {n : Nat}
    (h : ∀ id, id < n → (t'.node id).level = (t.node id).level ∧ t'.path id = t.path id) :
    s.leaves t' n = s.leaves t n := by
  have hfollows : ∀ id ∈ List.range n, s.follows t' id = s.follows t id := fun id hid => by
    obtain ⟨hlevel, hpath⟩ := h id (List.mem_range.mp hid)
    rw [follows, follows, hlevel, hpath]
  rw [leaves, leaves, List.filter_congr hfollows]
  refine List.map_congr_left fun id hid => ?_
  exact (h id (List.mem_range.mp (List.mem_filter.mp hid).1)).2

theorem leaves_add {t : Tree} {parent sound : Nat} (h : parent < t.size) :
    s.leaves (t.add parent sound) t.size = s.leaves t t.size :=
  leaves_congr fun id hid => by
    rw [Tree.level_add h, if_neg (Nat.ne_of_lt hid), Tree.path_add_of_lt h hid]
    exact ⟨rfl, rfl⟩

/-- The search is at the end of a complete scene that it has not looked at. -/
def Pending (s : Search) (m : State σ) : Prop :=
  (m.phase = .descend ∨ m.phase = .emit) ∧ s.rule.length ≤ (m.tree.node m.current).level

/-- What a search keeps true of its state. -/
structure Invariant (s : Search) (m : State σ) : Prop where
  tree : s.Grown m.tree
  current_lt : m.current < m.tree.size
  scene_eq : m.scene = m.tree.path m.current
  histogram_eq : m.histogram = s.histogramOf m.scene
  keeps : s.Keeps m.scene
  nodes : m.stats.nodesCreated + 1 = m.tree.size
  emit_level : m.phase = .emit → s.rule.length ≤ (m.tree.node m.current).level
  /-- A node is left only when it may have no other child. -/
  left : m.phase = .backtrack ∨ m.phase = .done .treeExhausted →
    (m.tree.node m.current).level < s.rule.length → m.tree.hasRoom m.current s.width = false
  finished : m.phase = .done .treeExhausted → m.current = 0
  closed : ∀ id, id < m.tree.size → (m.tree.node id).level < s.rule.length →
    s.Keeps (m.tree.path id) → ¬ m.tree.path id <+: m.scene → m.tree.hasRoom id s.width = false
  pending : s.Pending m →
    m.current + 1 = m.tree.size ∧ m.scenes.toList = s.leaves m.tree m.current
  /-- Of scenes without sounds there is one at the root, which a cap of zero leaves out. -/
  found : 0 < s.rule.length → ¬ s.Pending m → m.scenes.toList = s.leaves m.tree m.tree.size

theorem not_pending_of_lt (h : (m.tree.node m.current).level < s.rule.length) : ¬ s.Pending m :=
  fun hp => absurd hp.2 (Nat.not_le_of_lt h)

theorem not_pending_of_phase (hdescend : m.phase ≠ .descend) (hemit : m.phase ≠ .emit) :
    ¬ s.Pending m :=
  fun hp => hp.1.elim hdescend hemit

theorem not_pending_of_done {t : Termination} (h : m.phase = .done t) : ¬ s.Pending m :=
  not_pending_of_phase (by rw [h]; simp) (by rw [h]; simp)

theorem not_pending_of_backtrack (h : m.phase = .backtrack) : ¬ s.Pending m :=
  not_pending_of_phase (by rw [h]; simp) (by rw [h]; simp)

/-- On the way down nothing is asked of the node that is left. -/
theorem Invariant.of_descend (hphase : m.phase = .descend) (tree : s.Grown m.tree)
    (current_lt : m.current < m.tree.size) (scene_eq : m.scene = m.tree.path m.current)
    (histogram_eq : m.histogram = s.histogramOf m.scene) (keeps : s.Keeps m.scene)
    (nodes : m.stats.nodesCreated + 1 = m.tree.size)
    (closed : ∀ id, id < m.tree.size → (m.tree.node id).level < s.rule.length →
      s.Keeps (m.tree.path id) → ¬ m.tree.path id <+: m.scene → m.tree.hasRoom id s.width = false)
    (pending : s.Pending m →
      m.current + 1 = m.tree.size ∧ m.scenes.toList = s.leaves m.tree m.current)
    (found : 0 < s.rule.length → ¬ s.Pending m →
      m.scenes.toList = s.leaves m.tree m.tree.size) : Invariant s m where
  tree := tree
  current_lt := current_lt
  scene_eq := scene_eq
  histogram_eq := histogram_eq
  keeps := keeps
  nodes := nodes
  emit_level h := by
    rw [hphase] at h
    cases h
  left h := by
    rw [hphase] at h
    rcases h with h | h <;> cases h
  finished h := by
    rw [hphase] at h
    cases h
  closed := closed
  pending := pending
  found := found

theorem Invariant.level_eq (inv : Invariant s m) :
    (m.tree.node m.current).level = m.scene.length := by
  rw [inv.scene_eq, inv.tree.wellFormed.length_path inv.current_lt]

theorem invariant_start (s : Search) (source : σ) : Invariant s (s.start source) where
  tree := grown_start s
  current_lt := Nat.one_pos
  scene_eq := Tree.wellFormed_start.path_root.symm
  histogram_eq := rfl
  keeps := .inl rfl
  nodes := rfl
  emit_level h := by
    rcases phase_start s source with hp | ⟨k, -, hp⟩ <;> (rw [hp] at h; cases h)
  left h := by
    rcases phase_start s source with hp | ⟨k, -, hp⟩ <;>
      (rw [hp] at h; rcases h with h | h <;> cases h)
  finished h := rfl
  closed id hid _ _ hbegins := by
    have hid : id = 0 := Nat.lt_one_iff.mp hid
    subst hid
    refine absurd ?_ hbegins
    exact Tree.wellFormed_start.path_root ▸ List.nil_prefix
  pending _ := ⟨rfl, rfl⟩
  found hlength _ := by
    have hroot : s.follows .start 0 = false := by
      rw [follows, decide_eq_false_iff_not]
      exact fun h => absurd h.1 (Nat.ne_of_lt hlength)
    show [] = s.leaves .start (0 + 1)
    rw [leaves_succ, hroot]
    rfl

namespace Move

/-! ## What each move keeps -/

variable (inv : Invariant s m)
include inv

theorem invariant_arrive (hphase : m.phase = .descend)
    (hlevel : s.rule.length ≤ (m.tree.node m.current).level) :
    Invariant s { m.tick with phase := .emit } :=
  have hpending : s.Pending m := ⟨.inl hphase, hlevel⟩
  { inv with
    emit_level := fun _ => hlevel
    left := fun h => by rcases h with h | h <;> cases h
    finished := fun h => by cases h
    pending := fun _ => inv.pending hpending
    found := fun _ h => absurd ⟨.inr rfl, hlevel⟩ h }

/-- The histogram of a new child's beginning. -/
theorem histogram_push (sound : Nat) :
    m.histogram.push (s.catalog.family sound) = s.histogramOf (m.scene ++ [sound]) := by
  rw [histogramOf_concat, inv.histogram_eq]

theorem grown_add {sound : Nat} (hlevel : (m.tree.node m.current).level < s.rule.length)
    (hroom : m.tree.hasRoom m.current s.width = true)
    (hsound : sound ∈ s.catalog.eligible (m.scene ++ m.tree.childSounds m.current)) :
    s.Grown (m.tree.add m.current sound) := by
  have hscene := inv.scene_eq
  refine inv.tree.add inv.current_lt hlevel ?_ hroom ?_
  · exact hscene ▸ inv.keeps
  · exact hscene ▸ hsound

/-- A new child leaves the nodes off the path closed. -/
theorem closed_add {sound id : Nat} {scene : List Nat} (hid : id < m.tree.size)
    (hlevel : ((m.tree.add m.current sound).node id).level < s.rule.length)
    (hkeeps : s.Keeps ((m.tree.add m.current sound).path id))
    (hscene : m.scene <+: scene)
    (hpath : ¬ (m.tree.add m.current sound).path id <+: scene) :
    (m.tree.add m.current sound).hasRoom id s.width = false := by
  have hcurrent := inv.current_lt
  rw [Tree.path_add_of_lt hcurrent hid] at hkeeps hpath
  rw [Tree.level_add hcurrent, if_neg (Nat.ne_of_lt hid)] at hlevel
  have hclosed := inv.closed id hid hlevel hkeeps fun h => hpath (h.trans hscene)
  have hne : id ≠ m.current := by
    rintro rfl
    exact hpath (inv.scene_eq ▸ hscene)
  rw [Tree.hasRoom, Tree.exhausted_add hcurrent, Tree.children_add hcurrent, if_neg hne]
  exact hclosed

theorem invariant_keep {sound : Nat} {source : σ} (hphase : m.phase = .descend)
    (hlevel : (m.tree.node m.current).level < s.rule.length)
    (hroom : m.tree.hasRoom m.current s.width = true)
    (hsound : sound ∈ s.catalog.eligible (m.scene ++ m.tree.childSounds m.current))
    (hkeep : s.rule.prune? (m.histogram.push (s.catalog.family sound)) m.scene.length = none) :
    Invariant s { m with
      tree := m.tree.add m.current sound
      current := m.tree.size
      scene := m.scene ++ [sound]
      histogram := m.histogram.push (s.catalog.family sound)
      stats := m.stats.tick.grow sound (s.catalog.family sound)
      source := source } := by
  have hcurrent := inv.current_lt
  have hnot : ¬ s.Pending m := not_pending_of_lt hlevel
  have hhistogram := histogram_push inv sound
  have hpath : (m.tree.add m.current sound).path m.tree.size = m.scene ++ [sound] := by
    rw [Tree.path_add_size hcurrent, inv.scene_eq]
  apply Invariant.of_descend
  case hphase => exact hphase
  case tree => exact grown_add inv hlevel hroom hsound
  case current_lt =>
    rw [Tree.size_add]
    exact Nat.lt_succ_self _
  case scene_eq => exact hpath.symm
  case histogram_eq => exact hhistogram
  case keeps =>
    refine .inr ?_
    rw [← hhistogram, List.length_append, List.length_singleton, Nat.add_sub_cancel]
    exact hkeep
  case nodes =>
    rw [Tree.size_add, ← inv.nodes]
    rfl
  case closed =>
    intro id hid hlevel' hkeeps hbegins
    rw [Tree.size_add] at hid
    rcases Nat.lt_succ_iff_lt_or_eq.mp hid with hid | rfl
    · exact closed_add inv hid hlevel' hkeeps (List.prefix_append _ _) hbegins
    · exact absurd (hpath ▸ List.prefix_refl _) hbegins
  case pending =>
    intro _
    refine ⟨(Tree.size_add _ _ _).symm, ?_⟩
    rw [leaves_add hcurrent]
    exact inv.found (by omega) hnot
  case found =>
    intro hlength hpending
    have hnew : s.follows (m.tree.add m.current sound) m.tree.size = false := by
      rw [follows, decide_eq_false_iff_not]
      exact fun h => hpending ⟨.inl hphase, Nat.le_of_eq h.1.symm⟩
    rw [Tree.size_add, leaves_succ, leaves_add hcurrent, hnew]
    simpa using inv.found hlength hnot

theorem invariant_prune {sound : Nat} {source : σ} {reason : PruneReason}
    (hphase : m.phase = .descend) (hlevel : (m.tree.node m.current).level < s.rule.length)
    (hroom : m.tree.hasRoom m.current s.width = true)
    (hsound : sound ∈ s.catalog.eligible (m.scene ++ m.tree.childSounds m.current))
    (hprune : s.rule.prune? (m.histogram.push (s.catalog.family sound)) m.scene.length =
      some reason) :
    Invariant s { m with
      tree := m.tree.add m.current sound
      stats := (m.stats.tick.grow sound (s.catalog.family sound)).recordPrune m.scene.length reason
      source := source } := by
  have hcurrent := inv.current_lt
  have hne : m.current ≠ m.tree.size := Nat.ne_of_lt hcurrent
  have hnot : ¬ s.Pending m := not_pending_of_lt hlevel
  have hpath : (m.tree.add m.current sound).path m.tree.size = m.scene ++ [sound] := by
    rw [Tree.path_add_size hcurrent, inv.scene_eq]
  rw [histogram_push inv] at hprune
  apply Invariant.of_descend
  case hphase => exact hphase
  case tree => exact grown_add inv hlevel hroom hsound
  case current_lt =>
    rw [Tree.size_add]
    exact Nat.lt_succ_of_lt hcurrent
  case scene_eq =>
    rw [Tree.path_add_of_lt hcurrent hcurrent]
    exact inv.scene_eq
  case histogram_eq => exact inv.histogram_eq
  case keeps => exact inv.keeps
  case nodes =>
    rw [Tree.size_add, ← inv.nodes]
    rfl
  case closed =>
    intro id hid hlevel' hkeeps hbegins
    rw [Tree.size_add] at hid
    rcases Nat.lt_succ_iff_lt_or_eq.mp hid with hid | rfl
    · exact closed_add inv hid hlevel' hkeeps (List.prefix_refl _) hbegins
    · rw [hpath] at hkeeps
      -- the new node has been given up, so that nothing is asked of it
      rcases hkeeps with hnil | hkeeps
      · simp at hnil
      · rw [List.length_append, List.length_singleton, Nat.add_sub_cancel, hprune] at hkeeps
        cases hkeeps
  case pending =>
    intro hpending
    have hle := hpending.2
    rw [Tree.level_add hcurrent, if_neg hne] at hle
    exact absurd hle (Nat.not_le_of_lt hlevel)
  case found =>
    intro hlength _
    have hnew : s.follows (m.tree.add m.current sound) m.tree.size = false := by
      rw [follows, decide_eq_false_iff_not, Tree.level_add hcurrent, if_pos rfl, hpath]
      -- at the last place a beginning is given up exactly if the scene is refused
      rintro ⟨hfull, hok⟩
      rw [inv.level_eq] at hfull
      rw [(SceneRule.prune?_last (Nat.le_of_eq hfull.symm)).mpr hok] at hprune
      cases hprune
    rw [Tree.size_add, leaves_succ, leaves_add hcurrent, hnew]
    simpa using inv.found hlength hnot

theorem invariant_exhaust (hphase : m.phase = .descend)
    (hlevel : (m.tree.node m.current).level < s.rule.length)
    (hnone : s.catalog.eligible (m.scene ++ m.tree.childSounds m.current) = []) :
    Invariant s { m with
      tree := m.tree.exhaust m.current
      stats := m.stats.tick.recordPrune m.scene.length .exhaustedCandidates } := by
  have hcurrent := inv.current_lt
  have hscene := inv.scene_eq
  have hnot : ¬ s.Pending m := not_pending_of_lt hlevel
  apply Invariant.of_descend
  case hphase => exact hphase
  case tree => exact inv.tree.exhaust hcurrent hlevel (hscene ▸ inv.keeps) (hscene ▸ hnone)
  case current_lt =>
    rw [Tree.size_exhaust]
    exact hcurrent
  case scene_eq =>
    rw [Tree.path_exhaust hcurrent]
    exact hscene
  case histogram_eq => exact inv.histogram_eq
  case keeps => exact inv.keeps
  case nodes =>
    rw [Tree.size_exhaust]
    exact inv.nodes
  case closed =>
    intro id hid hlevel' hkeeps hbegins
    rw [Tree.size_exhaust] at hid
    rw [Tree.path_exhaust hcurrent] at hkeeps hbegins
    rw [Tree.node_exhaust_eq hcurrent] at hlevel'
    have hclosed := inv.closed id hid hlevel' hkeeps hbegins
    have hne : id ≠ m.current := by
      rintro rfl
      exact hbegins (hscene ▸ List.prefix_refl _)
    rw [Tree.hasRoom, Tree.node_exhaust_eq hcurrent, decide_eq_false hne, Bool.or_false]
    exact hclosed
  case pending =>
    intro hpending
    have hle := hpending.2
    rw [Tree.node_exhaust_eq hcurrent] at hle
    exact absurd hle (Nat.not_le_of_lt hlevel)
  case found =>
    intro hlength _
    rw [Tree.size_exhaust, inv.found hlength hnot]
    refine (leaves_congr fun id _ => ?_).symm
    rw [Tree.node_exhaust_eq hcurrent, Tree.path_exhaust hcurrent]
    exact ⟨rfl, rfl⟩

theorem invariant_leave (hlevel : (m.tree.node m.current).level < s.rule.length)
    (hroom : m.tree.hasRoom m.current s.width = false) :
    Invariant s { m.tick with phase := .backtrack } :=
  have hnot : ¬ s.Pending m := not_pending_of_lt hlevel
  { inv with
    emit_level := fun h => by cases h
    left := fun _ _ => hroom
    finished := fun h => by cases h
    pending := fun h => by rcases h.1 with h | h <;> cases h
    found := fun hlength _ => inv.found hlength hnot }

/-- The node of a complete scene follows the rule exactly when its scene does. -/
theorem follows_current (hphase : m.phase = .emit) :
    s.follows m.tree m.current = true ↔ s.rule.reject? m.histogram = none := by
  have hlevel : (m.tree.node m.current).level = s.rule.length :=
    Nat.le_antisymm (inv.tree.level _) (inv.emit_level hphase)
  rw [follows, decide_eq_true_iff, inv.histogram_eq, inv.scene_eq]
  exact and_iff_right hlevel

theorem invariant_emit (hphase : m.phase = .emit) (hok : s.rule.reject? m.histogram = none) :
    Invariant s { m with
      scenes := m.scenes.push m.scene
      stats := { m.stats.tick with scenesEmitted := m.stats.scenesEmitted + 1 }
      phase := s.phaseAfter (m.scenes.push m.scene).size } := by
  have hlevel := inv.emit_level hphase
  obtain ⟨hlast, hfound⟩ := inv.pending ⟨.inr hphase, hlevel⟩
  have hafter := phaseAfter_cases s (m.scenes.push m.scene).size
  refine { inv with emit_level := ?_, left := ?_, finished := ?_, pending := ?_, found := ?_ }
  · exact fun _ => hlevel
  · exact fun _ hlt => absurd hlevel (Nat.not_le_of_lt hlt)
  · intro h
    rcases hafter with ha | ⟨k, -, ha⟩ <;> (rw [ha] at h; cases h)
  · intro h
    refine absurd h ?_
    rcases hafter with ha | ⟨k, -, ha⟩
    · exact not_pending_of_backtrack ha
    · exact not_pending_of_done ha
  · intro _ _
    rw [Array.toList_push, hfound, ← hlast, leaves_succ, (follows_current inv hphase).mpr hok,
      inv.scene_eq]
    rfl

theorem invariant_refuse {reason : RejectReason} (hphase : m.phase = .emit)
    (hreason : s.rule.reject? m.histogram = some reason) :
    Invariant s { m with
      stats := { m.stats.tick with finalRejections := m.stats.finalRejections + 1 }
      phase := .backtrack } := by
  have hlevel := inv.emit_level hphase
  obtain ⟨hlast, hfound⟩ := inv.pending ⟨.inr hphase, hlevel⟩
  have hnot : s.follows m.tree m.current = false := by
    rw [← Bool.not_eq_true, follows_current inv hphase, hreason]
    simp
  refine { inv with emit_level := ?_, left := ?_, finished := ?_, pending := ?_, found := ?_ }
  · exact fun _ => hlevel
  · exact fun _ hlt => absurd hlevel (Nat.not_le_of_lt hlt)
  · exact fun h => by cases h
  · exact fun h => by rcases h.1 with h | h <;> cases h
  · intro _ _
    rw [← hlast, leaves_succ, hnot, hfound]
    simp

theorem invariant_climb {parent : Nat} (hphase : m.phase = .backtrack)
    (hparent : (m.tree.node m.current).parent = some parent) :
    Invariant s { m.tick with
      current := parent
      scene := m.scene.dropLast
      histogram := match m.scene.getLast? with
        | some sound => m.histogram.pop (s.catalog.family sound)
        | none => m.histogram
      phase := .descend } := by
  have hwf := inv.tree.wellFormed
  rw [Node.parent, Option.map_eq_some_iff] at hparent
  obtain ⟨o, ho, rfl⟩ := hparent
  obtain ⟨hcurrent, hlt, hlevel⟩ := hwf.origin_some ho
  have hscene : m.scene = m.tree.path o.parent ++ [o.sound] := inv.scene_eq.trans (hwf.path_eq ho)
  have hdrop : m.scene.dropLast = m.tree.path o.parent := by rw [hscene, List.dropLast_concat]
  have hlast : m.scene.getLast? = some o.sound := by rw [hscene, List.getLast?_concat]
  have hinner : (m.tree.node o.parent).level < s.rule.length := by
    have := inv.tree.level m.current
    omega
  have hnot : ¬ s.Pending m := not_pending_of_backtrack hphase
  apply Invariant.of_descend
  case hphase => rfl
  case tree => exact inv.tree
  case current_lt => exact Nat.lt_trans hlt hcurrent
  case scene_eq => exact hdrop
  case histogram_eq =>
    rw [hlast, hdrop, inv.histogram_eq, hscene, histogramOf_concat]
    exact Histogram.pop_push _ _ _ _
  case keeps =>
    have hkeeps := inv.tree.keeps_take hcurrent (k := (m.tree.path o.parent).length)
    rw [hwf.path_eq ho, List.take_left] at hkeeps
    rw [hdrop]
    exact hkeeps (by simp)
  case nodes => exact inv.nodes
  case closed =>
    intro id hid hlevel' hkeeps hbegins
    -- the node that the search leaves is the only one that has been on the path and is no more
    by_cases hpre : m.tree.path id <+: m.scene
    · have heq : m.tree.path id = m.tree.path m.current := by
        rw [hdrop] at hbegins
        rw [hscene, List.prefix_concat_iff] at hpre
        exact (hpre.resolve_right hbegins).trans (hwf.path_eq ho).symm
      have hid : id = m.current := hwf.path_injective inv.tree.siblings hid hcurrent heq
      subst hid
      exact inv.left (.inl hphase) hlevel'
    · exact inv.closed id hid hlevel' hkeeps hpre
  case pending => exact fun h => absurd h.2 (Nat.not_le_of_lt hinner)
  case found => exact fun hlength _ => inv.found hlength hnot

theorem invariant_finish (hphase : m.phase = .backtrack)
    (hparent : (m.tree.node m.current).parent = none) :
    Invariant s { m.tick with phase := .done .treeExhausted } := by
  have hnot : ¬ s.Pending m := not_pending_of_backtrack hphase
  refine { inv with emit_level := ?_, left := ?_, finished := ?_, pending := ?_, found := ?_ }
  · exact fun h => by cases h
  · exact fun _ => inv.left (.inl hphase)
  · intro _
    rcases Nat.eq_zero_or_pos m.current with h0 | h0
    · exact h0
    · obtain ⟨o, ho, -, -⟩ := inv.tree.wellFormed.origin _ h0 inv.current_lt
      rw [Node.parent, ho] at hparent
      cases hparent
  · exact fun h => by rcases h.1 with h | h <;> cases h
  · exact fun hlength _ => inv.found hlength hnot

end Move

/-! ## Every state -/

/-- Every move keeps the invariant. -/
theorem Move.invariant (h : Move s m m') (inv : Invariant s m) : Invariant s m' := by
  cases h with
  | arrive hphase hlevel => exact invariant_arrive inv hphase hlevel
  | keep sound source hphase hlevel hroom hsound hkeep =>
    exact invariant_keep inv hphase hlevel hroom hsound hkeep
  | prune sound source reason hphase hlevel hroom hsound hprune =>
    exact invariant_prune inv hphase hlevel hroom hsound hprune
  | exhaust hphase hlevel _ hnone => exact invariant_exhaust inv hphase hlevel hnone
  | leave _ hlevel hroom => exact invariant_leave inv hlevel hroom
  | emit hphase hok => exact invariant_emit inv hphase hok
  | refuse reason hphase hreason => exact invariant_refuse inv hphase hreason
  | climb parent hphase hparent => exact invariant_climb inv hphase hparent
  | finish hphase hparent => exact invariant_finish inv hphase hparent

/-- **The invariant holds in every state that a search comes to.** -/
theorem Reachable.invariant [RandomSource σ] {source : σ} (h : Reachable s source m) :
    Invariant s m := by
  induction h with
  | start => exact invariant_start s source
  | act _ hopen ih => exact (act_move hopen).invariant ih

end SoundScenes.Search
