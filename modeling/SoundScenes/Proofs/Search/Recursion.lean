import SoundScenes.Proofs.Search.Ends

/-!
# Searching by recursion

The search shares one scene, one histogram and one current node between all levels of its tree and
comes back to a node after each of its children. A plain recursion does the same without any of
this: it explores the children of a node one after another, and has for each of them a scene of its
own.

* `Explores` — the recursion, rule by rule;
* `Explores.leaves` — a search that comes to a node leaves it with what the recursion makes of it;
* `explores_explore` — the function `explore` follows the rules, and its attempts suffice;
* `run_explores` — a whole search is the recursion from the root.
-/

namespace SoundScenes

/-! ## What is left alone -/

namespace Tree

/-- A tree has changed at a node and below it, and nowhere else. -/
structure Within (t : Tree) (node : Nat) (t' : Tree) : Prop where
  size_le : t.size ≤ t'.size
  others : ∀ id < t.size, id ≠ node → t'.node id = t.node id
  origin : (t'.node node).origin = (t.node node).origin

namespace Within

variable {t t' t'' : Tree} {node sound : Nat}

theorem refl (t : Tree) (node : Nat) : t.Within node t :=
  ⟨Nat.le_refl _, fun _ _ _ => rfl, rfl⟩

theorem trans (h : t.Within node t') (h' : t'.Within node t'') : t.Within node t'' where
  size_le := h.size_le.trans h'.size_le
  others id hid hne := by
    rw [h'.others id (hid.trans_le h.size_le) hne, h.others id hid hne]
  origin := h'.origin.trans h.origin

theorem add (h : node < t.size) : t.Within node (t.add node sound) where
  size_le := by
    rw [size_add]
    exact Nat.le_succ _
  others id hid hne := node_add_of_ne h hid hne
  origin := by rw [origin_add h, if_neg (Nat.ne_of_lt h)]

theorem exhaust (h : node < t.size) : t.Within node (t.exhaust node) where
  size_le := (size_exhaust t node).ge
  others id _ hne := by rw [node_exhaust t h, if_neg hne]
  origin := by rw [node_exhaust_eq h]

/-- What happens below a new child happens below its parent. -/
theorem of_child (h : node < t.size) (hchild : (t.add node sound).Within t.size t') :
    t.Within node t' := by
  have hadd : t.Within node (t.add node sound) := .add h
  constructor
  case size_le => exact hadd.size_le.trans hchild.size_le
  case others =>
    intro id hid hne
    rw [hchild.others id (hid.trans_le hadd.size_le) (Nat.ne_of_lt hid), hadd.others id hid hne]
  case origin =>
    rw [hchild.others node (h.trans_le hadd.size_le) (Nat.ne_of_lt h), hadd.origin]

end Within

end Tree

/-! ## The recursion -/

/-- What a search has found when it has ended. The recursion does not count steps. -/
def Outcome.exploration {σ : Type} (o : Outcome σ) : Exploration σ :=
  ⟨o.tree, { o.stats with steps := 0 }, o.scenes, o.source⟩

namespace Search

variable {σ : Type}

/-- What exploring a node at the end of a beginning makes of what has been found so far. -/
inductive Explores [RandomSource σ] (s : Search) :
    Nat → List Nat → Exploration σ → Exploration σ → Prop
  /-- A complete scene is kept if it follows the rule. -/
  | leaf {node : Nat} {scene : List Nat} {x : Exploration σ}
      (hlength : scene.length = s.rule.length) : Explores s node scene x (s.keep scene x)
  /-- The node has as many children as the width allows. -/
  | full {node : Nat} {scene : List Nat} {x : Exploration σ}
      (hlength : scene.length ≠ s.rule.length)
      (hfull : s.width ≤ (x.tree.node node).children.length) : Explores s node scene x x
  /-- No sound is left for another child. -/
  | exhausted {node : Nat} {scene : List Nat} {x : Exploration σ} {e : CatalogError}
      (hlength : scene.length ≠ s.rule.length)
      (hroom : (x.tree.node node).children.length < s.width)
      (hdraw : s.catalog.drawCandidate (scene ++ x.tree.childSounds node) x.stats.draws x.source =
        .error e) :
      Explores s node scene x { x with
        tree := x.tree.exhaust node
        stats := x.stats.recordPrune scene.length .exhaustedCandidates }
  /-- A new child is explored, and after it the other children. -/
  | child {node : Nat} {scene : List Nat} {x y z : Exploration σ} {sound : Nat} {draws : Draws}
      {source : σ} (hlength : scene.length ≠ s.rule.length)
      (hroom : (x.tree.node node).children.length < s.width)
      (hdraw : s.catalog.drawCandidate (scene ++ x.tree.childSounds node) x.stats.draws x.source =
        .ok (sound, draws, source))
      (hkeep : s.rule.prune? (s.histogramOf (scene ++ [sound])) scene.length = none)
      (hdeeper : Explores s x.tree.size (scene ++ [sound]) (spawn node sound draws source x) y)
      (hrest : Explores s node scene y z) : Explores s node scene x z
  /-- A new child is given up, and the other children follow. -/
  | pruned {node : Nat} {scene : List Nat} {x z : Exploration σ} {sound : Nat} {draws : Draws}
      {source : σ} {reason : PruneReason} (hlength : scene.length ≠ s.rule.length)
      (hroom : (x.tree.node node).children.length < s.width)
      (hdraw : s.catalog.drawCandidate (scene ++ x.tree.childSounds node) x.stats.draws x.source =
        .ok (sound, draws, source))
      (hprune : s.rule.prune? (s.histogramOf (scene ++ [sound])) scene.length = some reason)
      (hrest : Explores s node scene { spawn node sound draws source x with
        stats := (spawn node sound draws source x).stats.recordPrune scene.length reason } z) :
      Explores s node scene x z

/-- Before anything has been found. -/
def unexplored (s : Search) (source : σ) : Exploration σ :=
  ⟨.start, .start s.catalog.size s.catalog.familyCount, [], source⟩

/-- What a search under way has found. -/
def State.exploration (m : State σ) : Exploration σ :=
  ⟨m.tree, { m.stats with steps := 0 }, m.scenes.toList, m.source⟩

theorem keep_tree (s : Search) (scene : List Nat) (x : Exploration σ) :
    (s.keep scene x).tree = x.tree := by
  unfold keep
  split <;> rfl

section Steps

variable [RandomSource σ] {s : Search} {m : State σ} {source : σ} {node : Nat} {scene : List Nat}
  {x y : Exploration σ}

/-- Exploring a node changes no other node that has been there before. -/
theorem Explores.within (h : Explores s node scene x y) (hnode : node < x.tree.size) :
    x.tree.Within node y.tree := by
  induction h with
  | leaf =>
    rw [keep_tree]
    exact .refl _ _
  | full => exact .refl _ _
  | exhausted => exact .exhaust hnode
  | @child node scene x y z sound draws source hlength hroom hdraw hkeep hdeeper hrest ihd ihr =>
    have hchild : (x.tree.add node sound).Within x.tree.size y.tree := by
      refine ihd ?_
      show x.tree.size < (x.tree.add node sound).size
      rw [Tree.size_add]
      exact Nat.lt_succ_self _
    have hdeeper := hchild.of_child hnode
    exact hdeeper.trans (ihr (hnode.trans_le hdeeper.size_le))
  | @pruned node scene x z sound draws source reason hlength hroom hdraw hprune hrest ih =>
    have hadd : x.tree.Within node (x.tree.add node sound) := .add hnode
    exact hadd.trans (ih (hnode.trans_le hadd.size_le))

/-! ## Steps of the search -/

theorem act_descend (hphase : m.phase = .descend) : s.act m.tick = s.descend m.tick := by
  have hphase : m.tick.phase = .descend := hphase
  rw [act, hphase]

theorem act_leaf (hphase : m.phase = .descend)
    (hlevel : s.rule.length ≤ (m.tree.node m.current).level) :
    s.act m.tick = { m.tick with phase := .emit } := by
  rw [act_descend hphase, descend]
  exact if_pos hlevel

theorem act_full (hphase : m.phase = .descend)
    (hlevel : (m.tree.node m.current).level < s.rule.length)
    (hroom : m.tree.hasRoom m.current s.width = false) :
    s.act m.tick = { m.tick with phase := .backtrack } := by
  have hroom : m.tick.tree.hasRoom m.tick.current s.width = false := hroom
  rw [act_descend hphase, descend, hroom]
  exact if_neg (Nat.not_le_of_lt hlevel)

section Draws

variable (hphase : m.phase = .descend) (hlevel : (m.tree.node m.current).level < s.rule.length)
  (hroom : m.tree.hasRoom m.current s.width = true)
include hphase hlevel hroom

theorem act_draw :
    s.act m.tick =
      match s.catalog.drawCandidate (m.scene ++ m.tree.childSounds m.current) m.stats.draws
        m.source with
      | .ok (sound, draws, source) => s.grow sound draws source m.tick
      | .error _ => exhaust m.tick := by
  rw [act_descend hphase, descend]
  exact (if_neg (Nat.not_le_of_lt hlevel)).trans (if_pos hroom)

theorem act_exhaust {e : CatalogError}
    (hdraw : s.catalog.drawCandidate (m.scene ++ m.tree.childSounds m.current) m.stats.draws
      m.source = .error e) : s.act m.tick = exhaust m.tick := by
  rw [act_draw hphase hlevel hroom, hdraw]

variable {sound : Nat} {draws : Draws}
  (hdraw : s.catalog.drawCandidate (m.scene ++ m.tree.childSounds m.current) m.stats.draws
    m.source = .ok (sound, draws, source))
include hdraw

theorem act_keep
    (hkeep : s.rule.prune? (m.histogram.push (s.catalog.family sound)) m.scene.length = none) :
    s.act m.tick = { m with
      tree := m.tree.add m.current sound
      current := m.tree.size
      scene := m.scene ++ [sound]
      histogram := m.histogram.push (s.catalog.family sound)
      stats := { m.stats.tick with nodesCreated := m.stats.nodesCreated + 1, draws := draws }
      source := source } := by
  rw [act_draw hphase hlevel hroom, hdraw]
  simp only [grow, State.tick, hkeep, Stats.tick]

theorem act_prune {reason : PruneReason}
    (hprune : s.rule.prune? (m.histogram.push (s.catalog.family sound)) m.scene.length =
      some reason) :
    s.act m.tick = { m with
      tree := m.tree.add m.current sound
      stats := { m.stats.tick with
        nodesCreated := m.stats.nodesCreated + 1, draws := draws }.recordPrune m.scene.length reason
      source := source } := by
  rw [act_draw hphase hlevel hroom, hdraw]
  simp only [grow, State.tick, hprune, Stats.tick]

end Draws

theorem act_emit (hphase : m.phase = .emit) : s.act m.tick = s.emit m.tick := by
  have hphase : m.tick.phase = .emit := hphase
  rw [act, hphase]

theorem act_accept (hphase : m.phase = .emit) (hok : s.rule.reject? m.histogram = none) :
    s.act m.tick = { m with
      scenes := m.scenes.push m.scene
      stats := { m.stats.tick with scenesEmitted := m.stats.scenesEmitted + 1 }
      phase := s.phaseAfter (m.scenes.push m.scene).size } := by
  rw [act_emit hphase]
  simp only [emit, State.tick, hok, Stats.tick]
  rfl

theorem act_refuse {reason : RejectReason} (hphase : m.phase = .emit)
    (hreason : s.rule.reject? m.histogram = some reason) :
    s.act m.tick = { m with
      stats := { m.stats.tick with finalRejections := m.stats.finalRejections + 1 }
      phase := .backtrack } := by
  rw [act_emit hphase]
  simp only [emit, State.tick, hreason, Stats.tick]

theorem act_backtrack (hphase : m.phase = .backtrack) : s.act m.tick = s.backtrack m.tick := by
  have hphase : m.tick.phase = .backtrack := hphase
  rw [act, hphase]

theorem act_climb {parent sound : Nat} (hphase : m.phase = .backtrack)
    (hparent : (m.tree.node m.current).parent = some parent) (hscene : m.scene = scene ++ [sound]) :
    s.act m.tick = { m.tick with
      current := parent
      scene := scene
      histogram := m.histogram.pop (s.catalog.family sound)
      phase := .descend } := by
  rw [act_backtrack hphase]
  simp only [backtrack, State.tick, hparent, hscene, List.dropLast_concat, List.getLast?_concat]

theorem act_finish (hphase : m.phase = .backtrack)
    (hparent : (m.tree.node m.current).parent = none) :
    s.act m.tick = { m.tick with phase := .done .treeExhausted } := by
  rw [act_backtrack hphase]
  simp only [backtrack, State.tick, hparent]

/-! ## States of the search -/

/-- A state that the search comes to, at a node and with what has been found so far. -/
structure At (s : Search) (source : σ) (phase : Phase) (node : Nat) (scene : List Nat)
    (x : Exploration σ) (m : State σ) : Prop where
  reachable : Reachable s source m
  phase_eq : m.phase = phase
  current_eq : m.current = node
  scene_eq : m.scene = scene
  exploration_eq : m.exploration = x

namespace At

variable {phase : Phase}

theorem node_lt (h : At s source phase node scene x m) : node < x.tree.size := by
  obtain ⟨hreach, -, rfl, -, rfl⟩ := h
  exact hreach.invariant.current_lt

theorem level_eq (h : At s source phase node scene x m) :
    (x.tree.node node).level = scene.length := by
  obtain ⟨hreach, -, rfl, rfl, rfl⟩ := h
  exact hreach.invariant.level_eq

theorem level_lt (h : At s source phase node scene x m) (hlength : scene.length ≠ s.rule.length) :
    (x.tree.node node).level < s.rule.length := by
  have hlevel := h.level_eq
  obtain ⟨hreach, -, -, -, rfl⟩ := h
  have hle : (m.exploration.tree.node node).level ≤ s.rule.length :=
    hreach.invariant.tree.level node
  omega

theorem children_le (h : At s source phase node scene x m) :
    (x.tree.node node).children.length ≤ s.catalog.size := by
  have hnode := h.node_lt
  obtain ⟨hreach, -, -, -, rfl⟩ := h
  have hle := hreach.invariant.tree.children_length_le hnode
  exact hle.trans ((Nat.min_le_right _ _).trans (Nat.sub_le _ _))

theorem next (h : At s source phase node scene x m) (hopen : ∀ t, phase ≠ .done t) :
    Reachable s source (s.act m.tick) := by
  obtain ⟨hreach, rfl, -, -, -⟩ := h
  exact hreach.act (isDone_eq_false_iff.mpr hopen)

theorem arrive (h : At s source .descend node scene x m) (hlength : scene.length = s.rule.length) :
    At s source .emit node scene x (s.act m.tick) := by
  have hnext := h.next (by simp)
  have hlevel := h.level_eq.trans hlength
  obtain ⟨-, hphase, rfl, rfl, rfl⟩ := h
  rw [act_leaf hphase hlevel.ge] at hnext ⊢
  exact ⟨hnext, rfl, rfl, rfl, rfl⟩

/-- Without a cap a scene that is kept does not end the search. -/
theorem emit (h : At s source .emit node scene x m) (hcap : s.cap = none) :
    At s source .backtrack node scene (s.keep scene x) (s.act m.tick) := by
  have hnext := h.next (by simp)
  obtain ⟨hreach, hphase, rfl, rfl, rfl⟩ := h
  have hhistogram := hreach.invariant.histogram_eq
  cases hreject : s.rule.reject? (s.histogramOf m.scene) with
  | none =>
    have hafter (n : Nat) : s.phaseAfter n = .backtrack := by
      rw [phaseAfter, capReached?, hcap]
      rfl
    rw [act_accept hphase (hhistogram ▸ hreject), hafter] at hnext ⊢
    refine ⟨hnext, rfl, rfl, rfl, ?_⟩
    rw [keep, hreject]
    simp only [State.exploration, Array.toList_push, Stats.tick]
  | some reason =>
    rw [act_refuse hphase (hhistogram ▸ hreject)] at hnext ⊢
    refine ⟨hnext, rfl, rfl, rfl, ?_⟩
    rw [keep, hreject]
    rfl

theorem leave (h : At s source .descend node scene x m) (hlength : scene.length ≠ s.rule.length)
    (hroom : x.tree.hasRoom node s.width = false) :
    At s source .backtrack node scene x (s.act m.tick) := by
  have hnext := h.next (by simp)
  have hlevel := h.level_lt hlength
  obtain ⟨-, hphase, rfl, rfl, rfl⟩ := h
  rw [act_full hphase hlevel hroom] at hnext ⊢
  exact ⟨hnext, rfl, rfl, rfl, rfl⟩

/-- The search returns from a child to the node where it came from. -/
theorem climb {child sound : Nat} (h : At s source .backtrack child (scene ++ [sound]) x m)
    (horigin : (x.tree.node child).origin = some ⟨node, sound⟩) :
    At s source .descend node scene x (s.act m.tick) := by
  have hnext := h.next (by simp)
  obtain ⟨-, hphase, rfl, hscene, rfl⟩ := h
  have hparent : (m.tree.node m.current).parent = some node := congrArg (Option.map _) horigin
  rw [act_climb hphase hparent hscene] at hnext ⊢
  exact ⟨hnext, rfl, rfl, rfl, rfl⟩

section Draws

variable (h : At s source .descend node scene x m) (hlength : scene.length ≠ s.rule.length)
  (hroom : x.tree.hasRoom node s.width = true)
include h hlength hroom

theorem exhaust {e : CatalogError}
    (hdraw : s.catalog.drawCandidate (scene ++ x.tree.childSounds node) x.stats.draws x.source =
      .error e) :
    At s source .descend node scene { x with
      tree := x.tree.exhaust node
      stats := x.stats.recordPrune scene.length .exhaustedCandidates } (s.act m.tick) := by
  have hnext := h.next (by simp)
  have hlevel := h.level_lt hlength
  obtain ⟨-, hphase, rfl, rfl, rfl⟩ := h
  rw [act_exhaust hphase hlevel hroom hdraw] at hnext ⊢
  exact ⟨hnext, hphase, rfl, rfl, rfl⟩

variable {sound : Nat} {draws : Draws} {source' : σ}
  (hdraw : s.catalog.drawCandidate (scene ++ x.tree.childSounds node) x.stats.draws x.source =
    .ok (sound, draws, source'))
include hdraw

/-- The search goes to a new child. -/
theorem enter (hkeep : s.rule.prune? (s.histogramOf (scene ++ [sound])) scene.length = none) :
    At s source .descend x.tree.size (scene ++ [sound]) (spawn node sound draws source' x)
      (s.act m.tick) := by
  have hnext := h.next (by simp)
  have hlevel := h.level_lt hlength
  obtain ⟨hreach, hphase, rfl, rfl, rfl⟩ := h
  rw [← Move.histogram_push hreach.invariant] at hkeep
  rw [act_keep hphase hlevel hroom hdraw hkeep] at hnext ⊢
  exact ⟨hnext, hphase, rfl, rfl, rfl⟩

theorem prune {reason : PruneReason}
    (hprune : s.rule.prune? (s.histogramOf (scene ++ [sound])) scene.length = some reason) :
    At s source .descend node scene { spawn node sound draws source' x with
      stats := (spawn node sound draws source' x).stats.recordPrune scene.length reason }
      (s.act m.tick) := by
  have hnext := h.next (by simp)
  have hlevel := h.level_lt hlength
  obtain ⟨hreach, hphase, rfl, rfl, rfl⟩ := h
  rw [← Move.histogram_push hreach.invariant] at hprune
  rw [act_prune hphase hlevel hroom hdraw hprune] at hnext ⊢
  exact ⟨hnext, hphase, rfl, rfl, rfl⟩

end Draws

end At

/-! ## The search and the recursion -/

/-- The search explores a new child and comes back, if it leaves the child at all. -/
theorem At.return {sound : Nat} {draws : Draws} {source' : σ}
    (h : At s source .descend node scene x m) (hlength : scene.length ≠ s.rule.length)
    (hfree : (x.tree.node node).exhausted = false)
    (hroom : (x.tree.node node).children.length < s.width)
    (hdraw : s.catalog.drawCandidate (scene ++ x.tree.childSounds node) x.stats.draws x.source =
      .ok (sound, draws, source'))
    (hkeep : s.rule.prune? (s.histogramOf (scene ++ [sound])) scene.length = none)
    (hdeeper : Explores s x.tree.size (scene ++ [sound]) (spawn node sound draws source' x) y)
    (hleaves : ∀ m', At s source .descend x.tree.size (scene ++ [sound])
      (spawn node sound draws source' x) m' →
      ((spawn node sound draws source' x).tree.node x.tree.size).exhausted = false →
      ∃ m'', At s source .backtrack x.tree.size (scene ++ [sound]) y m'') :
    (∃ m', At s source .descend node scene y m') ∧
      (y.tree.node node).exhausted = false ∧
      (y.tree.node node).children.length = (x.tree.node node).children.length + 1 := by
  have hnode := h.node_lt
  have hsize : x.tree.size < (x.tree.add node sound).size := by
    rw [Tree.size_add]
    exact Nat.lt_succ_self _
  have hnew : (x.tree.add node sound).node x.tree.size = _ := Tree.node_add_size hnode
  have hwithin := hdeeper.within hsize
  have hchild := h.enter hlength (hasRoom_iff.mpr ⟨hfree, hroom⟩) hdraw hkeep
  obtain ⟨m', hm'⟩ := hleaves _ hchild (congrArg Node.exhausted hnew)
  have hback := hm'.climb (hwithin.origin.trans (congrArg Node.origin hnew))
  have hsame : y.tree.node node = (x.tree.add node sound).node node :=
    hwithin.others node (hnode.trans hsize) (Nat.ne_of_lt hnode)
  refine ⟨⟨_, hback⟩, ?_, ?_⟩
  · rw [hsame, Tree.exhausted_add hnode, hfree]
  · rw [hsame, Tree.length_children_add hnode]

/-- **A search that comes to a node leaves it with what the recursion makes of it.** -/
theorem Explores.leaves (h : Explores s node scene x y) (hcap : s.cap = none)
    (hm : At s source .descend node scene x m) (hfree : (x.tree.node node).exhausted = false) :
    ∃ m', At s source .backtrack node scene y m' := by
  -- the recursion on the way down is the induction, the other children are its second hypothesis
  induction h generalizing m with
  | leaf hlength => exact ⟨_, (hm.arrive hlength).emit hcap⟩
  | @full node scene x hlength hfull =>
    refine ⟨_, hm.leave hlength ?_⟩
    rw [← Bool.not_eq_true, hasRoom_iff]
    exact fun hroom => absurd hroom.2 (Nat.not_lt_of_le hfull)
  | @exhausted node scene x e hlength hroom hdraw =>
    have hmarked := hm.exhaust hlength (hasRoom_iff.mpr ⟨hfree, hroom⟩) hdraw
    exact ⟨_, hmarked.leave hlength (hasRoom_exhaust hm.node_lt _)⟩
  | @child node scene x y z sound draws _ hlength hroom hdraw hkeep hdeeper hrest ihd ihr =>
    obtain ⟨⟨m', hm'⟩, hfree', -⟩ :=
      hm.return hlength hfree hroom hdraw hkeep hdeeper fun _ => ihd
    exact ihr hm' hfree'
  | @pruned node scene x z sound draws _ reason hlength hroom hdraw hprune hrest ih =>
    refine ih (hm.prune hlength (hasRoom_iff.mpr ⟨hfree, hroom⟩) hdraw hprune) ?_
    show ((x.tree.add node sound).node node).exhausted = false
    rw [Tree.exhausted_add hm.node_lt, hfree]

/-! ## The function of the recursion -/

/-- So many attempts suffice, because every child holds another sound. -/
theorem explores_exploreChildren {deeper : Nat → List Nat → Exploration σ → Exploration σ}
    (hcap : s.cap = none) (hlength : scene.length ≠ s.rule.length)
    (hdeeper : ∀ child sound x m, At s source .descend child (scene ++ [sound]) x m →
      (x.tree.node child).exhausted = false →
      Explores s child (scene ++ [sound]) x (deeper child (scene ++ [sound]) x))
    {attempts : Nat} (hm : At s source .descend node scene x m)
    (hfree : (x.tree.node node).exhausted = false)
    (hattempts : s.catalog.size < (x.tree.node node).children.length + attempts) :
    Explores s node scene x (s.exploreChildren deeper node scene attempts x) := by
  induction attempts generalizing x m with
  | zero =>
    have hle := hm.children_le
    omega
  | succ attempts ih =>
    rw [exploreChildren]
    split
    · next hroom =>
      split
      · next sound draws source' hdraw =>
        have hhasRoom := hasRoom_iff.mpr ⟨hfree, hroom⟩
        have hnode := hm.node_lt
        simp only
        split
        · next hkeep =>
          have hchild := hm.enter hlength hhasRoom hdraw hkeep
          have hexplores := hdeeper _ _ _ _ hchild
            (congrArg Node.exhausted (Tree.node_add_size hnode))
          obtain ⟨⟨m', hm'⟩, hfree', hchildren⟩ := hm.return hlength hfree hroom hdraw hkeep
            hexplores fun _ hm' hfree' => hexplores.leaves hcap hm' hfree'
          exact .child hlength hroom hdraw hkeep hexplores (ih hm' hfree' (by omega))
        · next reason hprune =>
          refine .pruned hlength hroom hdraw hprune ?_
          refine ih (hm.prune hlength hhasRoom hdraw hprune) ?_ ?_
          · show ((x.tree.add node sound).node node).exhausted = false
            rw [Tree.exhausted_add hnode, hfree]
          · show _ < ((x.tree.add node sound).node node).children.length + attempts
            rw [Tree.length_children_add hnode]
            omega
      · next e hdraw => exact .exhausted hlength hroom hdraw
    · next hfull => exact .full hlength (Nat.le_of_not_lt hfull)

theorem explores_explore (hcap : s.cap = none) {lacking : Nat}
    (hlacking : scene.length + lacking = s.rule.length)
    (hm : At s source .descend node scene x m) (hfree : (x.tree.node node).exhausted = false) :
    Explores s node scene x (s.explore lacking node scene x) := by
  induction lacking generalizing node scene x m with
  | zero => exact .leaf hlacking
  | succ lacking ih =>
    refine explores_exploreChildren hcap (by omega) ?_ hm hfree (by omega)
    intro child sound x m hm hfree
    exact ih (by rw [List.length_append, List.length_singleton]; omega) hm hfree

/-! ## Whole searches -/

theorem at_start (s : Search) (source : σ) :
    At s.unlimited source .descend 0 [] (s.unexplored source) (s.unlimited.start source) :=
  ⟨.start, rfl, rfl, rfl, rfl⟩

theorem overrun?_eq_none {s : Search} (hsteps : s.stepBudget = none) (htime : s.timeBudget = none)
    (steps elapsed : Nat) : s.overrun? steps elapsed = none := by
  rw [overrun?, hsteps, htime]
  rfl

/-- Without budgets a run ends in the only state that ends the search. -/
theorem Reachable.run_eq {s : Search} {m : State σ} (h : Reachable s source m)
    (hsteps : s.stepBudget = none) (htime : s.timeBudget = none) (hdone : m.isDone = true)
    (clock : Nat → Nat) : s.run clock source = m.outcome := by
  refine endsWith_iff.mp ?_
  have hcomes : ∃ n, s.steps clock n (s.start source) = m := by
    clear hdone
    induction h with
    | start => exact ⟨0, rfl⟩
    | @act m h hopen ih =>
      obtain ⟨n, rfl⟩ := ih
      have hover := overrun?_eq_none hsteps htime
      exact ⟨n + 1, (steps_succ n _).trans (step_of_open hopen (hover _ _))⟩
  obtain ⟨n, rfl⟩ := hcomes
  exact ⟨n, hdone, rfl⟩

theorem Explores.eq_run {s : Search} {x : Exploration σ} {source : σ}
    (h : Explores s.unlimited 0 [] (s.unexplored source) x) (clock : Nat → Nat) :
    x = (s.unlimited.run clock source).exploration := by
  obtain ⟨m, hm⟩ := h.leaves rfl (at_start s source) rfl
  have hnext := hm.next (by simp)
  obtain ⟨hreach, hphase, hcurrent, -, rfl⟩ := hm
  have hparent : (m.tree.node m.current).parent = none := by
    rw [hcurrent, Node.parent, hreach.invariant.tree.wellFormed.root_origin]
    rfl
  rw [act_finish hphase hparent] at hnext
  rw [hnext.run_eq rfl rfl rfl]
  rfl

/-- **A search is a recursion.** A search without limits finds what the recursion finds, in the same
order and with the same tree, counts and random numbers. -/
theorem run_explores (s : Search) (clock : Nat → Nat) (source : σ) :
    let o := s.unlimited.run clock source
    s.unlimited.EndsWith clock source o ∧ o.termination = .treeExhausted ∧
      (∀ x, s.unlimited.Explores 0 [] (s.unexplored source) x ↔ x = o.exploration) ∧
      s.unlimited.exploreAll source = o.exploration := by
  intro o
  have hall : s.unlimited.Explores 0 [] (s.unexplored source) (s.unlimited.exploreAll source) :=
    explores_explore rfl (Nat.zero_add _) (at_start s source) rfl
  have heq : s.unlimited.exploreAll source = o.exploration := hall.eq_run clock
  refine ⟨endsWith_run _ clock source, ?_, ?_, heq⟩
  · obtain ⟨m, -, hdone, hrun⟩ := run_unlimited_state s clock source
    show (s.unlimited.run clock source).termination = _
    rw [hrun, State.outcome, hdone]
  · intro x
    constructor
    · intro h
      exact h.eq_run clock
    · rintro rfl
      rw [← heq]
      exact hall

end Steps

end Search

end SoundScenes
