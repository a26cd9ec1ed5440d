import SoundScenes.Proofs.Tally
import SoundScenes.Proofs.Search.Shape

/-!
# What a search counts

Nothing that a search does depends on its counts. At every moment they are what a recount of the
tree gives: every node but the root stands for one draw, every mark and every node that is given up
for one beginning given up. When all has been tried, the steps follow from the other counts. As both
checks of the rule agree at the last place, no complete scene is refused.

* `Move.recounts`, `Reachable.recounts` — the counts of draws and of beginnings given up;
* `Move.balanced`, `Reachable.balanced` — what is known of the steps;
* `run_counts` — the counts of a run, whatever ends it;
* `steps_refuse_nothing` — no complete scene is refused.
-/

namespace SoundScenes

/-! ## Recounts of a tree -/

namespace Tree

/-- The number of nodes with a property. -/
def countNodes (t : Tree) (p : Nat → Bool) : Nat := (List.range t.size).countP p

/-- The number of nodes that hold a sound. -/
def holders (t : Tree) (sound : Nat) : Nat :=
  t.countNodes fun id => (t.node id).sound = some sound

/-- The number of nodes that are marked as exhausted. -/
def marks (t : Tree) : Nat := t.countNodes fun id => (t.node id).exhausted

variable {t t' : Tree} {p p' : Nat → Bool} {parent sound : Nat}

theorem countNodes_congr (hsize : t'.size = t.size) (h : ∀ id < t.size, p' id = p id) :
    t'.countNodes p' = t.countNodes p := by
  rw [countNodes, countNodes, hsize]
  refine List.countP_congr fun id hid => ?_
  rw [h id (List.mem_range.mp hid)]

/-- A new node is counted if it has the property. -/
theorem countNodes_add (h : ∀ id < t.size, p' id = p id) :
    (t.add parent sound).countNodes p' =
      t.countNodes p + if p' t.size = true then 1 else 0 := by
  have hold : (List.range t.size).countP p' = (List.range t.size).countP p := by
    refine List.countP_congr fun id hid => ?_
    rw [h id (List.mem_range.mp hid)]
  rw [countNodes, size_add, List.range_succ, List.countP_append, hold, List.countP_singleton]
  rfl

theorem holders_add (h : parent < t.size) (x : Nat) :
    (t.add parent sound).holders x = t.holders x + if x = sound then 1 else 0 := by
  have hold : ∀ id < t.size, decide (((t.add parent sound).node id).sound = some x) =
      decide ((t.node id).sound = some x) := fun id hid => by
    rw [Node.sound, origin_add h, if_neg (Nat.ne_of_lt hid), Node.sound]
  have hnew : ((t.add parent sound).node t.size).sound = some sound := by
    rw [Node.sound, origin_add h, if_pos rfl]
    rfl
  rw [holders, countNodes_add hold, hnew, holders]
  simp only [Option.some.injEq, decide_eq_true_eq, eq_comm (a := sound)]

theorem holders_exhaust (h : parent < t.size) (x : Nat) :
    (t.exhaust parent).holders x = t.holders x :=
  countNodes_congr (size_exhaust t parent) fun id _ => by
    rw [node_exhaust_eq h, Node.sound, Node.sound]

theorem marks_add (h : parent < t.size) : (t.add parent sound).marks = t.marks := by
  have hnew : ((t.add parent sound).node t.size).exhausted = false := by
    rw [exhausted_add h, node_of_size_le (Nat.le_refl _)]
    rfl
  rw [marks, marks, countNodes_add fun id _ => exhausted_add h id, hnew]
  rfl

/-- A node without a mark gets one. -/
theorem marks_exhaust (h : parent < t.size) (hfree : (t.node parent).exhausted = false) :
    (t.exhaust parent).marks = t.marks + 1 := by
  have hperm := List.perm_cons_erase (List.mem_range.mpr h)
  have hrest : ((List.range t.size).erase parent).countP
      (fun id => ((t.exhaust parent).node id).exhausted) =
      ((List.range t.size).erase parent).countP fun id => (t.node id).exhausted := by
    refine List.countP_congr fun id hid => ?_
    have hne : id ≠ parent := (List.nodup_range.mem_erase_iff.mp hid).1
    rw [node_exhaust_eq h, decide_eq_false hne, Bool.or_false]
  have hmarked : ((t.exhaust parent).node parent).exhausted = true := by
    rw [node_exhaust_eq h, decide_eq_true rfl, Bool.or_true]
  rw [marks, marks, countNodes, countNodes, size_exhaust, hperm.countP_eq, hperm.countP_eq,
    List.countP_cons, List.countP_cons, hrest, if_pos hmarked, if_neg (by simp [hfree])]

end Tree

namespace Search

variable {σ : Type} {s : Search} {t : Tree} {m m' : State σ} {parent sound : Nat}

/-! ## Draws -/

/-- A draw of a sound that is there adds one to the number of draws. -/
theorem total_record (d : Draws) (h : sound < d.bySound.length) (family : Nat) :
    (d.record sound family).total = d.total + 1 := by
  rw [Draws.total, Draws.total, Draws.record]
  generalize d.bySound = counts at h
  induction counts generalizing sound with
  | nil => exact absurd h (Nat.not_lt_zero sound)
  | cons n counts ih =>
    cases sound with
    | zero =>
      show n + 1 + _ = n + _ + 1
      omega
    | succ sound =>
      rw [List.modify_succ_cons, List.foldr_cons, List.foldr_cons, ih (Nat.lt_of_succ_lt_succ h)]
      omega

/-- The nodes of a tree that hold a sound of a family. -/
def familyHolders (s : Search) (t : Tree) (family : Nat) : Nat :=
  ∑ sound ∈ Finset.range s.catalog.size with s.catalog.family sound = family, t.holders sound

theorem familyHolders_add (hp : parent < t.size) (hsound : sound < s.catalog.size)
    (family : Nat) : s.familyHolders (t.add parent sound) family =
      s.familyHolders t family + if s.catalog.family sound = family then 1 else 0 := by
  have hmem : sound ∈ (Finset.range s.catalog.size).filter (s.catalog.family · = family) ↔
      s.catalog.family sound = family := by
    simp [hsound]
  simp only [familyHolders, Tree.holders_add hp, Finset.sum_add_distrib, Finset.sum_ite_eq', hmem]

/-- Every node but the root stands for one draw. -/
structure DrawsRecount (s : Search) (d : Draws) (nodes : Nat) (t : Tree) : Prop where
  bySound : d.bySound = (List.range s.catalog.size).map t.holders
  byFamily : d.byFamily = (List.range s.catalog.familyCount).map (s.familyHolders t)
  total : d.total = nodes

theorem drawsRecount_start (s : Search) :
    s.DrawsRecount (.none s.catalog.size s.catalog.familyCount) 0 .start where
  bySound := by
    have hnone : Tree.start.holders = fun _ => 0 := rfl
    rw [hnone, List.map_const', List.length_range]
    rfl
  byFamily := by
    have hnone : s.familyHolders .start = fun _ => 0 := funext fun _ => Finset.sum_const_zero
    rw [hnone, List.map_const', List.length_range]
    rfl
  total := by
    show (List.replicate s.catalog.size 0).foldr (· + ·) 0 = 0
    induction s.catalog.size with
    | zero => rfl
    | succ n ih => rw [List.replicate_succ, List.foldr_cons, ih]

/-- A draw becomes a node. -/
theorem DrawsRecount.add {d : Draws} {nodes : Nat} (h : s.DrawsRecount d nodes t)
    (hp : parent < t.size) (hsound : sound < s.catalog.size) :
    s.DrawsRecount (d.record sound (s.catalog.family sound)) (nodes + 1)
      (t.add parent sound) where
  bySound := by
    rw [Draws.record, h.bySound]
    refine List.ext_getElem (by simp) fun x hx _ => ?_
    simp only [List.getElem_modify, List.getElem_map, List.getElem_range, Tree.holders_add hp,
      eq_comm (a := sound)]
    split <;> rfl
  byFamily := by
    rw [Draws.record, h.byFamily]
    refine List.ext_getElem (by simp) fun f hf _ => ?_
    simp only [List.getElem_modify, List.getElem_map, List.getElem_range,
      familyHolders_add hp hsound]
    split <;> rfl
  total := by
    have hlength : d.bySound.length = s.catalog.size := by simp [h.bySound]
    rw [total_record d (hlength ▸ hsound), h.total]

theorem DrawsRecount.exhaust {d : Draws} {nodes : Nat} (h : s.DrawsRecount d nodes t)
    (hp : parent < t.size) : s.DrawsRecount d nodes (t.exhaust parent) where
  bySound := h.bySound.trans (List.map_congr_left fun x _ => (Tree.holders_exhaust hp x).symm)
  byFamily := h.byFamily.trans (List.map_congr_left fun _ _ =>
    Finset.sum_congr rfl fun x _ => (Tree.holders_exhaust hp x).symm)
  total := h.total

/-! ## Beginnings that are given up -/

/-- Whether a node other than the root has a path that, looked at by itself, is given up. -/
def givenUp (s : Search) (t : Tree) (id : Nat) : Bool :=
  match s.rule.pruneScene? s.catalog (t.path id) (t.node id).depth.toNat with
  | .ok (some _) => 0 < id
  | _ => false

/-- The number of nodes whose path is given up. -/
def failures (s : Search) (t : Tree) : Nat := t.countNodes (s.givenUp t)

theorem failures_start (s : Search) : s.failures .start = 0 := by
  have hroot : s.givenUp .start 0 = false := by
    unfold givenUp
    split <;> rfl
  show List.countP (s.givenUp .start) [0] = 0
  rw [List.countP_singleton, hroot]
  rfl

theorem failures_add (h : s.Grown (t.add parent sound)) (hp : parent < t.size)
    (hlevel : (t.node parent).level = (t.path parent).length) :
    s.failures (t.add parent sound) = s.failures t +
      if (s.rule.prune? (s.histogramOf (t.path parent ++ [sound]))
        (t.path parent).length).isSome then 1 else 0 := by
  have hold : ∀ id < t.size, s.givenUp (t.add parent sound) id = s.givenUp t id := by
    intro id hid
    rw [givenUp, givenUp, Tree.path_add_of_lt hp hid, Node.depth, Tree.level_add hp,
      if_neg (Nat.ne_of_lt hid), Node.depth]
  have hnew : s.givenUp (t.add parent sound) t.size =
      (s.rule.prune? (s.histogramOf (t.path parent ++ [sound]))
        (t.path parent).length).isSome := by
    have hlt := h.path_lt t.size (by rw [Tree.size_add]; omega)
    have hdepth : ((t.add parent sound).node t.size).depth.toNat = (t.path parent).length := by
      rw [Node.depth, Tree.level_add hp, if_pos rfl, hlevel]
      omega
    rw [givenUp, pruneScene?_eq hlt, hdepth, Tree.path_add_size hp]
    cases s.rule.prune? (s.histogramOf (t.path parent ++ [sound])) (t.path parent).length with
    | none => rfl
    | some reason => exact decide_eq_true (Nat.zero_lt_of_lt hp)
  rw [failures, failures, Tree.countNodes_add hold, hnew]

theorem failures_exhaust (hp : parent < t.size) : s.failures (t.exhaust parent) = s.failures t :=
  Tree.countNodes_congr (Tree.size_exhaust t parent) fun id _ => by
    rw [givenUp, givenUp, Tree.path_exhaust hp, Tree.node_exhaust_eq hp, Node.depth, Node.depth]

/-- A beginning is not given up for want of sounds. -/
theorem prune?_ne_exhausted {rule : SceneRule} {h : Histogram} {depth : Nat}
    {reason : PruneReason} (hprune : rule.prune? h depth = some reason) :
    reason ≠ .exhaustedCandidates := by
  rintro rfl
  unfold SceneRule.prune? at hprune
  grind

end Search

/-- The number of beginnings given up because they cannot be completed. -/
def Stats.failures (s : Stats) : Nat :=
  s.prunesFor .missingFamilies + s.prunesFor .quotaFamiliesUnreachable +
    s.prunesFor .quotaObjectsUnreachable

namespace Stats

variable {depth : Nat} {reason : PruneReason}

/-- A beginning given up is counted for its reason only. -/
theorem prunesFor_recordPrune (s : Stats) (depth : Nat) (reason other : PruneReason) :
    (s.recordPrune depth reason).prunesFor other =
      s.prunesFor other + if reason = other then 1 else 0 :=
  Tally.count_bump _ _ _

theorem failures_recordPrune (s : Stats) (h : reason ≠ .exhaustedCandidates) :
    (s.recordPrune depth reason).failures = s.failures + 1 := by
  simp only [failures, prunesFor_recordPrune]
  cases reason with
  | missingFamilies | quotaFamiliesUnreachable | quotaObjectsUnreachable =>
    simp only [reduceCtorEq, if_true, if_false]
    omega
  | exhaustedCandidates => exact absurd rfl h

theorem failures_exhausted (s : Stats) :
    (s.recordPrune depth .exhaustedCandidates).failures = s.failures := by
  simp [failures, prunesFor_recordPrune]

end Stats

namespace Search

variable {σ : Type} {s : Search} {t : Tree} {m m' : State σ} {parent sound depth : Nat} {c : Stats}

/-- Every mark and every node that is given up stands for one beginning given up. -/
structure PrunesRecount (s : Search) (c : Stats) (t : Tree) : Prop where
  totals : c.prunesByDepth.total = c.prunesByReason.total
  marks : c.prunesFor .exhaustedCandidates = t.marks
  failures : c.failures = s.failures t

namespace PrunesRecount

theorem totals_recordPrune (h : s.PrunesRecount c t) (depth : Nat) (reason : PruneReason) :
    (c.recordPrune depth reason).prunesByDepth.total =
      (c.recordPrune depth reason).prunesByReason.total := by
  rw [Stats.recordPrune, Tally.total_bump, Tally.total_bump, h.totals]

/-- A new node is not given up. -/
theorem keep (h : s.PrunesRecount c t) (hp : parent < t.size)
    (hfailures : s.failures (t.add parent sound) = s.failures t) :
    s.PrunesRecount c (t.add parent sound) where
  totals := h.totals
  marks := h.marks.trans (Tree.marks_add hp).symm
  failures := h.failures.trans hfailures.symm

/-- A new node is given up. -/
theorem prune (h : s.PrunesRecount c t) (hp : parent < t.size) (depth : Nat)
    {reason : PruneReason} (hreason : reason ≠ .exhaustedCandidates)
    (hfailures : s.failures (t.add parent sound) = s.failures t + 1) :
    s.PrunesRecount (c.recordPrune depth reason) (t.add parent sound) where
  totals := h.totals_recordPrune depth reason
  marks := by
    rw [Stats.prunesFor_recordPrune, if_neg hreason, Nat.add_zero, Tree.marks_add hp, h.marks]
  failures := by rw [Stats.failures_recordPrune _ hreason, hfailures, h.failures]

/-- A node is marked. -/
theorem exhaust (h : s.PrunesRecount c t) (hp : parent < t.size) (depth : Nat)
    (hfree : (t.node parent).exhausted = false) :
    s.PrunesRecount (c.recordPrune depth .exhaustedCandidates) (t.exhaust parent) where
  totals := h.totals_recordPrune depth _
  marks := by
    rw [Stats.prunesFor_recordPrune, if_pos rfl, Tree.marks_exhaust hp hfree, h.marks]
  failures := by rw [Stats.failures_exhausted, failures_exhaust hp, h.failures]

end PrunesRecount

/-! ## Every moment -/

/-- The counts of draws and of beginnings given up are what the tree gives. -/
structure Recounts (s : Search) (m : State σ) : Prop where
  draws : s.DrawsRecount m.stats.draws m.stats.nodesCreated m.tree
  prunes : s.PrunesRecount m.stats m.tree

theorem recounts_start (s : Search) (source : σ) : s.Recounts (s.start source) where
  draws := drawsRecount_start s
  prunes := ⟨rfl, rfl, (failures_start s).symm⟩

/-- Every move keeps the counts what the tree gives. -/
theorem Move.recounts (h : Move s m m') (inv : Invariant s m) (hm : s.Recounts m) :
    s.Recounts m' := by
  have hcurrent := inv.current_lt
  have hscene := inv.scene_eq
  have hlength : (m.tree.node m.current).level = (m.tree.path m.current).length :=
    (inv.tree.wellFormed.length_path hcurrent).symm
  cases h with
  | arrive | leave | emit | refuse | climb | finish =>
    exact ⟨hm.draws, hm.prunes.totals, hm.prunes.marks, hm.prunes.failures⟩
  | keep sound source hphase hlevel hroom hsound hkeep =>
    have hfailures := failures_add (grown_add inv hlevel hroom hsound) hcurrent hlength
    rw [← hscene, ← histogram_push inv, hkeep] at hfailures
    refine ⟨hm.draws.add hcurrent (Catalog.mem_eligible.mp hsound).1, ?_⟩
    have hkept := hm.prunes.keep hcurrent hfailures
    exact ⟨hkept.totals, hkept.marks, hkept.failures⟩
  | prune sound source reason hphase hlevel hroom hsound hprune =>
    have hfailures := failures_add (grown_add inv hlevel hroom hsound) hcurrent hlength
    rw [← hscene, ← histogram_push inv, hprune] at hfailures
    refine ⟨hm.draws.add hcurrent (Catalog.mem_eligible.mp hsound).1, ?_⟩
    have hpruned := hm.prunes.prune hcurrent m.scene.length (prune?_ne_exhausted hprune) hfailures
    exact ⟨hpruned.totals, hpruned.marks, hpruned.failures⟩
  | exhaust hphase hlevel hroom hnone =>
    refine ⟨hm.draws.exhaust hcurrent, ?_⟩
    have hexhausted := hm.prunes.exhaust hcurrent m.scene.length (hasRoom_iff.mp hroom).1
    exact ⟨hexhausted.totals, hexhausted.marks, hexhausted.failures⟩

/-! ## Steps -/

/-- The steps that the nodes on the way to the current one still owe, by the phase and the length of
the way: each is left for its parent, which takes one step to find that nothing is left to do there
and one to return. -/
def owed (phase : Phase) (length : Nat) : Nat :=
  match phase with
  | .descend => 2 * length + 2
  | .emit => 2 * length + 1
  | .backtrack => 2 * length + 1
  | .done _ => 0

/-- A node that is kept brings three steps, one that is given up brings one; a mark and a look at a
complete scene bring one more. Of a search that a cap has ended nothing is said. -/
def Balanced (m : State σ) : Prop :=
  (∀ k, m.phase ≠ .done (.sceneCap k)) →
    m.stats.steps + 2 * m.stats.failures + owed m.phase m.scene.length =
      3 * m.stats.nodesCreated + m.stats.prunesFor .exhaustedCandidates +
        m.stats.scenesEmitted + m.stats.finalRejections + 2

theorem balanced_start (s : Search) (source : σ) : Balanced (s.start source) := by
  intro hopen
  rcases phase_start s source with hp | ⟨k, -, hp⟩
  · rw [hp]
    rfl
  · exact absurd hp (hopen k)

/-- What is left of the balance when one step has been taken that changes no other count. -/
theorem Balanced.tick (hb : Balanced m) (hopen : m.isDone = false) (hstats : m'.stats = m.stats.tick)
    (howed : owed m'.phase m'.scene.length + 1 = owed m.phase m.scene.length) : Balanced m' := by
  intro _
  have hbalance := hb fun k => isDone_eq_false_iff.mp hopen _
  rw [hstats]
  show m.stats.steps + 1 + 2 * m.stats.failures + owed m'.phase m'.scene.length =
    3 * m.stats.nodesCreated + m.stats.prunesFor .exhaustedCandidates +
      m.stats.scenesEmitted + m.stats.finalRejections + 2
  omega

/-- The balance of a state whose search goes on. -/
theorem Balanced.eq_of_phase (hb : Balanced m) {phase : Phase} (hphase : m.phase = phase)
    (hopen : ∀ t, phase ≠ .done t) :
    m.stats.steps + 2 * m.stats.failures + owed phase m.scene.length =
      3 * m.stats.nodesCreated + m.stats.prunesFor .exhaustedCandidates +
        m.stats.scenesEmitted + m.stats.finalRejections + 2 := by
  subst hphase
  exact hb fun k => hopen _

/-- Every move keeps the balance. -/
theorem Move.balanced (h : Move s m m') (inv : Invariant s m) (hb : Balanced m) :
    Balanced m' := by
  cases h with
  | arrive hphase hlevel =>
    exact hb.tick (isDone_eq_false_iff.mpr (by simp [hphase])) rfl (by rw [hphase]; rfl)
  | leave hphase hlevel hroom =>
    exact hb.tick (isDone_eq_false_iff.mpr (by simp [hphase])) rfl (by rw [hphase]; rfl)
  | climb parent hphase hparent =>
    refine hb.tick (isDone_eq_false_iff.mpr (by simp [hphase])) rfl ?_
    have hpos : 0 < m.scene.length := by
      rw [Node.parent, Option.map_eq_some_iff] at hparent
      obtain ⟨o, ho, -⟩ := hparent
      rw [← inv.level_eq, (inv.tree.wellFormed.origin_some ho).2.2]
      omega
    rw [hphase]
    show 2 * m.scene.dropLast.length + 2 + 1 = 2 * m.scene.length + 1
    rw [List.length_dropLast]
    omega
  | finish hphase hparent =>
    refine hb.tick (isDone_eq_false_iff.mpr (by simp [hphase])) rfl ?_
    have hroot : m.scene = [] := by
      rw [inv.scene_eq, Tree.path_of_origin_none]
      rwa [Node.parent, Option.map_eq_none_iff] at hparent
    rw [hphase, hroot]
    rfl
  | keep sound source hphase hlevel hroom hsound hkeep =>
    intro _
    have hbalance : _ + _ + (2 * m.scene.length + 2) = _ := hb.eq_of_phase hphase (by simp)
    rw [hphase]
    show m.stats.steps + 1 + 2 * m.stats.failures + (2 * (m.scene ++ [sound]).length + 2) =
      3 * (m.stats.nodesCreated + 1) + m.stats.prunesFor .exhaustedCandidates +
        m.stats.scenesEmitted + m.stats.finalRejections + 2
    rw [List.length_append, List.length_singleton]
    omega
  | prune sound source reason hphase hlevel hroom hsound hprune =>
    intro _
    have hbalance : _ + _ + (2 * m.scene.length + 2) = _ := hb.eq_of_phase hphase (by simp)
    have hreason := prune?_ne_exhausted hprune
    rw [hphase]
    show m.stats.steps + 1 + 2 * (m.stats.recordPrune m.scene.length reason).failures +
      (2 * m.scene.length + 2) = 3 * (m.stats.nodesCreated + 1) +
        (m.stats.recordPrune m.scene.length reason).prunesFor .exhaustedCandidates +
        m.stats.scenesEmitted + m.stats.finalRejections + 2
    rw [Stats.failures_recordPrune _ hreason, Stats.prunesFor_recordPrune, if_neg hreason]
    omega
  | exhaust hphase hlevel hroom hnone =>
    intro _
    have hbalance : _ + _ + (2 * m.scene.length + 2) = _ := hb.eq_of_phase hphase (by simp)
    rw [hphase]
    show m.stats.steps + 1 + 2 * (m.stats.recordPrune m.scene.length .exhaustedCandidates).failures
      + (2 * m.scene.length + 2) = 3 * m.stats.nodesCreated +
        (m.stats.recordPrune m.scene.length .exhaustedCandidates).prunesFor .exhaustedCandidates +
        m.stats.scenesEmitted + m.stats.finalRejections + 2
    rw [Stats.failures_exhausted, Stats.prunesFor_recordPrune, if_pos rfl]
    omega
  | refuse reason hphase hreason =>
    intro _
    have hbalance : _ + _ + (2 * m.scene.length + 1) = _ := hb.eq_of_phase hphase (by simp)
    show m.stats.steps + 1 + 2 * m.stats.failures + (2 * m.scene.length + 1) =
      3 * m.stats.nodesCreated + m.stats.prunesFor .exhaustedCandidates +
        m.stats.scenesEmitted + (m.stats.finalRejections + 1) + 2
    omega
  | emit hphase hok =>
    intro hopen
    have hbalance : _ + _ + (2 * m.scene.length + 1) = _ := hb.eq_of_phase hphase (by simp)
    rcases phaseAfter_cases s (m.scenes.push m.scene).size with ha | ⟨k, -, ha⟩
    · rw [ha]
      show m.stats.steps + 1 + 2 * m.stats.failures + (2 * m.scene.length + 1) =
        3 * m.stats.nodesCreated + m.stats.prunesFor .exhaustedCandidates +
          (m.stats.scenesEmitted + 1) + m.stats.finalRejections + 2
      omega
    · exact absurd ha (hopen k)

/-! ## Refusals -/

/-- At the end of a complete scene nothing is wrong with it: the same was asked when its last sound
was taken. -/
theorem Invariant.reject?_of_emit (inv : Invariant s m) (hlength : 1 ≤ s.rule.length)
    (hphase : m.phase = .emit) : s.rule.reject? m.histogram = none := by
  have hfull : s.rule.length ≤ m.scene.length := inv.level_eq ▸ inv.emit_level hphase
  rcases inv.keeps with hnil | hkeeps
  · rw [hnil, List.length_nil] at hfull
    omega
  · rw [inv.histogram_eq]
    exact (SceneRule.prune?_last (by omega)).mp hkeeps

theorem Move.finalRejections_eq (h : Move s m m') (inv : Invariant s m)
    (hlength : 1 ≤ s.rule.length) : m'.stats.finalRejections = m.stats.finalRejections := by
  cases h with
  | refuse reason hphase hreason =>
    rw [inv.reject?_of_emit hlength hphase] at hreason
    cases hreason
  | _ => rfl

/-! ## Runs -/

/-- What is true of the counts of an outcome. -/
structure Counted (s : Search) (o : Outcome σ) : Prop where
  nodes : o.tree.size = o.stats.nodesCreated + 1
  draws : o.stats.draws.total = o.stats.nodesCreated
  bySound : o.stats.draws.bySound = (List.range s.catalog.size).map o.tree.holders
  byFamily : o.stats.draws.byFamily = (List.range s.catalog.familyCount).map fun family =>
    ∑ sound ∈ Finset.range s.catalog.size with s.catalog.family sound = family,
      o.stats.draws.bySound.getD sound 0
  prunes : o.stats.prunesByDepth.total = o.stats.prunesByReason.total
  marks : o.stats.prunesFor .exhaustedCandidates = o.tree.marks
  failures : o.stats.failures = s.failures o.tree
  steps : o.termination = .treeExhausted →
    o.stats.steps + 2 * o.stats.failures =
      3 * o.stats.nodesCreated + o.stats.prunesFor .exhaustedCandidates +
        o.stats.scenesEmitted + o.stats.finalRejections + 2

/-- The draws of a family are those of its sounds. -/
theorem DrawsRecount.byFamily_eq {d : Draws} {nodes : Nat} (h : s.DrawsRecount d nodes t) :
    d.byFamily = (List.range s.catalog.familyCount).map fun family =>
      ∑ sound ∈ Finset.range s.catalog.size with s.catalog.family sound = family,
        d.bySound.getD sound 0 := by
  rw [h.byFamily]
  refine List.map_congr_left fun family _ => Finset.sum_congr rfl fun sound hsound => ?_
  have hlt : sound < s.catalog.size := Finset.mem_range.mp (Finset.mem_filter.mp hsound).1
  rw [h.bySound, List.getD_eq_getElem?_getD, List.getElem?_map, List.getElem?_range hlt]
  rfl

section Runs

variable [RandomSource σ] {source : σ} {clock : Nat → Nat}

theorem Reachable.recounts (h : Reachable s source m) : s.Recounts m := by
  induction h with
  | start => exact recounts_start s source
  | act h hopen ih => exact (act_move hopen).recounts h.invariant ih

theorem Reachable.balanced (h : Reachable s source m) : Balanced m := by
  induction h with
  | start => exact balanced_start s source
  | act h hopen ih => exact (act_move hopen).balanced h.invariant ih

theorem Reachable.finalRejections_eq (h : Reachable s source m) (hlength : 1 ≤ s.rule.length) :
    m.stats.finalRejections = 0 := by
  induction h with
  | start => rfl
  | act h hopen ih => rw [(act_move hopen).finalRejections_eq h.invariant hlength, ih]

/-- A run comes to the tree and the counts of a reachable state. -/
theorem exists_reachable_run (s : Search) (clock : Nat → Nat) (source : σ) :
    ∃ m, Reachable s source m ∧ (s.run clock source).tree = m.tree ∧
      (s.run clock source).stats = m.stats := by
  obtain ⟨m, hm, heq | ⟨t, -, heq⟩⟩ := steps_reachable s clock source s.stepBound
  all_goals exact ⟨m, hm, by rw [run, heq]; rfl, by rw [run, heq]; rfl⟩

/-- **The counts of a search are exact.** Whatever the limits, they are what a recount of its tree
gives. If the search has tried everything, its steps follow from the other counts. -/
theorem run_counts (s : Search) (clock : Nat → Nat) (source : σ) :
    s.EndsWith clock source (s.run clock source) ∧ s.Counted (s.run clock source) := by
  refine ⟨endsWith_run s clock source, ?_⟩
  obtain ⟨m, hm, htree, hstats⟩ := exists_reachable_run s clock source
  obtain ⟨hdraws, hprunes⟩ := hm.recounts
  rw [← htree, ← hstats] at hdraws hprunes
  constructor
  case nodes => rw [htree, hstats, hm.invariant.nodes]
  case draws => exact hdraws.total
  case bySound => exact hdraws.bySound
  case byFamily => exact hdraws.byFamily_eq
  case prunes => exact hprunes.totals
  case marks => exact hprunes.marks
  case failures => exact hprunes.failures
  case steps =>
    intro hend
    obtain ⟨m, hm, hdone, hrun⟩ := exists_of_treeExhausted hend
    have hbalance := hm.balanced fun k hk => by
      rw [hdone] at hk
      cases hk
    rw [hdone] at hbalance
    rw [hrun]
    exact hbalance

/-- **No complete scene is refused.** At the last place a beginning is kept exactly when the
complete scene follows the rule. So after any number of steps, whatever the limits, no scene has
been refused, none is about to be, and none is in the end. -/
theorem steps_refuse_nothing (s : Search) (hlength : 1 ≤ s.rule.length) (clock : Nat → Nat)
    (source : σ) :
    (∀ h, s.rule.prune? h (s.rule.length - 1) = none ↔ s.rule.reject? h = none) ∧
      (∀ n, let m := s.steps clock n (s.start source)
        m.stats.finalRejections = 0 ∧
          (m.phase = .emit → s.rule.reject? m.histogram = none)) ∧
      s.EndsWith clock source (s.run clock source) ∧
      (s.run clock source).stats.finalRejections = 0 := by
  refine ⟨fun h => SceneRule.prune?_last (by omega), fun n => ?_, endsWith_run s clock source, ?_⟩
  · obtain ⟨m, hm, heq | ⟨t, -, heq⟩⟩ := steps_reachable s clock source n <;> rw [heq]
    · exact ⟨hm.finalRejections_eq hlength, hm.invariant.reject?_of_emit hlength⟩
    · exact ⟨hm.finalRejections_eq hlength, fun hphase => by cases hphase⟩
  · obtain ⟨m, hm, -, hstats⟩ := exists_reachable_run s clock source
    rw [hstats]
    exact hm.finalRejections_eq hlength

end Runs

/-- After seven steps one scene has been found and nothing has been refused. -/
theorem steps_duetSearch_seven :
    let m := duetSearch.steps (fun _ => 0) 7 (duetSearch.start (Pcg.ofSeed 7))
    m.stats.scenesEmitted = 1 ∧ m.stats.finalRejections = 0 := by
  refine ⟨by decide +kernel, ?_⟩
  exact ((steps_refuse_nothing duetSearch (by decide) (fun _ => 0) (Pcg.ofSeed 7)).2.1 7).1

end Search

end SoundScenes
