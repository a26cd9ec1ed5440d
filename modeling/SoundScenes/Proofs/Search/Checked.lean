import SoundScenes.Proofs.Catalog.Families
import SoundScenes.Proofs.Search.Ends

/-!
# Nothing fails in a search

The functions of a search are total: where there is no node they read a root, and a difference stops
at zero. Here a search takes the same step with operations that fail instead. In every state that a
search comes to none of them fails, and the step is the same.

* `step?` — a step that fails where it reads or takes what is not there;
* `Invariant.act?_eq` — where the invariant of a search holds, no step fails;
* `LoopInvariant` — what the phases of a search rely on;
* `steps_loopInvariant` — it holds after any number of steps, none of which can fail;
* `run?_eq` — a run for which there is room comes to its end.
-/

namespace SoundScenes

/-! ## Numbers and lists -/

/-- A difference that must not stop at zero. -/
def sub? (a b : Nat) : Option Nat := if b ≤ a then some (a - b) else none

/-- A list without its last item, and that item. -/
def pop? {α : Type} (items : List α) : Option (List α × α) :=
  items.getLast?.map fun last => (items.dropLast, last)

theorem sub?_eq {a b : Nat} (h : b ≤ a) : sub? a b = some (a - b) := if_pos h

theorem pop?_concat {α : Type} (items : List α) (last : α) :
    pop? (items ++ [last]) = some (items, last) := by
  rw [pop?, List.getLast?_concat, List.dropLast_concat]
  rfl

/-! ## Trees -/

namespace Tree

variable {t : Tree} {id : Nat}

/-- `hasRoom` of a node that must be there. -/
def hasRoom? (t : Tree) (id width : Nat) : Option Bool := do
  let n ← t.node? id
  return !n.exhausted && n.children.length < width

/-- `childSounds` of a node that must be there, and so must its children. -/
def childSounds? (t : Tree) (id : Nat) : Option (List Nat) := do
  let n ← t.node? id
  let children ← n.children.mapM t.node?
  return children.filterMap (·.sound)

/-- `add` to a node that must be there. -/
def add? (t : Tree) (parent sound : Nat) : Option Tree :=
  (t.node? parent).map fun _ => t.add parent sound

/-- `exhaust` of a node that must be there. -/
def exhaust? (t : Tree) (id : Nat) : Option Tree := (t.node? id).map fun _ => t.exhaust id

theorem hasRoom?_eq (h : id < t.size) (width : Nat) :
    t.hasRoom? id width = some (t.hasRoom id width) := by
  rw [hasRoom?, node?_eq h]
  rfl

theorem add?_eq (h : id < t.size) (sound : Nat) : t.add? id sound = some (t.add id sound) := by
  rw [add?, node?_eq h]
  rfl

theorem exhaust?_eq (h : id < t.size) : t.exhaust? id = some (t.exhaust id) := by
  rw [exhaust?, node?_eq h]
  rfl

theorem mapM_node? {ids : List Nat} (h : ∀ id ∈ ids, id < t.size) :
    ids.mapM t.node? = some (ids.map t.node) := by
  induction ids with
  | nil => rfl
  | cons id ids ih =>
    rw [List.mapM_cons, node?_eq (h id List.mem_cons_self),
      ih fun i hi => h i (List.mem_cons_of_mem _ hi)]
    rfl

theorem childSounds?_eq (hwf : t.WellFormed) (h : id < t.size) :
    t.childSounds? id = some (t.childSounds id) := by
  have hchildren : ∀ child ∈ (t.node id).children, child < t.size := by
    intro child hchild
    exact ((hwf.mem_children id child).mp hchild).1
  rw [childSounds?, node?_eq h]
  simp only [Option.pure_def, Option.bind_eq_bind, Option.bind_some, mapM_node? hchildren,
    List.filterMap_map]
  rfl

end Tree

/-! ## Histograms -/

namespace Histogram

variable {h : Histogram} {family : Nat}

/-- `push` of a family that must have a count. -/
def push? (h : Histogram) (family : Nat) : Option Histogram :=
  h.counts[family]?.map fun _ => h.push family

/-- `pop` of a family that must be present. -/
def pop? (h : Histogram) (family : Nat) : Option Histogram := do
  let n ← h.counts[family]?
  let reached ← if 0 < h.quota ∧ n = h.quota then sub? h.reached 1 else some h.reached
  let left ← sub? n 1
  let distinct ← if left = 0 then sub? h.distinct 1 else some h.distinct
  return { counts := h.counts.set family left, quota := h.quota, distinct, reached }

theorem push?_eq (hfamily : family < h.counts.length) :
    h.push? family = some (h.push family) := by
  rw [push?, List.getElem?_eq_getElem hfamily]
  rfl

theorem pop?_eq {n : Nat} (hn : h.counts[family]? = some (n + 1)) (hdistinct : 1 ≤ h.distinct)
    (hreached : n + 1 = h.quota → 1 ≤ h.reached) : h.pop? family = some (h.pop family) := by
  have hquota : 0 < h.quota ∧ n + 1 = h.quota ↔ n + 1 = h.quota := by omega
  rw [pop?, pop, hn]
  simp only [Option.pure_def, Option.bind_eq_bind, Option.bind_some, hquota,
    sub?_eq (Nat.le_add_left 1 n), sub?_eq hdistinct, Nat.add_sub_cancel]
  split
  · next heq =>
    rw [sub?_eq (hreached heq)]
    split <;> rfl
  · split <;> rfl

/-- A family that is present is counted in both numbers. -/
theorem pop?_ofCounts {counts : List Nat} {n : Nat} (quota : Nat)
    (hn : counts[family]? = some (n + 1)) :
    (ofCounts counts quota).pop? family = some ((ofCounts counts quota).pop family) := by
  have hmem : n + 1 ∈ counts := List.mem_of_getElem? hn
  refine pop?_eq hn (List.countP_pos_iff.mpr ⟨_, hmem, by simp⟩) fun hquota => ?_
  have hquota : n + 1 = quota := hquota
  exact List.countP_pos_iff.mpr ⟨_, hmem, by simp [← hquota]⟩

/-- A family that has just been pushed can be popped. -/
theorem pop?_push {families : Nat} (quota : Nat) (sequence : List Nat)
    (hfamily : family < families) :
    ((ofFamilies families quota sequence).push family).pop? family =
      some (ofFamilies families quota sequence) := by
  have hn : (tally families (sequence ++ [family]))[family]? =
      some (sequence.count family + 1) := by
    simp [tally, hfamily, List.count_append]
  rw [← ofFamilies_concat, ofFamilies_eq_ofCounts, pop?_ofCounts quota hn,
    ← ofFamilies_eq_ofCounts, ofFamilies_concat, pop_push]

theorem length_counts_ofFamilies (families quota : Nat) (sequence : List Nat) :
    (ofFamilies families quota sequence).counts.length = families := by
  rw [ofFamilies_eq_ofCounts]
  simp [ofCounts, tally]

end Histogram

/-! ## Draws -/

namespace Catalog

variable {σ : Type} [RandomSource σ] {c : Catalog}

/-- `drawCandidate` from as many sounds as the taken ones leave, by the place of the sound among
those that are left. -/
def drawCandidate? (c : Catalog) (taken : List Nat) (draws : Draws) (s : σ) :
    Option (Except CatalogError (Nat × Draws × σ)) := do
  let left ← sub? c.size ((taken.filter (· < c.size)).dedup.length)
  if h : 0 < left then
    let (i, s) := RandomSource.draw left h s
    let sound ← (c.eligible taken)[i]?
    let family ← c.familyOf[sound]?
    return .ok (sound, draws.record sound family, s)
  else return .error (.exhausted c.size)

theorem drawCandidate?_eq (c : Catalog) (taken : List Nat) (draws : Draws) (source : σ) :
    c.drawCandidate? taken draws source = some (c.drawCandidate taken draws source) := by
  have hlength := c.length_eligible taken
  have hleft : sub? c.size ((taken.filter (· < c.size)).dedup.length) =
      some (c.eligible taken).length := by
    rw [sub?_eq (by omega)]
    congr 1
    omega
  rw [drawCandidate?, hleft, drawCandidate]
  simp only [Option.pure_def, Option.bind_eq_bind, Option.bind_some]
  split
  · next hpos =>
    simp only [RandomSource.choose]
    generalize RandomSource.draw _ hpos source = drawn
    obtain ⟨i, source'⟩ := drawn
    have hlt : (c.eligible taken)[i.1] < c.size := (mem_eligible.mp (List.getElem_mem i.2)).1
    simp only [Fin.getElem?_fin, List.getElem?_eq_getElem i.2, Option.bind_some]
    rw [familyOf_getElem? hlt]
    rfl
  · rfl

end Catalog

namespace Search

variable {σ : Type} {s : Search} {m : State σ}

/-! ## A step that may fail -/

/-- `grow`, where a beginning that is given up is undone sound by sound. -/
def grow? (s : Search) (sound : Nat) (draws : Draws) (source : σ) (m : State σ) :
    Option (State σ) := do
  let depth := m.scene.length
  let child := m.tree.size
  let tree ← m.tree.add? m.current sound
  let family ← s.catalog.familyOf[sound]?
  let scene := m.scene ++ [sound]
  let histogram ← m.histogram.push? family
  let stats := { m.stats with nodesCreated := m.stats.nodesCreated + 1, draws := draws }
  match s.rule.prune? histogram depth with
  | none => return { m with tree, current := child, scene, histogram, stats, source }
  | some reason =>
    let (scene, _) ← pop? scene
    let histogram ← histogram.pop? family
    return { m with tree, scene, histogram, stats := stats.recordPrune depth reason, source }

/-- `descend` from a node that must be there. -/
def descend? [RandomSource σ] (s : Search) (m : State σ) : Option (State σ) := do
  let n ← m.tree.node? m.current
  if s.rule.length ≤ n.level then return { m with phase := .emit }
  else
    let room ← m.tree.hasRoom? m.current s.width
    if room then
      let siblings ← m.tree.childSounds? m.current
      let drawn ← s.catalog.drawCandidate? (m.scene ++ siblings) m.stats.draws m.source
      match drawn with
      | .ok (sound, draws, source) => s.grow? sound draws source m
      | .error _ =>
        let tree ← m.tree.exhaust? m.current
        return { m with tree, stats := m.stats.recordPrune m.scene.length .exhaustedCandidates }
    else return { m with phase := .backtrack }

/-- `backtrack` from a node that must be there, whose sound must be the last of the scene. -/
def backtrack? (s : Search) (m : State σ) : Option (State σ) := do
  let n ← m.tree.node? m.current
  match n.parent with
  | some parent =>
    let (scene, sound) ← pop? m.scene
    let family ← s.catalog.familyOf[sound]?
    let histogram ← m.histogram.pop? family
    return { m with current := parent, scene, histogram, phase := .descend }
  | none => return { m with phase := .done .treeExhausted }

/-- `act` in each phase. -/
def act? [RandomSource σ] (s : Search) (m : State σ) : Option (State σ) :=
  match m.phase with
  | .descend => s.descend? m
  | .emit => some (s.emit m)
  | .backtrack => s.backtrack? m
  | .done _ => some m

/-- `step`, where a budget may end the search as well. -/
def step? [RandomSource σ] (s : Search) (elapsed : Nat) (m : State σ) : Option (State σ) :=
  match m.phase with
  | .done _ => some m
  | _ =>
    match s.overrun? m.stats.steps elapsed with
    | some t => some { m with phase := .done t }
    | none => s.act? { m with stats := { m.stats with steps := m.stats.steps + 1 } }

/-- `steps`, none of which may fail. -/
def steps? [RandomSource σ] (s : Search) (clock : Nat → Nat) : Nat → State σ → Option (State σ)
  | 0, m => some m
  | n + 1, m =>
    if m.isDone then some m else (s.step? (clock m.stats.steps) m).bind (steps? s clock n)

/-- A list has room for fewer numbers than this. -/
def roomLimit : Nat := 1 <<< 60

/-- `run`, which needs room for a scene and for the counts of sounds and families, and must have
ended when its steps are used up. -/
def run? [RandomSource σ] (s : Search) (clock : Nat → Nat) (source : σ) : Option (Outcome σ) :=
  if s.rule.length < roomLimit ∧ s.catalog.size < roomLimit ∧ s.catalog.familyCount < roomLimit then
    (s.steps? clock s.stepBound (s.start source)).bind fun m =>
      if m.isDone then some m.outcome else none
  else none

/-! ## No step fails -/

namespace Invariant

theorem tick (inv : Invariant s m) : Invariant s m.tick := { inv with }

theorem lt_size (inv : Invariant s m) : ∀ id ∈ m.scene, id < s.catalog.size := by
  rw [inv.scene_eq]
  exact inv.tree.path_lt _ inv.current_lt

theorem grow?_eq (inv : Invariant s m) {sound : Nat} (hsound : sound < s.catalog.size)
    (draws : Draws) (source : σ) :
    s.grow? sound draws source m = some (s.grow sound draws source m) := by
  have hfamily := Catalog.family_lt hsound
  have hpush : m.histogram.push? (s.catalog.family sound) =
      some (m.histogram.push (s.catalog.family sound)) := by
    refine Histogram.push?_eq ?_
    rw [inv.histogram_eq, histogramOf, Histogram.length_counts_ofFamilies]
    exact hfamily
  have hpop : (m.histogram.push (s.catalog.family sound)).pop? (s.catalog.family sound) =
      some m.histogram := by
    rw [inv.histogram_eq]
    exact Histogram.pop?_push _ _ hfamily
  rw [grow?, grow, Tree.add?_eq inv.current_lt]
  simp only [Option.pure_def, Option.bind_eq_bind, Option.bind_some,
    Catalog.familyOf_getElem? hsound, hpush]
  cases s.rule.prune? (m.histogram.push (s.catalog.family sound)) m.scene.length with
  | none => rfl
  | some reason => simp only [pop?_concat, Option.bind_some, hpop]

theorem descend?_eq [RandomSource σ] (inv : Invariant s m) : s.descend? m = some (s.descend m) := by
  have hcurrent := inv.current_lt
  rw [descend?, descend, Tree.node?_eq hcurrent, Tree.hasRoom?_eq hcurrent,
    Tree.childSounds?_eq inv.tree.wellFormed hcurrent, Tree.exhaust?_eq hcurrent]
  simp only [Option.pure_def, Option.bind_eq_bind, Option.bind_some, Catalog.drawCandidate?_eq]
  by_cases hlevel : s.rule.length ≤ (m.tree.node m.current).level
  · rw [if_pos hlevel, if_pos hlevel]
  · rw [if_neg hlevel, if_neg hlevel]
    by_cases hroom : m.tree.hasRoom m.current s.width = true
    · rw [if_pos hroom, if_pos hroom]
      cases hdraw : s.catalog.drawCandidate (m.scene ++ m.tree.childSounds m.current)
        m.stats.draws m.source with
      | ok drawn =>
        obtain ⟨sound, draws, source⟩ := drawn
        have hsound := (Catalog.drawCandidate_ok hdraw).1
        exact inv.grow?_eq (Catalog.mem_eligible.mp hsound).1 draws source
      | error e => rfl
    · rw [if_neg hroom, if_neg hroom]

theorem backtrack?_eq (inv : Invariant s m) : s.backtrack? m = some (s.backtrack m) := by
  have hcurrent := inv.current_lt
  have hwf := inv.tree.wellFormed
  rw [backtrack?, backtrack, Tree.node?_eq hcurrent]
  simp only [Option.pure_def, Option.bind_eq_bind, Option.bind_some]
  cases hparent : (m.tree.node m.current).parent with
  | none => rfl
  | some parent =>
    rw [Node.parent, Option.map_eq_some_iff] at hparent
    obtain ⟨o, ho, rfl⟩ := hparent
    have hscene : m.scene = m.tree.path o.parent ++ [o.sound] :=
      inv.scene_eq.trans (hwf.path_eq ho)
    have hsound : o.sound < s.catalog.size := inv.lt_size _ (by rw [hscene]; simp)
    have hhistogram : m.histogram =
        (s.histogramOf (m.tree.path o.parent)).push (s.catalog.family o.sound) := by
      rw [inv.histogram_eq, hscene, histogramOf_concat]
    have hpop : m.histogram.pop? (s.catalog.family o.sound) =
        some (m.histogram.pop (s.catalog.family o.sound)) := by
      rw [hhistogram]
      exact (Histogram.pop?_push _ _ (Catalog.family_lt hsound)).trans
        (congrArg some (Histogram.pop_push _ _ _ _).symm)
    rw [hscene, pop?_concat]
    simp only [Option.bind_some, Catalog.familyOf_getElem? hsound, hpop, List.dropLast_concat,
      List.getLast?_concat]

/-- Where the invariant holds no step fails. -/
theorem act?_eq [RandomSource σ] (inv : Invariant s m) : s.act? m = some (s.act m) := by
  rw [act?, act]
  cases m.phase with
  | descend => exact inv.descend?_eq
  | emit => rfl
  | backtrack => exact inv.backtrack?_eq
  | done t => rfl

end Invariant

/-! ## The loop -/

/-- What the phases of a search rely on. -/
structure LoopInvariant (s : Search) (m : State σ) : Prop where
  current_lt : m.current < m.tree.size
  scene_eq : m.scene = m.tree.path m.current
  depth_eq : (m.tree.node m.current).depth = (m.scene.length : Int) - 1
  depth_le : (m.tree.node m.current).depth ≤ (s.rule.length : Int) - 1
  nodup : m.scene.Nodup
  lt_size : ∀ id ∈ m.scene, id < s.catalog.size
  histogram_eq : Histogram.ofScene s.catalog m.scene s.rule.constraints.quota = .ok m.histogram
  emit_length : m.phase = .emit → m.scene.length = s.rule.length

theorem Invariant.loopInvariant (inv : Invariant s m) : LoopInvariant s m := by
  have hlevel := inv.level_eq
  have hle := inv.tree.level m.current
  constructor
  case current_lt => exact inv.current_lt
  case scene_eq => exact inv.scene_eq
  case depth_eq => rw [Node.depth, hlevel]
  case depth_le =>
    rw [Node.depth]
    omega
  case nodup =>
    rw [inv.scene_eq]
    exact inv.tree.path_nodup _ inv.current_lt
  case lt_size => exact inv.lt_size
  case histogram_eq =>
    rw [Histogram.ofScene_eq inv.lt_size, inv.histogram_eq]
    rfl
  case emit_length =>
    intro hphase
    have := inv.emit_level hphase
    omega

theorem step?_of_isDone [RandomSource σ] (h : m.isDone = true) (elapsed : Nat) :
    s.step? elapsed m = some (s.step elapsed m) := by
  obtain ⟨t, ht⟩ := isDone_eq_true_iff.mp h
  rw [step_of_isDone h, step?, ht]

theorem Invariant.step?_eq [RandomSource σ] (inv : Invariant s m) (elapsed : Nat) :
    s.step? elapsed m = some (s.step elapsed m) := by
  by_cases hdone : m.isDone = true
  · exact step?_of_isDone hdone elapsed
  · have hopen : m.isDone = false := Bool.eq_false_iff.mpr hdone
    unfold step?
    split
    · next t hphase => exact absurd hphase (isDone_eq_false_iff.mp hopen t)
    · cases ht : s.overrun? m.stats.steps elapsed with
      | some t => rw [step_of_overrun hopen ht]
      | none =>
        rw [step_of_open hopen ht]
        exact inv.tick.act?_eq

/-- **The loop keeps its invariant, and nothing fails in it.** Whatever the limits, after any number
of steps the scene is the path of the current node, its sounds are different and the histogram is
theirs; and the next step reads and takes nothing that is not there. -/
theorem steps_loopInvariant [RandomSource σ] (s : Search) (clock : Nat → Nat) (source : σ)
    (n : Nat) :
    LoopInvariant s (s.steps clock n (s.start source)) ∧
      ∀ elapsed, s.step? elapsed (s.steps clock n (s.start source)) =
        some (s.step elapsed (s.steps clock n (s.start source))) := by
  obtain ⟨m, hm, heq | ⟨t, -, heq⟩⟩ := steps_reachable s clock source n <;> rw [heq]
  · exact ⟨hm.invariant.loopInvariant, hm.invariant.step?_eq⟩
  · have hloop := hm.invariant.loopInvariant
    exact ⟨{ hloop with emit_length := fun h => by cases h }, step?_of_isDone rfl⟩

/-! ## Runs -/

variable [RandomSource σ] {clock : Nat → Nat} {source : σ}

theorem steps?_of_isDone (h : m.isDone = true) (n : Nat) : s.steps? clock n m = some m := by
  cases n with
  | zero => rfl
  | succ n => rw [steps?, if_pos h]

/-- Where the invariant holds no number of steps fails. -/
theorem Invariant.steps?_eq (inv : Invariant s m) (n : Nat) :
    s.steps? clock n m = some (s.steps clock n m) := by
  induction n generalizing m with
  | zero => rfl
  | succ n ih =>
    rw [steps?, steps, inv.step?_eq, Option.bind_some]
    by_cases hdone : m.isDone = true
    · rw [if_pos hdone, if_pos hdone]
    · have hopen : m.isDone = false := Bool.eq_false_iff.mpr hdone
      rw [if_neg hdone, if_neg hdone]
      cases ht : s.overrun? m.stats.steps (clock m.stats.steps) with
      | some t =>
        -- a state that a budget has ended keeps no invariant, but takes no step either
        rw [step_of_overrun hopen ht, steps?_of_isDone rfl, steps_of_isDone rfl]
      | none =>
        rw [step_of_open hopen ht]
        exact ih ((act_move hopen).invariant inv)

/-- A run for which there is room comes to its end. -/
theorem run?_eq (hlength : s.rule.length ≤ s.catalog.size) (hsize : s.catalog.size < roomLimit)
    (clock : Nat → Nat) (source : σ) : s.run? clock source = some (s.run clock source) := by
  have hroom : s.rule.length < roomLimit ∧ s.catalog.size < roomLimit ∧
      s.catalog.familyCount < roomLimit :=
    ⟨hlength.trans_lt hsize, hsize, s.catalog.familyCount_le_size.trans_lt hsize⟩
  rw [run?, if_pos hroom, (invariant_start s source).steps?_eq, Option.bind_some,
    if_pos (isDone_run s clock source)]
  rfl

end Search

end SoundScenes
