import SoundScenes.Search.Stats
import SoundScenes.Search.Termination
import SoundScenes.Search.Tree

/-!
# Searches for scenes

A search grows a tree of beginnings, depth first, and keeps the complete scenes that follow the
rule. At every node sounds are drawn among those that are neither on the way to the node nor at one
of its children, until the node has as many children as the width allows or no sound is left. A
child takes its place whether or not its beginning is given up at once.

The search goes in small steps, so that it can be cut off between any two of them.

* `Search.start` — the state before the first step;
* `Search.step` — one step, or the end when a budget is spent.
-/

namespace SoundScenes

/-- What is searched, and how far. -/
structure Search where
  catalog : Catalog
  rule : SceneRule
  /-- The number of children that a node may have. -/
  width : Nat
  /-- Stop after so many scenes. -/
  cap : Option Nat
  /-- Stop after so many steps. -/
  stepBudget : Option Nat
  /-- Stop after so many milliseconds. -/
  timeBudget : Option Nat

/-- What a search does next. -/
inductive Phase where
  /-- Make another child of the current node, or leave it. -/
  | descend
  /-- Keep the complete scene at the current node, or refuse it. -/
  | emit
  /-- Return to the parent of the current node. -/
  | backtrack
  | done (t : Termination)
  deriving DecidableEq, Repr

namespace Search

/-- A search under way. -/
structure State (σ : Type) where
  tree : Tree
  /-- The node that the search is at. -/
  current : Nat
  /-- The sounds on the way to the current node. -/
  scene : List Nat
  /-- The histogram of these sounds. -/
  histogram : Histogram
  stats : Stats
  /-- The scenes found so far, in order. -/
  scenes : Array (List Nat)
  phase : Phase
  source : σ

/-- The search that a configuration asks for. -/
def ofConfig (catalog : Catalog) (config : Config) : Search where
  catalog := catalog
  rule := ⟨config.constraints, config.sceneLength⟩
  width := config.treeWidth
  cap := config.maxScenes
  stepBudget := config.stepBudget
  timeBudget := config.timeBudget

variable {σ : Type}

/-- The termination that a limit brings once so much is used. -/
def spent? (limit : Option Nat) (used : Nat) (t : Nat → Termination) : Option Termination :=
  limit.bind fun k => if k ≤ used then some (t k) else none

/-- How the search ends if it has found so many scenes. -/
def capReached? (s : Search) (scenes : Nat) : Option Termination :=
  spent? s.cap scenes .sceneCap

/-- How the search ends if it has spent so many steps and milliseconds. -/
def overrun? (s : Search) (steps elapsed : Nat) : Option Termination :=
  (spent? s.stepBudget steps .stepBudget).or (spent? s.timeBudget elapsed .timeBudget)

/-- The state before the first step. With a cap of zero there is none. -/
def start (s : Search) (source : σ) : State σ where
  tree := .start
  current := 0
  scene := []
  histogram := s.rule.histogram s.catalog.familyCount
  stats := .start s.catalog.size s.catalog.familyCount
  scenes := #[]
  phase := match s.capReached? 0 with
    | some t => .done t
    | none => .descend
  source := source

/-- No sound is left for another child. -/
def exhaust (m : State σ) : State σ :=
  { m with
    tree := m.tree.exhaust m.current
    stats := m.stats.recordPrune m.scene.length .exhaustedCandidates }

/-- Makes a child with a drawn sound and goes there, unless its beginning is given up. -/
def grow (s : Search) (sound : Nat) (draws : Draws) (source : σ) (m : State σ) : State σ :=
  let depth := m.scene.length
  let histogram := m.histogram.push (s.catalog.family sound)
  let stats := { m.stats with nodesCreated := m.stats.nodesCreated + 1, draws := draws }
  let child := m.tree.size
  let m := { m with tree := m.tree.add m.current sound, source := source }
  match s.rule.prune? histogram depth with
  | none => { m with current := child, scene := m.scene ++ [sound], histogram, stats }
  | some reason => { m with stats := stats.recordPrune depth reason }

/-- Draws a sound for another child of the current node. A complete scene is emitted instead, and a
node that may have no other child is left. -/
def descend [RandomSource σ] (s : Search) (m : State σ) : State σ :=
  if s.rule.length ≤ (m.tree.node m.current).level then { m with phase := .emit }
  else if m.tree.hasRoom m.current s.width then
    match s.catalog.drawCandidate (m.scene ++ m.tree.childSounds m.current) m.stats.draws
      m.source with
    | .ok (sound, draws, source) => s.grow sound draws source m
    | .error _ => exhaust m
  else { m with phase := .backtrack }

/-- Keeps the complete scene at the current node if it follows the rule. -/
def emit (s : Search) (m : State σ) : State σ :=
  match s.rule.reject? m.histogram with
  | none =>
    let scenes := m.scenes.push m.scene
    { m with
      scenes := scenes
      stats := { m.stats with scenesEmitted := m.stats.scenesEmitted + 1 }
      phase := match s.capReached? scenes.size with
        | some t => .done t
        | none => .backtrack }
  | some _ =>
    { m with
      stats := { m.stats with finalRejections := m.stats.finalRejections + 1 }
      phase := .backtrack }

/-- Returns to the parent of the current node. From the root the search ends. -/
def backtrack (s : Search) (m : State σ) : State σ :=
  match (m.tree.node m.current).parent with
  | some parent =>
    { m with
      current := parent
      scene := m.scene.dropLast
      histogram := match m.scene.getLast? with
        | some sound => m.histogram.pop (s.catalog.family sound)
        | none => m.histogram
      phase := .descend }
  | none => { m with phase := .done .treeExhausted }

/-- What a step does in each phase. -/
def act [RandomSource σ] (s : Search) (m : State σ) : State σ :=
  match m.phase with
  | .descend => s.descend m
  | .emit => s.emit m
  | .backtrack => s.backtrack m
  | .done _ => m

/-- One step, after so many milliseconds. Where a budget is spent the search ends instead. -/
def step [RandomSource σ] (s : Search) (elapsed : Nat) (m : State σ) : State σ :=
  match m.phase with
  | .done _ => m
  | _ =>
    match s.overrun? m.stats.steps elapsed with
    | some t => { m with phase := .done t }
    | none => s.act { m with stats := { m.stats with steps := m.stats.steps + 1 } }

end Search

end SoundScenes
