import SoundScenes.Search.Step

/-!
# Runs of a search

A run takes steps until the search has ended. It ends because the tree cannot hold more nodes than
`nodeBound` and a search takes at most four steps for every node.

* `nodeBound` — the nodes of a tree besides its root, at most;
* `Search.run` — the outcome of a search.
-/

namespace SoundScenes

/-- The nodes below one at a level, down to so many levels, in a tree where every node has as many
children as the width and the sounds that are left allow. -/
def nodesBelow (sounds width level : Nat) : Nat → Nat
  | 0 => 0
  | deeper + 1 => min width (sounds - level) * (1 + nodesBelow sounds width (level + 1) deeper)

/-- The nodes of such a tree for scenes of a length, besides the root. No level is deeper than there
are sounds. -/
def nodeBound (sounds width length : Nat) : Nat := nodesBelow sounds width 0 (min length sounds)

/-- What a search has found, and how it ended. -/
structure Outcome (σ : Type) where
  /-- The scenes found, in order. -/
  scenes : List (List Nat)
  stats : Stats
  termination : Termination
  tree : Tree
  source : σ

namespace Search

variable {σ : Type}

/-- The outcome at a state. A search that is still under way has tried all that it has. -/
def State.outcome (m : State σ) : Outcome σ where
  scenes := m.scenes.toList
  stats := m.stats
  termination := match m.phase with
    | .done t => t
    | _ => .treeExhausted
  tree := m.tree
  source := m.source

/-- Whether a search has ended. -/
def State.isDone (m : State σ) : Bool :=
  match m.phase with
  | .done _ => true
  | _ => false

/-- Takes steps until the search has ended, at most so many. The clock says how many milliseconds
have passed after some steps. -/
def steps [RandomSource σ] (s : Search) (clock : Nat → Nat) : Nat → State σ → State σ
  | 0, m => m
  | n + 1, m =>
    if m.isDone then m else steps s clock n (s.step (clock m.stats.steps) m)

/-- More steps than the search can take. -/
def stepBound (s : Search) : Nat :=
  4 * nodeBound s.catalog.size s.width s.rule.length + 4

/-- Runs a search from its start to its end. -/
def run [RandomSource σ] (s : Search) (clock : Nat → Nat) (source : σ) : Outcome σ :=
  (s.steps clock s.stepBound (s.start source)).outcome

end Search

end SoundScenes
