import SoundScenes.Search.Run

/-!
# Searches by recursion

The same search without steps and budgets: a node is explored by exploring its children one after
another, and what a beginning holds is counted afresh every time.

* `Search.explore` — the search below a node;
* `Search.exploreAll` — the whole search.
-/

namespace SoundScenes

/-- What has been found so far. -/
structure Exploration (σ : Type) where
  tree : Tree
  /-- The counts but for the steps, of which there are none. -/
  stats : Stats
  /-- The scenes found so far, in order. -/
  scenes : List (List Nat)
  source : σ

namespace Search

variable {σ : Type}

/-- The histogram of a beginning. -/
def histogramOf (s : Search) (scene : List Nat) : Histogram :=
  .ofFamilies s.catalog.familyCount s.rule.constraints.quota (scene.map s.catalog.family)

/-- Keeps a complete scene that follows the rule. -/
def keep (s : Search) (scene : List Nat) (x : Exploration σ) : Exploration σ :=
  match s.rule.reject? (s.histogramOf scene) with
  | none =>
    { x with
      scenes := x.scenes ++ [scene]
      stats := { x.stats with scenesEmitted := x.stats.scenesEmitted + 1 } }
  | some _ => { x with stats := { x.stats with finalRejections := x.stats.finalRejections + 1 } }

/-- One more child of a node. -/
def spawn (node sound : Nat) (draws : Draws) (source : σ) (x : Exploration σ) : Exploration σ :=
  { x with
    tree := x.tree.add node sound
    stats := { x.stats with nodesCreated := x.stats.nodesCreated + 1, draws := draws }
    source := source }

/-- Makes the children of a node and explores each of them by `deeper`, unless its beginning is
given up. There are at most so many attempts. -/
def exploreChildren [RandomSource σ] (s : Search)
    (deeper : Nat → List Nat → Exploration σ → Exploration σ) (node : Nat) (scene : List Nat) :
    Nat → Exploration σ → Exploration σ
  | 0, x => x
  | attempts + 1, x =>
    if (x.tree.node node).children.length < s.width then
      match s.catalog.drawCandidate (scene ++ x.tree.childSounds node) x.stats.draws x.source with
      | .ok (sound, draws, source) =>
        let child := x.tree.size
        let x := spawn node sound draws source x
        let scene' := scene ++ [sound]
        exploreChildren s deeper node scene attempts
          (match s.rule.prune? (s.histogramOf scene') scene.length with
            | none => deeper child scene' x
            | some reason => { x with stats := x.stats.recordPrune scene.length reason })
      | .error _ =>
        { x with
          tree := x.tree.exhaust node
          stats := x.stats.recordPrune scene.length .exhaustedCandidates }
    else x

/-- Explores a node at the end of a beginning that lacks so many sounds. A node has at most one
child for each sound, and one more attempt may find none. -/
def explore [RandomSource σ] (s : Search) : Nat → Nat → List Nat → Exploration σ → Exploration σ
  | 0, _, scene, x => s.keep scene x
  | lacking + 1, node, scene, x =>
    s.exploreChildren (s.explore lacking) node scene (s.catalog.size + 1) x

/-- Explores the whole tree. -/
def exploreAll [RandomSource σ] (s : Search) (source : σ) : Exploration σ :=
  s.explore s.rule.length 0 []
    ⟨.start, .start s.catalog.size s.catalog.familyCount, [], source⟩

end Search

end SoundScenes
