import SoundScenes.Draws
import SoundScenes.Json.Keyed
import SoundScenes.Scene.Rule

/-!
# Search statistics

What a search counts as it goes. Nothing that it finds depends on these counts.
-/

namespace SoundScenes

/-- The counts of a search. -/
structure Stats where
  steps : Nat
  /-- The nodes of the tree besides the root. -/
  nodesCreated : Nat
  scenesEmitted : Nat
  /-- The complete scenes that were refused. -/
  finalRejections : Nat
  /-- The beginnings given up, by the depth of their last sound. -/
  prunesByDepth : Tally Nat
  /-- The beginnings given up, by the reason. -/
  prunesByReason : Tally PruneReason
  draws : Draws

namespace Stats

/-- The counts before a search in a catalog of so many sounds in so many families. -/
def start (sounds families : Nat) : Stats where
  steps := 0
  nodesCreated := 0
  scenesEmitted := 0
  finalRejections := 0
  prunesByDepth := ∅
  prunesByReason := ∅
  draws := .none sounds families

/-- One more beginning is given up. -/
def recordPrune (s : Stats) (depth : Nat) (reason : PruneReason) : Stats :=
  { s with
    prunesByDepth := s.prunesByDepth.bump depth
    prunesByReason := s.prunesByReason.bump reason }

/-- The number of beginnings given up. -/
def totalPrunes (s : Stats) : Nat := s.prunesByDepth.total

/-- The number of beginnings given up for a reason. -/
def prunesFor (s : Stats) (reason : PruneReason) : Nat := s.prunesByReason.count reason

/-- The document of statistics. -/
def toJson (s : Stats) : Json :=
  .object [
    ("steps", .nat s.steps), ("nodes_created", .nat s.nodesCreated),
    ("scenes_emitted", .nat s.scenesEmitted), ("final_rejections", .nat s.finalRejections),
    ("prunes_by_depth", .object (s.prunesByDepth.toList.map fun e => (toString e.1, .nat e.2))),
    ("prunes_by_reason", .object (s.prunesByReason.toList.map fun e => (e.1.name, .nat e.2))),
    ("draws", s.draws.toJson)]

/-- How statistics are read. -/
def record : Record Stats where
  name := "SearchStats"
  fields := [
    .of "steps" .required .word64 fun v s => { s with steps := v },
    .of "nodes_created" .required .word64 fun v s => { s with nodesCreated := v },
    .of "scenes_emitted" .required .word64 fun v s => { s with scenesEmitted := v },
    .of "final_rejections" .required .word64 fun v s => { s with finalRejections := v },
    .of "prunes_by_depth" .required (.table Reader.keySize .word64) fun v s =>
      { s with prunesByDepth := Tally.ofEntries v },
    .of "prunes_by_reason" .required (.table (Reader.keyAmong PruneReason.cases) .word64)
      fun v s => { s with prunesByReason := Tally.ofEntries v },
    .of "draws" .required Draws.layout.read fun v s => { s with draws := v }]
  blank := start 0 0

end Stats

end SoundScenes
