import SoundScenes.Config
import SoundScenes.Scene.Dataset

/-!
# Checks of datasets

A dataset is checked against its configuration by looking at its documents alone: the instruments
are counted afresh, and places, file names and the order of positions are computed again.

* `Scene.violations` — what is wrong with a scene in itself;
* `Dataset.violations` — what is wrong with a dataset.
-/

namespace SoundScenes

/-- What can be wrong with a scene in itself. -/
inductive Flaw where
  | length (found expected : Nat)
  | repeatedSound
  | families (found expected : Nat)
  | quota (found expected : Nat)
  /-- The order does not have one row for each position. -/
  | tableSize
  /-- A position is said to stand before another, which the other side of the order denies. -/
  | inconsistent (position entry : Nat)
  /-- Some other position stands on no side of this one, or on both. -/
  | unordered (position : Nat)
  deriving DecidableEq, Repr

/-- What can be wrong with a dataset. -/
inductive Violation where
  | sizes (found expected : SplitSizes)
  | setLabel (split label : Split)
  | place (file : String) (label : Split) (labelIndex : Nat) (split : Split) (index : Nat)
  | fileName (file expected : String)
  | scene (file : String) (flaw : Flaw)
  deriving DecidableEq, Repr

/-- A flaw in words. -/
def Flaw.message : Flaw → String
  | length found expected => toString found ++ " objects, expected " ++ toString expected
  | repeatedSound => "duplicate sound id"
  | families found expected =>
    toString found ++ " families, expected at least " ++ toString expected
  | quota found expected =>
    toString found ++ " families meet the quota, expected " ++ toString expected
  | tableSize => "relationship table size mismatch"
  | inconsistent i j => "inconsistent before[" ++ toString i ++ "] entry " ++ toString j
  | unordered i => "position " ++ toString i ++ " is not totally ordered"

/-- A violation in words. -/
def Violation.message : Violation → String
  | sizes found expected => "split sizes " ++ found.display ++ ", expected " ++ expected.display
  | setLabel split label => split.name ++ " set labeled " ++ label.name
  | place file label labelIndex split index =>
    file ++ ": labeled " ++ label.name ++ "/" ++ toString labelIndex ++ ", stored at " ++
      split.name ++ "/" ++ toString index
  | fileName file expected => file ++ ": expected file name " ++ expected
  | scene file flaw => file ++ ": " ++ flaw.message

/-- A finding if a condition holds. -/
def findingIf {α : Type} (p : Prop) [Decidable p] (a : α) : List α := if p then [a] else []

namespace Relationships

/-- What is wrong with one row of an order. -/
def rowFlaws (r : Relationships) (i : Nat) : List Flaw :=
  let before := r.before.getD i []
  let after := r.after.getD i []
  (before.filter fun j => i ≤ j ∨ i ∉ r.after.getD j []).map (Flaw.inconsistent i) ++
    findingIf (before.length + after.length ≠ r.before.length - 1) (.unordered i)

/-- What is wrong with the order of so many positions. -/
def flaws (r : Relationships) (n : Nat) : List Flaw :=
  if r.before.length ≠ n ∨ r.after.length ≠ n then [.tableSize]
  else (List.range n).flatMap r.rowFlaws

end Relationships

namespace Scene

/-- The instruments of a scene, each once. -/
def instruments (s : Scene) : List String := (s.sounds.map (·.instrument)).eraseDups

/-- The number of sounds of an instrument. -/
def countInstrument (s : Scene) (name : String) : Nat := (s.sounds.map (·.instrument)).count name

/-- What is wrong with a scene in itself. -/
def flaws (c : Config) (s : Scene) : List Flaw :=
  let k := c.constraints
  let meeting := (s.instruments.filter fun name => k.quota ≤ s.countInstrument name).length
  findingIf (s.sounds.length ≠ c.sceneLength) (.length s.sounds.length c.sceneLength) ++
    findingIf (¬ s.ids.Nodup) .repeatedSound ++
    findingIf (s.instruments.length < k.minFamilies)
      (.families s.instruments.length k.minFamilies) ++
    findingIf (0 < k.quota ∧ meeting < k.minQuotaFamilies) (.quota meeting k.minQuotaFamilies) ++
    s.relationships.flaws s.sounds.length

/-- What is wrong with a scene in itself. -/
def violations (c : Config) (s : Scene) : List Violation :=
  (s.flaws c).map (.scene s.file)

/-- What is wrong with the labels of a scene that is stored at a place of a split. -/
def placeViolations (c : Config) (split : Split) (index : Nat) (s : Scene) : List Violation :=
  findingIf (s.split ≠ split ∨ s.index ≠ index) (.place s.file s.split s.index split index) ++
    findingIf (s.file ≠ c.output.sceneFile split index)
      (.fileName s.file (c.output.sceneFile split index))

end Scene

/-- What is wrong with the scenes of a split. -/
def SceneSet.violations (c : Config) (split : Split) (set : SceneSet) : List Violation :=
  findingIf (set.header.split ≠ split) (.setLabel split set.header.split) ++
    set.scenes.zipIdx.flatMap fun (s, index) =>
      s.placeViolations c split index ++ s.violations c

/-- What is wrong with a dataset. -/
def Dataset.violations (c : Config) (d : Dataset) : List Violation :=
  let expected := SplitSizes.compute d.total c.trainingRatio
  findingIf (d.sizes ≠ expected) (.sizes d.sizes expected) ++
    d.sets.flatMap fun (split, set) => set.violations c split

end SoundScenes
