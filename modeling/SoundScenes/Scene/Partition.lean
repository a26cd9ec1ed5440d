import SoundScenes.Catalog
import SoundScenes.Config
import SoundScenes.Random.Pcg
import SoundScenes.Scene.Dataset

/-!
# Partitions

The scenes that a search has found become a dataset: they are shuffled or kept in order, cut into
three parts, and numbered within each part.

* `arrange` — the order of the scenes;
* `Dataset.ofScenes` — the dataset of some scenes.
-/

namespace SoundScenes

/-- The order of some items: as they are, or shuffled by the part of a run's randomness that belongs
to shuffling. -/
def arrange {α : Type} (seed : Option Nat) (items : List α) : List α :=
  match seed with
  | some seed => ((Pcg.ofStream seed "shuffle").shuffle items).1
  | none => items

theorem arrange_perm {α : Type} (seed : Option Nat) (items : List α) :
    (arrange seed items).Perm items := by
  cases seed with
  | none => exact List.Perm.refl _
  | some seed => exact Pcg.shuffle_perm items _

/-- The items of one split, where all items stand in order. -/
def SplitSizes.part {α : Type} (sizes : SplitSizes) (items : List α) : Split → List α
  | .train => items.take sizes.train
  | .val => (items.drop sizes.train).take sizes.val
  | .test => items.drop (sizes.train + sizes.val)

/-- The parts put together are all items. -/
theorem SplitSizes.part_append {α : Type} (sizes : SplitSizes) (items : List α) :
    sizes.part items .train ++ sizes.part items .val ++ sizes.part items .test = items := by
  rw [part, part, part, List.append_assoc, ← List.drop_drop, List.take_append_drop,
    List.take_append_drop]

/-- The scene of some sounds at a place of a split. -/
def Scene.ofIds (catalog : Catalog) (naming : Naming) (split : Split) (index : Nat)
    (ids : List Nat) : Except CatalogError Scene := do
  let sounds ← ids.mapM catalog.get
  return ⟨sounds, .positional sounds.length, split, index, naming.sceneFile split index⟩

/-- The set of some scenes of a split, numbered in order. -/
def SceneSet.ofScenes (catalog : Catalog) (naming : Naming) (date : String) (split : Split)
    (scenes : List (List Nat)) : Except CatalogError SceneSet := do
  let scenes ← scenes.zipIdx.mapM fun (ids, index) =>
    Scene.ofIds catalog naming split index ids
  return ⟨⟨naming.datasetName, naming.license, naming.version, split, date⟩, scenes⟩

/-- The dataset of some scenes. Without a seed they keep their order. -/
def Dataset.ofScenes (catalog : Catalog) (naming : Naming) (ratio : Float) (seed : Option Nat)
    (date : String) (scenes : List (List Nat)) : Except CatalogError Dataset := do
  let scenes := arrange seed scenes
  let sizes := SplitSizes.compute scenes.length ratio
  let set (split : Split) := SceneSet.ofScenes catalog naming date split (sizes.part scenes split)
  return ⟨← set .train, ← set .val, ← set .test⟩

end SoundScenes
