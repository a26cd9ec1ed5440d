import SoundScenes.Sound
import SoundScenes.Scene.Split

/-!
# Datasets

A scene is a sequence of sounds together with the order of its positions and its place in the
dataset. A dataset has one set of scenes for each split.

* `Relationships.positional` — the order of the positions of a scene;
* `Scene.toJson`, `SceneSet.toJson`, and the records beside them — the documents, written and read.
-/

namespace SoundScenes

/-- For every position of a scene, the positions before it and those after it. -/
structure Relationships where
  before : List (List Nat)
  after : List (List Nat)
  deriving DecidableEq, Repr

namespace Relationships

/-- The order of so many positions. -/
def positional (n : Nat) : Relationships where
  before := (List.range n).map List.range
  after := (List.range n).map fun i => List.range' (i + 1) (n - (i + 1))

/-- The document of an order. -/
def toJson (r : Relationships) : Json :=
  let table (rows : List (List Nat)) : Json := .array (rows.map fun row => .array (row.map .nat))
  .object [("before", table r.before), ("after", table r.after)]

/-- How an order is read. -/
def record : Record Relationships where
  name := "Relationships"
  fields := [
    .of "before" .required (.list (.list .size)) fun v r => { r with before := v },
    .of "after" .required (.list (.list .size)) fun v r => { r with after := v }]
  blank := ⟨[], []⟩

end Relationships

/-- A scene with its place in a dataset. -/
structure Scene where
  /-- The sounds in the order in which they are played. -/
  sounds : List Sound
  relationships : Relationships
  split : Split
  /-- The place among the scenes of the split. -/
  index : Nat
  /-- The file that the scene will be rendered to. -/
  file : String
  deriving DecidableEq, Repr

namespace Scene

/-- The identifiers of the sounds of a scene. -/
def ids (s : Scene) : List Nat := s.sounds.map (·.id)

/-- The document of a scene. -/
def toJson (s : Scene) : Json :=
  .object [
    ("objects", .array (s.sounds.map Sound.toJson)),
    ("relationships", s.relationships.toJson), ("split", .string s.split.name),
    ("scene_index", .nat s.index), ("output_filename", .string s.file)]

/-- How a scene is read. -/
def record : Record Scene where
  name := "GeneratedScene"
  fields := [
    .of "objects" .required (.list Sound.record.read) fun v s => { s with sounds := v },
    .of "relationships" .required Relationships.record.read fun v s =>
      { s with relationships := v },
    .of "split" .required (.variant Split.cases) fun v s => { s with split := v },
    .of "scene_index" .required .size fun v s => { s with index := v },
    .of "output_filename" .required .string fun v s => { s with file := v }]
  blank := ⟨[], ⟨[], []⟩, .train, 0, ""⟩

end Scene

/-- What stands at the head of a set of scenes. -/
structure Header where
  name : String
  license : String
  version : String
  split : Split
  /-- The day on which the scenes were made. -/
  date : String
  deriving DecidableEq, Repr

namespace Header

/-- The document of a header. -/
def toJson (h : Header) : Json :=
  .object [
    ("name", .string h.name), ("license", .string h.license), ("version", .string h.version),
    ("split", .string h.split.name), ("date", .string h.date)]

/-- How a header is read. -/
def record : Record Header where
  name := "SceneSetInfo"
  fields := [
    .of "name" .required .string fun v h => { h with name := v },
    .of "license" .required .string fun v h => { h with license := v },
    .of "version" .required .string fun v h => { h with version := v },
    .of "split" .required (.variant Split.cases) fun v h => { h with split := v },
    (Field.of "date" .required .string fun v h => { h with date := v }).orNamed
      "generation_date"]
  blank := ⟨"", "", "", .train, ""⟩

end Header

/-- The scenes of one split. -/
structure SceneSet where
  header : Header
  scenes : List Scene
  deriving DecidableEq, Repr

namespace SceneSet

/-- The document of a set of scenes. -/
def toJson (s : SceneSet) : Json :=
  .object [("info", s.header.toJson), ("scenes", .array (s.scenes.map Scene.toJson))]

/-- How a set of scenes is read. -/
def record : Record SceneSet where
  name := "SceneSet"
  fields := [
    .of "info" .required Header.record.read fun v s => { s with header := v },
    .of "scenes" .required (.list Scene.record.read) fun v s => { s with scenes := v }]
  blank := ⟨⟨"", "", "", .train, ""⟩, []⟩

end SceneSet

/-- The sets of scenes of all splits. -/
structure Dataset where
  train : SceneSet
  val : SceneSet
  test : SceneSet
  deriving DecidableEq, Repr

namespace Dataset

/-- The scenes of a split. -/
def get (d : Dataset) : Split → SceneSet
  | .train => d.train
  | .val => d.val
  | .test => d.test

/-- All sets with their splits, in the order in which scenes are assigned to them. -/
def sets (d : Dataset) : List (Split × SceneSet) := Split.all.map fun s => (s, d.get s)

/-- All scenes, split by split. -/
def scenes (d : Dataset) : List Scene := d.train.scenes ++ d.val.scenes ++ d.test.scenes

/-- The number of scenes in each split. -/
def sizes (d : Dataset) : SplitSizes :=
  ⟨d.train.scenes.length, d.val.scenes.length, d.test.scenes.length⟩

/-- The number of scenes. -/
def total (d : Dataset) : Nat := d.sizes.total

/-- How a dataset is read. -/
def record : Record Dataset where
  name := "DatasetSplits"
  fields := [
    .of "train" .required SceneSet.record.read fun v d => { d with train := v },
    .of "val" .required SceneSet.record.read fun v d => { d with val := v },
    .of "test" .required SceneSet.record.read fun v d => { d with test := v }]
  blank := ⟨SceneSet.record.blank, SceneSet.record.blank, SceneSet.record.blank⟩

end Dataset

end SoundScenes
