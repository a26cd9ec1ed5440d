import SoundScenes.Scene.Partition
import SoundScenes.Proofs.Catalog.Families
import SoundScenes.Proofs.Results

/-!
# Datasets of scenes

What becomes of the scenes that are made into a dataset. The sizes of the splits are those that were
computed, and at every place of a split stands the scene of some sounds that were given.

* `SplitSizes.total_compute` — the sizes add up to the number of scenes;
* `Dataset.get_ofScenes`, `SceneSet.ofScenes_ok` — the scenes of a split;
* `Dataset.exists_ofScenes` — a dataset can be made of any scenes of a catalog;
* `Dataset.ofScenes_eq_foldlM` — it is made as if the scenes were handed out one by one.
-/

namespace SoundScenes

namespace SplitSizes

/-- The sizes add up to the number of scenes, whatever the share. -/
theorem total_compute (n : Nat) (ratio : Float) : (compute n ratio).total = n := by
  unfold compute total
  simp only
  omega

variable {α : Type} {sizes : SplitSizes} {items : List α}

theorem length_part (h : sizes.total = items.length) (split : Split) :
    (sizes.part items split).length = sizes.get split := by
  unfold total at h
  cases split with
  | train =>
    rw [part, List.length_take, get]
    omega
  | val =>
    rw [part, List.length_take, List.length_drop, get]
    omega
  | test =>
    rw [part, List.length_drop, get]
    omega

theorem mem_of_mem_part {split : Split} {item : α} (h : item ∈ sizes.part items split) :
    item ∈ items := by
  cases split with
  | train => exact List.mem_of_mem_take h
  | val => exact List.mem_of_mem_drop (List.mem_of_mem_take h)
  | test => exact List.mem_of_mem_drop h

/-- Where the positions of a split begin. -/
def start (s : SplitSizes) : Split → Nat
  | .train => 0
  | .val => s.train
  | .test => s.train + s.val

/-- The positions from where a split begins belong to it, as many as its size says. -/
theorem splitAt_start_add {split : Split} {i : Nat} (h : i < sizes.get split) :
    sizes.splitAt (sizes.start split + i) = split := by
  cases split with
  | train =>
    have h : i < sizes.train := h
    show sizes.splitAt (0 + i) = .train
    rw [splitAt, if_pos (by omega)]
  | val =>
    have h : i < sizes.val := h
    show sizes.splitAt (sizes.train + i) = .val
    rw [splitAt, if_neg (by omega), if_pos (by omega)]
  | test =>
    show sizes.splitAt (sizes.train + sizes.val + i) = .test
    rw [splitAt, if_neg (by omega), if_neg (by omega)]

/-- The items of a split stand at positions that belong to it. -/
theorem splitAt_part (h : sizes.total = items.length) (split : Split) :
    ∀ i < (sizes.part items split).length, sizes.splitAt (sizes.start split + i) = split := by
  intro i hi
  rw [length_part h] at hi
  exact splitAt_start_add hi

/-- All items in order, with their positions, are those of one split after those of another. -/
theorem zipIdx_eq_append (h : sizes.total = items.length) : items.zipIdx =
    (sizes.part items .train).zipIdx (sizes.start .train) ++
      (sizes.part items .val).zipIdx (sizes.start .val) ++
        (sizes.part items .test).zipIdx (sizes.start .test) := by
  have hval : 0 + (sizes.part items .train).length = sizes.start .val := by
    rw [Nat.zero_add, length_part h]
    rfl
  have htest : 0 + (sizes.part items .train ++ sizes.part items .val).length =
      sizes.start .test := by
    rw [Nat.zero_add, List.length_append, length_part h, length_part h]
    rfl
  conv_lhs => rw [← sizes.part_append items]
  rw [List.zipIdx_append, List.zipIdx_append, hval, htest]
  rfl

end SplitSizes

variable {catalog : Catalog} {naming : Naming} {ratio : Float} {seed : Option Nat} {date : String}
  {split : Split} {index : Nat} {ids : List Nat} {scenes : List (List Nat)}

/-! ## Scenes -/

/-- The scene of some sounds has its order, its place and its file. -/
theorem Scene.ofIds_eq_ok {scene : Scene} :
    Scene.ofIds catalog naming split index ids = .ok scene ↔
      ∃ sounds, ids.mapM catalog.get = .ok sounds ∧
        scene = ⟨sounds, .positional sounds.length, split, index,
          naming.sceneFile split index⟩ := by
  rw [ofIds, bind_eq_ok]
  refine exists_congr fun sounds => and_congr_right fun _ => ?_
  exact ⟨fun h => (by cases h; rfl), fun h => h ▸ rfl⟩

theorem Scene.exists_ofIds (h : ∀ id ∈ ids, id < catalog.size) :
    ∃ scene, Scene.ofIds catalog naming split index ids = .ok scene := by
  obtain ⟨sounds, hsounds⟩ := exists_mapM fun id hid => Catalog.exists_get (h id hid)
  exact ⟨_, Scene.ofIds_eq_ok.mpr ⟨sounds, hsounds, rfl⟩⟩

/-! ## Sets of scenes -/

/-- The scenes of a set are those that were given, each with its place. -/
theorem SceneSet.ofScenes_ok {set : SceneSet}
    (h : SceneSet.ofScenes catalog naming date split scenes = .ok set) :
    set.header.split = split ∧ set.scenes.length = scenes.length ∧
      ∀ i (hi : i < set.scenes.length), ∃ ids ∈ scenes,
        Scene.ofIds catalog naming split i ids = .ok set.scenes[i] := by
  obtain ⟨made, hmade, heq⟩ := bind_eq_ok.mp h
  cases heq
  have hall := mapM_eq_ok.mp hmade
  have hlength : made.length = scenes.length := by
    rw [← hall.length_eq, List.length_zipIdx]
  refine ⟨rfl, hlength, fun i hi => ?_⟩
  have hi : i < made.length := hi
  have hi' : i < scenes.length := hlength ▸ hi
  have hget := hall.get (by rwa [List.length_zipIdx]) hi
  simp only [List.get_eq_getElem, List.getElem_zipIdx, Nat.zero_add] at hget
  exact ⟨scenes[i], List.getElem_mem hi', hget⟩

theorem SceneSet.exists_ofScenes (h : ∀ ids ∈ scenes, ∀ id ∈ ids, id < catalog.size) :
    ∃ set, SceneSet.ofScenes catalog naming date split scenes = .ok set := by
  have hall : ∀ entry ∈ scenes.zipIdx,
      ∃ scene, Scene.ofIds catalog naming split entry.2 entry.1 = .ok scene := fun entry hmem =>
    Scene.exists_ofIds (h entry.1 (List.fst_mem_of_mem_zipIdx hmem))
  obtain ⟨made, hmade⟩ := exists_mapM hall
  exact ⟨_, bind_eq_ok.mpr ⟨made, hmade, rfl⟩⟩

/-! ## Datasets -/

namespace Dataset

variable {d : Dataset}

/-- The scenes of a dataset are those of its splits, one split after another. -/
theorem scenes_eq_flatMap (d : Dataset) :
    d.scenes = Split.all.flatMap fun split => (d.get split).scenes := by
  simp [scenes, Split.all, get]

theorem mem_scenes {scene : Scene} :
    scene ∈ d.scenes ↔ ∃ split, scene ∈ (d.get split).scenes := by
  rw [scenes_eq_flatMap, List.mem_flatMap]
  refine exists_congr fun split => and_iff_right ?_
  cases split <;> decide

/-- The set of a split is made of its part of the scenes. -/
theorem get_ofScenes (h : Dataset.ofScenes catalog naming ratio seed date scenes = .ok d)
    (split : Split) :
    SceneSet.ofScenes catalog naming date split
      ((SplitSizes.compute scenes.length ratio).part (arrange seed scenes) split) =
        .ok (d.get split) := by
  have hlength : (arrange seed scenes).length = scenes.length :=
    (arrange_perm seed scenes).length_eq
  unfold ofScenes at h
  simp only [hlength] at h
  obtain ⟨train, htrain, h⟩ := bind_eq_ok.mp h
  obtain ⟨val, hval, h⟩ := bind_eq_ok.mp h
  obtain ⟨test, htest, h⟩ := bind_eq_ok.mp h
  cases h
  cases split with
  | train => exact htrain
  | val => exact hval
  | test => exact htest

/-- The sizes of the splits are those that were computed. -/
theorem sizes_ofScenes (h : Dataset.ofScenes catalog naming ratio seed date scenes = .ok d) :
    d.sizes = .compute scenes.length ratio := by
  have htotal : (SplitSizes.compute scenes.length ratio).total = (arrange seed scenes).length := by
    rw [SplitSizes.total_compute, (arrange_perm seed scenes).length_eq]
  have hsize (split : Split) :
      (d.get split).scenes.length = (SplitSizes.compute scenes.length ratio).get split := by
    rw [(SceneSet.ofScenes_ok (get_ofScenes h split)).2.1, SplitSizes.length_part htotal]
  exact congr (congr (congrArg SplitSizes.mk (hsize .train)) (hsize .val)) (hsize .test)

theorem total_ofScenes (h : Dataset.ofScenes catalog naming ratio seed date scenes = .ok d) :
    d.total = scenes.length := by
  rw [total, sizes_ofScenes h, SplitSizes.total_compute]

/-- A dataset can be made of any scenes of a catalog. -/
theorem exists_ofScenes (naming : Naming) (ratio : Float) (seed : Option Nat) (date : String)
    (h : ∀ ids ∈ scenes, ∀ id ∈ ids, id < catalog.size) :
    ∃ d, Dataset.ofScenes catalog naming ratio seed date scenes = .ok d := by
  have hset (split : Split) : ∃ set, SceneSet.ofScenes catalog naming date split
      ((SplitSizes.compute (arrange seed scenes).length ratio).part (arrange seed scenes) split) =
        .ok set :=
    SceneSet.exists_ofScenes fun ids hids =>
      h ids ((arrange_perm seed scenes).mem_iff.mp (SplitSizes.mem_of_mem_part hids))
  obtain ⟨train, htrain⟩ := hset .train
  obtain ⟨val, hval⟩ := hset .val
  obtain ⟨test, htest⟩ := hset .test
  refine ⟨⟨train, val, test⟩, ?_⟩
  unfold ofScenes
  simp only [htrain, hval, htest]
  rfl

/-! ## Scene by scene -/

/-- More scenes at the end of one set. -/
def add (d : Dataset) (split : Split) (scenes : List Scene) : Dataset :=
  match split with
  | .train => { d with train := { d.train with scenes := d.train.scenes ++ scenes } }
  | .val => { d with val := { d.val with scenes := d.val.scenes ++ scenes } }
  | .test => { d with test := { d.test with scenes := d.test.scenes ++ scenes } }

@[simp] theorem add_nil (d : Dataset) (split : Split) : d.add split [] = d := by
  cases split <;> simp [add]

theorem add_add (d : Dataset) (split : Split) (scenes scenes' : List Scene) :
    (d.add split scenes).add split scenes' = d.add split (scenes ++ scenes') := by
  cases split <;> simp [add]

theorem scenes_get_add (d : Dataset) (split : Split) (scenes : List Scene) :
    ((d.add split scenes).get split).scenes = (d.get split).scenes ++ scenes := by
  cases split <;> rfl

/-- A dataset without scenes. -/
def headed (naming : Naming) (date : String) : Dataset :=
  let set (split : Split) : SceneSet :=
    ⟨⟨naming.datasetName, naming.license, naming.version, split, date⟩, []⟩
  ⟨set .train, set .val, set .test⟩

/-- Gives a scene to the split of its position, where its number is that of the scenes before it. -/
def place (catalog : Catalog) (naming : Naming) (sizes : SplitSizes) (d : Dataset)
    (item : List Nat × Nat) : Except CatalogError Dataset := do
  let split := sizes.splitAt item.2
  let scene ← Scene.ofIds catalog naming split (d.get split).scenes.length item.1
  return d.add split [scene]

/-- Scenes that stand at positions of one split are numbered one after the other. -/
theorem foldlM_place (catalog : Catalog) (naming : Naming) {sizes : SplitSizes} {k : Nat}
    (h : ∀ i < scenes.length, sizes.splitAt (k + i) = split) (d : Dataset) :
    (scenes.zipIdx k).foldlM (place catalog naming sizes) d = do
      let made ← (scenes.zipIdx (d.get split).scenes.length).mapM fun (ids, index) =>
        Scene.ofIds catalog naming split index ids
      return d.add split made := by
  induction scenes generalizing k d with
  | nil => simp only [List.zipIdx_nil, List.foldlM_nil, List.mapM_nil, pure_bind, add_nil]
  | cons ids scenes ih =>
    have hfirst : sizes.splitAt k = split := h 0 (Nat.succ_pos _)
    have hrest (i : Nat) (hi : i < scenes.length) : sizes.splitAt (k + 1 + i) = split := by
      rw [Nat.add_right_comm]
      exact h (i + 1) (Nat.succ_lt_succ hi)
    simp only [List.zipIdx_cons, List.foldlM_cons, List.mapM_cons, place, hfirst, bind_assoc,
      pure_bind, ih hrest, scenes_get_add, List.length_append, List.length_singleton, add_add,
      List.singleton_append]

/-- **Scenes are handed out one by one.** In the order of their positions each goes to the split of
its position, and its number is that of the scenes which that split has got before it. What stops
this is what stops the dataset from being made. -/
theorem ofScenes_eq_foldlM (catalog : Catalog) (naming : Naming) (ratio : Float)
    (seed : Option Nat) (date : String) (scenes : List (List Nat)) :
    ofScenes catalog naming ratio seed date scenes =
      (arrange seed scenes).zipIdx.foldlM
        (place catalog naming (.compute (arrange seed scenes).length ratio))
        (headed naming date) := by
  rw [ofScenes]
  generalize arrange seed scenes = items
  have htotal : (SplitSizes.compute items.length ratio).total = items.length :=
    SplitSizes.total_compute _ _
  generalize SplitSizes.compute items.length ratio = sizes at htotal
  have hown := SplitSizes.splitAt_part htotal
  rw [SplitSizes.zipIdx_eq_append htotal, List.foldlM_append, List.foldlM_append,
    foldlM_place catalog naming (hown .train)]
  simp only [foldlM_place catalog naming (hown .val), foldlM_place catalog naming (hown .test),
    SceneSet.ofScenes, bind_assoc, pure_bind]
  -- nothing has been added to a set before its own scenes are
  rfl

end Dataset

end SoundScenes
