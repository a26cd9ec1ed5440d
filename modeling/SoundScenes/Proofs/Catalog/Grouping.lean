import SoundScenes.Proofs.Catalog.Indexing
import SoundScenes.Proofs.Scene.Rule
import SoundScenes.Generation
import Mathlib.Data.Set.Function

/-!
# Catalogs that group their sounds alike

Families are numbered in the order of their names, so that other names give other numbers. If two
catalogs group their sounds alike, the numbers of one are those of the other up to a bijection, and
no check can tell the catalogs apart.

* `Catalog.GroupedAlike` — catalogs in which the same sounds share instruments;
* `Catalog.renumbering` — the numbers of one catalog in the other;
* `Catalog.GroupedAlike.bijOn_renumbering` — every number stands for exactly one;
* `Catalog.GroupedAlike.feasibility_eq`, `Catalog.GroupedAlike.prune?_eq` — the checks are the same.
-/

namespace SoundScenes.Catalog

variable {c c' : Catalog} {i j f : Nat} {scene : List Nat}

/-- The instrument of a sound, if there is such a sound. -/
def instrument? (c : Catalog) (i : Nat) : Option String := c.sounds[i]?.map (·.instrument)

/-- Two catalogs of the same size in which the same sounds share their instruments. Neither the
instruments nor anything else about the sounds need be the same. -/
structure GroupedAlike (c c' : Catalog) : Prop where
  size_eq : c'.size = c.size
  share_iff : ∀ i < c.size, ∀ j < c.size,
    (c.instrument? i = c.instrument? j ↔ c'.instrument? i = c'.instrument? j)

/-- What a family is called in another catalog: the number that its first sound has there. -/
def renumbering (c c' : Catalog) (f : Nat) : Nat := c'.family (c.familyOf.idxOf f)

/-! ## Families and instruments -/

/-- The family of a sound bears the name of its instrument. -/
theorem families_getElem?_family (hi : i < c.size) : c.families[c.family i]? = c.instrument? i := by
  rw [c.families_getElem?_familyOf i hi, instrument?, List.getElem?_eq_getElem hi, Option.map_some]

/-- Sounds are of one family if they share their instrument. -/
theorem family_eq_iff (hi : i < c.size) (hj : j < c.size) :
    c.family i = c.family j ↔ c.instrument? i = c.instrument? j := by
  rw [← families_getElem?_family hi, ← families_getElem?_family hj]
  exact (List.getElem?_inj (family_lt hi) c.nodup_families).symm

theorem idxOf_familyOf_lt (hf : f < c.familyCount) : c.familyOf.idxOf f < c.size := by
  rw [← c.length_familyOf]
  exact List.idxOf_lt_length_of_mem (List.count_pos_iff.mp (familySize_pos hf))

/-- The first sound of a family is of that family. -/
theorem family_idxOf (hf : f < c.familyCount) : c.family (c.familyOf.idxOf f) = f := by
  have hlt : c.familyOf.idxOf f < c.familyOf.length := c.length_familyOf ▸ idxOf_familyOf_lt hf
  rw [family, List.getD_eq_getElem _ _ hlt, List.getElem_idxOf]

namespace GroupedAlike

variable (h : GroupedAlike c c')
include h

theorem symm : GroupedAlike c' c where
  size_eq := h.size_eq.symm
  share_iff i hi j hj := (h.share_iff i (h.size_eq ▸ hi) j (h.size_eq ▸ hj)).symm

theorem family_eq_iff (hi : i < c.size) (hj : j < c.size) :
    c'.family i = c'.family j ↔ c.family i = c.family j := by
  rw [Catalog.family_eq_iff hi hj, h.share_iff i hi j hj,
    Catalog.family_eq_iff (h.size_eq ▸ hi) (h.size_eq ▸ hj)]

/-! ## The bijection -/

/-- The number of a sound's family in one catalog becomes its number in the other. -/
theorem renumbering_family (hi : i < c.size) : renumbering c c' (c.family i) = c'.family i := by
  have hf := family_lt hi
  exact (h.family_eq_iff (idxOf_familyOf_lt hf) hi).mpr (family_idxOf hf)

theorem renumbering_lt (hf : f < c.familyCount) : renumbering c c' f < c'.familyCount :=
  family_lt (h.size_eq ▸ idxOf_familyOf_lt hf)

/-- The way back undoes the way there. -/
theorem renumbering_renumbering (hf : f < c.familyCount) :
    renumbering c' c (renumbering c c' f) = f := by
  have hi := idxOf_familyOf_lt hf
  have hback : renumbering c' c (c'.family (c.familyOf.idxOf f)) = c.family (c.familyOf.idxOf f) :=
    h.symm.renumbering_family (h.size_eq ▸ hi)
  exact hback.trans (family_idxOf hf)

theorem bijOn_renumbering :
    Set.BijOn (renumbering c c') (Set.Iio c.familyCount) (Set.Iio c'.familyCount) := by
  have hback : Set.InvOn (renumbering c' c) (renumbering c c') (Set.Iio c.familyCount)
      (Set.Iio c'.familyCount) :=
    ⟨fun _ hf => h.renumbering_renumbering hf, fun _ hf => h.symm.renumbering_renumbering hf⟩
  exact hback.bijOn (fun _ hf => h.renumbering_lt hf) fun _ hf => h.symm.renumbering_lt hf

theorem range_perm :
    ((List.range c.familyCount).map (renumbering c c')).Perm (List.range c'.familyCount) := by
  have hnodup : ((List.range c.familyCount).map (renumbering c c')).Nodup := by
    refine List.nodup_range.map_on fun f hf f' hf' heq => ?_
    exact h.bijOn_renumbering.injOn (List.mem_range.mp hf) (List.mem_range.mp hf') heq
  refine (List.perm_ext_iff_of_nodup hnodup List.nodup_range).mpr fun f => ?_
  rw [List.mem_map, List.mem_range]
  constructor
  · rintro ⟨f', hf', rfl⟩
    exact h.renumbering_lt (List.mem_range.mp hf')
  · intro hf
    exact ⟨renumbering c' c f, List.mem_range.mpr (h.symm.renumbering_lt hf),
      h.symm.renumbering_renumbering hf⟩

/-- As many families have a property in one catalog as in the other. -/
theorem length_filter {p p' : Nat → Bool}
    (hp : ∀ f < c.familyCount, p' (renumbering c c' f) = p f) :
    ((List.range c'.familyCount).filter p').length =
      ((List.range c.familyCount).filter p).length := by
  rw [← (h.range_perm.filter p').length_eq, List.filter_map, List.length_map]
  refine congrArg List.length (List.filter_congr fun f hf => ?_)
  exact hp f (List.mem_range.mp hf)

/-! ## Summaries -/

theorem familyCount_eq : c'.familyCount = c.familyCount := by
  rw [← List.length_range (n := c'.familyCount), ← h.range_perm.length_eq, List.length_map,
    List.length_range]

/-- A family has the same sounds in both catalogs. -/
theorem members_renumbering (hf : f < c.familyCount) :
    c'.members (renumbering c c' f) = c.members f := by
  rw [members, members, h.size_eq]
  refine List.filter_congr fun id hid => ?_
  have hid := List.mem_range.mp hid
  have hi := idxOf_familyOf_lt hf
  rw [renumbering, decide_eq_decide, h.family_eq_iff hid hi, family_idxOf hf]

theorem familySize_renumbering (hf : f < c.familyCount) :
    c'.familySize (renumbering c c' f) = c.familySize f := by
  rw [← length_members, ← length_members, h.members_renumbering hf]

theorem familiesWithAtLeast_eq (n : Nat) :
    c'.summary.familiesWithAtLeast n = c.summary.familiesWithAtLeast n := by
  rw [familiesWithAtLeast_summary, familiesWithAtLeast_summary]
  exact h.length_filter fun f hf => by rw [h.familySize_renumbering hf]

/-- What can be reached does not depend on the names. -/
theorem feasibility_eq (config : Config) :
    config.feasibility c'.summary = config.feasibility c.summary := by
  have htotal : c'.summary.total = c.summary.total := h.size_eq
  have hcount : c'.summary.familyCount = c.summary.familyCount := by
    rw [familyCount_summary, familyCount_summary, h.familyCount_eq]
  rw [Config.feasibility, Config.feasibility, htotal, hcount, h.familiesWithAtLeast_eq]

theorem validateFor_eq (config : Config) :
    config.validateFor c'.summary = config.validateFor c.summary := by
  rw [Config.validateFor, Config.validateFor, h.feasibility_eq]

theorem check_eq (config : Config) : config.check c'.summary = config.check c.summary := by
  rw [Config.check, Config.check, h.feasibility_eq]

/-! ## Scenes -/

section Scenes

variable (hscene : ∀ id ∈ scene, id < c.size)
include hscene

/-- A family occurs in a scene as often in both catalogs. -/
theorem count_renumbering (hf : f < c.familyCount) :
    (scene.map c'.family).count (renumbering c c' f) = (scene.map c.family).count f := by
  rw [List.count, List.countP_map, List.count, List.countP_map]
  refine List.countP_congr fun id hid => ?_
  rw [Function.comp_apply, Function.comp_apply, beq_iff_eq, beq_iff_eq, renumbering,
    h.family_eq_iff (hscene id hid) (idxOf_familyOf_lt hf), family_idxOf hf]

theorem distinct_eq (quota : Nat) :
    (Histogram.ofFamilies c'.familyCount quota (scene.map c'.family)).distinct =
      (Histogram.ofFamilies c.familyCount quota (scene.map c.family)).distinct := by
  rw [Histogram.distinct_ofFamilies, Histogram.distinct_ofFamilies]
  exact h.length_filter fun f hf => by rw [h.count_renumbering hscene hf]

theorem meeting_eq (quota : Nat) :
    (Histogram.ofFamilies c'.familyCount quota (scene.map c'.family)).meeting =
      (Histogram.ofFamilies c.familyCount quota (scene.map c.family)).meeting := by
  rw [Histogram.meeting_ofFamilies, Histogram.meeting_ofFamilies]
  exact h.length_filter fun f hf => by rw [h.count_renumbering hscene hf]

/-- A beginning is given up in both catalogs or in neither, and for the same reason. -/
theorem prune?_eq (rule : SceneRule) (quota depth : Nat) :
    rule.prune? (.ofFamilies c'.familyCount quota (scene.map c'.family)) depth =
      rule.prune? (.ofFamilies c.familyCount quota (scene.map c.family)) depth := by
  rw [SceneRule.prune?, SceneRule.prune?, h.distinct_eq hscene, h.meeting_eq hscene]

theorem reject?_eq (rule : SceneRule) (quota : Nat) :
    rule.reject? (.ofFamilies c'.familyCount quota (scene.map c'.family)) =
      rule.reject? (.ofFamilies c.familyCount quota (scene.map c.family)) := by
  rw [SceneRule.reject?, SceneRule.reject?, h.distinct_eq hscene, h.meeting_eq hscene]

end Scenes

end GroupedAlike

end SoundScenes.Catalog
