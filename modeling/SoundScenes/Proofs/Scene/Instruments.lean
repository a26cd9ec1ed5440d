import SoundScenes.Scene.Check
import SoundScenes.Proofs.Catalog.Families
import SoundScenes.Proofs.Results
import SoundScenes.Proofs.Scene.Histogram

/-!
# Instruments and families of a scene

The search counts the families of a scene by their numbers, a check of the finished scene counts the
instruments by their names. As a number stands for one name and every instrument has a number, both
find the same.

* `Catalog.mapM_get` — the sounds of a scene that is given by identifiers;
* `distinct_eq_instruments`, `meeting_eq_instruments` — the check counts what the search counts.
-/

namespace SoundScenes

/-! ## Numbers and names -/

/-- A number stands for one name. -/
theorem idxOf_eq_iff {families : List String} (hnodup : families.Nodup) {f : Nat}
    (hf : f < families.length) {name : String} :
    families.idxOf name = f ↔ name = families[f] := by
  constructor
  · rintro rfl
    exact (List.getElem_idxOf hf).symm
  · rintro rfl
    exact hnodup.idxOf_getElem f hf

theorem count_idxOf {families : List String} (hnodup : families.Nodup) {f : Nat}
    (hf : f < families.length) (names : List String) :
    (names.map families.idxOf).count f = names.count families[f] := by
  rw [List.count, List.count, List.countP_map]
  refine List.countP_congr fun name _ => ?_
  rw [Function.comp_apply, beq_iff_eq, beq_iff_eq]
  exact idxOf_eq_iff hnodup hf

theorem nodup_eraseDups : ∀ names : List String, names.eraseDups.Nodup
  | [] => List.nodup_nil
  | name :: names => by
    rw [List.eraseDups_cons, List.nodup_cons]
    refine ⟨?_, nodup_eraseDups _⟩
    simp [List.mem_eraseDups]
termination_by names => names.length
decreasing_by exact Nat.lt_succ_of_le (List.length_filter_le _ _)

/-- Of the names that occur in a way that nothing absent does, there are as many as of the numbers
that stand for them. -/
theorem length_filter_idxOf {families names : List String} (hnodup : families.Nodup)
    (hnames : ∀ name ∈ names, name ∈ families) {p : Nat → Bool} (hp : p 0 = false) :
    ((List.range families.length).filter fun f => p ((names.map families.idxOf).count f)).length =
      (names.eraseDups.filter fun name => p (names.count name)).length := by
  let found := names.eraseDups.filter fun name => p (names.count name)
  have hfound {name : String} : name ∈ found ↔ name ∈ names ∧ p (names.count name) = true := by
    rw [List.mem_filter, List.mem_eraseDups]
  have hperm : (found.map families.idxOf).Perm
      ((List.range families.length).filter fun f => p ((names.map families.idxOf).count f)) := by
    refine (List.perm_ext_iff_of_nodup ?_ (List.nodup_range.filter _)).mpr fun f => ?_
    · -- different names have different numbers
      refine List.Nodup.map_on (fun name hname other _ heq => ?_) ((nodup_eraseDups names).filter _)
      exact (List.idxOf_inj (hnames name (hfound.mp hname).1)).mp heq
    · rw [List.mem_map, List.mem_filter, List.mem_range]
      constructor
      · rintro ⟨name, hname, rfl⟩
        obtain ⟨hmem, hcount⟩ := hfound.mp hname
        have hlt := List.idxOf_lt_length_of_mem (hnames name hmem)
        rw [count_idxOf hnodup hlt, List.getElem_idxOf]
        exact ⟨hlt, hcount⟩
      · rintro ⟨hlt, hcount⟩
        rw [count_idxOf hnodup hlt] at hcount
        refine ⟨families[f], hfound.mpr ⟨?_, hcount⟩, hnodup.idxOf_getElem f hlt⟩
        by_contra habsent
        rw [List.count_eq_zero.mpr habsent, hp] at hcount
        cases hcount
  rw [← hperm.length_eq, List.length_map]

/-! ## The sounds of a scene -/

namespace Catalog

variable {c : Catalog} {ids : List Nat} {sounds : List Sound}

/-- The sounds that a catalog gives for some identifiers. -/
theorem mapM_get (h : ids.mapM c.get = .ok sounds) :
    sounds.map (·.id) = ids ∧
      ids.map c.family = (sounds.map (·.instrument)).map c.families.idxOf := by
  have hall := mapM_eq_ok.mp h
  clear h
  induction hall with
  | nil => exact ⟨rfl, rfl⟩
  | cons hget _ ih =>
    obtain ⟨hid, hfamily⟩ := get_eq_ok hget
    obtain ⟨hids, hfamilies⟩ := ih
    rw [List.map_cons, List.map_cons, List.map_cons, List.map_cons, hid, hids, hfamily, hfamilies]
    exact ⟨rfl, rfl⟩

/-- The instruments of the sounds of a catalog are the names of its families. -/
theorem instrument_mem_families (h : ids.mapM c.get = .ok sounds) :
    ∀ name ∈ sounds.map (·.instrument), name ∈ c.families := by
  intro name hname
  obtain ⟨sound, hsound, rfl⟩ := List.mem_map.mp hname
  obtain ⟨id, -, hget⟩ := exists_of_mem_mapM h hsound
  rw [c.families_eq, mem_familyNames]
  exact List.mem_map_of_mem (mem_sounds_of_get hget)

variable {scene : Scene} {quota : Nat}

/-- A scene has as many instruments as the histogram has families. -/
theorem distinct_eq_instruments (h : ids.mapM c.get = .ok scene.sounds) :
    (Histogram.ofFamilies c.familyCount quota (ids.map c.family)).distinct =
      scene.instruments.length := by
  have hall : scene.instruments.filter (fun name => 0 < scene.countInstrument name) =
      scene.instruments := by
    refine List.filter_eq_self.mpr fun name hname => decide_eq_true ?_
    exact List.count_pos_iff.mpr (List.mem_eraseDups.mp hname)
  rw [Histogram.distinct_ofFamilies, (mapM_get h).2, ← hall]
  exact length_filter_idxOf c.nodup_families (instrument_mem_families h) (p := fun n => 0 < n) rfl

/-- As many instruments of a scene reach the quota as families of the histogram. -/
theorem meeting_eq_instruments (h : ids.mapM c.get = .ok scene.sounds) (hquota : 0 < quota) :
    (Histogram.ofFamilies c.familyCount quota (ids.map c.family)).meeting =
      (scene.instruments.filter fun name => quota ≤ scene.countInstrument name).length := by
  rw [Histogram.meeting_ofFamilies, (mapM_get h).2]
  refine length_filter_idxOf c.nodup_families (instrument_mem_families h)
    (p := fun n => quota ≤ n) ?_
  exact decide_eq_false (Nat.not_le_of_lt hquota)

end Catalog

end SoundScenes
