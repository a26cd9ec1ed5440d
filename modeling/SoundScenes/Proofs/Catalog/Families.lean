import SoundScenes.Catalog
import Mathlib.Data.String.Basic
import Mathlib.Data.List.Dedup
import Mathlib.Data.List.Nodup
import Mathlib.Data.List.Perm.Subperm

/-!
# Families of a catalog

The names of the families are in increasing order, so that no name is listed twice and the number of
a family identifies it.

* `sorted_familyNames` — the names are in increasing order;
* `Catalog.get_eq_ok` — what the catalog says about a sound;
* `Catalog.length_eligible` — the sounds that are taken and those that are left;
* `Catalog.ofSounds_sounds` — a catalog is made of its own sounds.
-/

namespace SoundScenes

theorem sorted_insertName {name : String} {names : List String}
    (h : names.Pairwise (· < ·)) : (insertName name names).Pairwise (· < ·) := by
  induction names with
  | nil => exact List.pairwise_singleton _ _
  | cons n ns ih =>
    obtain ⟨hn, hns⟩ := List.pairwise_cons.mp h
    unfold insertName
    split
    · next hlt =>
      refine List.pairwise_cons.mpr ⟨fun m hm => ?_, h⟩
      rcases List.mem_cons.mp hm with rfl | hm
      · exact hlt
      · exact lt_trans hlt (hn m hm)
    · next hnlt =>
      split
      · exact h
      · next hne =>
        refine List.pairwise_cons.mpr ⟨fun m hm => ?_, ih hns⟩
        rcases mem_insertName.mp hm with rfl | hm
        · exact lt_of_le_of_ne (not_lt.mp hnlt) (Ne.symm hne)
        · exact hn m hm

theorem sorted_familyNames (sounds : List Sound) : (familyNames sounds).Pairwise (· < ·) := by
  -- the names so far are kept open for the induction
  have hfold (sounds : List Sound) (names : List String) (h : names.Pairwise (· < ·)) :
      (sounds.foldl (fun names s => insertName s.instrument names) names).Pairwise (· < ·) := by
    induction sounds generalizing names with
    | nil => exact h
    | cons s sounds ih => exact ih _ (sorted_insertName h)
  exact hfold sounds [] List.Pairwise.nil

namespace Catalog

variable {c : Catalog}

theorem nodup_families (c : Catalog) : c.families.Nodup := by
  rw [c.families_eq]
  exact (sorted_familyNames c.sounds).imp fun h => ne_of_lt h

/-- Every family has a sound. -/
theorem familyCount_le_size (c : Catalog) : c.familyCount ≤ c.size := by
  have hsub : c.families ⊆ c.sounds.map (·.instrument) := by
    intro name hname
    rwa [c.families_eq, mem_familyNames] at hname
  have hle := (c.nodup_families.subperm hsub).length_le
  rwa [List.length_map] at hle

/-- The identifier of a sound is its position. -/
theorem id_of_getElem? {id : Nat} {sound : Sound} (h : c.sounds[id]? = some sound) :
    sound.id = id := by
  have hids := congrArg (·[id]?) c.ids
  obtain ⟨hlt, -⟩ := List.getElem?_eq_some_iff.mp h
  simp only [List.getElem?_map, h, Option.map_some] at hids
  rw [List.getElem?_range hlt] at hids
  exact Option.some.inj hids

/-- A sound that the catalog gives has the identifier that was asked for, and its family is that of
its instrument. -/
theorem get_eq_ok {id : Nat} {sound : Sound} (h : c.get id = .ok sound) :
    sound.id = id ∧ c.family id = c.families.idxOf sound.instrument := by
  unfold get at h
  split at h
  · next hsome =>
    cases h
    refine ⟨id_of_getElem? hsome, ?_⟩
    rw [family, c.familyOf_eq, List.getD_eq_getElem?_getD, List.getElem?_map, hsome]
    rfl
  · cases h

theorem mem_sounds_of_get {id : Nat} {sound : Sound} (h : c.get id = .ok sound) :
    sound ∈ c.sounds := by
  unfold get at h
  split at h
  · next hsome =>
    cases h
    exact List.mem_of_getElem? hsome
  · cases h

/-- A sound that is in the catalog is given. -/
theorem exists_get {id : Nat} (h : id < c.size) : ∃ sound, c.get id = .ok sound := by
  have hlt : id < c.sounds.length := h
  exact ⟨c.sounds[id], by rw [get, List.getElem?_eq_getElem hlt]⟩

/-- The sounds that are taken and those that are left are together all of them. -/
theorem length_eligible (c : Catalog) (taken : List Nat) :
    (taken.filter (· < c.size)).dedup.length + (c.eligible taken).length = c.size := by
  have hperm : ((taken.filter (· < c.size)).dedup ++ c.eligible taken).Perm
      (List.range c.size) := by
    refine (List.perm_ext_iff_of_nodup ?_ List.nodup_range).mpr fun id => ?_
    · rw [List.nodup_append]
      refine ⟨List.nodup_dedup _, List.nodup_range.filter _, ?_⟩
      intro id hid id' hid' heq
      rw [List.mem_dedup, List.mem_filter] at hid
      exact (mem_eligible.mp hid').2 (heq ▸ hid.1)
    · rw [List.mem_append, List.mem_dedup, List.mem_filter, mem_eligible, List.mem_range,
        decide_eq_true_eq]
      by_cases hid : id ∈ taken <;> simp [hid]
  rw [← List.length_append, hperm.length_eq, List.length_range]

theorem familyOf_getElem? {id : Nat} (h : id < c.size) : c.familyOf[id]? = some (c.family id) := by
  rw [← c.length_familyOf] at h
  rw [family, List.getD_eq_getElem?_getD, List.getElem?_eq_getElem h, Option.getD_some]

theorem family_lt {id : Nat} (h : id < c.size) : c.family id < c.familyCount :=
  c.familyOf_lt _ (List.mem_of_getElem? (familyOf_getElem? h))

/-! ## Catalogs of given sounds -/

section Made

variable {sounds : List Sound}

theorem getElem?_renumber (sounds : List Sound) (i : Nat) :
    (renumber sounds)[i]? = sounds[i]?.map fun s : Sound => { s with id := i } := by
  rw [renumber, List.getElem?_map, List.getElem?_zipIdx, Option.map_map, Nat.zero_add]
  rfl

/-- A catalog is made of any sounds whose instruments are not blank. -/
theorem exists_ofSounds (hne : sounds ≠ [])
    (hnamed : ∀ s ∈ sounds, Text.blank s.instrument = false) :
    ∃ c, ofSounds sounds = .ok c ∧ c.sounds = renumber sounds := by
  have hempty : renumber sounds ≠ [] := by
    rw [← List.length_pos_iff, length_renumber, List.length_pos_iff]
    exact hne
  have hfind : (renumber sounds).find? (fun s => Text.blank s.instrument) = none := by
    refine List.find?_eq_none.mpr fun s hs => ?_
    have hmem : s.instrument ∈ sounds.map (·.instrument) := by
      rw [← instruments_renumber]
      exact List.mem_map_of_mem hs
    obtain ⟨s', hs', heq⟩ := List.mem_map.mp hmem
    rw [← heq, hnamed s' hs']
    exact Bool.false_ne_true
  unfold ofSounds
  rw [dif_neg hempty]
  split
  · next s hs =>
    rw [hfind] at hs
    cases hs
  · exact ⟨_, rfl, rfl⟩

/-- The sounds of a catalog that is made of others are those, with new identifiers. -/
theorem sounds_of_ofSounds (h : ofSounds sounds = .ok c) : c.sounds = renumber sounds := by
  unfold ofSounds at h
  split at h
  · cases h
  · split at h
    · cases h
    · cases h
      rfl

end Made

/-- Catalogs of the same sounds are the same, as all else is derived from the sounds. -/
theorem eq_of_sounds_eq {c c' : Catalog} (h : c.sounds = c'.sounds) : c = c' := by
  have hfamilies : c.families = c'.families := by rw [c.families_eq, c'.families_eq, h]
  have hfamilyOf : c.familyOf = c'.familyOf := by
    rw [c.familyOf_eq, c'.familyOf_eq, h, hfamilies]
  cases c
  cases c'
  simp only [mk.injEq]
  exact ⟨h, hfamilies, hfamilyOf⟩

/-- The sounds of a catalog keep their identifiers. -/
theorem renumber_sounds (c : Catalog) : renumber c.sounds = c.sounds := by
  refine List.ext_getElem? fun i => ?_
  rw [getElem?_renumber]
  cases h : c.sounds[i]? with
  | none => rfl
  | some s => rw [Option.map_some, ← id_of_getElem? h]

/-- A catalog is made of its own sounds. -/
theorem ofSounds_sounds (c : Catalog) : ofSounds c.sounds = .ok c := by
  obtain ⟨c', hc', hsounds⟩ := exists_ofSounds c.sounds_ne_nil c.named
  rw [renumber_sounds] at hsounds
  rw [hc', eq_of_sounds_eq hsounds]

/-- Two sounds of two families. -/
def duet : Catalog where
  sounds := [.ofInstrument 0 "flute", .ofInstrument 1 "oboe"]
  families := ["flute", "oboe"]
  familyOf := [0, 1]
  sounds_ne_nil := by simp
  ids := rfl
  named := by decide
  families_eq := by decide
  familyOf_eq := by decide

/-- Three sounds of one family. -/
def unison : Catalog where
  sounds := [.ofInstrument 0 "flute", .ofInstrument 1 "flute", .ofInstrument 2 "flute"]
  families := ["flute"]
  familyOf := [0, 0, 0]
  sounds_ne_nil := by simp
  ids := rfl
  named := by decide
  families_eq := by decide
  familyOf_eq := by decide

/-- Two sounds of one family and one of another, which comes first by name. -/
def winds : Catalog where
  sounds := [.ofInstrument 0 "oboe", .ofInstrument 1 "flute", .ofInstrument 2 "oboe"]
  families := ["flute", "oboe"]
  familyOf := [1, 0, 1]
  sounds_ne_nil := by simp
  ids := rfl
  named := by decide
  families_eq := by decide
  familyOf_eq := by decide

end Catalog

end SoundScenes
