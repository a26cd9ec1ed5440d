import SoundScenes.Proofs.Scene.Instruments
import Mathlib.Algebra.BigOperators.Group.Finset.Sigma
import Mathlib.Data.List.GetD
import Mathlib.Data.List.Induction

/-!
# Sizes of families

A catalog numbers its families, and its summary lists them by name with their sizes. Both count the
same: the summary lists exactly the families of the catalog, each with the number of its sounds.

* `Summary.families_ofSounds` — the entries of a summary;
* `Summary.listed_ofSounds` — the sizes of the families add up to the number of sounds;
* `Summary.familiesWithAtLeast_mul_le` — the sounds that large families hold at least;
* `Catalog.familiesWithAtLeast_summary` — the large families, by their numbers;
* `Catalog.count_family_le` — different sounds of one family are at most all of them.
-/

namespace SoundScenes

theorem foldr_map_eq_sum {α : Type} [DecidableEq α] {items : List α} (h : items.Nodup)
    (f : α → Nat) : (items.map f).foldr (· + ·) 0 = ∑ a ∈ items.toFinset, f a := by
  rw [List.sum_toFinset f h, List.sum_eq_foldr]

namespace Summary

/-! ## Entries of a summary -/

/-- The names of a summary are inserted like those of a catalog. -/
theorem map_family_countFamily (name : String) (entries : List FamilySize) :
    (countFamily name entries).map (·.family) = insertName name (entries.map (·.family)) := by
  induction entries with
  | nil => rfl
  | cons f entries ih =>
    rw [List.map_cons, countFamily, insertName]
    split
    · rfl
    · split
      · rfl
      · rw [List.map_cons, ih]

theorem map_family_ofSounds (sounds : List Sound) :
    (ofSounds sounds).families.map (·.family) = familyNames sounds := by
  -- the entries so far are kept open for the induction
  have hfold (sounds : List Sound) (entries : List FamilySize) :
      (sounds.foldl (fun es s => countFamily s.instrument es) entries).map (·.family) =
        sounds.foldl (fun names s => insertName s.instrument names) (entries.map (·.family)) := by
    induction sounds generalizing entries with
    | nil => rfl
    | cons s sounds ih => rw [List.foldl_cons, ih, map_family_countFamily, List.foldl_cons]
  exact hfold sounds []

/-- Counting one more sound of a family changes the entry of that family only. -/
theorem mem_countFamily {name : String} {entries : List FamilySize} {f : FamilySize}
    (hsorted : (entries.map (·.family)).Pairwise (· < ·)) (hf : f ∈ countFamily name entries) :
    f.family ≠ name ∧ f ∈ entries ∨
      f.family = name ∧ name ∉ entries.map (·.family) ∧ f.sounds = 1 ∨
      f.family = name ∧ ∃ g ∈ entries, g.family = name ∧ f.sounds = g.sounds + 1 := by
  induction entries with
  | nil =>
    rw [countFamily, List.mem_singleton] at hf
    subst hf
    exact .inr (.inl ⟨rfl, List.not_mem_nil, rfl⟩)
  | cons e entries ih =>
    rw [List.map_cons, List.pairwise_cons] at hsorted
    obtain ⟨hfirst, hsorted⟩ := hsorted
    have hrest (g : FamilySize) (hg : g ∈ entries) : e.family < g.family :=
      hfirst _ (List.mem_map_of_mem hg)
    rw [countFamily] at hf
    split at hf
    · next hlt =>
      -- the name comes before all others
      have hnew (g : FamilySize) (hg : g ∈ e :: entries) : g.family ≠ name := by
        rcases List.mem_cons.mp hg with rfl | hg
        · exact hlt.ne'
        · exact (hlt.trans (hrest g hg)).ne'
      rcases List.mem_cons.mp hf with rfl | hf
      · refine .inr (.inl ⟨rfl, fun hmem => ?_, rfl⟩)
        obtain ⟨g, hg, heq⟩ := List.mem_map.mp hmem
        exact hnew g hg heq
      · exact .inl ⟨hnew f hf, hf⟩
    · next hnlt =>
      split at hf
      · next heq =>
        rcases List.mem_cons.mp hf with rfl | hf
        · exact .inr (.inr ⟨heq.symm, e, List.mem_cons_self, heq.symm, rfl⟩)
        · exact .inl ⟨heq ▸ (hrest f hf).ne', List.mem_cons_of_mem _ hf⟩
      · next hne =>
        rcases List.mem_cons.mp hf with rfl | hf
        · exact .inl ⟨Ne.symm hne, List.mem_cons_self⟩
        · rcases ih hsorted hf with ⟨hother, hmem⟩ | ⟨hname, hmem, hone⟩ | ⟨hname, g, hg, hsame⟩
          · exact .inl ⟨hother, List.mem_cons_of_mem _ hmem⟩
          · refine .inr (.inl ⟨hname, ?_, hone⟩)
            rw [List.map_cons, List.mem_cons, not_or]
            exact ⟨hne, hmem⟩
          · exact .inr (.inr ⟨hname, g, List.mem_cons_of_mem _ hg, hsame⟩)

/-- An entry of a summary holds the number of the sounds of its family. -/
theorem sounds_of_mem (sounds : List Sound) {f : FamilySize}
    (hf : f ∈ (ofSounds sounds).families) :
    f.sounds = (sounds.map (·.instrument)).count f.family := by
  induction sounds using List.reverseRecOn generalizing f with
  | nil => cases hf
  | append_singleton sounds s ih =>
    have hcount : (ofSounds (sounds ++ [s])).families =
        countFamily s.instrument (ofSounds sounds).families := by
      rw [ofSounds, List.foldl_append]
      rfl
    rw [hcount] at hf
    have hsorted := map_family_ofSounds sounds ▸ sorted_familyNames sounds
    rw [List.map_append, List.count_append, List.map_singleton]
    rcases mem_countFamily hsorted hf with
      ⟨hother, hf⟩ | ⟨hname, hnew, hone⟩ | ⟨hname, g, hg, hsame, hmore⟩
    · rw [← ih hf, List.count_singleton, if_neg (by simpa using Ne.symm hother), Nat.add_zero]
    · rw [map_family_ofSounds, mem_familyNames] at hnew
      rw [hname, List.count_eq_zero_of_not_mem hnew, List.count_singleton_self, hone]
    · rw [hname, ← hsame, ← ih hg, hsame, List.count_singleton_self, hmore]

/-- A summary lists every family once, in order, with the number of its sounds. -/
theorem families_ofSounds (sounds : List Sound) :
    (ofSounds sounds).families =
      (familyNames sounds).map fun name => ⟨name, (sounds.map (·.instrument)).count name⟩ := by
  rw [← map_family_ofSounds, List.map_map]
  refine (List.map_id _).symm.trans (List.map_congr_left fun f hf => ?_)
  exact congrArg (FamilySize.mk f.family) (sounds_of_mem sounds hf)

/-! ## Sounds that are listed -/

/-- The number of sounds in all families together. -/
def listed (s : Summary) : Nat := (s.families.map (·.sounds)).foldr (· + ·) 0

/-- The sizes of the families add up to the number of sounds. -/
theorem listed_ofSounds (sounds : List Sound) :
    (ofSounds sounds).listed = (ofSounds sounds).total := by
  have hnodup : (familyNames sounds).Nodup := (sorted_familyNames sounds).imp fun h => ne_of_lt h
  have hsizes : (ofSounds sounds).families.map (·.sounds) =
      (familyNames sounds).map fun name => (sounds.map (·.instrument)).count name := by
    rw [families_ofSounds, List.map_map]
    rfl
  have hsum := Multiset.sum_count_eq_card (s := (familyNames sounds).toFinset)
    (m := ((sounds.map (·.instrument) : List String) : Multiset String)) fun name hname =>
      List.mem_toFinset.mpr (mem_familyNames.mpr (Multiset.mem_coe.mp hname))
  simp only [Multiset.coe_count, Multiset.coe_card, List.length_map] at hsum
  rw [listed, hsizes, foldr_map_eq_sum hnodup, hsum]
  rfl

/-- The large families alone hold as many times the number of sounds that makes them large. -/
theorem familiesWithAtLeast_mul_le (s : Summary) (n : Nat) :
    s.familiesWithAtLeast n * n ≤ s.listed := by
  unfold familiesWithAtLeast listed
  induction s.families with
  | nil => exact Nat.le_of_eq (Nat.zero_mul n)
  | cons f families ih =>
    rw [List.filter_cons, List.map_cons, List.foldr_cons]
    split
    · next h =>
      have hsounds : n ≤ f.sounds := of_decide_eq_true h
      rw [List.length_cons, Nat.succ_mul]
      omega
    · omega

end Summary

/-! ## Families by number -/

namespace Catalog

variable {c : Catalog} {family : Nat}

theorem familyCount_summary (c : Catalog) : c.summary.familyCount = c.familyCount := by
  rw [Summary.familyCount, summary, Summary.families_ofSounds, List.length_map, familyCount,
    c.families_eq]

theorem familySize_eq (hf : family < c.families.length) :
    c.familySize family = (c.sounds.map (·.instrument)).count c.families[family] := by
  have hfamilies : c.familyOf = (c.sounds.map (·.instrument)).map c.families.idxOf := by
    rw [c.familyOf_eq, List.map_map]
    rfl
  rw [familySize, hfamilies, count_idxOf c.nodup_families hf]

/-- The summary lists as many large families as there are numbers of such families. -/
theorem familiesWithAtLeast_summary (c : Catalog) (n : Nat) :
    c.summary.familiesWithAtLeast n =
      ((List.range c.familyCount).filter fun f => n ≤ c.familySize f).length := by
  have hnames : c.families = (List.range c.familyCount).map fun f => c.families.getD f "" := by
    refine List.ext_getElem (by rw [List.length_map, List.length_range, familyCount]) ?_
    intro f hf _
    rw [List.getElem_map, List.getElem_range, List.getD_eq_getElem _ _ hf]
  rw [Summary.familiesWithAtLeast, summary, Summary.families_ofSounds, List.filter_map,
    List.length_map, ← c.families_eq]
  conv_lhs => rw [hnames, List.filter_map, List.length_map]
  refine congrArg List.length (List.filter_congr fun f hf => ?_)
  have hlt : f < c.families.length := List.mem_range.mp hf
  rw [Function.comp_apply, Function.comp_apply, familySize_eq hlt, List.getD_eq_getElem _ _ hlt]

/-! ## Sounds of a family -/

/-- The sounds of a family, in the order of the catalog. -/
def members (c : Catalog) (family : Nat) : List Nat :=
  (List.range c.size).filter fun id => c.family id = family

theorem mem_members {id : Nat} : id ∈ c.members family ↔ id < c.size ∧ c.family id = family := by
  rw [members, List.mem_filter, List.mem_range, decide_eq_true_eq]

theorem nodup_members (c : Catalog) (family : Nat) : (c.members family).Nodup :=
  List.nodup_range.filter _

theorem familyOf_eq_map (c : Catalog) : c.familyOf = (List.range c.size).map c.family := by
  refine List.ext_getElem (by rw [c.length_familyOf, List.length_map, List.length_range]) ?_
  intro id hid _
  have hget := familyOf_getElem? (c.length_familyOf ▸ hid)
  rw [List.getElem?_eq_getElem hid] at hget
  rw [List.getElem_map, List.getElem_range]
  exact Option.some.inj hget

theorem length_members (c : Catalog) (family : Nat) :
    (c.members family).length = c.familySize family := by
  rw [members, familySize, familyOf_eq_map, List.count, List.countP_map,
    List.countP_eq_length_filter]
  rfl

/-- Every family of a catalog has a sound. -/
theorem familySize_pos (hf : family < c.familyCount) : 0 < c.familySize family := by
  have hlt : family < c.families.length := hf
  rw [familySize_eq hlt, List.count_pos_iff, ← mem_familyNames, ← c.families_eq]
  exact List.getElem_mem hlt

/-- Different sounds of one family are at most all of them. -/
theorem count_family_le {ids : List Nat} (hnodup : ids.Nodup) (hlt : ∀ id ∈ ids, id < c.size)
    (family : Nat) : (ids.map c.family).count family ≤ c.familySize family := by
  have hsub : ids.filter (fun id => c.family id = family) ⊆ c.members family := by
    intro id hid
    obtain ⟨hid, hfamily⟩ := List.mem_filter.mp hid
    exact mem_members.mpr ⟨hlt id hid, of_decide_eq_true hfamily⟩
  have hle := ((hnodup.filter _).subperm hsub).length_le
  rw [length_members] at hle
  rw [List.count, List.countP_map, List.countP_eq_length_filter]
  exact hle

end Catalog

end SoundScenes
