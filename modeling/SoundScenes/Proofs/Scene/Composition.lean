import SoundScenes.Proofs.Catalog.Sizes
import SoundScenes.Proofs.Scene.Places

/-!
# Scenes that are put together

A scene for given constraints: it begins with the quota of sounds of each of some large families,
one family after another, goes on with one sound of each of some other families, and is filled with
whatever is left. As the large families come first and whole, their number at the quota grows as
fast as it can.

* `Catalog.exists_selection` — families for the scene;
* `Catalog.pick` — so many sounds of each of some families;
* `Catalog.compose` — the scene;
* `Catalog.length_le_distinct_compose` — the families of the scene;
* `Catalog.min_le_meeting_compose` — the families at the quota in every beginning of the scene.
-/

namespace SoundScenes.Catalog

variable {c : Catalog} {n id family : Nat} {families : List Nat}

/-! ## Some families -/

/-- Of so many families some are left beside those that are chosen. -/
theorem le_length_others (chosen : List Nat) (n : Nat) :
    n ≤ chosen.length + ((List.range n).filter fun f => f ∉ chosen).length := by
  have hinside : ((List.range n).filter fun f => f ∈ chosen).length ≤ chosen.length := by
    refine ((List.nodup_range.filter _).subperm fun f hf => ?_).length_le
    exact of_decide_eq_true (List.mem_filter.mp hf).2
  have hall := List.length_eq_length_filter_add (l := List.range n) fun f => decide (f ∈ chosen)
  simp only [← decide_not] at hall
  rw [List.length_range] at hall
  omega

/-- So many large families, and others, as far as there are any. -/
theorem exists_selection (c : Catalog) {present reaching quota : Nat}
    (hpresent : present ≤ c.familyCount)
    (hreaching : reaching ≤ c.summary.familiesWithAtLeast quota) :
    ∃ chosen others : List Nat, (chosen ++ others).Nodup ∧ chosen.length = reaching ∧
      others.length = present - reaching ∧
      (∀ f ∈ chosen, f < c.familyCount ∧ quota ≤ c.familySize f) ∧
      ∀ f ∈ others, f < c.familyCount := by
  rw [familiesWithAtLeast_summary] at hreaching
  let large := (List.range c.familyCount).filter fun f => quota ≤ c.familySize f
  let rest := (List.range c.familyCount).filter fun f => f ∉ large.take reaching
  have hlength : (large.take reaching).length = reaching := List.length_take_of_le hreaching
  have hrest : c.familyCount ≤ (large.take reaching).length + rest.length :=
    le_length_others _ _
  refine ⟨large.take reaching, rest.take (present - reaching), ?_, hlength, ?_, ?_, ?_⟩
  · refine List.nodup_append.mpr ⟨?_, ?_, ?_⟩
    · exact (List.nodup_range.filter _).sublist (List.take_sublist _ _)
    · exact (List.nodup_range.filter _).sublist (List.take_sublist _ _)
    · rintro f hf _ hf' rfl
      exact of_decide_eq_true (List.mem_filter.mp (List.mem_of_mem_take hf')).2 hf
  · rw [hlength] at hrest
    exact List.length_take_of_le (by omega)
  · intro f hf
    obtain ⟨hf, hsize⟩ := List.mem_filter.mp (List.mem_of_mem_take hf)
    exact ⟨List.mem_range.mp hf, of_decide_eq_true hsize⟩
  · intro f hf
    exact List.mem_range.mp (List.mem_filter.mp (List.mem_of_mem_take hf)).1

/-! ## Sounds of some families -/

/-- So many sounds of each of some families, one family after another. -/
def pick (c : Catalog) (n : Nat) (families : List Nat) : List Nat :=
  families.flatMap fun f => (c.members f).take n

theorem mem_pick (h : id ∈ c.pick n families) : id < c.size ∧ c.family id ∈ families := by
  obtain ⟨f, hf, hid⟩ := List.mem_flatMap.mp h
  obtain ⟨hlt, rfl⟩ := mem_members.mp (List.mem_of_mem_take hid)
  exact ⟨hlt, hf⟩

theorem nodup_pick (c : Catalog) (n : Nat) (h : families.Nodup) : (c.pick n families).Nodup := by
  refine List.nodup_flatMap.mpr ⟨fun f _ => (c.nodup_members f).sublist (List.take_sublist n _), ?_⟩
  refine h.imp fun {f g} hne => ?_
  -- a sound has one family
  intro id hf hg
  have hf := (mem_members.mp (List.mem_of_mem_take hf)).2
  have hg := (mem_members.mp (List.mem_of_mem_take hg)).2
  exact hne (hf.symm.trans hg)

theorem pick_append (c : Catalog) (n : Nat) (families families' : List Nat) :
    c.pick n (families ++ families') = c.pick n families ++ c.pick n families' :=
  List.flatMap_append

theorem length_pick_le (c : Catalog) (n : Nat) (families : List Nat) :
    (c.pick n families).length ≤ families.length * n := by
  induction families with
  | nil => exact Nat.zero_le _
  | cons f families ih =>
    rw [pick, List.flatMap_cons, List.length_append, List.length_cons, Nat.succ_mul, Nat.add_comm]
    exact Nat.add_le_add ih (List.length_take_le n _)

/-- A family that is large enough occurs as often as was asked for. -/
theorem le_count_pick (hfamily : family ∈ families) (hn : n ≤ c.familySize family) :
    n ≤ ((c.pick n families).map c.family).count family := by
  have hblock : ((c.members family).take n).map c.family = List.replicate n family := by
    refine List.eq_replicate_iff.mpr ⟨?_, ?_⟩
    · rw [List.length_map, List.length_take_of_le]
      rwa [length_members]
    · intro f hf
      obtain ⟨id, hid, rfl⟩ := List.mem_map.mp hf
      exact (mem_members.mp (List.mem_of_mem_take hid)).2
  have hsub : ((c.members family).take n).Sublist (c.pick n families) :=
    List.sublist_flatten_of_mem (List.mem_map_of_mem hfamily)
  have hle := (hsub.map c.family).count_le family
  rwa [hblock, List.count_replicate_self] at hle

/-! ## Whole scenes -/

/-- The quota of sounds of each of some families, a sound of each of some others, and then whatever
is left. -/
def compose (c : Catalog) (length quota : Nat) (chosen others : List Nat) : List Nat :=
  let front := c.pick quota chosen ++ c.pick 1 others
  front ++ (c.eligible front).take (length - front.length)

section Compose

variable {length quota : Nat} {chosen others : List Nat}

theorem nodup_front (h : (chosen ++ others).Nodup) :
    (c.pick quota chosen ++ c.pick 1 others).Nodup := by
  obtain ⟨hchosen, hothers, hdisjoint⟩ := List.nodup_append.mp h
  refine List.nodup_append.mpr ⟨c.nodup_pick quota hchosen, c.nodup_pick 1 hothers, ?_⟩
  rintro id hid _ hid' rfl
  exact hdisjoint _ (mem_pick hid).2 _ (mem_pick hid').2 rfl

theorem front_lt {id : Nat} (h : id ∈ c.pick quota chosen ++ c.pick 1 others) : id < c.size := by
  rcases List.mem_append.mp h with h | h
  · exact (mem_pick h).1
  · exact (mem_pick h).1

theorem lt_size_of_mem_compose {id : Nat} (h : id ∈ c.compose length quota chosen others) :
    id < c.size := by
  rcases List.mem_append.mp h with h | h
  · exact front_lt h
  · exact (mem_eligible.mp (List.mem_of_mem_take h)).1

theorem nodup_compose (h : (chosen ++ others).Nodup) :
    (c.compose length quota chosen others).Nodup := by
  refine List.nodup_append.mpr ⟨nodup_front h, ?_, ?_⟩
  · exact (List.nodup_range.filter _).sublist (List.take_sublist _ _)
  · rintro id hid _ hid' rfl
    exact (mem_eligible.mp (List.mem_of_mem_take hid')).2 hid

/-- There are as many sounds as the scene has places, so that it can be filled. -/
theorem length_compose (h : (chosen ++ others).Nodup)
    (hfits : chosen.length * quota + others.length ≤ length) (hsize : length ≤ c.size) :
    (c.compose length quota chosen others).length = length := by
  have hchosen := c.length_pick_le quota chosen
  have hothers := c.length_pick_le 1 others
  have hleft := c.length_eligible (c.pick quota chosen ++ c.pick 1 others)
  rw [List.filter_eq_self.mpr fun id hid => decide_eq_true (front_lt hid),
    (nodup_front h).dedup, List.length_append] at hleft
  rw [compose, List.length_append, List.length_take, List.length_append]
  omega

/-- Every family that was asked for is present. -/
theorem length_le_distinct_compose (h : (chosen ++ others).Nodup) (hquota : 0 < quota)
    (hlarge : ∀ f ∈ chosen, f < c.familyCount ∧ quota ≤ c.familySize f)
    (hothers : ∀ f ∈ others, f < c.familyCount) :
    (chosen ++ others).length ≤ (Histogram.ofFamilies c.familyCount quota
      ((c.compose length quota chosen others).map c.family)).distinct := by
  refine Histogram.length_le_distinct quota h fun f hf => ?_
  rw [compose, List.map_append, List.map_append, List.count_append, List.count_append]
  rcases List.mem_append.mp hf with hf | hf
  · obtain ⟨hlt, hsize⟩ := hlarge f hf
    have hcount := le_count_pick hf hsize
    exact ⟨hlt, by omega⟩
  · have hlt := hothers f hf
    have hcount : 1 ≤ ((c.pick 1 others).map c.family).count f :=
      le_count_pick hf (familySize_pos hlt)
    exact ⟨hlt, by omega⟩

/-- A beginning of the scene holds as many whole families as there is room for. -/
theorem pick_begins (j : Nat) :
    c.pick quota (chosen.take j) <+: c.compose length quota chosen others := by
  have hsplit := c.pick_append quota (chosen.take j) (chosen.drop j)
  rw [List.take_append_drop] at hsplit
  rw [compose, hsplit, List.append_assoc, List.append_assoc]
  exact List.prefix_append _ _

/-- In every beginning of the scene as many families reach the quota as it has room for. -/
theorem min_le_meeting_compose (h : chosen.Nodup)
    (hlarge : ∀ f ∈ chosen, f < c.familyCount ∧ quota ≤ c.familySize f) (k : Nat) :
    min chosen.length (k / quota) ≤ (Histogram.ofFamilies c.familyCount quota
      (((c.compose length quota chosen others).take k).map c.family)).meeting := by
  have hblocks : (c.pick quota (chosen.take (k / quota))).length ≤ k := by
    have hle := c.length_pick_le quota (chosen.take (k / quota))
    have htake := List.length_take_le (k / quota) chosen
    exact hle.trans ((Nat.mul_le_mul_right quota htake).trans (Nat.div_mul_le_self k quota))
  have hbegins : c.pick quota (chosen.take (k / quota)) <+:
      (c.compose length quota chosen others).take k :=
    List.prefix_take_iff.mpr ⟨pick_begins _, hblocks⟩
  rw [Nat.min_comm, ← List.length_take]
  refine Histogram.length_le_meeting (h.sublist (List.take_sublist _ _)) fun f hf => ?_
  obtain ⟨hlt, hsize⟩ := hlarge f (List.mem_of_mem_take hf)
  refine ⟨hlt, (le_count_pick hf hsize).trans ?_⟩
  exact (hbegins.sublist.map c.family).count_le f

end Compose

end SoundScenes.Catalog
