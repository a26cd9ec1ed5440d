import SoundScenes.Proofs.Agreement

/-!
# Sizes of splits and the places they give

Both sizes are rounded on their own, from a number of scenes that may have been rounded itself, and
the share can be any number, or none. What is rounded always fits a word; it is then held within
what is left, so that no difference stops at zero and nothing is left over. Along the positions the
splits follow one another, each as long as its size says.

* `Decimal.toCount_lt` — a rounded count fits a word;
* `SplitSizes.map_splitAt_range` — the splits of all positions in order;
* `SplitSizes.part_eq_filter` — the items of a split are those at its positions;
* `SplitSizes.compute_covers` — the sizes for any number of scenes and any share.
-/

namespace SoundScenes

/-- Whatever the number, its rounded count fits a word. -/
theorem Decimal.toCount_lt (x : Float) : Decimal.toCount x < UInt64.size := by
  have hlimit : countLimit < UInt64.size := by decide
  unfold toCount
  split
  · decide
  · split
    · decide
    · split
      · exact hlimit
      · exact Nat.lt_of_le_of_lt (Nat.min_le_right _ _) hlimit

/-- A number that must fit a word. -/
def word? (n : Nat) : Option Nat := if n < UInt64.size then some n else none

theorem word?_eq {n : Nat} (h : n < UInt64.size) : word? n = some n := if_pos h

namespace SplitSizes

/-- `total`, where every sum must fit a word. -/
def total? (s : SplitSizes) : Option Nat := do word? ((← word? (s.train + s.val)) + s.test)

/-- `splitAt`, where the sum that it looks at must fit a word. -/
def splitAt? (s : SplitSizes) (position : Nat) : Option Split :=
  if position < s.train then some .train
  else do return if position < (← word? (s.train + s.val)) then .val else .test

variable {s : SplitSizes}

theorem total?_eq (h : s.total < UInt64.size) : s.total? = some s.total := by
  have hfront : s.train + s.val < UInt64.size := Nat.lt_of_le_of_lt (Nat.le_add_right _ _) h
  rw [total?, word?_eq hfront]
  exact word?_eq h

theorem splitAt?_eq (h : s.total < UInt64.size) (position : Nat) :
    s.splitAt? position = some (s.splitAt position) := by
  have hfront : s.train + s.val < UInt64.size := Nat.lt_of_le_of_lt (Nat.le_add_right _ _) h
  unfold splitAt? splitAt
  rw [word?_eq hfront]
  split
  · rfl
  · rfl

/-! ## Positions -/

/-- Along the positions the splits follow one another, each as long as its size. -/
theorem map_splitAt_range (s : SplitSizes) : (List.range s.total).map s.splitAt =
    List.replicate s.train .train ++ List.replicate s.val .val ++ List.replicate s.test .test := by
  have hsplit (split : Split) : (List.range (s.get split)).map (fun i =>
      s.splitAt (s.start split + i)) = List.replicate (s.get split) split := by
    refine List.eq_replicate_iff.mpr ⟨by simp, ?_⟩
    intro found hfound
    obtain ⟨i, hi, rfl⟩ := List.mem_map.mp hfound
    exact splitAt_start_add (List.mem_range.mp hi)
  -- positions are counted from the start of the split that they belong to
  rw [total, List.range_add, List.range_add, List.map_append, List.map_append, List.map_map,
    List.map_map]
  refine congr (congrArg _ (congr (congrArg _ ?_) (hsplit .val))) (hsplit .test)
  simpa [start, get] using hsplit .train

/-! ## Items -/

variable {α : Type} {items : List α}

/-- Of items that stand at positions of one split, another split has none. -/
theorem filter_zipIdx_eq (items : List α) {k : Nat} {own : Split}
    (h : ∀ i < items.length, s.splitAt (k + i) = own) (split : Split) :
    ((items.zipIdx k).filter fun item => s.splitAt item.2 = split).map (·.1) =
      if own = split then items else [] := by
  have hown {item : α × Nat} (hitem : item ∈ items.zipIdx k) : s.splitAt item.2 = own := by
    obtain ⟨hle, hlt, -⟩ := List.mem_zipIdx hitem
    rw [← h (item.2 - k) (by omega), Nat.add_sub_cancel' hle]
  by_cases heq : own = split
  · rw [if_pos heq, List.filter_eq_self.mpr fun item hitem =>
      decide_eq_true ((hown hitem).trans heq), List.zipIdx_map_fst]
  · have hnone : ((items.zipIdx k).filter fun item => s.splitAt item.2 = split) = [] :=
      List.filter_eq_nil_iff.mpr fun item hitem => by simp [hown hitem, heq]
    rw [if_neg heq, hnone, List.map_nil]

/-- The items of a split are those at the positions that belong to it. -/
theorem part_eq_filter (h : s.total = items.length) (split : Split) :
    s.part items split =
      (items.zipIdx.filter fun item => s.splitAt item.2 = split).map (·.1) := by
  have hpart (own : Split) := filter_zipIdx_eq (s.part items own) (splitAt_part h own) split
  rw [zipIdx_eq_append h, List.filter_append, List.filter_append, List.map_append, List.map_append,
    hpart .train, hpart .val, hpart .test]
  cases split <;> simp

/-! ## Computed sizes -/

/-- **The sizes of the splits cover all scenes.** Whatever the number of scenes, as long as it fits a
word, and whatever the share, no rounded count and no sum leaves a word and no difference stops at
zero. The sizes add up to the number of scenes; along the positions the scenes for training come
first, then those for validation and then those for testing, each split as many times as its size
says; and the parts of a dataset are the scenes at these positions. -/
theorem compute_covers (total : Nat) (h : total < UInt64.size) (ratio : Float) :
    let sizes := compute total ratio
    (∀ x, Decimal.toCount x < UInt64.size) ∧ compute? total ratio = some sizes ∧
      sizes.total? = some total ∧
      (List.range total).mapM sizes.splitAt? =
        some (List.replicate sizes.train .train ++ List.replicate sizes.val .val ++
          List.replicate sizes.test .test) ∧
      ∀ scenes : List (List Nat), scenes.length = total → ∀ split, sizes.part scenes split =
        (scenes.zipIdx.filter fun scene => sizes.splitAt scene.2 = split).map (·.1) := by
  intro sizes
  have htotal : sizes.total = total := total_compute total ratio
  have hfits : sizes.total < UInt64.size := htotal ▸ h
  refine ⟨Decimal.toCount_lt, compute?_eq total ratio, ?_, ?_, ?_⟩
  · rw [total?_eq hfits, htotal]
  · rw [funext (splitAt?_eq hfits), ← htotal, ← map_splitAt_range]
    exact List.mapM_pure
  · intro scenes hscenes split
    exact part_eq_filter (htotal.trans hscenes.symm) split

/-- A number of scenes may be one less than the float nearest to it, and still all of them are for
training if the share says so. If the share is no number, all are for testing. -/
theorem compute_covers_rounded :
    let total := 9007199254740995
    let sizes := compute total 1
    Decimal.toCount (Float.ofNat total) = total + 1 ∧ sizes = ⟨total, 0, 0⟩ ∧
      sizes.total? = some total ∧
      (List.range 5).mapM (compute 5 0.5).splitAt? = some [.train, .train, .val, .test, .test] ∧
      (List.range 3).mapM (compute 3 (0 / 0)).splitAt? = some [.test, .test, .test] := by
  intro total sizes
  obtain ⟨-, -, htotal, -, -⟩ := compute_covers total (by decide) 1
  obtain ⟨-, -, -, hhalves, -⟩ := compute_covers 5 (by decide) 0.5
  obtain ⟨-, -, -, hnone, -⟩ := compute_covers 3 (by decide) (0 / 0)
  have hsizes : compute 5 0.5 = ⟨2, 1, 2⟩ := by decide
  have hsizes' : compute 3 (0 / 0) = ⟨0, 0, 3⟩ := by decide
  refine ⟨by decide, by decide, htotal, ?_, ?_⟩
  · rw [hhalves, hsizes]
    rfl
  · rw [hnone, hsizes']
    rfl

end SplitSizes

end SoundScenes
