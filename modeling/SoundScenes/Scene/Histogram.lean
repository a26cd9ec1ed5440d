import SoundScenes.Catalog

/-!
# Family histograms

How many sounds of each family a scene holds, with the number of families that are present and the
number of those that reach a quota. Both numbers are kept up to date as sounds come and go.

* `Histogram.push`, `Histogram.pop` — one sound of a family more or less;
* `Histogram.ofCounts` — the histogram with given counts, where both numbers are counted afresh;
* `Histogram.ofScene` — the histogram of a scene.
-/

namespace SoundScenes

/-- Counts by family, and what follows from them. -/
structure Histogram where
  counts : List Nat
  /-- The sounds that a family needs to reach the quota. -/
  quota : Nat
  /-- The number of families that are present. -/
  distinct : Nat
  /-- The number of families that reach the quota, unless it is zero. -/
  reached : Nat
  deriving DecidableEq, Repr

namespace Histogram

/-- The histogram with given counts. -/
def ofCounts (counts : List Nat) (quota : Nat) : Histogram where
  counts := counts
  quota := quota
  distinct := counts.countP fun n => 0 < n
  reached := counts.countP fun n => 0 < quota ∧ quota ≤ n

/-- No sounds of so many families. -/
def empty (families quota : Nat) : Histogram := ⟨List.replicate families 0, quota, 0, 0⟩

/-- One more sound of a family. -/
def push (h : Histogram) (family : Nat) : Histogram :=
  match h.counts[family]? with
  | none => h
  | some n => {
      counts := h.counts.set family (n + 1)
      quota := h.quota
      distinct := if n = 0 then h.distinct + 1 else h.distinct
      reached := if n + 1 = h.quota then h.reached + 1 else h.reached }

/-- One sound less of a family. Where there is none, nothing changes. -/
def pop (h : Histogram) (family : Nat) : Histogram :=
  match h.counts[family]? with
  | none | some 0 => h
  | some (n + 1) => {
      counts := h.counts.set family n
      quota := h.quota
      distinct := if n = 0 then h.distinct - 1 else h.distinct
      reached := if n + 1 = h.quota then h.reached - 1 else h.reached }

/-- The number of families that reach the quota. A quota of zero is reached by all of them. -/
def meeting (h : Histogram) : Nat := if h.quota = 0 then h.counts.length else h.reached

/-- The histogram of a sequence of families. -/
def ofFamilies (families quota : Nat) (sequence : List Nat) : Histogram :=
  sequence.foldl push (empty families quota)

/-- The histogram of a scene. -/
def ofScene (catalog : Catalog) (scene : List Nat) (quota : Nat) :
    Except CatalogError Histogram := do
  let sequence ← scene.mapM catalog.familyIndex
  return ofFamilies catalog.familyCount quota sequence

theorem empty_eq_ofCounts (families quota : Nat) :
    empty families quota = ofCounts (List.replicate families 0) quota := by
  have : ¬(0 < quota ∧ quota = 0) := by omega
  simp [empty, ofCounts, List.countP_replicate, this]

/-- A count that goes up by one enters a class of counts or stays where it was. -/
theorem countP_set_succ {p : Nat → Bool} {counts : List Nat} {i : Nat} (h : i < counts.length)
    (up : p counts[i] → p (counts[i] + 1)) :
    (counts.set i (counts[i] + 1)).countP p =
      counts.countP p + if p counts[i] = false ∧ p (counts[i] + 1) then 1 else 0 := by
  rw [List.countP_set h]
  have : p counts[i] = true → 0 < counts.countP p := fun hp =>
    List.countP_pos_iff.mpr ⟨_, List.getElem_mem h, hp⟩
  grind

/-- A count that goes down by one leaves a class of counts or stays where it was. -/
theorem countP_set_pred {p : Nat → Bool} {counts : List Nat} {i n : Nat} (h : i < counts.length)
    (hn : counts[i] = n + 1) (up : p n → p (n + 1)) :
    (counts.set i n).countP p = counts.countP p - if p n = false ∧ p (n + 1) then 1 else 0 := by
  rw [List.countP_set h]
  have : p counts[i] = true → 0 < counts.countP p := fun hp =>
    List.countP_pos_iff.mpr ⟨_, List.getElem_mem h, hp⟩
  grind

/-- A pushed family is counted once more. -/
theorem push_ofCounts (counts : List Nat) (quota family : Nat) :
    (ofCounts counts quota).push family = ofCounts (counts.modify family (· + 1)) quota := by
  unfold push
  split
  · next h =>
    rw [List.modify_eq_self (by simpa [ofCounts] using h)]
  · next n h =>
    obtain ⟨hlt, rfl⟩ := List.getElem?_eq_some_iff.mp h
    have hlt : family < counts.length := hlt
    simp only [ofCounts, List.modify_eq_set, List.getElem?_eq_getElem hlt, Option.getD_some]
    rw [countP_set_succ hlt (by grind), countP_set_succ hlt (by grind)]
    simp only [decide_eq_true_eq, decide_eq_false_iff_not]
    congr 1 <;> grind

/-- A popped family is counted once less. -/
theorem pop_ofCounts (counts : List Nat) (quota family : Nat) :
    (ofCounts counts quota).pop family = ofCounts (counts.modify family (· - 1)) quota := by
  unfold pop
  split
  · next h =>
    rw [List.modify_eq_self (by simpa [ofCounts] using h)]
  · next h =>
    obtain ⟨hlt, h0⟩ := List.getElem?_eq_some_iff.mp h
    have hlt : family < counts.length := hlt
    have h0 : counts[family] = 0 := h0
    simp only [List.modify_eq_set, List.getElem?_eq_getElem hlt, Option.getD_some, h0,
      Nat.zero_sub]
    rw [← h0, List.set_getElem_self]
  · next n h =>
    obtain ⟨hlt, hn⟩ := List.getElem?_eq_some_iff.mp h
    have hlt : family < counts.length := hlt
    have hn : counts[family] = n + 1 := hn
    simp only [ofCounts, List.modify_eq_set, List.getElem?_eq_getElem hlt, Option.getD_some, hn,
      Nat.add_sub_cancel]
    rw [countP_set_pred hlt hn (by grind), countP_set_pred hlt hn (by grind)]
    simp only [decide_eq_true_eq, decide_eq_false_iff_not]
    congr 1 <;> grind

end Histogram

end SoundScenes
