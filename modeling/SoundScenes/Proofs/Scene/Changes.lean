import SoundScenes.Proofs.Search.Checked

/-!
# Histograms after any changes

Sounds of a family come and go, one at a time, and both numbers of a histogram change only where a
count crosses zero or the quota. Whatever comes and goes, in whatever order, the counts are those of
the changes to each family alone, and both numbers are what they would be if counted afresh. A sound
that is to go where there is none changes nothing, and no difference stops at zero.

* `Change.recount` — the count of a family from the changes that concern it;
* `after?` — a change that fails where there is no count or a number is too small to be lessened;
* `after_ofCounts`, `after?_ofCounts` — one change;
* `foldl_after`, `foldlM_after?` — any number of changes, from no sounds;
* `changes_recounted` — what a histogram tells after them.
-/

namespace SoundScenes.Histogram

/-! ## Changes -/

/-- One sound of a family comes or goes. -/
inductive Change where
  | push (family : Nat)
  | pop (family : Nat)
  deriving DecidableEq, Repr

namespace Change

/-- The family of the sound. -/
def family : Change → Nat
  | push f | pop f => f

/-- What becomes of the count of that family. -/
def update : Change → Nat → Nat
  | push _, n => n + 1
  | pop _, n => n - 1

/-- The count of a family after some changes, of which only its own matter. -/
def recount (changes : List Change) (family : Nat) : Nat :=
  (changes.filter fun c => c.family = family).foldl (fun n c => c.update n) 0

theorem recount_concat (changes : List Change) (c : Change) (family : Nat) :
    recount (changes ++ [c]) family =
      if c.family = family then c.update (recount changes family) else recount changes family := by
  rw [recount, List.filter_append, List.foldl_append]
  split
  · next h =>
    have hown : [c].filter (fun c => c.family = family) = [c] := by simp [h]
    rw [hown]
    rfl
  · next h =>
    have hother : [c].filter (fun c => c.family = family) = [] := by simp [h]
    rw [hother]
    rfl

/-- No count exceeds the number of changes. -/
theorem recount_le (changes : List Change) (family : Nat) :
    recount changes family ≤ changes.length := by
  induction changes using List.reverseRecOn with
  | nil => exact Nat.le_refl 0
  | append_singleton changes c ih =>
    rw [recount_concat, List.length_append, List.length_singleton]
    split
    · cases c with
      | push f => exact Nat.succ_le_succ ih
      | pop f => exact (Nat.sub_le _ 1).trans (Nat.le_succ_of_le ih)
    · exact Nat.le_succ_of_le ih

end Change

variable {families quota family : Nat} {counts : List Nat} {changes : List Change}

/-- A histogram after a change. -/
def after (h : Histogram) : Change → Histogram
  | .push f => h.push f
  | .pop f => h.pop f

/-- `pop` of a family that must have a count. An absent family is left alone; of any other a sound is
taken, and no number may be too small for that. -/
def discard? (h : Histogram) (family : Nat) : Option Histogram :=
  if h.counts[family]? = some 0 then some h else h.pop? family

/-- `after`, where a family must have a count and no difference may stop at zero. -/
def after? (h : Histogram) : Change → Option Histogram
  | .push f => h.push? f
  | .pop f => h.discard? f

/-! ## One change -/

/-- A change tells on the count of its family only. -/
theorem after_ofCounts (counts : List Nat) (quota : Nat) (c : Change) :
    (ofCounts counts quota).after c = ofCounts (counts.modify c.family c.update) quota := by
  cases c with
  | push f => exact push_ofCounts counts quota f
  | pop f => exact pop_ofCounts counts quota f

theorem discard?_ofCounts (quota : Nat) (h : family < counts.length) :
    (ofCounts counts quota).discard? family = some ((ofCounts counts quota).pop family) := by
  unfold discard?
  split
  · next hzero => rw [pop, hzero]
  · next hpos =>
    -- the family is present, so that it is counted in both numbers
    obtain ⟨n, hn⟩ : ∃ n, counts[family] = n + 1 := by
      refine Nat.exists_eq_succ_of_ne_zero fun hzero => hpos ?_
      exact (List.getElem?_eq_getElem h).trans (congrArg some hzero)
    exact pop?_ofCounts quota ((List.getElem?_eq_getElem h).trans (congrArg some hn))

theorem after?_ofCounts (quota : Nat) {c : Change} (h : c.family < counts.length) :
    (ofCounts counts quota).after? c = some ((ofCounts counts quota).after c) := by
  cases c with
  | push f => exact push?_eq h
  | pop f => exact discard?_ofCounts quota h

/-! ## Any number of changes -/

/-- The counts of all families after some changes. -/
def recounts (families : Nat) (changes : List Change) : List Nat :=
  (List.range families).map (Change.recount changes)

theorem recounts_nil (families : Nat) : recounts families [] = List.replicate families 0 :=
  List.map_const'.trans (congrArg (List.replicate · 0) List.length_range)

theorem recounts_concat (families : Nat) (changes : List Change) (c : Change) :
    recounts families (changes ++ [c]) =
      (recounts families changes).modify c.family c.update := by
  refine List.ext_getElem (by simp [recounts]) fun i h _ => ?_
  rw [List.getElem_modify]
  simp only [recounts, List.getElem_map, List.getElem_range, Change.recount_concat]

/-- After any changes a histogram is that of the counts of each family alone. -/
theorem foldl_after (families quota : Nat) (changes : List Change) :
    changes.foldl after (empty families quota) = ofCounts (recounts families changes) quota := by
  induction changes using List.reverseRecOn with
  | nil => rw [List.foldl_nil, empty_eq_ofCounts, recounts_nil]
  | append_singleton changes c ih =>
    rw [List.foldl_append, ih, List.foldl_cons, List.foldl_nil, after_ofCounts, recounts_concat]

/-- Changes of families that have counts fail nowhere. -/
theorem foldlM_after? (quota : Nat) (h : ∀ c ∈ changes, c.family < families) :
    changes.foldlM after? (empty families quota) =
      some (changes.foldl after (empty families quota)) := by
  induction changes using List.reverseRecOn with
  | nil => rfl
  | append_singleton changes c ih =>
    have hfront : ∀ c ∈ changes, c.family < families := fun c hc =>
      h c (List.mem_append_left _ hc)
    have hlast : c.family < (recounts families changes).length := by
      rw [recounts, List.length_map, List.length_range]
      exact h c (List.mem_append_right _ (List.mem_singleton_self c))
    rw [List.foldlM_append, ih hfront, List.foldl_append, foldl_after]
    simpa using after?_ofCounts quota hlast

/-- A histogram tells what some changes leave: a count for each family, from the changes to it
alone, the number of counts above zero, and the number of counts at the quota. -/
structure UpToDate (h : Histogram) (families quota : Nat) (changes : List Change) : Prop where
  length_counts : h.counts.length = families
  count : ∀ f < families, h.counts[f]? = some (Change.recount changes f)
  distinct_eq : h.distinct = h.counts.countP fun n => 0 < n
  meeting_eq : h.meeting = if 0 < quota then h.counts.countP fun n => quota ≤ n else families

theorem upToDate_ofCounts (families quota : Nat) (changes : List Change) :
    (ofCounts (recounts families changes) quota).UpToDate families quota changes where
  length_counts := by simp [ofCounts, recounts]
  count f hf := by simp [ofCounts, recounts, hf]
  distinct_eq := rfl
  meeting_eq := by
    rcases Nat.eq_zero_or_pos quota with rfl | hquota
    · simp [meeting, ofCounts, recounts]
    · simp [meeting, ofCounts, hquota, Nat.ne_of_gt hquota]

/-- **Histograms are kept up to date.** Whatever sounds of the families come and go, also where there
are none to go, nothing fails and no count exceeds the number of changes. The histogram tells what
the changes leave; popping a family that has just been pushed restores it, and two families can be
pushed in either order. Therefore scenes of a catalog have the same histogram exactly if each family
occurs equally often in both. -/
theorem changes_recounted (families quota : Nat) (changes : List Change)
    (hchanges : ∀ c ∈ changes, c.family < families) :
    ∃ h, changes.foldlM after? (empty families quota) = some h ∧
      changes.foldl after (empty families quota) = h ∧
      h.UpToDate families quota changes ∧ (∀ n ∈ h.counts, n ≤ changes.length) ∧
      (∀ f < families, (h.push f).pop f = h) ∧
      (∀ f < families, ∀ g < families, (h.push f).push g = (h.push g).push f) ∧
      ∀ (catalog : Catalog) (scene scene' : List Nat), (∀ id ∈ scene, id < catalog.size) →
        (∀ id ∈ scene', id < catalog.size) →
        (ofScene catalog scene quota = ofScene catalog scene' quota ↔
          ∀ f < catalog.familyCount,
            (scene.map catalog.family).count f = (scene'.map catalog.family).count f) := by
  have hfold := foldl_after families quota changes
  refine ⟨ofCounts (recounts families changes) quota, ?_, hfold,
    upToDate_ofCounts families quota changes, ?_, ?_, ?_, ?_⟩
  · rw [foldlM_after? quota hchanges, hfold]
  · intro n hn
    obtain ⟨f, -, rfl⟩ := List.mem_map.mp hn
    exact Change.recount_le changes f
  · exact fun f _ => pop_push_ofCounts _ quota f
  · exact fun f _ g _ => push_push_ofCounts _ quota f g
  · intro catalog scene scene' hscene hscene'
    rw [ofScene_eq hscene, ofScene_eq hscene', Except.ok.injEq, ofFamilies_eq_iff]

/-- With a quota of one a family reaches the quota when it appears. The first family goes once more
than it came, and the second is to go before it came. -/
theorem changes_recounted_pair :
    let changes : List Change :=
      [.pop 1, .push 0, .push 0, .push 1, .pop 0, .pop 0, .pop 0, .push 1]
    ∃ h, changes.foldlM after? (empty 2 1) = some h ∧ h.counts = [0, 2] ∧ h.distinct = 1 ∧
      h.meeting = 1 ∧ (h.push 0).pop 0 = h ∧ (h.push 0).push 1 = (h.push 1).push 0 ∧
      ofScene .winds [0, 1, 2] 1 = ofScene .winds [1, 2, 0] 1 ∧
      ofScene .winds [0, 1] 1 ≠ ofScene .winds [0, 2] 1 := by
  intro changes
  obtain ⟨h, hrun, hfold, hdate, -, hrestore, hcommute, hscenes⟩ :=
    changes_recounted 2 1 changes (by decide)
  have hcounts : h.counts = [0, 2] := by
    rw [← hfold]
    rfl
  refine ⟨h, hrun, hcounts, ?_, ?_, hrestore 0 (by decide), hcommute 0 (by decide) 1 (by decide),
    ?_, ?_⟩
  · rw [hdate.distinct_eq, hcounts]
    rfl
  · rw [hdate.meeting_eq, hcounts]
    rfl
  · exact (hscenes .winds _ _ (by decide) (by decide)).mpr (by decide)
  · exact mt (hscenes .winds _ _ (by decide) (by decide)).mp (by decide)

end SoundScenes.Histogram
