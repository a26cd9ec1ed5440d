import SoundScenes.Proofs.Catalog.Sizes
import SoundScenes.Proofs.Scene.Histogram
import Mathlib.Data.List.Destutter
import Mathlib.Data.List.Sort

/-!
# Families by sorting and bisection

The families of a catalog can be found all at once: the instruments are sorted, repeated names are
dropped, and a bisection gives every sound the number of its family. A summary can be counted up by
bisections as well, which tell where the entry of a family stands or where a new one goes. Both give
what is found by inserting name after name.

* `bisect`, `tells_bisect` — a bisection, and what it tells of names in increasing order;
* `Bisection.Tells.unique` — every such search ends at the same place;
* `familyNames_eq_destutter` — the names are the sorted instruments without repetitions;
* `Summary.families_ofSounds_eq_foldl` — a summary is counted up by bisections;
* `Catalog.found_by_bisection` — all that a catalog derives from its sounds.
-/

namespace SoundScenes

/-! ## Bisections -/

/-- Where a bisection ends. -/
inductive Bisection where
  /-- At an entry with the name. -/
  | found (i : Nat)
  /-- Where an entry with the name can be put in. -/
  | missing (i : Nat)
  deriving DecidableEq, Repr

/-- The place, whatever stands there. -/
def Bisection.place : Bisection → Nat
  | found i | missing i => i

section

variable {α : Type} (key : α → String) (name : String) (entries : List α)

/-- Looks for a name among the entries from one place up to another. -/
def bisectFrom (lo hi : Nat) (hhi : hi ≤ entries.length) : Bisection :=
  if hlt : lo < hi then
    have hmid : (lo + hi) / 2 < entries.length := by omega
    if key entries[(lo + hi) / 2] = name then .found ((lo + hi) / 2)
    else if key entries[(lo + hi) / 2] < name then bisectFrom ((lo + hi) / 2 + 1) hi hhi
    else bisectFrom lo ((lo + hi) / 2) hmid.le
  else .missing lo
termination_by hi - lo

/-- Looks for a name among all entries. -/
def bisect : Bisection := bisectFrom key name entries 0 entries.length le_rfl

/-- What the end of a bisection tells: an entry has the name, or the entries before a place have
lower names and the others higher ones. -/
def Bisection.Tells : Bisection → Prop
  | found i => ∃ h : i < entries.length, key entries[i] = name
  | missing i => i ≤ entries.length ∧
      (∀ j (h : j < entries.length), j < i → key entries[j] < name) ∧
        ∀ j (h : j < entries.length), i ≤ j → name < key entries[j]

variable {key name entries}

theorem key_getElem_lt (hsorted : entries.Pairwise fun a b => key a < key b) {i j : Nat}
    (hj : j < entries.length) (hij : i < j) : key entries[i] < key entries[j] :=
  List.pairwise_iff_getElem.mp hsorted i j _ hj hij

/-- In every step all entries before the first place have lower names, and all entries from the last
place on have higher ones. -/
theorem tells_bisectFrom {lo hi : Nat} {hhi : hi ≤ entries.length}
    (hsorted : entries.Pairwise fun a b => key a < key b) (hle : lo ≤ hi)
    (hlow : ∀ j (h : j < entries.length), j < lo → key entries[j] < name)
    (hhigh : ∀ j (h : j < entries.length), hi ≤ j → name < key entries[j]) :
    (bisectFrom key name entries lo hi hhi).Tells key name entries := by
  fun_induction bisectFrom key name entries lo hi hhi with
  | case1 lo hi hhi hlt hmid heq => exact ⟨hmid, heq⟩
  | case2 lo hi hhi hlt hmid hne hless ih =>
    refine ih (by omega) (fun j h hj => ?_) hhigh
    rcases Nat.lt_succ_iff_lt_or_eq.mp hj with hj | rfl
    · exact (key_getElem_lt hsorted hmid hj).trans hless
    · exact hless
  | case3 lo hi hhi hlt hmid hne hnless ih =>
    have hgreater := lt_of_le_of_ne (not_lt.mp hnless) (Ne.symm hne)
    refine ih (by omega) hlow fun j h hj => ?_
    rcases Nat.eq_or_lt_of_le hj with rfl | hj
    · exact hgreater
    · exact hgreater.trans (key_getElem_lt hsorted h hj)
  | case4 lo hi hhi hnlt =>
    obtain rfl : lo = hi := by omega
    exact ⟨hhi, hlow, hhigh⟩

/-- Among names in increasing order a bisection finds the place of any name. -/
theorem tells_bisect (hsorted : entries.Pairwise fun a b => key a < key b) :
    (bisect key name entries).Tells key name entries :=
  tells_bisectFrom hsorted (Nat.zero_le _) (fun j _ hj => absurd hj j.not_lt_zero)
    fun _ h hj => absurd h (Nat.not_lt.mpr hj)

namespace Bisection

variable {i j : Nat}

/-- A name that is listed is not missing. -/
theorem not_tells_missing (h : (found i).Tells key name entries) :
    ¬ (missing j).Tells key name entries := by
  obtain ⟨hi, rfl⟩ := h
  rintro ⟨-, hlow, hhigh⟩
  rcases Nat.lt_or_ge i j with hij | hij
  · exact lt_irrefl _ (hlow i hi hij)
  · exact lt_irrefl _ (hhigh i hi hij)

theorem eq_of_tells_found (hsorted : entries.Pairwise fun a b => key a < key b)
    (h : (found i).Tells key name entries) (h' : (found j).Tells key name entries) : i = j := by
  obtain ⟨hi, rfl⟩ := h
  obtain ⟨hj, hname⟩ := h'
  rcases lt_trichotomy i j with hij | hij | hij
  · exact absurd hname (key_getElem_lt hsorted hj hij).ne'
  · exact hij
  · exact absurd hname (key_getElem_lt hsorted hi hij).ne

theorem le_of_tells_missing (h : (missing i).Tells key name entries)
    (h' : (missing j).Tells key name entries) : i ≤ j := by
  obtain ⟨hi, hlow, -⟩ := h
  obtain ⟨-, -, hhigh⟩ := h'
  refine Nat.not_lt.mp fun hij => ?_
  exact lt_asymm (hlow j (by omega) hij) (hhigh j (by omega) le_rfl)

/-- There is one place only, so that it does not matter which entries are looked at on the way. -/
theorem Tells.unique (hsorted : entries.Pairwise fun a b => key a < key b) {b b' : Bisection}
    (h : b.Tells key name entries) (h' : b'.Tells key name entries) : b = b' := by
  cases b with
  | found i =>
    cases b' with
    | found j => rw [eq_of_tells_found hsorted h h']
    | missing j => exact absurd h' (not_tells_missing h)
  | missing i =>
    cases b' with
    | found j => exact absurd h (not_tells_missing h')
    | missing j => rw [Nat.le_antisymm (le_of_tells_missing h h') (le_of_tells_missing h' h)]

end Bisection

end

/-- A name that is listed is found at its place. -/
theorem bisect_of_mem {names : List String} {name : String} (hsorted : names.Pairwise (· < ·))
    (hmem : name ∈ names) : bisect id name names = .found (names.idxOf name) := by
  refine (tells_bisect hsorted).unique hsorted ?_
  exact ⟨List.idxOf_lt_length_of_mem hmem, List.getElem_idxOf _⟩

/-! ## Names -/

/-- Repetitions are dropped, and no name is lost. -/
theorem mem_destutter_ne {names : List String} {name : String} :
    name ∈ names.destutter (· ≠ ·) ↔ name ∈ names := by
  -- the name before the others is kept open for the induction
  have hdestutter (names : List String) (before : String) :
      name ∈ names.destutter' (· ≠ ·) before ↔ name ∈ before :: names := by
    induction names generalizing before with
    | nil => rfl
    | cons n names ih =>
      by_cases h : before = n
      · subst h
        rw [List.destutter'_cons_neg _ (not_not.mpr rfl), ih]
        simp only [List.mem_cons, or_self_left]
      · rw [List.destutter'_cons_pos _ h, List.mem_cons, ih, List.mem_cons (l := n :: names)]
  cases names with
  | nil => rfl
  | cons n names => exact hdestutter names n

/-- Names that are sorted are in increasing order once repetitions are dropped. -/
theorem sorted_destutter {names : List String} (hsorted : names.Pairwise (· ≤ ·)) :
    (names.destutter (· ≠ ·)).Pairwise (· < ·) := by
  have hne := List.isChain_iff_forall_rel_of_append_cons_cons.mp
    (List.isChain_destutter (· ≠ ·) names)
  have hle := List.isChain_iff_forall_rel_of_append_cons_cons.mp
    (hsorted.sublist (List.destutter_sublist (· ≠ ·) names)).isChain
  refine (List.isChain_iff_forall_rel_of_append_cons_cons.mpr fun a b front back h => ?_).pairwise
  exact lt_of_le_of_ne (hle h) (hne h)

/-- **The families are the sorted instruments, each once.** -/
theorem familyNames_eq_destutter (sounds : List Sound) : familyNames sounds =
    ((sounds.map (·.instrument)).mergeSort fun n n' => n ≤ n').destutter (· ≠ ·) := by
  refine (sorted_familyNames sounds).eq_of_mem_iff
    (sorted_destutter List.sortedLE_mergeSort.pairwise) fun name => ?_
  rw [mem_familyNames, mem_destutter_ne, List.mem_mergeSort]

/-! ## Summaries -/

namespace Summary

/-- Counts one more sound of a family where a bisection has ended. -/
def countAt (name : String) (entries : List FamilySize) : Bisection → List FamilySize
  | .found i => entries.modify i fun f => { f with sounds := f.sounds + 1 }
  | .missing i => entries.insertIdx i ⟨name, 1⟩

variable {name : String} {entries : List FamilySize}

theorem countFamily_eq_modify (hsorted : entries.Pairwise fun f g => f.family < g.family) {i : Nat}
    (hi : i < entries.length) (hname : entries[i].family = name) :
    countFamily name entries =
      entries.modify i fun f => { f with sounds := f.sounds + 1 } := by
  induction entries generalizing i with
  | nil => cases hi
  | cons f entries ih =>
    obtain ⟨hf, hsorted⟩ := List.pairwise_cons.mp hsorted
    cases i with
    | zero =>
      obtain rfl : f.family = name := hname
      rw [countFamily, if_neg (lt_irrefl _), if_pos rfl]
      rfl
    | succ i =>
      have hless : f.family < name := hname ▸ hf _ (List.getElem_mem _)
      rw [countFamily, if_neg hless.not_gt, if_neg hless.ne',
        ih hsorted (Nat.lt_of_succ_lt_succ hi) hname]
      rfl

theorem countFamily_eq_insertIdx {i : Nat} (hi : i ≤ entries.length)
    (hlow : ∀ j (h : j < entries.length), j < i → entries[j].family < name)
    (hhigh : ∀ j (h : j < entries.length), i ≤ j → name < entries[j].family) :
    countFamily name entries = entries.insertIdx i ⟨name, 1⟩ := by
  induction entries generalizing i with
  | nil =>
    obtain rfl : i = 0 := Nat.le_zero.mp hi
    rfl
  | cons f entries ih =>
    cases i with
    | zero =>
      have hgreater : name < f.family := hhigh 0 (Nat.succ_pos _) le_rfl
      rw [countFamily, if_pos hgreater]
      rfl
    | succ i =>
      have hless : f.family < name := hlow 0 (Nat.succ_pos _) (Nat.succ_pos _)
      rw [countFamily, if_neg hless.not_gt, if_neg hless.ne', ih (Nat.le_of_succ_le_succ hi)
        (fun j h hj => hlow (j + 1) (Nat.succ_lt_succ h) (Nat.succ_lt_succ hj))
        (fun j h hj => hhigh (j + 1) (Nat.succ_lt_succ h) (Nat.succ_le_succ hj))]
      rfl

/-- A sound is counted where a bisection of the entries ends. -/
theorem countFamily_eq_countAt (hsorted : entries.Pairwise fun f g => f.family < g.family) :
    countFamily name entries = countAt name entries (bisect FamilySize.family name entries) := by
  have htells : (bisect FamilySize.family name entries).Tells _ _ _ := tells_bisect hsorted
  generalize bisect FamilySize.family name entries = b at htells
  cases b with
  | found i =>
    obtain ⟨hi, hname⟩ := htells
    exact countFamily_eq_modify hsorted hi hname
  | missing i =>
    obtain ⟨hi, hlow, hhigh⟩ := htells
    exact countFamily_eq_insertIdx hi hlow hhigh

/-- **A summary is counted up by bisections.** -/
theorem families_ofSounds_eq_foldl (sounds : List Sound) : (ofSounds sounds).families =
    sounds.foldl (fun entries s => countAt s.instrument entries
      (bisect FamilySize.family s.instrument entries)) [] := by
  -- the entries so far are kept open for the induction
  have hfold (sounds : List Sound) (entries : List FamilySize)
      (hsorted : (entries.map (·.family)).Pairwise (· < ·)) :
      sounds.foldl (fun entries s => countFamily s.instrument entries) entries =
        sounds.foldl (fun entries s => countAt s.instrument entries
          (bisect FamilySize.family s.instrument entries)) entries := by
    induction sounds generalizing entries with
    | nil => rfl
    | cons s sounds ih =>
      rw [List.foldl_cons, List.foldl_cons, ← countFamily_eq_countAt (List.pairwise_map.mp hsorted)]
      refine ih _ ?_
      rw [map_family_countFamily]
      exact sorted_insertName hsorted
  exact hfold sounds [] List.Pairwise.nil

end Summary

/-! ## Catalogs -/

/-- The sizes of families, counted up sound by sound. -/
theorem foldl_modify_eq_tally (families : Nat) (familyOf : List Nat) :
    familyOf.foldl (fun sizes f => sizes.modify f (· + 1)) (List.replicate families 0) =
      Histogram.tally families familyOf := by
  induction familyOf using List.reverseRecOn with
  | nil => exact (Histogram.tally_nil families).symm
  | append_singleton familyOf f ih =>
    rw [List.foldl_append, ih, List.foldl_cons, List.foldl_nil, Histogram.tally_concat]

/-- **A catalog is found by sorting and bisection.** Its families are the sorted instruments, each
once; every bisection of them for an instrument hits, and where it hits is the number of the family;
the sizes can be counted up by these numbers, and those of the summary by bisections. -/
theorem Catalog.found_by_bisection (c : Catalog) :
    c.families =
      ((c.sounds.map (·.instrument)).mergeSort fun n n' => n ≤ n').destutter (· ≠ ·) ∧
    (∀ s ∈ c.sounds, ∃ f, bisect id s.instrument c.families = .found f) ∧
    c.familyOf = c.sounds.map (fun s => (bisect id s.instrument c.families).place) ∧
    c.familyOf.foldl (fun sizes f => sizes.modify f (· + 1)) (List.replicate c.familyCount 0) =
      (List.range c.familyCount).map c.familySize ∧
    c.summary.families = c.sounds.foldl (fun entries s => Summary.countAt s.instrument entries
      (bisect FamilySize.family s.instrument entries)) [] := by
  have hfound (s : Sound) (hs : s ∈ c.sounds) :
      bisect id s.instrument c.families = .found (c.families.idxOf s.instrument) := by
    rw [c.families_eq]
    exact bisect_of_mem (sorted_familyNames _) (mem_familyNames.mpr (List.mem_map_of_mem hs))
  refine ⟨c.families_eq.trans (familyNames_eq_destutter _), fun s hs => ⟨_, hfound s hs⟩, ?_,
    foldl_modify_eq_tally _ _, Summary.families_ofSounds_eq_foldl _⟩
  rw [c.familyOf_eq]
  refine List.map_congr_left fun s hs => ?_
  rw [hfound s hs, Bisection.place]

end SoundScenes
