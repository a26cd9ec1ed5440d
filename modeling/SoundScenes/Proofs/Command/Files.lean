import SoundScenes.Command.Files
import SoundScenes.Proofs.Results

/-!
# Files that are written

What is made or written is one new entry. A file that has been written is read back under its path:
the way there leads through directories, of which none is replaced.

* `Files.at?_put` — what stands where after an entry has been put;
* `Files.makeDir_ok`, `Files.write_ok` — what is made and what is written;
* `Files.read_of_write` — a file that has been written is read back.
-/

namespace SoundScenes

namespace Files

theorem lookup_filter {entries : List (Place × Entry)} {place place' : Place} (h : place' ≠ place) :
    (entries.filter fun f => f.1 ≠ place).lookup place' = entries.lookup place' := by
  induction entries with
  | nil => rfl
  | cons f entries ih =>
    obtain ⟨q, e⟩ := f
    by_cases hq : q = place
    · have hne : (place' == q) = false := beq_false_of_ne (hq ▸ h)
      rw [List.filter_cons_of_neg (by simp [hq]), ih, List.lookup_cons, hne]
    · rw [List.filter_cons_of_pos (by simp [hq]), List.lookup_cons, List.lookup_cons, ih]

/-- An entry that is put at a place is the only change. -/
theorem at?_put (fs : Files) (place : Place) (e : Entry) (place' : Place) :
    (fs.put place e).at? place' =
      if place' = [] then some .directory
      else if place' = place then some e
      else fs.at? place' := by
  rw [at?, at?, put]
  split
  · rfl
  · split
    · next h => rw [h, List.lookup_cons_self]
    · next h => rw [List.lookup_cons, beq_false_of_ne h, lookup_filter h]

/-- A directory that is made is a new entry. -/
theorem makeDir_ok {fs fs' : Files} {path : String} (h : fs.makeDir path = .ok fs') :
    ∃ place, fs' = fs.put place .directory := by
  obtain ⟨⟨dir, name, slash⟩, -, h⟩ := bind_eq_ok.mp h
  simp only at h
  split at h
  · cases h
  · split at h
    · cases h
    · cases hentry : fs.at? (dir ++ [name]) with
      | some e =>
        rw [hentry] at h
        cases h
      | none =>
        rw [hentry] at h
        cases h
        exact ⟨_, rfl⟩

/-- A text is written at a place where its path leads and no directory stands. -/
theorem write_ok {fs fs' : Files} {path text : String} {place : Place}
    (h : fs.write path text = .ok (place, fs')) : ∃ dir name,
      fs.locate path = .ok (dir, name, false) ∧ isDots name = false ∧ tooLong name = false ∧
        place = dir ++ [name] ∧ fs.at? place ≠ some .directory ∧
        fs' = fs.put place (.text text) := by
  obtain ⟨⟨dir, name, slash⟩, hlocate, h⟩ := bind_eq_ok.mp h
  simp only at h
  split at h
  · cases h
  · next hdots =>
    split at h
    · cases h
    · next hlong =>
      have hnot : fs.at? (dir ++ [name]) ≠ some .directory := by
        intro hentry
        rw [hentry] at h
        cases h
      have hwritten : (dir ++ [name], fs.put (dir ++ [name]) (.text text)) = (place, fs') := by
        cases hentry : fs.at? (dir ++ [name]) with
        | none =>
          rw [hentry] at h
          exact Except.ok.inj h
        | some e =>
          rw [hentry] at h
          cases e with
          | directory => exact absurd hentry hnot
          | text | binary => exact Except.ok.inj h
      cases hwritten
      rw [not_or, Bool.not_eq_true, Bool.not_eq_true] at hdots
      rw [Bool.not_eq_true] at hlong
      exact ⟨dir, name, hdots.2 ▸ hlocate, hdots.1, hlong, rfl, hnot, rfl⟩

/-! ## Reading what has been written -/

variable {fs : Files} {place : Place} {e : Entry}

/-- Where a directory could be entered it still can, unless it is replaced. -/
theorem enter_put (hplace : fs.at? place ≠ some .directory) {dir dir' : Place} {name : String}
    (h : fs.enter dir name = .ok dir') : (fs.put place e).enter dir name = .ok dir' := by
  unfold enter at h ⊢
  split_ifs at h ⊢ with hstay hup hlong
  · exact h
  · exact h
  · cases hentry : fs.at? (dir ++ [name]) with
    | none =>
      rw [hentry] at h
      cases h
    | some e' =>
      rw [hentry] at h
      cases e' with
      | directory =>
        have hne : dir ++ [name] ≠ place := fun heq => hplace (heq ▸ hentry)
        rw [at?_put, if_neg (by simp), if_neg hne, hentry]
        exact h
      | text | binary => cases h

theorem locate_put (hplace : fs.at? place ≠ some .directory) {path : String} {dir : Place}
    {name : String} {slash : Bool} (h : fs.locate path = .ok (dir, name, slash)) :
    (fs.put place e).locate path = .ok (dir, name, slash) := by
  have hsteps (names : List String) (start : Place) (h : names.foldlM fs.enter start = .ok dir) :
      names.foldlM (fs.put place e).enter start = .ok dir := by
    induction names generalizing start with
    | nil => exact h
    | cons n names ih =>
      rw [List.foldlM_cons] at h ⊢
      obtain ⟨next, hnext, h⟩ := bind_eq_ok.mp h
      exact bind_eq_ok.mpr ⟨next, enter_put hplace hnext, ih next h⟩
  unfold locate at h ⊢
  split_ifs at h ⊢ with hnul hlong habsolute
  obtain ⟨dir', hdir, heq⟩ := bind_eq_ok.mp h
  cases heq
  exact bind_eq_ok.mpr ⟨_, hsteps _ _ hdir, rfl⟩

/-- A file that has been written is read back. -/
theorem read_of_write {fs' : Files} {path text : String}
    (h : fs.write path text = .ok (place, fs')) : fs'.read path = .ok text := by
  obtain ⟨dir, name, hlocate, hdots, hlong, rfl, hplace, rfl⟩ := write_ok h
  have hthere : (fs.put (dir ++ [name]) (.text text)).at? (dir ++ [name]) = some (.text text) := by
    rw [at?_put, if_neg (by simp), if_pos rfl]
  have hfound : (fs.put (dir ++ [name]) (.text text)).lookup path =
      .ok (dir ++ [name], .text text) := by
    refine bind_eq_ok.mpr ⟨_, locate_put hplace hlocate, ?_⟩
    simp only [hdots, hlong, hthere]
    rfl
  exact bind_eq_ok.mpr ⟨_, hfound, rfl⟩

end Files

end SoundScenes
