import Std.Data.ExtTreeMap

/-!
# Tallies

A tally counts occurrences by key. Its entries are in increasing order of their keys, and two
tallies with the same counts are equal. A key may be present with a count of zero.
-/

namespace SoundScenes

/-- Counts by key. -/
abbrev Tally (κ : Type) [Ord κ] := Std.ExtTreeMap κ Nat compare

namespace Tally

variable {κ : Type} [Ord κ] [Std.TransOrd κ]

/-- Counts one more occurrence of a key. -/
def bump (t : Tally κ) (k : κ) : Tally κ := t.alter k fun n => some (n.getD 0 + 1)

/-- How often a key occurs. -/
def count (t : Tally κ) (k : κ) : Nat := t.getD k 0

/-- The sum of all counts. -/
def total (t : Tally κ) : Nat := t.toList.foldr (fun e n => e.2 + n) 0

/-- The tally with given entries, where the last entry of a key counts. -/
def ofEntries (entries : List (κ × Nat)) : Tally κ :=
  entries.foldl (fun t e => t.insert e.1 e.2) ∅

/-- Counting an occurrence adds one to its key and nothing to the others. -/
theorem count_bump [Std.LawfulEqOrd κ] [DecidableEq κ] (t : Tally κ) (k k' : κ) :
    (t.bump k).count k' = t.count k' + if k = k' then 1 else 0 := by
  simp only [count, bump, Std.ExtTreeMap.getD_eq_getD_getElem?, Std.ExtTreeMap.getElem?_alter,
    Std.LawfulEqOrd.compare_eq_iff_eq]
  by_cases h : k = k'
  · subst h
    simp
  · simp [h]

end Tally

end SoundScenes
