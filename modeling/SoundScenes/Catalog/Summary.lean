import SoundScenes.Sound

/-!
# Families of sounds

The family of a sound is its instrument. This module lists the families of some sounds, once by name
and once by name and size.

* `familyNames` — the instruments of some sounds in increasing order, each once;
* `Summary.ofSounds` — the same list with the size of every family.
-/

namespace SoundScenes

/-- Inserts a name into an increasing list, unless it is there already. -/
def insertName (name : String) : List String → List String
  | [] => [name]
  | n :: ns =>
    if name < n then name :: n :: ns else if name = n then n :: ns else n :: insertName name ns

/-- The instruments of some sounds in increasing order. -/
def familyNames (sounds : List Sound) : List String :=
  sounds.foldl (fun names s => insertName s.instrument names) []

theorem mem_insertName {name m : String} {names : List String} :
    m ∈ insertName name names ↔ m = name ∨ m ∈ names := by
  induction names with
  | nil => simp [insertName]
  | cons n ns ih =>
    unfold insertName
    split
    · simp
    · split
      · next h => simp [h]
      · simp only [List.mem_cons, ih]
        grind

theorem mem_foldl_insertName {sounds : List Sound} {m : String} {names : List String} :
    m ∈ sounds.foldl (fun names s => insertName s.instrument names) names ↔
      m ∈ names ∨ m ∈ sounds.map (·.instrument) := by
  induction sounds generalizing names with
  | nil => simp
  | cons s sounds ih =>
    simp only [List.foldl_cons, ih, mem_insertName, List.map_cons, List.mem_cons]
    grind

/-- Exactly the instruments of the sounds are listed. -/
theorem mem_familyNames {sounds : List Sound} {m : String} :
    m ∈ familyNames sounds ↔ m ∈ sounds.map (·.instrument) := by
  simp [familyNames, mem_foldl_insertName]

/-- The number of sounds in one family. -/
structure FamilySize where
  family : String
  sounds : Nat
  deriving DecidableEq, Repr

/-- How many sounds there are, and in which families. -/
structure Summary where
  total : Nat
  /-- The families in increasing order of their names. -/
  families : List FamilySize
  deriving DecidableEq, Repr

namespace Summary

/-- Counts one more sound of a family. -/
def countFamily (name : String) : List FamilySize → List FamilySize
  | [] => [⟨name, 1⟩]
  | f :: fs =>
    if name < f.family then ⟨name, 1⟩ :: f :: fs
    else if name = f.family then { f with sounds := f.sounds + 1 } :: fs
    else f :: countFamily name fs

/-- The summary of some sounds. -/
def ofSounds (sounds : List Sound) : Summary where
  total := sounds.length
  families := sounds.foldl (fun families s => countFamily s.instrument families) []

/-- The summary of no sounds. -/
def empty : Summary := ⟨0, []⟩

/-- The number of families. -/
def familyCount (s : Summary) : Nat := s.families.length

/-- The number of families with at least so many sounds. -/
def familiesWithAtLeast (s : Summary) (n : Nat) : Nat :=
  (s.families.filter fun f => n ≤ f.sounds).length

/-- The document of a summary. -/
def toJson (s : Summary) : Json :=
  .object [
    ("total_sounds", .nat s.total),
    ("families", .array (s.families.map fun f =>
      .object [("family", .string f.family), ("sounds", .nat f.sounds)]))]

/-- How the size of a family is read. -/
def familyRecord : Record FamilySize where
  name := "FamilySize"
  fields := [
    .of "family" .required .string fun v f => { f with family := v },
    .of "sounds" .required .size fun v f => { f with sounds := v }]
  blank := ⟨"", 0⟩

/-- How a summary is read. -/
def record : Record Summary where
  name := "CatalogSummary"
  fields := [
    .of "total_sounds" .required .size fun v s => { s with total := v },
    .of "families" .required (.list familyRecord.read) fun v s => { s with families := v }]
  blank := empty

end Summary

end SoundScenes
