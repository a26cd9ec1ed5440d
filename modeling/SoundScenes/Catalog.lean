import SoundScenes.Catalog.Summary
import SoundScenes.Text.Blank
import SoundScenes.Draws
import SoundScenes.Random.Source

/-!
# Catalogs

A catalog is a non-empty list of sounds whose identifiers are their positions and whose instruments
are not blank. The families are numbered in increasing order of their names.

* `Catalog.ofSounds` — the catalog of some sounds, which get new identifiers;
* `Catalog.eligible` — the sounds that are not taken;
* `Catalog.drawCandidate` — draws one of them.
-/

namespace SoundScenes

/-- What can go wrong with a catalog. -/
inductive CatalogError where
  /-- There is no sound with this identifier. -/
  | outOfRange (id size : Nat)
  /-- Every sound is taken. -/
  | exhausted (size : Nat)
  /-- The file cannot be read. -/
  | unreadable (path reason : String)
  | unparsable (e : ReadError)
  | empty
  | emptyFamily (id : Nat)

namespace CatalogError

def message : CatalogError → String
  | outOfRange id size =>
    "sound id " ++ toString id ++ " out of range (catalog has " ++ toString size ++ " sounds)"
  | exhausted size => "no eligible candidate left among " ++ toString size ++ " sounds"
  | unreadable path reason => "failed to read catalog '" ++ path ++ "': " ++ reason
  | unparsable e => "failed to parse catalog: " ++ e.message
  | empty => "catalog contains no sounds"
  | emptyFamily id => "sound " ++ toString id ++ " has an empty instrument family"

/-- The stable code of an error. -/
def code : CatalogError → String
  | outOfRange .. => "CATALOG_001"
  | exhausted .. => "CATALOG_002"
  | unreadable .. => "CATALOG_003"
  | unparsable .. => "CATALOG_004"
  | empty => "CATALOG_005"
  | emptyFamily .. => "CATALOG_006"

end CatalogError

/-- A catalog of sounds. What is derived from the sounds is kept beside them. -/
structure Catalog where
  sounds : List Sound
  /-- The names of the families in increasing order. -/
  families : List String
  /-- The number of the family of each sound. -/
  familyOf : List Nat
  sounds_ne_nil : sounds ≠ []
  ids : sounds.map (·.id) = List.range sounds.length
  named : ∀ s ∈ sounds, Text.blank s.instrument = false
  families_eq : families = familyNames sounds
  familyOf_eq : familyOf = sounds.map fun s => families.idxOf s.instrument

namespace Catalog

/-- The same sounds with their positions as identifiers. -/
def renumber (sounds : List Sound) : List Sound :=
  sounds.zipIdx.map fun s => { s.1 with id := s.2 }

@[simp] theorem length_renumber (sounds : List Sound) :
    (renumber sounds).length = sounds.length := by
  simp [renumber]

theorem ids_renumber (sounds : List Sound) :
    (renumber sounds).map (·.id) = List.range (renumber sounds).length := by
  simp [renumber, Function.comp_def, List.range_eq_range', List.zipIdx_map_snd]

theorem instruments_renumber (sounds : List Sound) :
    (renumber sounds).map (·.instrument) = sounds.map (·.instrument) := by
  have : (fun s : Sound × Nat => { s.1 with id := s.2 : Sound }.instrument) =
      (·.instrument) ∘ Prod.fst := rfl
  rw [renumber, List.map_map]
  show List.map ((·.instrument) ∘ Prod.fst) sounds.zipIdx = _
  rw [← List.map_map, List.zipIdx_map_fst]

/-- The catalog of some sounds, which get their positions as identifiers. -/
def ofSounds (sounds : List Sound) : Except CatalogError Catalog :=
  if hne : renumber sounds = [] then .error .empty
  else match hb : (renumber sounds).find? fun s => Text.blank s.instrument with
    | some s => .error (.emptyFamily s.id)
    | none => .ok {
        sounds := renumber sounds
        families := familyNames (renumber sounds)
        familyOf := (renumber sounds).map fun s =>
          (familyNames (renumber sounds)).idxOf s.instrument
        sounds_ne_nil := hne
        ids := ids_renumber sounds
        named := by
          intro s hs
          simpa using List.find?_eq_none.mp hb s hs
        families_eq := rfl
        familyOf_eq := rfl }

/-- The catalog in a document, an array of sounds. -/
def ofText (text : String) : Except CatalogError Catalog := do
  let sounds ← ((Reader.list Sound.record.read).run text).mapError .unparsable
  ofSounds sounds

/-- The number of sounds. -/
def size (c : Catalog) : Nat := c.sounds.length

theorem size_pos (c : Catalog) : 0 < c.size := List.length_pos_iff.mpr c.sounds_ne_nil

/-- The number of families. -/
def familyCount (c : Catalog) : Nat := c.families.length

/-- The number of sounds in a family. -/
def familySize (c : Catalog) (family : Nat) : Nat := c.familyOf.count family

/-- The sound with an identifier. -/
def get (c : Catalog) (id : Nat) : Except CatalogError Sound :=
  match c.sounds[id]? with
  | some s => .ok s
  | none => .error (.outOfRange id c.size)

/-- The family of the sound with an identifier. -/
def familyIndex (c : Catalog) (id : Nat) : Except CatalogError Nat :=
  match c.familyOf[id]? with
  | some f => .ok f
  | none => .error (.outOfRange id c.size)

/-- The family of a sound that is in the catalog. -/
def family (c : Catalog) (id : Nat) : Nat := c.familyOf.getD id 0

/-- The families with their sizes. -/
def summary (c : Catalog) : Summary := .ofSounds c.sounds

/-- Every sound has a family among those of the catalog. -/
theorem familyOf_lt (c : Catalog) : ∀ f ∈ c.familyOf, f < c.familyCount := by
  intro f hf
  rw [c.familyOf_eq] at hf
  obtain ⟨s, hs, rfl⟩ := List.mem_map.mp hf
  refine List.idxOf_lt_length_of_mem ?_
  rw [c.families_eq, mem_familyNames]
  exact List.mem_map_of_mem hs

@[simp] theorem length_familyOf (c : Catalog) : c.familyOf.length = c.size := by
  rw [c.familyOf_eq, List.length_map, size]

/-! ## Drawing candidates -/

/-- The sounds that are not taken, in the order of the catalog. -/
def eligible (c : Catalog) (taken : List Nat) : List Nat :=
  (List.range c.size).filter fun id => id ∉ taken

theorem mem_eligible {c : Catalog} {taken : List Nat} {id : Nat} :
    id ∈ c.eligible taken ↔ id < c.size ∧ id ∉ taken := by
  simp [eligible]

/-- Draws one of the sounds that are not taken and counts the draw. -/
def drawCandidate {σ : Type} [RandomSource σ] (c : Catalog) (taken : List Nat) (draws : Draws)
    (s : σ) : Except CatalogError (Nat × Draws × σ) :=
  if h : 0 < (c.eligible taken).length then
    let (id, s) := RandomSource.choose (c.eligible taken) h s
    .ok (id, draws.record id (c.family id), s)
  else .error (.exhausted c.size)

end Catalog

end SoundScenes
