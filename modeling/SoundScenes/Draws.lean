import SoundScenes.Json.Record
import SoundScenes.Tally

/-!
# Draws

How often each sound and each family has been drawn as a candidate.
-/

namespace SoundScenes

/-- Counts of draws, by sound and by family. -/
structure Draws where
  bySound : List Nat
  byFamily : List Nat
  deriving DecidableEq, Repr

namespace Draws

/-- No draws from so many sounds in so many families. -/
def none (sounds families : Nat) : Draws :=
  ⟨List.replicate sounds 0, List.replicate families 0⟩

/-- One more draw. Sounds and families out of range are not counted. -/
def record (d : Draws) (sound family : Nat) : Draws :=
  ⟨d.bySound.modify sound (· + 1), d.byFamily.modify family (· + 1)⟩

/-- The number of draws. -/
def total (d : Draws) : Nat := d.bySound.foldr (· + ·) 0

/-- The draws of families by name. Of two families with one name the later counts. -/
def named (d : Draws) (names : List String) : Tally String :=
  Tally.ofEntries (names.zip d.byFamily)

/-- The document of draws. -/
def toJson (d : Draws) : Json :=
  .object [
    ("by_sound", .array (d.bySound.map .nat)),
    ("by_family", .array (d.byFamily.map .nat))]

/-- How draws are read. -/
def layout : Record Draws where
  name := "DrawCounters"
  fields := [
    .of "by_sound" .required (.list .word64) fun v d => { d with bySound := v },
    .of "by_family" .required (.list .word64) fun v d => { d with byFamily := v }]
  blank := none 0 0

end Draws

end SoundScenes
