import SoundScenes.Json.Record
import SoundScenes.Json.Writer

/-!
# Sounds

A sound is one short recording of an instrument. Its identifier is its position in the catalog that
holds it.

* `Sound.toJson`, `Sound.record` — the document of a sound, written and read.
-/

namespace SoundScenes

/-- How loud a sound is. -/
inductive Loudness where
  | loud
  | quiet
  deriving DecidableEq, Repr

/-- How bright a sound is, for its instrument. -/
inductive Brightness where
  | bright
  | dark
  deriving DecidableEq, Repr

/-- A recorded sound. -/
structure Sound where
  /-- The position in the catalog. -/
  id : Nat
  /-- The instrument, which is the sound's family. -/
  instrument : String
  note : String
  octave : Option Int
  filename : String
  /-- Length in milliseconds. -/
  duration : Nat
  loudness : Option Loudness
  brightness : Option Brightness
  deriving DecidableEq, Repr

namespace Loudness

def name : Loudness → String
  | loud => "loud"
  | quiet => "quiet"

/-- All values by name. -/
def cases : List (String × Loudness) := [("loud", loud), ("quiet", quiet)]

theorem lookup_cases (l : Loudness) : cases.lookup l.name = some l := by
  cases l <;> rfl

end Loudness

namespace Brightness

def name : Brightness → String
  | bright => "bright"
  | dark => "dark"

/-- All values by name. -/
def cases : List (String × Brightness) := [("bright", bright), ("dark", dark)]

theorem lookup_cases (b : Brightness) : cases.lookup b.name = some b := by
  cases b <;> rfl

end Brightness

namespace Sound

/-- A sound of which only the instrument is known. -/
def ofInstrument (id : Nat) (instrument : String) : Sound where
  id := id
  instrument := instrument
  note := ""
  octave := none
  filename := ""
  duration := 0
  loudness := none
  brightness := none

/-- The document of a sound. What is not known is left out. -/
def toJson (s : Sound) : Json :=
  .object (
    [("id", .nat s.id), ("instrument", .string s.instrument), ("note", .string s.note)] ++
    Json.optionalEntry "octave" (s.octave.map fun o => .number (.integer o)) ++
    [("filename", .string s.filename), ("duration", .nat s.duration)] ++
    Json.optionalEntry "loudness" (s.loudness.map fun l => .string l.name) ++
    Json.optionalEntry "brightness" (s.brightness.map fun b => .string b.name))

/-- How a sound is read. Only the instrument must be given. -/
def record : Record Sound where
  name := "Sound"
  fields := [
    .of "id" .defaulted .size fun v s => { s with id := v },
    (Field.of "instrument" .required .string fun v s => { s with instrument := v }).orNamed
      "instrument_family",
    (Field.of "note" .defaulted .string fun v s => { s with note := v }).orNamed "note_str",
    .of "octave" .defaulted (.option .signed32) fun v s => { s with octave := v },
    .of "filename" .defaulted .string fun v s => { s with filename := v },
    (Field.of "duration" .defaulted .word32 fun v s => { s with duration := v }).orNamed
      "duration_ms",
    .of "loudness" .defaulted (.option (.variant Loudness.cases)) fun v s =>
      { s with loudness := v },
    .of "brightness" .defaulted (.option (.variant Brightness.cases)) fun v s =>
      { s with brightness := v }]
  blank := ofInstrument 0 ""

/-- The sounds of families given by name and size, in order. They differ in octave and are by turns
loud and quiet. -/
def sampler (families : List (String × Nat)) : List Sound :=
  let members := families.flatMap fun f => (List.range f.2).map fun i => (f.1, i)
  members.zipIdx.map fun ((family, i), id) =>
    { ofInstrument id family with
      note := "C"
      octave := some (4 + i)
      filename := family ++ "_" ++ toString i ++ ".wav"
      duration := 2000
      loudness := some (if i % 2 = 0 then .loud else .quiet) }

end Sound

end SoundScenes
