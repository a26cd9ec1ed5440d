import SoundScenes.Proofs.Documents
import SoundScenes.Proofs.Json.Ranges
import SoundScenes.Proofs.Scene.Instruments
import SoundScenes.Proofs.Scene.Partition

/-!
# Scenes are read back

Sounds, scenes and sets of scenes are read back from their documents, provided that every number
fits the type it is read as. So are catalogs from the documents of their sounds. The numbers of
sounds that a catalog has from its file do fit, and so do those of the scenes that are made of them.

* `Sound.InRange`, `Scene.InRange`, `SceneSet.InRange` — the numbers that are read back;
* `Sound.reads`, `Scene.reads`, `SceneSet.run_pretty` — what is read;
* `scenes_and_catalogs_read_back` — sets of scenes, and catalogs from their sounds;
* `Catalog.inRange_sounds_ofText` — sounds from a file;
* `SceneSet.inRange_ofScenes` — scenes that are made of them.
-/

namespace SoundScenes

open Reader

variable {room : Nat}

/-! ## Sounds -/

namespace Sound

/-- Every number fits the type that it is read as. -/
structure InRange (s : Sound) : Prop where
  id : s.id < UInt64.size
  octave : ∀ o, s.octave = some o → -0x80000000 ≤ o ∧ o ≤ 0x7fffffff
  duration : s.duration < UInt32.size

variable {s : Sound}

instance : Decidable s.InRange :=
  decidable_of_iff (s.id < UInt64.size ∧
      (∀ o ∈ s.octave, -0x80000000 ≤ o ∧ o ≤ 0x7fffffff) ∧ s.duration < UInt32.size)
    ⟨fun ⟨hid, hoctave, hduration⟩ => ⟨hid, hoctave, hduration⟩,
      fun h => ⟨h.id, h.octave, h.duration⟩⟩

theorem reads (h : s.InRange) : record.read.Reads (room + 1) s.toJson s := by
  have hentries : s.toJson = .object (
      [("id", .nat s.id), ("instrument", .string s.instrument), ("note", .string s.note)] ++
      (Json.optionalEntry "octave" (s.octave.map fun o => .number (.integer o)) ++
      ([("filename", .string s.filename), ("duration", .nat s.duration)] ++
      (Json.optionalEntry "loudness" (s.loudness.map fun l => .string l.name) ++
      (Json.optionalEntry "brightness" (s.brightness.map fun b => .string b.name) ++ []))))) := by
    simp only [toJson, List.append_assoc, List.append_nil]
  rw [hentries]
  refine Record.reads (by decide) ?_
  refine .given ((reads_size h.id).put _) ?_
  refine .given ((reads_string _ s.instrument).put_orNamed _) ?_
  refine .given ((reads_string _ s.note).put_orNamed _) ?_
  refine .optional (by decide) (fun _ => rfl)
    (fun o ho => reads_signed32 (h.octave o ho).1 (h.octave o ho).2) (by simp) ?_
  refine .given ((reads_string _ s.filename).put _) ?_
  refine .given ((reads_word32 h.duration).put_orNamed _) ?_
  refine .optional (by decide) (fun _ => rfl) (fun l _ => reads_variant l.lookup_cases)
    (by simp) ?_
  refine .optional (by decide) (fun _ => rfl) (fun b _ => reads_variant b.lookup_cases)
    (by simp) ?_
  exact .nil s

theorem inRange_blank : record.blank.InRange where
  id := by decide
  octave _ h := by cases h
  duration := by decide

/-- The numbers of a sound that is read are in range. -/
theorem yields_record : record.read.Yields InRange := by
  have hany {β : Type} (r : Reader β) : r.Yields fun _ => True := fun _ _ _ _ => trivial
  refine Record.yields inRange_blank fun f hf => ?_
  simp only [record, List.mem_cons, List.not_mem_nil, or_false] at hf
  rcases hf with rfl | rfl | rfl | rfl | rfl | rfl | rfl | rfl
  · exact Field.keeps_of yields_size fun n s hn hs => { hs with id := hn }
  · exact (Field.keeps_of (hany _) fun v s _ hs => { hs with }).orNamed _
  · exact (Field.keeps_of (hany _) fun v s _ hs => { hs with }).orNamed _
  · exact Field.keeps_of yields_signed32.option fun o s ho hs => { hs with octave := ho }
  · exact Field.keeps_of (hany _) fun v s _ hs => { hs with }
  · exact (Field.keeps_of yields_word32 fun n s hn hs => { hs with duration := hn }).orNamed _
  · exact Field.keeps_of (hany _) fun v s _ hs => { hs with }
  · exact Field.keeps_of (hany _) fun v s _ hs => { hs with }

end Sound

/-! ## Scenes -/

namespace Relationships

/-- Every position fits 64 bits. -/
structure InRange (r : Relationships) : Prop where
  before : ∀ row ∈ r.before, ∀ i ∈ row, i < UInt64.size
  after : ∀ row ∈ r.after, ∀ i ∈ row, i < UInt64.size

instance {r : Relationships} : Decidable r.InRange :=
  decidable_of_iff ((∀ row ∈ r.before, ∀ i ∈ row, i < UInt64.size) ∧
      ∀ row ∈ r.after, ∀ i ∈ row, i < UInt64.size)
    ⟨fun ⟨hbefore, hafter⟩ => ⟨hbefore, hafter⟩, fun h => ⟨h.before, h.after⟩⟩

theorem reads {r : Relationships} (h : r.InRange) :
    record.read.Reads (room + 3) r.toJson r := by
  have htable {rows : List (List Nat)} (hrows : ∀ row ∈ rows, ∀ i ∈ row, i < UInt64.size) :
      (list (list size)).Reads (room + 2)
        (.array (rows.map fun row => .array (row.map .nat))) rows :=
    Reads.list fun row hrow => Reads.list fun i hi => reads_size (hrows row hrow i hi)
  refine Record.reads (by decide) ?_
  refine .given ((htable h.before).put _) ?_
  refine .given ((htable h.after).put _) ?_
  exact .nil r

theorem inRange_positional {n : Nat} (h : n < UInt64.size) : (positional n).InRange where
  before row hrow i hi := by
    obtain ⟨j, hj, rfl⟩ := List.mem_map.mp hrow
    have hj := List.mem_range.mp hj
    have hi := List.mem_range.mp hi
    omega
  after row hrow i hi := by
    obtain ⟨j, -, rfl⟩ := List.mem_map.mp hrow
    have hi := List.mem_range'_1.mp hi
    omega

end Relationships

namespace Scene

/-- Every number fits the type that it is read as. -/
structure InRange (s : Scene) : Prop where
  sounds : ∀ sound ∈ s.sounds, sound.InRange
  relationships : s.relationships.InRange
  index : s.index < UInt64.size

instance {s : Scene} : Decidable s.InRange :=
  decidable_of_iff ((∀ sound ∈ s.sounds, sound.InRange) ∧ s.relationships.InRange ∧
      s.index < UInt64.size)
    ⟨fun ⟨hsounds, hrelationships, hindex⟩ => ⟨hsounds, hrelationships, hindex⟩,
      fun h => ⟨h.sounds, h.relationships, h.index⟩⟩

theorem reads {s : Scene} (h : s.InRange) : record.read.Reads (room + 4) s.toJson s := by
  refine Record.reads (by decide) ?_
  refine .given ((Reads.list fun sound hsound => Sound.reads (h.sounds sound hsound)).put _) ?_
  refine .given ((Relationships.reads h.relationships).put _) ?_
  refine .given ((reads_variant s.split.lookup_cases).put _) ?_
  refine .given ((reads_size h.index).put _) ?_
  refine .given ((reads_string _ s.file).put _) ?_
  exact .nil s

end Scene

/-! ## Sets of scenes -/

theorem Header.reads (h : Header) : record.read.Reads (room + 1) h.toJson h := by
  refine Record.reads (by decide) ?_
  refine .given ((reads_string _ h.name).put _) ?_
  refine .given ((reads_string _ h.license).put _) ?_
  refine .given ((reads_string _ h.version).put _) ?_
  refine .given ((reads_variant h.split.lookup_cases).put _) ?_
  refine .given ((reads_string _ h.date).put_orNamed _) ?_
  exact .nil h

namespace SceneSet

/-- Every number of every scene fits the type that it is read as. -/
def InRange (s : SceneSet) : Prop := ∀ scene ∈ s.scenes, scene.InRange

instance {s : SceneSet} : Decidable s.InRange :=
  inferInstanceAs (Decidable (∀ scene ∈ s.scenes, scene.InRange))

theorem reads {s : SceneSet} (h : s.InRange) : record.read.Reads (room + 6) s.toJson s := by
  refine Record.reads (by decide) ?_
  refine .given ((Header.reads s.header).put _) ?_
  refine .given ((Reads.list fun scene hscene => Scene.reads (h scene hscene)).put _) ?_
  exact .nil s

/-- A written set of scenes is read back. -/
theorem run_pretty {s : SceneSet} (h : s.InRange) :
    record.read.run s.toJson.pretty = .ok s := by
  rw [Reader.run_pretty]
  exact reads h

end SceneSet

/-! ## Sounds of a catalog -/

variable {catalog : Catalog} {naming : Naming} {date : String} {split : Split}

/-- A text that is read like the sounds of a catalog gives the catalog, since all else is derived
from them. -/
theorem Catalog.ofText_of_run {text : String}
    (h : (list Sound.record.read).run text = .ok catalog.sounds) : ofText text = .ok catalog := by
  rw [ofText, h]
  exact ofSounds_sounds catalog

/-- **Sets of scenes and catalogs are read back.** A set of scenes is read back from its document,
and a catalog is made anew of the document of its sounds, with the same identifiers and families,
however the documents are laid out. -/
theorem scenes_and_catalogs_read_back {set : SceneSet} (hset : set.InRange)
    (hsounds : ∀ s ∈ catalog.sounds, s.InRange) :
    (∀ text ∈ [set.toJson.pretty, set.toJson.compact],
        SceneSet.record.read.run text = .ok set) ∧
      ∀ text ∈ [(Json.array (catalog.sounds.map Sound.toJson)).pretty,
          (Json.array (catalog.sounds.map Sound.toJson)).compact],
        Catalog.ofText text = .ok catalog := by
  have hread : (list Sound.record.read).Reads roomLimit
      (.array (catalog.sounds.map Sound.toJson)) catalog.sounds :=
    Reads.list fun s hs => Sound.reads (hsounds s hs)
  constructor
  · exact (SceneSet.reads hset).run
  · intro text htext
    exact Catalog.ofText_of_run (hread.run text htext)

/-- A sound of which everything is known. -/
def Sound.horn : Sound :=
  ⟨0, "horn", "B♭", some (-1), "low \"horn\".wav", 4000, some .quiet, some .dark⟩

/-- A sound of which one part is known, and one of which only the instrument is. -/
def Catalog.sketches : Catalog where
  sounds := [.horn, { Sound.ofInstrument 1 "bell" with brightness := some .bright },
    .ofInstrument 2 "horn"]
  families := ["bell", "horn"]
  familyOf := [1, 0, 1]
  sounds_ne_nil := by simp
  ids := rfl
  named := by decide
  families_eq := by decide
  familyOf_eq := by decide

/-- One scene of the sounds, played from the last to the first, and an empty one. -/
def SceneSet.sketches : SceneSet where
  header := ⟨"AQA-V0.1", "", "0.1", .val, "2024-01-01"⟩
  scenes := [⟨Catalog.sketches.sounds.reverse, .positional 3, .val, 0, "AQA_val_000000.png"⟩,
    ⟨[], ⟨[[5], []], []⟩, .test, 7, ""⟩]

/-- Both are read back, one without any space and the other over several lines. -/
theorem read_back_sketches :
    SceneSet.sketches.InRange ∧ (∀ s ∈ Catalog.sketches.sounds, s.InRange) ∧
      SceneSet.record.read.run SceneSet.sketches.toJson.compact = .ok .sketches ∧
      Catalog.ofText (Json.array (Catalog.sketches.sounds.map Sound.toJson)).pretty =
        .ok .sketches := by
  have hset : SceneSet.sketches.InRange := by decide
  have hsounds : ∀ s ∈ Catalog.sketches.sounds, s.InRange := by decide
  obtain ⟨hscenes, hcatalog⟩ := scenes_and_catalogs_read_back hset hsounds
  exact ⟨hset, hsounds, hscenes _ (by simp), hcatalog _ (by simp)⟩

/-- The numbers of the sounds of a catalog from a file are in range. -/
theorem Catalog.inRange_sounds_ofText {text : String} (h : Catalog.ofText text = .ok catalog)
    (hsize : catalog.size < UInt64.size) : ∀ s ∈ catalog.sounds, s.InRange := by
  obtain ⟨sounds, hsounds, hmade⟩ := bind_eq_ok.mp h
  have hread := yields_run Sound.yields_record.list (mapError_eq_ok.mp hsounds)
  intro s hs
  have hid : s.id < catalog.sounds.length := by
    rw [← List.mem_range, ← catalog.ids]
    exact List.mem_map_of_mem hs
  rw [sounds_of_ofSounds hmade] at hs
  obtain ⟨⟨sound, i⟩, hmem, rfl⟩ := List.mem_map.mp hs
  have hsound := hread sound (List.fst_mem_of_mem_zipIdx hmem)
  exact ⟨Nat.lt_trans hid hsize, hsound.octave, hsound.duration⟩

/-- The scenes of a set are made of sounds of the catalog, so that their numbers are in range as
well. -/
theorem SceneSet.inRange_ofScenes {scenes : List (List Nat)} {set : SceneSet}
    (h : SceneSet.ofScenes catalog naming date split scenes = .ok set)
    (hsounds : ∀ s ∈ catalog.sounds, s.InRange) (hscenes : set.scenes.length < UInt64.size)
    (hlength : ∀ ids ∈ scenes, ids.length < UInt64.size) : set.InRange := by
  obtain ⟨-, -, hmade⟩ := SceneSet.ofScenes_ok h
  intro scene hscene
  obtain ⟨i, hi, rfl⟩ := List.mem_iff_getElem.mp hscene
  obtain ⟨ids, hids, hmade⟩ := hmade i hi
  obtain ⟨sounds, hget, heq⟩ := Scene.ofIds_eq_ok.mp hmade
  rw [heq]
  constructor
  case sounds =>
    intro sound hsound
    obtain ⟨id, -, hid⟩ := exists_of_mem_mapM hget hsound
    unfold Catalog.get at hid
    split at hid
    · next found hfound =>
      cases hid
      exact hsounds _ (List.mem_of_getElem? hfound)
    · cases hid
  case relationships =>
    have hsame : sounds.length = ids.length := by
      rw [← (Catalog.mapM_get hget).1, List.length_map]
    exact Relationships.inRange_positional (hsame ▸ hlength ids hids)
  case index => exact Nat.lt_trans hi hscenes

end SoundScenes
