import SoundScenes.Config
import SoundScenes.Proofs.Json.Canonical

/-!
# Configurations and what is hashed of them

The document of a configuration has an entry for every field, except for limits that are not set. So
its canonical form tells every field, as long as the ratio is a number of a document: infinities and
NaN all become `null`.

* `Config.distinctKeys_toJson` — no key stands twice in the document;
* `Config.eq_of_canonical_eq` — configurations with one canonical form are the same;
* `Config.preimage_identifies` — what is hashed identifies values and configurations.
-/

namespace SoundScenes

open Json

/-! ## Fields -/

/-- What two values with one canonical form have under a key. -/
theorem Json.entry?_eq_of_canonical_eq {v v' : Json} (hkeys : v.DistinctKeys)
    (hkeys' : v'.DistinctKeys) (h : v.canonical = v'.canonical) (k : String) :
    (v.entry? k).map canonical = (v'.entry? k).map canonical := by
  rw [← entry?_canonical hkeys, ← entry?_canonical hkeys', h]

theorem Json.nat_injective : Function.Injective Json.nat := by
  intro m n h
  simpa [Json.nat] using h

/-- A limit that may be left out is told by what stands under its key. -/
theorem Json.limit_eq {limit limit' : Option Nat}
    (h : (limit.map Json.nat).map canonical = (limit'.map Json.nat).map canonical) :
    limit = limit' := by
  have hnat : canonical ∘ Json.nat = Json.nat := by
    funext n
    rw [Function.comp_apply, Json.nat, canonical]
  rw [Option.map_map, Option.map_map, hnat] at h
  exact Option.map_injective nat_injective h

/-- A finite number is told by its entry. -/
theorem Json.eq_of_float_canonical_eq {x y : Float} (hx : x.isFinite = true)
    (h : (Json.float x).canonical = (Json.float y).canonical) : x = y := by
  have hfloat (z : Float) : (Json.float z).canonical = Json.float z := by
    unfold Json.float
    split <;> rfl
  rw [hfloat, hfloat, Json.float, if_pos hx, Json.float] at h
  split at h
  · exact Numeral.float.inj (number.inj h)
  · cases h

namespace Constraints

variable {c c' : Constraints}

theorem distinctKeys_toJson (c : Constraints) : c.toJson.DistinctKeys := by
  refine ⟨?_, trivial, trivial, trivial, trivial⟩
  show ["min_families", "min_objects_per_family", "min_families_meeting_quota"].Nodup
  decide

theorem eq_of_canonical_eq (h : c.toJson.canonical = c'.toJson.canonical) : c = c' := by
  have hentry := entry?_eq_of_canonical_eq c.distinctKeys_toJson c'.distinctKeys_toJson h
  have hfamilies : some (Json.nat c.minFamilies) = some (.nat c'.minFamilies) :=
    hentry "min_families"
  have hquota : some (Json.nat c.quota) = some (.nat c'.quota) := hentry "min_objects_per_family"
  have hreaching : some (Json.nat c.minQuotaFamilies) = some (.nat c'.minQuotaFamilies) :=
    hentry "min_families_meeting_quota"
  rw [Option.some.injEq, nat_injective.eq_iff] at hfamilies hquota hreaching
  cases c
  cases c'
  congr

end Constraints

namespace Naming

variable {n n' : Naming}

theorem distinctKeys_toJson (n : Naming) : n.toJson.DistinctKeys := by
  refine ⟨?_, trivial, trivial, trivial, trivial, trivial⟩
  show ["prefix", "version", "extension", "license"].Nodup
  decide

theorem eq_of_canonical_eq (h : n.toJson.canonical = n'.toJson.canonical) : n = n' := by
  have hentry := entry?_eq_of_canonical_eq n.distinctKeys_toJson n'.distinctKeys_toJson h
  have hstem : some (Json.string n.stem) = some (.string n'.stem) := hentry "prefix"
  have hversion : some (Json.string n.version) = some (.string n'.version) := hentry "version"
  have hextension : some (Json.string n.extension) = some (.string n'.extension) :=
    hentry "extension"
  have hlicense : some (Json.string n.license) = some (.string n'.license) := hentry "license"
  rw [Option.some.injEq, string.injEq] at hstem hversion hextension hlicense
  cases n
  cases n'
  congr

end Naming

namespace Config

variable {c c' : Config}

theorem distinctKeys_toJson (c : Config) : c.toJson.DistinctKeys := by
  have hconstraints := c.constraints.distinctKeys_toJson
  have houtput := c.output.distinctKeys_toJson
  have hratio : (Json.float c.trainingRatio).DistinctKeys := by
    unfold Json.float
    split <;> trivial
  obtain ⟨_, _, _, _, _, _, maxScenes, stepBudget, timeBudget, _⟩ := c
  rw [toJson, DistinctKeys]
  constructor
  · cases maxScenes <;> cases stepBudget <;> cases timeBudget <;> simp [optionalEntry]
  · cases maxScenes <;> cases stepBudget <;> cases timeBudget <;>
      simp [optionalEntry, DistinctEntries, hconstraints, houtput, hratio, Json.nat, DistinctKeys]

/-- What stands in the document behind an entry that may be left out. -/
theorem entry?_optional (c : Config) :
    c.toJson.entry? "max_scenes" = c.maxScenes.map .nat ∧
      c.toJson.entry? "step_budget" = c.stepBudget.map .nat ∧
      c.toJson.entry? "time_budget_ms" = c.timeBudget.map .nat ∧
      c.toJson.entry? "output" = some c.output.toJson := by
  obtain ⟨_, _, _, _, _, _, maxScenes, stepBudget, timeBudget, _⟩ := c
  cases maxScenes <;> cases stepBudget <;> cases timeBudget <;> exact ⟨rfl, rfl, rfl, rfl⟩

/-- The canonical form of a document tells every field, if the ratio is a number of a document. -/
theorem eq_of_canonical_eq (hratio : c.trainingRatio.isFinite = true)
    (h : c.toJson.canonical = c'.toJson.canonical) : c = c' := by
  have hentry := entry?_eq_of_canonical_eq c.distinctKeys_toJson c'.distinctKeys_toJson h
  have hlength : some (Json.nat c.sceneLength) = some (.nat c'.sceneLength) :=
    hentry "scene_length"
  have hwidth : some (Json.nat c.treeWidth) = some (.nat c'.treeWidth) := hentry "tree_width"
  have hseed : some (Json.nat c.seed) = some (.nat c'.seed) := hentry "seed"
  have hshuffle : some (Json.bool c.shuffle) = some (.bool c'.shuffle) := hentry "shuffle"
  have hconstraints : some c.constraints.toJson.canonical = some c'.constraints.toJson.canonical :=
    hentry "constraints"
  have hfloat : some (Json.float c.trainingRatio).canonical =
      some (Json.float c'.trainingRatio).canonical := hentry "training_ratio"
  obtain ⟨hmax, hsteps, htime, houtput⟩ := c.entry?_optional
  obtain ⟨hmax', hsteps', htime', houtput'⟩ := c'.entry?_optional
  have hmax := limit_eq (hmax ▸ hmax' ▸ hentry "max_scenes")
  have hsteps := limit_eq (hsteps ▸ hsteps' ▸ hentry "step_budget")
  have htime := limit_eq (htime ▸ htime' ▸ hentry "time_budget_ms")
  have hnaming := hentry "output"
  rw [houtput, houtput', Option.map_some, Option.map_some] at hnaming
  rw [Option.some.injEq, nat_injective.eq_iff] at hlength hwidth hseed
  rw [Option.some.injEq, bool.injEq] at hshuffle
  have hconstraints := Constraints.eq_of_canonical_eq (Option.some.inj hconstraints)
  have hfloat := eq_of_float_canonical_eq hratio (Option.some.inj hfloat)
  have hnaming := Naming.eq_of_canonical_eq (Option.some.inj hnaming)
  cases c
  cases c'
  congr

end Config

/-! ## What is hashed -/

/-- **What is hashed identifies values and configurations.** Two values without repeated keys have
one canonical text exactly if they are equal up to the order of entries. Two configurations, one of
them with a finite ratio, have the same bytes hashed exactly if all their fields are equal, the
ratios bit by bit. -/
theorem Config.preimage_identifies {v : Json} (hkeys : v.DistinctKeys) (v' : Json) {c : Config}
    (hratio : c.trainingRatio.isFinite = true) (c' : Config) :
    (v.canonicalText = v'.canonicalText ↔ v.Alike v') ∧
      (c.toJson.preimage = c'.toJson.preimage ↔
        { c with trainingRatio := c'.trainingRatio } = c' ∧
          c.trainingRatio.toBits = c'.trainingRatio.toBits) := by
  refine ⟨canonicalText_eq_iff hkeys, ?_⟩
  rw [preimage_eq_iff c.distinctKeys_toJson]
  constructor
  · intro h
    obtain rfl := eq_of_canonical_eq hratio (h.canonical_eq c.distinctKeys_toJson)
    exact ⟨rfl, rfl⟩
  · rintro ⟨hfields, hbits⟩
    have heq : c = c' := by
      rw [← hfields, ← Decimal.float_ext hbits]
    exact heq ▸ alike_of_canonical_eq _ _ rfl

/-- Entries may be written in either order. Quotes and commas in a string end nothing. A cap that no
search reaches changes what is hashed. -/
theorem Config.preimage_identifies_standard :
    let entry : String × Json := ("b", .array [.nat 1, .string "],"])
    let entry' : String × Json := ("a", .null)
    (Json.object [entry, entry']).canonicalText = (Json.object [entry', entry]).canonicalText ∧
      (Json.array [.string "a\",\"b"]).canonicalText ≠
        (Json.array [.string "a", .string "b"]).canonicalText ∧
      standard.toJson.preimage ≠ { standard with maxScenes := some 1000 }.toJson.preimage := by
  intro entry entry'
  have hkeys : (Json.object [entry, entry']).DistinctKeys :=
    ⟨by decide, ⟨trivial, trivial, trivial⟩, trivial, trivial⟩
  have halike : AlikeEntries [entry, entry'] [entry, entry'] :=
    .cons (.array (.cons (.number _) (.cons (.string _) .nil))) (.cons .null .nil)
  obtain ⟨hsame, hconfig⟩ := Config.preimage_identifies hkeys (.object [entry', entry])
    (c := standard) rfl { standard with maxScenes := some 1000 }
  obtain ⟨hdiffer, -⟩ := Config.preimage_identifies (v := .array [.string "a\",\"b"])
    ⟨trivial, trivial⟩ (.array [.string "a", .string "b"]) (c := standard) rfl standard
  refine ⟨hsame.mpr (.object halike (.swap ..)), fun h => ?_, fun h => ?_⟩
  · cases hdiffer.mp h with | array h =>
    cases h with | cons _ h =>
    cases h
  · cases congrArg maxScenes (hconfig.mp h).1

end SoundScenes
