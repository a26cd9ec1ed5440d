import SoundScenes.Proofs.Command.Desk
import SoundScenes.Proofs.Documents
import SoundScenes.Proofs.Json.Ranges

/-!
# The numbers of a configuration

A configuration comes from the defaults, from a document and from settings. Whatever these are, its
numbers fit the types that they are read as; of the share nothing is said, which a setting may make
anything but a number.

* `Config.inRange_ofText` — configurations that are read;
* `Config.InRange.setAll` — configurations that are changed;
* `inRange_loadInput` — the configuration that a command works on.
-/

namespace SoundScenes

open Reader

/-! ## Configurations that are read -/

namespace Constraints

theorem inRange_standard : standard.InRange := ⟨by decide, by decide, by decide⟩

theorem yields_record : record.read.Yields InRange := by
  refine Record.yields inRange_standard fun f hf => ?_
  simp only [record, List.mem_cons, List.not_mem_nil, or_false] at hf
  rcases hf with rfl | rfl | rfl
  · exact Field.keeps_of yields_size fun n c hn hc => { hc with minFamilies := hn }
  · exact Field.keeps_of yields_size fun n c hn hc => { hc with quota := hn }
  · exact Field.keeps_of yields_size fun n c hn hc => { hc with minQuotaFamilies := hn }

end Constraints

namespace Config

theorem inRange_standard : standard.InRange where
  sceneLength := by decide
  treeWidth := by decide
  constraints := Constraints.inRange_standard
  seed := by decide
  maxScenes _ h := by cases h
  stepBudget _ h := by cases h
  timeBudget _ h := by cases h

theorem yields_record : record.read.Yields InRange := by
  have hany {β : Type} (r : Reader β) : r.Yields fun _ => True := fun _ _ _ _ => trivial
  refine Record.yields inRange_standard fun f hf => ?_
  simp only [record, List.mem_cons, List.not_mem_nil, or_false] at hf
  rcases hf with rfl | rfl | rfl | rfl | rfl | rfl | rfl | rfl | rfl | rfl
  · exact Field.keeps_of yields_size fun n c hn hc => { hc with sceneLength := hn }
  · exact Field.keeps_of yields_size fun n c hn hc => { hc with treeWidth := hn }
  · exact Field.keeps_of Constraints.yields_record fun k c hk hc => { hc with constraints := hk }
  · exact Field.keeps_of (hany _) fun x c _ hc => { hc with }
  · exact Field.keeps_of yields_word32 fun n c hn hc => { hc with seed := hn }
  · exact Field.keeps_of (hany _) fun b c _ hc => { hc with }
  · exact Field.keeps_of yields_size.option fun o c ho hc => { hc with maxScenes := ho }
  · exact Field.keeps_of yields_word64.option fun o c ho hc => { hc with stepBudget := ho }
  · exact Field.keeps_of yields_word64.option fun o c ho hc => { hc with timeBudget := ho }
  · exact Field.keeps_of (hany _) fun n c _ hc => { hc with }

theorem inRange_ofText {text : String} {c : Config} (h : ofText text = .ok c) : c.InRange :=
  yields_run yields_record h

end Config

/-! ## Settings -/

/-- The number of a setting fits the type of its field. -/
def Setting.InRange : Setting → Prop
  | sceneLength n | treeWidth n | minFamilies n | quota n | minQuotaFamilies n | maxScenes n
  | stepBudget n | timeBudget n => n < UInt64.size
  | constraints c => c.InRange
  | seed n => n < UInt32.size
  | trainingRatio _ | shuffle _ | output _ | stem _ | version _ => True

namespace Config.InRange

variable {c : Config}

theorem set (h : c.InRange) {x : Setting} (hx : x.InRange) : (c.set x).InRange := by
  have hsome {n bound : Nat} (hn : n < bound) (k : Nat) (hk : some n = some k) : k < bound := by
    cases hk
    exact hn
  cases x with
  | sceneLength n => exact { h with sceneLength := hx }
  | treeWidth n => exact { h with treeWidth := hx }
  | constraints k => exact { h with constraints := hx }
  | minFamilies n => exact { h with constraints := { h.constraints with minFamilies := hx } }
  | quota n => exact { h with constraints := { h.constraints with quota := hx } }
  | minQuotaFamilies n =>
    exact { h with constraints := { h.constraints with minQuotaFamilies := hx } }
  | seed n => exact { h with seed := hx }
  | maxScenes n => exact { h with maxScenes := hsome hx }
  | stepBudget n => exact { h with stepBudget := hsome hx }
  | timeBudget n => exact { h with timeBudget := hsome hx }
  | trainingRatio | shuffle | output | stem | version => exact { h with }

theorem setAll (h : c.InRange) {settings : List Setting} (hs : ∀ x ∈ settings, x.InRange) :
    (c.setAll settings).InRange := by
  rw [Config.setAll]
  induction settings generalizing c with
  | nil => exact h
  | cons x settings ih =>
    exact ih (h.set (hs x List.mem_cons_self)) fun y hy => hs y (List.mem_cons_of_mem x hy)

end Config.InRange

/-! ## Input of commands -/

section Input

variable {σ : Type} [Host (StateM σ)] {path : String} {layers : Layers} {s : σ} {catalog : Catalog}
  {config : Config}

omit [Host (StateM σ)] in
theorem bind_apply {α β : Type} (act : StateM σ α) (next : α → StateM σ β) (s : σ) :
    (act >>= next) s = next (act s).1 (act s).2 := rfl

theorem inRange_readConfig (h : ((readConfig path : StateM σ _) s).1 = .ok config) :
    config.InRange := by
  rw [readConfig, bind_apply] at h
  cases hfound : ((Host.readText path : StateM σ _) s).1 with
  | ok text =>
    rw [hfound] at h
    exact Config.inRange_ofText (mapError_eq_ok.mp h)
  | error e =>
    rw [hfound] at h
    cases h

theorem inRange_loadConfig (hs : ∀ x ∈ layers.settings, x.InRange)
    (h : ((loadConfig layers : StateM σ _) s).1 = .ok config) : config.InRange := by
  unfold loadConfig at h
  cases hfile : layers.file with
  | none =>
    rw [hfile] at h
    cases h
    exact Config.inRange_standard.setAll hs
  | some path =>
    rw [hfile] at h
    obtain ⟨base, hbase, rfl⟩ := map_eq_ok.mp h
    exact (inRange_readConfig hbase).setAll hs

/-- A catalog that is loaded stands in a text. -/
theorem exists_text_of_loadCatalog (h : ((loadCatalog path : StateM σ _) s).1 = .ok catalog) :
    ∃ text, Catalog.ofText text = .ok catalog := by
  have h : ((readCatalog path : StateM σ _) s).1 = .ok catalog := mapError_eq_ok.mp h
  rw [readCatalog, bind_apply] at h
  cases hfound : ((Host.readText path : StateM σ _) s).1 with
  | ok text =>
    rw [hfound] at h
    exact ⟨text, h⟩
  | error e =>
    rw [hfound] at h
    cases h

/-- Input is loaded in two steps. -/
theorem loadInput_ok (h : ((loadInput path layers : StateM σ _) s).1 = .ok (catalog, config)) :
    ((loadCatalog path : StateM σ _) s).1 = .ok catalog ∧
      ((loadConfig layers : StateM σ _) ((loadCatalog path : StateM σ _) s).2).1 = .ok config := by
  rw [loadInput, bind_apply] at h
  cases hfound : ((loadCatalog path : StateM σ _) s).1 with
  | error r =>
    rw [hfound] at h
    cases h
  | ok c =>
    rw [hfound] at h
    obtain ⟨config', hconfig, heq⟩ := map_eq_ok.mp h
    cases heq
    exact ⟨rfl, hconfig⟩

/-- The configuration that a command works on is in range if its settings are. -/
theorem inRange_loadInput (hs : ∀ x ∈ layers.settings, x.InRange)
    (h : ((loadInput path layers : StateM σ _) s).1 = .ok (catalog, config)) : config.InRange :=
  inRange_loadConfig hs (loadInput_ok h).2

end Input

end SoundScenes
