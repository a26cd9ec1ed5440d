import SoundScenes.Proofs.Generation
import SoundScenes.Proofs.Search.Checked

/-!
# Validation and generation agree

Generation gives a result where validation finds no error, and what it reports otherwise is what
validation finds first. After the checks nothing fails, neither with an error nor in an operation
that takes or reads what is not there.

* `generate?` — generation where every operation may fail;
* `generate?_eq` — none of them does;
* `generate_agrees` — generation and validation agree.
-/

namespace SoundScenes

variable {catalog : Catalog} {config : Config} {date : String} {clock : Nat → Nat}

/-! ## Datasets -/

namespace Pcg

variable {α : Type}

/-- `shuffleDown`, where the items that change places must be there. -/
def shuffleDown? : Nat → Array α → Pcg → Option (Array α × Pcg)
  | 0, a, g => some (a, g)
  | i + 1, a, g =>
    let (j, g) := position (i + 2) (Nat.succ_pos _) g
    if h : i + 1 < a.size then
      shuffleDown? i (a.swap (i + 1) j h (Nat.lt_of_lt_of_le j.isLt h)) g
    else none

/-- `shuffle` by such exchanges. -/
def shuffle? (items : List α) (g : Pcg) : Option (List α × Pcg) :=
  (shuffleDown? (items.length - 1) items.toArray g).map fun (a, g) => (a.toList, g)

theorem shuffleDown?_eq {i : Nat} {a : Array α} (h : i = 0 ∨ i < a.size) (g : Pcg) :
    shuffleDown? i a g = some (shuffleDown i a g) := by
  induction i generalizing a g with
  | zero => rfl
  | succ i ih =>
    have hi : i + 1 < a.size := by omega
    rw [shuffleDown?, shuffleDown]
    generalize position (i + 2) _ g = drawn
    obtain ⟨j, g⟩ := drawn
    have hj : j.1 < a.size := by omega
    simp only [dif_pos hi]
    rw [ih (by rw [Array.size_swap]; omega), Array.swapIfInBounds_def, dif_pos hi, dif_pos hj]

theorem shuffle?_eq (items : List α) (g : Pcg) : shuffle? items g = some (shuffle items g) := by
  have hlast : items.length - 1 = 0 ∨ items.length - 1 < items.toArray.size := by
    rw [List.size_toArray]
    omega
  rw [shuffle?, shuffleDown?_eq hlast]
  rfl

end Pcg

/-- `arrange`, where a shuffle may fail. -/
def arrange? {α : Type} (seed : Option Nat) (items : List α) : Option (List α) :=
  match seed with
  | some seed => ((Pcg.ofStream seed "shuffle").shuffle? items).map (·.1)
  | none => some items

theorem arrange?_eq {α : Type} (seed : Option Nat) (items : List α) :
    arrange? seed items = some (arrange seed items) := by
  cases seed with
  | none => rfl
  | some seed =>
    rw [arrange?, Pcg.shuffle?_eq]
    rfl

/-- `compute`, where no difference may stop at zero. -/
def SplitSizes.compute? (total : Nat) (ratio : Float) : Option SplitSizes := do
  let share := share ratio
  let scenes := Float.ofNat total
  let train := min (Decimal.toCount (scenes * share)) total
  let left ← sub? total train
  let val := min (Decimal.toCount (scenes * ((1 - share) / 2))) left
  let test ← sub? left val
  return ⟨train, val, test⟩

theorem SplitSizes.compute?_eq (total : Nat) (ratio : Float) :
    compute? total ratio = some (compute total ratio) := by
  rw [compute?, compute]
  simp only [Option.pure_def, Option.bind_eq_bind, sub?_eq (Nat.min_le_right _ _),
    Option.bind_some]

/-- `ofScenes`, where the order and the sizes may fail. -/
def Dataset.ofScenes? (catalog : Catalog) (naming : Naming) (ratio : Float) (seed : Option Nat)
    (date : String) (scenes : List (List Nat)) : Option (Except CatalogError Dataset) := do
  let scenes ← arrange? seed scenes
  let sizes ← SplitSizes.compute? scenes.length ratio
  let set (split : Split) := SceneSet.ofScenes catalog naming date split (sizes.part scenes split)
  return do return ⟨← set .train, ← set .val, ← set .test⟩

theorem Dataset.ofScenes?_eq (catalog : Catalog) (naming : Naming) (ratio : Float)
    (seed : Option Nat) (date : String) (scenes : List (List Nat)) :
    ofScenes? catalog naming ratio seed date scenes =
      some (ofScenes catalog naming ratio seed date scenes) := by
  rw [ofScenes?, arrange?_eq]
  simp only [Option.bind_eq_bind, Option.bind_some, SplitSizes.compute?_eq]
  rfl

/-! ## Generation -/

/-- `ofOutcome`, where making the dataset may fail. -/
def Generated.ofOutcome? {σ : Type} (catalog : Catalog) (config : Config) (date : String)
    (warnings : List WarningFinding) (outcome : Outcome σ) :
    Option (Except GenerationError Generated) := do
  let made ← Dataset.ofScenes? catalog config.output config.trainingRatio (shuffleSeed config) date
    outcome.scenes
  return do
    let dataset ← made.mapError .catalog
    return {
      dataset := dataset
      stats := outcome.stats
      termination := outcome.termination
      fingerprint := SoundScenes.fingerprint outcome.scenes
      warnings := warnings }

/-- `generate`, where the search and making the dataset may fail. -/
def generate? (catalog : Catalog) (config : Config) (date : String) (clock : Nat → Nat) :
    Option (Except GenerationError Generated) :=
  match config.check catalog.summary with
  | .error e => some (.error e)
  | .ok warnings => do
    let outcome ← (Search.ofConfig catalog config).run? clock (Pcg.ofSeed config.seed)
    Generated.ofOutcome? catalog config date warnings outcome

/-- In a catalog for whose sounds there is room, generation does not fail. -/
theorem generate?_eq (hsize : catalog.size < Search.roomLimit) (config : Config) (date : String)
    (clock : Nat → Nat) :
    generate? catalog config date clock = some (generate catalog config date clock) := by
  rw [generate?, generate]
  cases hcheck : config.check catalog.summary with
  | error e => rfl
  | ok warnings =>
    -- the check leaves no scene that is longer than the catalog
    obtain ⟨hclear, -⟩ := Config.check_eq_ok_iff.mp hcheck
    obtain ⟨-, -, -, -, hlength⟩ :=
      Config.feasibility_errors_eq_nil_iff.mp (Config.validateFor_errors_eq_nil_iff.mp hclear).2
    have hrun := Search.run?_eq (s := .ofConfig catalog config) hlength hsize clock
      (Pcg.ofSeed config.seed)
    simp only [Option.bind_eq_bind, hrun, Option.bind_some]
    rw [Generated.ofOutcome?, Dataset.ofScenes?_eq]
    rfl

/-- Generation fails only in its checks. -/
theorem generate_eq_error {e : GenerationError} :
    generate catalog config date clock = .error e ↔ config.check catalog.summary = .error e := by
  cases hcheck : config.check catalog.summary with
  | error e' =>
    rw [generate, hcheck]
    exact ⟨fun h => (by cases h; rfl), fun h => (by cases h; rfl)⟩
  | ok warnings =>
    obtain ⟨g, hg⟩ := exists_generate hcheck date clock
    rw [hg]
    exact ⟨fun h => (by cases h), fun h => (by cases h)⟩

/-- Generation gives a result where validation finds no error. -/
theorem exists_generate_iff : (∃ g, generate catalog config date clock = .ok g) ↔
    (config.validateFor catalog.summary).errors = [] := by
  constructor
  · rintro ⟨g, hg⟩
    obtain ⟨warnings, -, hcheck, -⟩ := generate_eq_ok.mp hg
    exact (Config.check_eq_ok_iff.mp hcheck).1
  · exact fun hclear => exists_generate (Config.check_of_clear hclear) date clock

/-- **Validation and generation agree.** Generation gives a result exactly where validation finds no
error, which is where validation is marked as passed, with the warnings of validation. Otherwise it
fails with the errors of the first check that finds any, which are those that validation lists
first. Nothing else fails. -/
theorem generate_agrees (catalog : Catalog) (hsize : catalog.size < Search.roomLimit)
    (config : Config) (date : String) (clock : Nat → Nat) :
    let v := config.validateFor catalog.summary
    let own := config.validate.errors
    let joint := (config.feasibility catalog.summary).errors
    generate? catalog config date clock = some (generate catalog config date clock) ∧
    ((∃ g, generate catalog config date clock = .ok g) ↔ v.errors = []) ∧
    (v.ok = true ↔ v.errors = []) ∧
    (∀ g, generate catalog config date clock = .ok g → g.warnings = v.warnings) ∧
    ∀ e, generate catalog config date clock = .error e →
      (own ≠ [] → e = .invalidConfig own) ∧ (own = [] → e = .infeasible joint) ∧
        e.findings ≠ [] ∧ e.findings <+: v.errors ∧ v.ok = false := by
  intro v own joint
  have hmark : v.Coherent := config.coherent_validateFor catalog.summary
  refine ⟨generate?_eq hsize config date clock, exists_generate_iff, hmark, fun g hg => ?_,
    fun e he => ?_⟩
  · obtain ⟨warnings, d, hcheck, -, rfl⟩ := generate_eq_ok.mp hg
    exact (Config.check_eq_ok_iff.mp hcheck).2
  · have hcheck := generate_eq_error.mp he
    have herrors : v.errors ≠ [] := by
      intro hclear
      rw [Config.check_of_clear hclear] at hcheck
      cases hcheck
    obtain ⟨e', he', hinvalid, hinfeasible, hsome, hbegins⟩ := Config.check_of_errors herrors
    obtain rfl : e' = e := Except.error.inj (he'.symm.trans hcheck)
    exact ⟨hinvalid, hinfeasible, hsome, hbegins, hmark.ok_eq_false_iff.mpr herrors⟩

/-- Scenes in which three sounds are played. -/
def trioConfig : Config := { duetConfig with sceneLength := 3 }

/-- From two sounds no such scene can be made, and generation says so. -/
theorem generate_trioConfig :
    generate? .duet trioConfig "2024-01-01" (fun _ => 0) =
      some (.error (.infeasible (trioConfig.feasibility Catalog.duet.summary).errors)) := by
  obtain ⟨hsafe, hiff, -, -, herror⟩ := generate_agrees .duet (by decide) trioConfig "2024-01-01"
    fun _ => 0
  rw [hsafe]
  cases hresult : generate .duet trioConfig "2024-01-01" fun _ => 0 with
  | ok g =>
    have hclear := hiff.mp ⟨g, hresult⟩
    cases hclear
  | error e => rw [(herror e hresult).2.1 rfl]

end SoundScenes
