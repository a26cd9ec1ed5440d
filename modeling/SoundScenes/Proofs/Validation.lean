import SoundScenes.Generation
import Mathlib.Data.List.Basic

/-!
# What validation finds

Validation puts the findings of two checks together; generation stops at the first check that finds
an error. Both come to the same: generation passes where validation finds no error, and what stops
it otherwise is what validation finds first. Generation goes by the mark of each verdict, and all
that adds to a verdict keeps the mark in step with the errors.

* `Verdict.Coherent`, `Config.coherent_validateFor` — the mark of a validation says that it has
  found no error;
* `Config.validate_errors_eq_nil_iff`, `Config.feasibility_errors_eq_nil_iff` — what the two checks
  ask for;
* `Config.feasibility_reports_iff` — when a scene is too short for the quota;
* `Config.check_eq_ok_iff` — when generation passes, and with which warnings;
* `Config.check_of_errors` — what stops it otherwise.
-/

namespace SoundScenes

/-! ## Findings -/

namespace Verdict

variable {v w : Verdict} {p : Prop} [Decidable p] {code c : ErrorCode} {kind : WarningCode}
variable {message path : String}

/-- A kind of error is among the findings. -/
def Reports (v : Verdict) (code : ErrorCode) : Prop := ∃ e ∈ v.errors, e.code = code

instance (v : Verdict) (code : ErrorCode) : Decidable (v.Reports code) :=
  inferInstanceAs (Decidable (∃ e ∈ v.errors, e.code = code))

theorem merge_clean : v.merge clean = v := by
  simp only [merge, clean, Bool.and_true, List.append_nil]

/-- What is added to the second of two checks is added to both. -/
theorem errorIf_merge : (v.merge w).errorIf p code message path =
    v.merge (w.errorIf p code message path) := by
  unfold errorIf
  split
  · simp only [addError, merge, Bool.and_false, List.append_assoc]
  · rfl

theorem errors_errorIf_eq_nil_iff :
    (v.errorIf p code message path).errors = [] ↔ v.errors = [] ∧ ¬ p := by
  unfold errorIf
  split
  · next h =>
    rw [addError]
    exact ⟨fun h' => absurd h' (List.concat_ne_nil _ _), fun h' => absurd h h'.2⟩
  · next h => exact (and_iff_left h).symm

@[simp] theorem errors_warningIf : (v.warningIf p kind message path).errors = v.errors := by
  unfold warningIf
  split <;> rfl

/-- A condition leads to one error of its own kind, and to nothing else. -/
theorem mem_errors_errorIf {e : ErrorFinding} : e ∈ (v.errorIf p code message path).errors ↔
    e ∈ v.errors ∨ p ∧ e = ⟨code, message, some path⟩ := by
  unfold errorIf
  split
  · next h => rw [addError, List.mem_append, List.mem_singleton, and_iff_right h]
  · next h => exact (or_iff_left fun h' => h h'.1).symm

theorem reports_errorIf :
    (v.errorIf p code message path).Reports c ↔ v.Reports c ∨ p ∧ code = c := by
  simp only [Reports, mem_errors_errorIf, or_and_right, exists_or, and_assoc, exists_and_left,
    exists_eq_left]

theorem reports_warningIf : (v.warningIf p kind message path).Reports c ↔ v.Reports c := by
  rw [Reports, errors_warningIf, Reports]

@[simp] theorem errors_clean : clean.errors = [] := rfl

theorem not_reports_clean : ¬ clean.Reports c :=
  fun ⟨_, he, _⟩ => List.not_mem_nil he

/-! ## The mark -/

/-- The mark says that there is no error. -/
def Coherent (v : Verdict) : Prop := v.ok = true ↔ v.errors = []

theorem coherent_clean : clean.Coherent := iff_of_true rfl rfl

/-- An error takes the mark away, whatever it said before. -/
theorem coherent_addError (v : Verdict) (f : ErrorFinding) : (v.addError f).Coherent :=
  iff_of_false Bool.false_ne_true (List.concat_ne_nil _ _)

theorem Coherent.addWarning (h : v.Coherent) (f : WarningFinding) : (v.addWarning f).Coherent := h

theorem Coherent.merge (h : v.Coherent) (h' : w.Coherent) : (v.merge w).Coherent := by
  unfold Coherent at h h' ⊢
  rw [Verdict.merge, Bool.and_eq_true, List.append_eq_nil_iff, h, h']

theorem Coherent.errorIf (h : v.Coherent) : (v.errorIf p code message path).Coherent := by
  unfold Verdict.errorIf
  split
  · exact coherent_addError v _
  · exact h

theorem Coherent.warningIf (h : v.Coherent) : (v.warningIf p kind message path).Coherent := by
  unfold Verdict.warningIf
  split
  · exact h.addWarning _
  · exact h

theorem Coherent.ok_eq_false_iff (h : v.Coherent) : v.ok = false ↔ v.errors ≠ [] := by
  rw [← Bool.not_eq_true, not_congr h]

theorem Coherent.toResult_of_errors (h : v.Coherent) (herrors : v.errors ≠ []) :
    v.toResult = .error v.errors := by
  rw [toResult, h.ok_eq_false_iff.mpr herrors]
  rfl

theorem Coherent.toResult_of_clear (h : v.Coherent) (hclear : v.errors = []) :
    v.toResult = .ok v.warnings :=
  if_pos (h.mpr hclear)

end Verdict

namespace Naming

variable {n : Naming} {v : Verdict}

/-- What is wrong with names is added to what has been found before. -/
theorem judge_eq_merge : n.judge v = v.merge (n.judge .clean) := by
  have h : n.judge (v.merge .clean) = v.merge (n.judge .clean) := by
    simp only [judge, Verdict.errorIf_merge]
  rwa [Verdict.merge_clean] at h

theorem coherent_judge (h : v.Coherent) : (n.judge v).Coherent := h.errorIf.errorIf.errorIf

theorem errors_judge_eq_nil_iff : (n.judge v).errors = [] ↔ v.errors = [] ∧ n.errors = [] := by
  rw [judge_eq_merge]
  exact List.append_eq_nil_iff

end Naming

namespace Config

variable {config : Config} {summary : Summary}

/-! ## The two checks -/

/-- On its own a configuration must ask for scenes, for continuations and for a share, and give
names that can stand in paths. -/
theorem validate_errors_eq_nil_iff : config.validate.errors = [] ↔
    config.sceneLength ≠ 0 ∧ config.treeWidth ≠ 0 ∧ ratioOk config.trainingRatio = true ∧
      config.output.errors = [] := by
  simp only [validate, Verdict.errors_warningIf, Naming.errors_judge_eq_nil_iff,
    Verdict.errors_errorIf_eq_nil_iff, Verdict.errors_clean, true_and, Bool.not_eq_false, and_assoc,
    ne_eq]

/-- The check against a catalog asks for enough families, enough large ones, and enough places for
each of these numbers alone. -/
theorem feasibility_errors_eq_nil_iff : (config.feasibility summary).errors = [] ↔
    config.constraints.minFamilies ≤ summary.familyCount ∧
    config.constraints.minFamilies ≤ config.sceneLength ∧
    boundedMul config.constraints.minQuotaFamilies config.constraints.quota ≤ config.sceneLength ∧
    config.constraints.minQuotaFamilies ≤
      summary.familiesWithAtLeast config.constraints.quota ∧
    config.sceneLength ≤ summary.total := by
  simp only [feasibility, Verdict.errors_warningIf, Verdict.errors_errorIf_eq_nil_iff,
    Verdict.errors_clean, true_and, Nat.not_lt, and_assoc]

/-- A scene is told to be too short for the quota if it has fewer places than the bounded product. -/
theorem feasibility_reports_iff : (config.feasibility summary).Reports .sceneTooShortForQuota ↔
    config.sceneLength <
      boundedMul config.constraints.minQuotaFamilies config.constraints.quota := by
  simp only [feasibility, Verdict.reports_warningIf, Verdict.reports_errorIf,
    Verdict.not_reports_clean, reduceCtorEq, and_false, and_true, false_or, or_false]

theorem coherent_validate (config : Config) : config.validate.Coherent :=
  (Naming.coherent_judge Verdict.coherent_clean.errorIf.errorIf.errorIf).warningIf.warningIf

theorem coherent_feasibility (config : Config) (summary : Summary) :
    (config.feasibility summary).Coherent :=
  Verdict.coherent_clean.errorIf.errorIf.errorIf.errorIf.errorIf.warningIf

/-- The mark of a validation says that neither check has found an error. -/
theorem coherent_validateFor (config : Config) (summary : Summary) :
    (config.validateFor summary).Coherent :=
  config.coherent_validate.merge (config.coherent_feasibility summary)

/-- Both checks find nothing where validation does not. -/
theorem validateFor_errors_eq_nil_iff : (config.validateFor summary).errors = [] ↔
    config.validate.errors = [] ∧ (config.feasibility summary).errors = [] :=
  List.append_eq_nil_iff

/-! ## Before generation -/

/-- A configuration that is wrong on its own is not checked against the catalog. -/
theorem check_of_invalid (h : config.validate.errors ≠ []) :
    config.check summary = .error (.invalidConfig config.validate.errors) := by
  rw [check, config.coherent_validate.toResult_of_errors h]
  rfl

theorem check_of_infeasible (h : config.validate.errors = [])
    (h' : (config.feasibility summary).errors ≠ []) :
    config.check summary = .error (.infeasible (config.feasibility summary).errors) := by
  rw [check, config.coherent_validate.toResult_of_clear h,
    (config.coherent_feasibility summary).toResult_of_errors h']
  rfl

theorem check_of_clear (h : (config.validateFor summary).errors = []) :
    config.check summary = .ok (config.validateFor summary).warnings := by
  obtain ⟨hvalid, hfeasible⟩ := validateFor_errors_eq_nil_iff.mp h
  rw [check, config.coherent_validate.toResult_of_clear hvalid,
    (config.coherent_feasibility summary).toResult_of_clear hfeasible]
  rfl

/-- What stops generation is what validation finds first. -/
theorem check_of_errors (h : (config.validateFor summary).errors ≠ []) :
    ∃ e, config.check summary = .error e ∧
      (config.validate.errors ≠ [] → e = .invalidConfig config.validate.errors) ∧
      (config.validate.errors = [] → e = .infeasible (config.feasibility summary).errors) ∧
      e.findings ≠ [] ∧ e.findings <+: (config.validateFor summary).errors := by
  by_cases hvalid : config.validate.errors = []
  · have herrors : (config.validateFor summary).errors = (config.feasibility summary).errors := by
      rw [validateFor, Verdict.merge, hvalid, List.nil_append]
    rw [herrors] at h ⊢
    exact ⟨_, check_of_infeasible hvalid h, fun hinvalid => absurd hvalid hinvalid, fun _ => rfl,
      h, List.prefix_rfl⟩
  · exact ⟨_, check_of_invalid hvalid, fun _ => rfl, fun hvalid' => absurd hvalid' hvalid, hvalid,
      List.prefix_append _ _⟩

/-- What stops generation are errors of the configuration on its own, or, where there are none,
errors against the catalog. -/
theorem check_error_cases {e : GenerationError} (h : config.check summary = .error e) :
    config.validate.errors ≠ [] ∧ e = .invalidConfig config.validate.errors ∨
      config.validate.errors = [] ∧ (config.feasibility summary).errors ≠ [] ∧
        e = .infeasible (config.feasibility summary).errors := by
  by_cases hvalid : config.validate.errors = []
  · by_cases hfeasible : (config.feasibility summary).errors = []
    · rw [check_of_clear (validateFor_errors_eq_nil_iff.mpr ⟨hvalid, hfeasible⟩)] at h
      cases h
    · rw [check_of_infeasible hvalid hfeasible] at h
      exact .inr ⟨hvalid, hfeasible, (Except.error.inj h).symm⟩
  · rw [check_of_invalid hvalid] at h
    exact .inl ⟨hvalid, (Except.error.inj h).symm⟩

/-- Generation passes its checks where validation finds no error, with the same warnings. -/
theorem check_eq_ok_iff {warnings : List WarningFinding} :
    config.check summary = .ok warnings ↔
      (config.validateFor summary).errors = [] ∧
        warnings = (config.validateFor summary).warnings := by
  by_cases h : (config.validateFor summary).errors = []
  · rw [check_of_clear h, Except.ok.injEq, eq_comm]
    exact (and_iff_right h).symm
  · obtain ⟨e, he, -⟩ := check_of_errors h
    rw [he]
    exact ⟨fun heq => (by cases heq), fun heq => absurd heq.1 h⟩

end Config

end SoundScenes
