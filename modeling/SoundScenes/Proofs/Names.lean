import SoundScenes.Command.Generate
import SoundScenes.Proofs.Json.Distinct
import SoundScenes.Proofs.Validation
import Mathlib.Data.List.Nodup
import Mathlib.Data.String.Basic

/-!
# Names of files

The files of a dataset have names that are put together from texts of the configuration. If neither
the stem nor the version holds a separator, every such name stands for an entry of its directory. No
two files of one dataset have the same name.

The name of a scene's file ends with digits and the extension. Whatever the stem, what stands between
it and the extension is the name of a split, an underscore and digits, and neither of them holds an
underscore; and zeros in front change no number, also where there is no room left for them.

* `Path.Plain` — names that stand for an entry of a directory;
* `Naming.plain_scenesFile`, `Naming.plain_reportFile` — the names of a dataset;
* `Naming.nodup_fileNames` — they are different;
* `Naming.sceneFile_inj` — so are the names for the scenes of a dataset;
* `GenerateCommand.reportPath_ne_scenesPath` — so are the paths, whatever the names.
-/

namespace SoundScenes

/-- A name that stands for an entry of a directory, and not for a way out of it. -/
structure Path.Plain (name : String) : Prop where
  ne_empty : name ≠ ""
  no_slash : '/' ∉ name.toList
  no_backslash : '\\' ∉ name.toList
  ne_dot : name ≠ "."
  ne_dots : name ≠ ".."

/-! ## Separators -/

theorem hasSeparator_append (s t : String) :
    hasSeparator (s ++ t) = (hasSeparator s || hasSeparator t) := by
  rw [hasSeparator, String.toList_append, List.any_append, hasSeparator, hasSeparator]

/-- A name with an underscore is plain if it has no separator. -/
theorem Path.plain_of_underscore {name : String} (h : hasSeparator name = false)
    (hmem : '_' ∈ name.toList) : Plain name := by
  have hno (c : Char) (hc : c ∈ name.toList) : ¬ (c = '/' ∨ c = '\\') := by
    intro hsep
    rw [hasSeparator, List.any_eq_false] at h
    exact h c hc (decide_eq_true hsep)
  constructor
  case no_slash => exact fun hc => hno _ hc (.inl rfl)
  case no_backslash => exact fun hc => hno _ hc (.inr rfl)
  all_goals
    rintro rfl
    revert hmem
    decide

theorem Split.name_injective : Function.Injective Split.name := by
  intro split split' h
  have hlookup := congrArg (Split.cases.lookup ·) h
  simpa only [Split.lookup_cases, Option.some.injEq] using hlookup

theorem Split.hasSeparator_name (split : Split) : hasSeparator split.name = false := by
  cases split <;> decide

namespace Naming

variable {n : Naming}

/-- Neither the stem nor the version holds a separator. -/
structure Safe (n : Naming) : Prop where
  stem : hasSeparator n.stem = false
  version : hasSeparator n.version = false

theorem errors_eq_nil_iff :
    n.errors = [] ↔ n.stemOk = true ∧ n.extensionOk = true ∧ n.versionOk = true := by
  simp only [errors, judge, Verdict.errors_errorIf_eq_nil_iff, Verdict.errors_clean, true_and,
    Bool.not_eq_false, and_assoc]

/-- Names in which nothing is wrong hold no separator. -/
theorem safe_of_errors (h : n.errors = []) : n.Safe := by
  obtain ⟨hstem, -, hversion⟩ := errors_eq_nil_iff.mp h
  exact ⟨(of_decide_eq_true hstem).2, (of_decide_eq_true hversion).2.1⟩

/-- An extension in which nothing is wrong holds neither a separator nor a point. -/
theorem extension_of_errors (h : n.errors = []) :
    hasSeparator n.extension = false ∧ '.' ∉ n.extension.toList := by
  obtain ⟨-, hextension, -⟩ := errors_eq_nil_iff.mp h
  exact (of_decide_eq_true hextension).2

/-- What the name of a file ends with. -/
theorem append_ne_append {front front' ending ending' : String}
    (hlength : ending.length = ending'.length) (hne : ending ≠ ending') :
    front ++ ending ≠ front' ++ ending' := by
  intro h
  have h := congrArg String.toList h
  rw [String.toList_append, String.toList_append] at h
  refine hne (String.toList_inj.mp (List.append_inj_right' h ?_))
  rw [String.length_toList, String.length_toList, hlength]

theorem scenesFile_injective (n : Naming) : Function.Injective n.scenesFile := by
  intro split split' h
  refine Split.name_injective ?_
  simpa only [scenesFile, String.append_left_inj, String.append_right_inj] using h

/-- No name of a report is the name of scenes. -/
theorem append_reportFile_ne (front front' : String) (n n' : Naming) (split : Split) :
    front ++ n.reportFile ≠ front' ++ n'.scenesFile split := by
  have hreport : front ++ n.reportFile =
      (front ++ (n.stem ++ "_V" ++ n.version)) ++ ".report.json" := String.append_assoc.symm
  have hscenes : front' ++ n'.scenesFile split =
      (front' ++ (n'.stem ++ "_V" ++ n'.version ++ "_" ++ split.name)) ++ "_scenes.json" :=
    String.append_assoc.symm
  rw [hreport, hscenes]
  exact append_ne_append (by decide) (by decide)

/-- All files of a dataset have names of their own. -/
theorem nodup_fileNames (n : Naming) : (Split.all.map n.scenesFile ++ [n.reportFile]).Nodup := by
  refine List.nodup_append.mpr ⟨?_, List.nodup_singleton _, ?_⟩
  · exact List.Nodup.map n.scenesFile_injective (by decide)
  · rintro name hname _ hreport rfl
    obtain ⟨split, -, rfl⟩ := List.mem_map.mp hname
    have hne := append_reportFile_ne "" "" n n split
    rw [String.empty_append, String.empty_append] at hne
    exact hne (List.mem_singleton.mp hreport).symm

/-! ## Files of scenes -/

theorem isDigit_of_mem_padded {width index : Nat} {c : Char} (h : c ∈ padded width index) :
    c.isDigit = true := by
  rcases List.mem_append.mp h with h | h
  · rw [List.eq_of_mem_replicate h]
    rfl
  · exact (isDigits_toDigits index).2 c h

/-- Zeros in front do not change what digits stand for. -/
theorem number_padded (width index : Nat) : Digits.number (padded width index) = index := by
  rw [padded, Digits.number_append, Digits.number_replicate_zero, Nat.zero_mul, Nat.zero_add,
    number_toDigits]

theorem padded_injective (width : Nat) : Function.Injective (padded width) :=
  Function.LeftInverse.injective (number_padded width)

/-- The name of a scene's file tells its place, whatever the stem and the extension. -/
theorem sceneFile_inj {split split' : Split} {index index' : Nat} :
    n.sceneFile split index = n.sceneFile split' index' ↔ split = split' ∧ index = index' := by
  refine ⟨fun h => ?_, fun ⟨hsplit, hindex⟩ => hsplit ▸ hindex ▸ rfl⟩
  -- both names end with the same extension and begin with the same stem
  simp only [sceneFile, String.append_left_inj] at h
  simp only [String.append_assoc, String.append_right_inj] at h
  have hlists := congrArg String.toList h
  simp only [String.toList_append, String.toList_ofList] at hlists
  have hname : '_' ∉ split.name.toList := by cases split <;> decide
  have hdigits : '_' ∉ padded 6 index := fun hmem => by
    cases isDigit_of_mem_padded hmem
  obtain ⟨hname, -, hindex⟩ := (List.append_cons_inj_of_notMem hname hdigits).mp hlists
  exact ⟨Split.name_injective (String.toList_inj.mp hname), padded_injective 6 hindex⟩

theorem plain_sceneFile (h : n.errors = []) (split : Split) (index : Nat) :
    Path.Plain (n.sceneFile split index) := by
  refine Path.plain_of_underscore ?_ ?_
  · have hdigits : hasSeparator (String.ofList (padded 6 index)) = false := by
      rw [hasSeparator, String.toList_ofList, List.any_eq_false]
      intro c hc hsep
      rcases of_decide_eq_true hsep with rfl | rfl <;> cases isDigit_of_mem_padded hc
    simp only [sceneFile, hasSeparator_append, (safe_of_errors h).stem, split.hasSeparator_name,
      hdigits, (extension_of_errors h).1]
    decide
  · simp only [sceneFile, String.toList_append, List.mem_append]
    exact .inl (.inl (.inl (.inr (by decide))))

/-- The name of a scene's file ends with a point and the extension. -/
theorem extension_suffix (n : Naming) (split : Split) (index : Nat) :
    ("." ++ n.extension).toList <:+ (n.sceneFile split index).toList := by
  have hfile : n.sceneFile split index =
      (n.stem ++ "_" ++ split.name ++ "_" ++ String.ofList (padded 6 index)) ++
        ("." ++ n.extension) := String.append_assoc
  rw [hfile]
  exact ⟨_, String.toList_append.symm⟩

/-- After the stem, the names for scenes go on in lower case and all others with a capital. -/
theorem sceneFile_ne (n : Naming) (split : Split) (index : Nat) (rest : String) :
    n.sceneFile split index ≠ n.stem ++ "_V" ++ rest := by
  intro h
  simp only [sceneFile, String.append_assoc, String.append_right_inj] at h
  have hlists := congrArg String.toList h
  simp only [String.toList_append] at hlists
  cases split <;> cases hlists

theorem sceneFile_not_mem (n : Naming) (split : Split) (index : Nat) :
    n.sceneFile split index ∉ Split.all.map n.scenesFile ++ [n.reportFile] := by
  intro hmem
  rcases List.mem_append.mp hmem with hmem | hmem
  · obtain ⟨other, -, heq⟩ := List.mem_map.mp hmem
    refine n.sceneFile_ne split index (n.version ++ "_" ++ other.name ++ "_scenes.json") ?_
    simp only [← heq, scenesFile, String.append_assoc]
  · refine n.sceneFile_ne split index (n.version ++ ".report.json") ?_
    rw [List.mem_singleton.mp hmem]
    simp only [reportFile, String.append_assoc]

end Naming

/-! ## Paths -/

/-- The path of a name in a directory ends with the name. -/
theorem Path.exists_join (dir : String) : ∃ front, ∀ name, Path.join dir name = front ++ name := by
  unfold Path.join
  split
  · exact ⟨"", fun name => (String.empty_append).symm⟩
  · split
    · exact ⟨dir, fun _ => rfl⟩
    · exact ⟨dir ++ "/", fun _ => rfl⟩

namespace GenerateCommand

/-- The path of a report is the path of no scenes, whatever the names. -/
theorem reportPath_ne_scenesPath (root : String) (n n' : Naming) (split : Split) :
    reportPath root n ≠ scenesPath root n' split := by
  obtain ⟨front, hfront⟩ := Path.exists_join root
  obtain ⟨front', hfront'⟩ := Path.exists_join (scenesDir root)
  rw [reportPath, scenesPath, hfront, hfront']
  exact Naming.append_reportFile_ne front front' n n' split

end GenerateCommand

end SoundScenes
