import SoundScenes.Catalog.Summary
import SoundScenes.Config
import SoundScenes.Finding
import SoundScenes.Bounded

/-!
# Validation of configurations

A configuration is checked on its own and against the shape of a catalog, before anything is
searched. The feasibility check is necessary, not sufficient: it rejects only what no scene of the
catalog can meet.

* `Config.validate` — the configuration on its own;
* `Config.feasibility` — the constraints against the catalog;
* `Config.validateFor` — both.
-/

namespace SoundScenes

/-- Whether a name could leave its directory. -/
def hasSeparator (s : String) : Bool := s.toList.any fun c => c = '/' ∨ c = '\\'

/-- Whether a text has two points in a row. -/
def hasDoublePoint : List Char → Bool
  | '.' :: '.' :: _ => true
  | _ :: cs => hasDoublePoint cs
  | [] => false

namespace Naming

/-- Whether the stem may begin the names of files. -/
def stemOk (n : Naming) : Bool := n.stem ≠ "" ∧ hasSeparator n.stem = false

/-- Whether the extension may end the names of files. -/
def extensionOk (n : Naming) : Bool :=
  n.extension ≠ "" ∧ hasSeparator n.extension = false ∧ '.' ∉ n.extension.toList

/-- Whether the version may stand in the names of files. -/
def versionOk (n : Naming) : Bool :=
  n.version ≠ "" ∧ hasSeparator n.version = false ∧ hasDoublePoint n.version.toList = false

/-- Adds what is wrong with the names. -/
def judge (n : Naming) (v : Verdict) : Verdict :=
  v
    |>.errorIf (n.stemOk = false) .invalidPrefix
      ("output prefix must be non-empty and contain no path separator, got '" ++ n.stem ++ "'")
      "output.prefix"
    |>.errorIf (n.extensionOk = false) .invalidExtension
      ("output extension must be a bare extension such as 'png', got '" ++ n.extension ++ "'")
      "output.extension"
    |>.errorIf (n.versionOk = false) .invalidVersion
      ("dataset version must not be empty or contain '..' or a path separator, got '" ++
        n.version ++ "'")
      "output.version"

/-- What is wrong with the names. -/
def errors (n : Naming) : List ErrorFinding := (n.judge .clean).errors

end Naming

namespace Config

/-- Whether a training share lies between zero and one. -/
def ratioOk (x : Float) : Bool := x.isFinite && 0 ≤ x && x ≤ 1

/-- Checks a configuration, whatever the catalog. -/
def validate (c : Config) : Verdict :=
  Verdict.clean
    |>.errorIf (c.sceneLength = 0) .sceneLengthZero
      "scene_length must be greater than 0" "scene_length"
    |>.errorIf (c.treeWidth = 0) .treeWidthZero
      "tree_width must be greater than 0" "tree_width"
    |>.errorIf (ratioOk c.trainingRatio = false) .ratioOutOfRange
      ("training_ratio must be within [0, 1], got " ++ Decimal.plain c.trainingRatio)
      "training_ratio"
    |> c.output.judge
    |>.warningIf (c.maxScenes = some 0) .zeroSceneCap
      "max_scenes is 0, no scene will be generated" "max_scenes"
    |>.warningIf
      (0 < c.constraints.quota ∧ c.constraints.minFamilies < c.constraints.minQuotaFamilies)
      .quotaDominatesFamilies
      ("min_families_meeting_quota (" ++ toString c.constraints.minQuotaFamilies ++
        ") exceeds min_families (" ++ toString c.constraints.minFamilies ++
        "), scenes will need at least " ++ toString c.constraints.minQuotaFamilies ++ " families")
      "constraints.min_families_meeting_quota"

/-- Checks that nothing keeps every scene of a catalog from meeting the constraints. -/
def feasibility (c : Config) (catalog : Summary) : Verdict :=
  let k := c.constraints
  let places := boundedMul k.minQuotaFamilies k.quota
  let largeEnough := catalog.familiesWithAtLeast k.quota
  Verdict.clean
    |>.errorIf (catalog.familyCount < k.minFamilies) .tooFewFamilies
      ("min_families is " ++ toString k.minFamilies ++ " but the catalog only has " ++
        toString catalog.familyCount ++ " families")
      "constraints.min_families"
    |>.errorIf (c.sceneLength < k.minFamilies) .sceneTooShortForFamilies
      ("min_families is " ++ toString k.minFamilies ++ " but scenes only hold " ++
        toString c.sceneLength ++ " sounds")
      "constraints.min_families"
    |>.errorIf (c.sceneLength < places) .sceneTooShortForQuota
      (toString k.minQuotaFamilies ++ " families with " ++ toString k.quota ++
        " sounds each need " ++ toString places ++ " slots but scenes only hold " ++
        toString c.sceneLength)
      "constraints.min_families_meeting_quota"
    |>.errorIf (largeEnough < k.minQuotaFamilies) .tooFewQuotaFamilies
      (toString k.minQuotaFamilies ++ " families must reach " ++ toString k.quota ++
        " sounds but only " ++ toString largeEnough ++ " catalog families have that many")
      "constraints.min_families_meeting_quota"
    |>.errorIf (catalog.total < c.sceneLength) .catalogTooSmall
      ("scene_length is " ++ toString c.sceneLength ++ " but the catalog only has " ++
        toString catalog.total ++ " sounds")
      "scene_length"
    |>.warningIf (catalog.total < c.treeWidth) .widthExceedsCatalog
      ("tree_width (" ++ toString c.treeWidth ++ ") exceeds the catalog size (" ++
        toString catalog.total ++ "), extra slots stay unused")
      "tree_width"

/-- Both checks: the configuration on its own, then against the catalog. -/
def validateFor (c : Config) (catalog : Summary) : Verdict :=
  c.validate.merge (c.feasibility catalog)

end Config

end SoundScenes
