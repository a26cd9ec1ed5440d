/-!
# Findings

What a check has to say about a configuration: errors, which forbid a run, and warnings, which do
not. A finding has a stable code, a message and, where it concerns one field, the path of that
field.
-/

namespace SoundScenes

/-- The kinds of error. -/
inductive ErrorCode where
  /-- Scenes hold no sound. -/
  | sceneLengthZero
  /-- No continuation is tried anywhere. -/
  | treeWidthZero
  /-- The training share is not between zero and one. -/
  | ratioOutOfRange
  | invalidPrefix
  | invalidExtension
  | invalidVersion
  /-- The catalog has fewer families than a scene needs. -/
  | tooFewFamilies
  /-- A scene has fewer places than it needs families. -/
  | sceneTooShortForFamilies
  /-- A scene has fewer places than the quota needs. -/
  | sceneTooShortForQuota
  /-- The catalog has too few families that are large enough for the quota. -/
  | tooFewQuotaFamilies
  /-- The catalog has fewer sounds than a scene. -/
  | catalogTooSmall
  deriving DecidableEq, Repr

namespace ErrorCode

/-- All kinds, in the order of their codes. -/
def all : List ErrorCode :=
  [sceneLengthZero, treeWidthZero, ratioOutOfRange, invalidPrefix, invalidExtension,
    invalidVersion, tooFewFamilies, sceneTooShortForFamilies, sceneTooShortForQuota,
    tooFewQuotaFamilies, catalogTooSmall]

def code : ErrorCode → String
  | sceneLengthZero => "E001"
  | treeWidthZero => "E002"
  | ratioOutOfRange => "E003"
  | invalidPrefix => "E004"
  | invalidExtension => "E005"
  | invalidVersion => "E006"
  | tooFewFamilies => "E101"
  | sceneTooShortForFamilies => "E102"
  | sceneTooShortForQuota => "E103"
  | tooFewQuotaFamilies => "E104"
  | catalogTooSmall => "E105"

/-- Whether an error is about names of files. -/
def isNaming : ErrorCode → Bool
  | invalidPrefix | invalidExtension | invalidVersion => true
  | _ => false

/-- Whether an error says that the catalog cannot meet the constraints. -/
def isInfeasibility : ErrorCode → Bool
  | tooFewFamilies | sceneTooShortForFamilies | sceneTooShortForQuota | tooFewQuotaFamilies
  | catalogTooSmall => true
  | _ => false

end ErrorCode

/-- The kinds of warning. -/
inductive WarningCode where
  /-- More continuations are asked for than there are sounds. -/
  | widthExceedsCatalog
  /-- The quota asks for more families than the scene does. -/
  | quotaDominatesFamilies
  /-- The cap on scenes is zero. -/
  | zeroSceneCap
  deriving DecidableEq, Repr

namespace WarningCode

/-- All kinds, in the order of their codes. -/
def all : List WarningCode := [widthExceedsCatalog, quotaDominatesFamilies, zeroSceneCap]

def code : WarningCode → String
  | widthExceedsCatalog => "W101"
  | quotaDominatesFamilies => "W102"
  | zeroSceneCap => "W103"

end WarningCode

/-- A code with its text. -/
class Coded (κ : Type) where
  code : κ → String

instance : Coded ErrorCode := ⟨ErrorCode.code⟩

instance : Coded WarningCode := ⟨WarningCode.code⟩

/-- Something that a check has found. -/
structure Finding (κ : Type) where
  code : κ
  message : String
  /-- The field that is meant. -/
  path : Option String
  deriving DecidableEq, Repr

/-- A finding on one line. -/
def Finding.display {κ : Type} [Coded κ] (f : Finding κ) : String :=
  Coded.code f.code ++ ": " ++ f.message ++
    match f.path with
    | some p => " (at " ++ p ++ ")"
    | none => ""

/-- An error that has been found. -/
abbrev ErrorFinding := Finding ErrorCode

/-- A warning that has been found. -/
abbrev WarningFinding := Finding WarningCode

/-- All findings of a check, and whether it has passed. -/
structure Verdict where
  /-- A mark, not read off the errors: whoever adds one takes it away. -/
  ok : Bool
  errors : List ErrorFinding
  warnings : List WarningFinding
  deriving DecidableEq, Repr

namespace Verdict

/-- The verdict of a check that finds nothing. -/
def clean : Verdict := ⟨true, [], []⟩

/-- One more error. The check does not pass any more. -/
def addError (v : Verdict) (f : ErrorFinding) : Verdict :=
  { v with ok := false, errors := v.errors ++ [f] }

/-- One more warning. -/
def addWarning (v : Verdict) (f : WarningFinding) : Verdict :=
  { v with warnings := v.warnings ++ [f] }

/-- The findings of two checks, which pass together if each of them does. -/
def merge (v w : Verdict) : Verdict :=
  ⟨v.ok && w.ok, v.errors ++ w.errors, v.warnings ++ w.warnings⟩

/-- One more error if a condition holds. -/
def errorIf (v : Verdict) (p : Prop) [Decidable p] (code : ErrorCode) (message path : String) :
    Verdict :=
  if p then v.addError ⟨code, message, some path⟩ else v

/-- One more warning if a condition holds. -/
def warningIf (v : Verdict) (p : Prop) [Decidable p] (code : WarningCode)
    (message path : String) : Verdict :=
  if p then v.addWarning ⟨code, message, some path⟩ else v

/-- Whether any error says that the catalog cannot meet the constraints. -/
def hasInfeasibility (v : Verdict) : Bool := v.errors.any fun f => f.code.isInfeasibility

/-- The warnings of a check that has passed, else the errors. -/
def toResult (v : Verdict) : Except (List ErrorFinding) (List WarningFinding) :=
  if v.ok then .ok v.warnings else .error v.errors

end Verdict

end SoundScenes
