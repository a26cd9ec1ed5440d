import SoundScenes.Command.Families
import SoundScenes.Command.Generate
import SoundScenes.Command.Validate

/-!
# Output for readers

What commands print, line by line, when no document is asked for.
-/

namespace SoundScenes

/-- An error or a warning with its marker. -/
def Remark.line (marker : String) (r : Remark) : String :=
  "  " ++ marker ++ " [" ++ r.code ++ "]" ++
    (match r.path with
      | some p => " at " ++ p
      | none => "") ++
    ": " ++ r.message

/-- Some remarks under a title, or nothing where there are none. -/
def Remark.section (title marker : String) (rs : List Remark) : List String :=
  if rs.isEmpty then [] else "" :: title :: rs.map (line marker)

/-- Errors and warnings. -/
def Remark.sections (errors warnings : List Remark) : List String :=
  Remark.section "Errors:" "x" errors ++ Remark.section "Warnings:" "!" warnings

/-- What has been generated, in words. -/
def GeneratedFiles.lines (g : GeneratedFiles) : List String :=
  ["",
    "Scenes: train " ++ toString g.sizes.train ++ ", val " ++ toString g.sizes.val ++ ", test " ++
      toString g.sizes.test ++ " (" ++ g.termination.phrase ++ ")",
    "Fingerprint: " ++ String.ofList (g.fingerprint.toList.take 16)] ++
  g.files.map ("  -> " ++ ·) ++
  ["Report: " ++ g.report]

/-- The output of the command that generates, in words. -/
def GenerateOutput.lines (catalog : String) (o : GenerateOutput) : List String :=
  ["Generating from: " ++ catalog] ++ Remark.sections o.errors o.warnings ++
  (match o.result with
    | some g => g.lines
    | none => []) ++
  ["",
    if o.success then
      "SUCCESS Dataset generated (" ++ toString ((o.result.map (·.duration)).getD 0) ++ "ms)"
    else "FAILED Generation failed with " ++ toString o.errors.length ++ " error(s)"]

/-- The output of the command that validates, in words. -/
def ValidateOutput.lines (catalog : String) (o : ValidateOutput) : List String :=
  ["Validating against: " ++ catalog] ++ Remark.sections o.errors o.warnings ++
  ["",
    if o.success then "SUCCESS Config is valid"
    else "FAILED Config has " ++ toString o.errors.length ++ " error(s)"]

/-- A family with its size behind a name of at least some width, in characters. -/
def FamilySize.line (width : Nat) (f : FamilySize) : String :=
  "  " ++ f.family ++ String.ofList (List.replicate (width - f.family.length) ' ') ++ "  " ++
    toString f.sounds

/-- A summary in words. Sizes stand behind the longest name, whose width is its length in bytes. -/
def Summary.lines (s : Summary) : List String :=
  let width := (s.families.map (·.family.utf8ByteSize)).foldl max 0
  ["Size: " ++ toString s.total ++ " sounds in " ++ toString s.familyCount ++ " families", ""] ++
    s.families.map (FamilySize.line width)

/-- The output of the command that lists families, in words. -/
def FamiliesOutput.lines (catalog : String) (o : FamiliesOutput) : List String :=
  ["Catalog: " ++ catalog] ++
  o.errors.map (fun r => "  x [" ++ r.code ++ "]: " ++ r.message) ++
  (match o.summary with
    | some s => s.lines
    | none => [])

end SoundScenes
