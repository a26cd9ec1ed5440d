import SoundScenes.Command.Input

/-!
# The command that lists families

Tells how many sounds a catalog has in each family.
-/

namespace SoundScenes

/-- What the command has to say. -/
structure FamiliesOutput where
  errors : List Remark
  summary : Option Summary
  deriving DecidableEq, Repr

namespace FamiliesOutput

/-- Whether there is a summary. -/
def success (o : FamiliesOutput) : Bool := o.summary.isSome

/-- The document of the output. -/
def toJson (o : FamiliesOutput) : Json :=
  .object (
    [("success", .bool o.success), ("errors", Remark.listToJson o.errors)] ++
    Json.optionalEntry "summary" (o.summary.map Summary.toJson))

end FamiliesOutput

/-- Lists the families of the catalog in a file. -/
def listFamilies {m : Type → Type} [Monad m] [Host m] (catalog : String) : m FamiliesOutput := do
  match ← loadCatalog catalog with
  | .error r => return ⟨[r], none⟩
  | .ok c => return ⟨[], some c.summary⟩

end SoundScenes
