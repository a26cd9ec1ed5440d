import SoundScenes.Json.Record
import SoundScenes.Json.Writer

/-!
# Splits

A dataset has three parts: scenes to train on, to validate with and to test with. The sizes of the
parts follow from the number of scenes and the share of training scenes.

* `SplitSizes.compute` — the sizes, which always add up to the number of scenes;
* `SplitSizes.splitAt` — the part of the scene at a position.
-/

namespace SoundScenes

/-- A part of a dataset. -/
inductive Split where
  | train
  | val
  | test
  deriving DecidableEq, Repr

namespace Split

/-- The name in file names and documents. -/
def name : Split → String
  | train => "train"
  | val => "val"
  | test => "test"

/-- All parts, in the order in which scenes are assigned to them. -/
def all : List Split := [train, val, test]

/-- All parts by name. -/
def cases : List (String × Split) := all.map fun s => (s.name, s)

theorem lookup_cases (s : Split) : cases.lookup s.name = some s := by
  cases s <;> rfl

end Split

/-- The number of scenes in each part. -/
structure SplitSizes where
  train : Nat
  val : Nat
  test : Nat
  deriving DecidableEq, Repr

namespace SplitSizes

/-- A share held between zero and one. NaN stays what it is. -/
def share (ratio : Float) : Float :=
  if ratio < 0 then 0 else if 1 < ratio then 1 else ratio

/-- The sizes for so many scenes and a share of training scenes. Training and validation sizes are
rounded, a half to the even number, and what is left is for testing. -/
def compute (total : Nat) (ratio : Float) : SplitSizes :=
  let share := share ratio
  let scenes := Float.ofNat total
  let train := min (Decimal.toCount (scenes * share)) total
  let val := min (Decimal.toCount (scenes * ((1 - share) / 2))) (total - train)
  ⟨train, val, total - train - val⟩

/-- The number of scenes in all parts. -/
def total (s : SplitSizes) : Nat := s.train + s.val + s.test

/-- The part of the scene at a position. -/
def splitAt (s : SplitSizes) (position : Nat) : Split :=
  if position < s.train then .train
  else if position < s.train + s.val then .val
  else .test

/-- The size of one part. -/
def get (s : SplitSizes) : Split → Nat
  | .train => s.train
  | .val => s.val
  | .test => s.test

/-- The document of sizes. -/
def toJson (s : SplitSizes) : Json :=
  .object [("train", .nat s.train), ("val", .nat s.val), ("test", .nat s.test)]

/-- How sizes are read. -/
def record : Record SplitSizes where
  name := "SplitSizes"
  fields := [
    .of "train" .required .size fun v s => { s with train := v },
    .of "val" .required .size fun v s => { s with val := v },
    .of "test" .required .size fun v s => { s with test := v }]
  blank := ⟨0, 0, 0⟩

/-- The sizes in a message about a dataset. -/
def display (s : SplitSizes) : String :=
  "SplitSizes \x7b train: " ++ toString s.train ++ ", val: " ++ toString s.val ++
    ", test: " ++ toString s.test ++ " \x7d"

end SplitSizes

end SoundScenes
