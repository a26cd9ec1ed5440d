import SoundScenes.Decimal.Layout

/-!
# JSON values

The values that documents of this library are made of. A number is either an integer, kept exactly,
or a `Float`; an object keeps its entries in the order in which they are written.

* `Json.canonical` — the same value with the entries of every object in key order;
* `Json.insertEntry` — an object's entries after one more assignment, where the last one counts.
-/

namespace SoundScenes

/-- A JSON number: an integer, or a floating-point number. -/
inductive Numeral where
  | integer (i : Int)
  | float (x : Float)

/-- A JSON value. -/
inductive Json where
  | null
  | bool (b : Bool)
  | number (n : Numeral)
  | string (s : String)
  | array (items : List Json)
  | object (entries : List (String × Json))

instance : Inhabited Json := ⟨.null⟩

namespace Json

/-- A natural number as a value. -/
def nat (n : Nat) : Json := .number (.integer n)

/-- A floating-point number as a value. Infinities and NaN have no JSON form and become `null`. -/
def float (x : Float) : Json := if x.isFinite then .number (.float x) else .null

/-- Entries of an object whose value is present. -/
def optionalEntry (key : String) : Option Json → List (String × Json)
  | none => []
  | some v => [(key, v)]

/-- Assigns a key: an earlier entry for it is replaced where it stands. -/
def insertEntry (key : String) (v : Json) : List (String × Json) → List (String × Json)
  | [] => [(key, v)]
  | e :: es => if e.1 = key then (key, v) :: es else e :: insertEntry key v es

mutual

/-- The value with the entries of every object in increasing order of their keys. -/
def canonical : Json → Json
  | .array items => .array (canonicalItems items)
  | .object entries => .object ((canonicalEntries entries).mergeSort fun a b => a.1 ≤ b.1)
  | .null => .null
  | .bool b => .bool b
  | .number n => .number n
  | .string s => .string s

/-- `canonical` on each item. -/
def canonicalItems : List Json → List Json
  | [] => []
  | x :: xs => canonical x :: canonicalItems xs

/-- `canonical` on the value of each entry. -/
def canonicalEntries : List (String × Json) → List (String × Json)
  | [] => []
  | (k, v) :: es => (k, canonical v) :: canonicalEntries es

end

end Json

end SoundScenes
