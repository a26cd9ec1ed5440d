import SoundScenes.Json.Document
import SoundScenes.Text.Quoted

/-!
# Readers

A `Reader α` turns a document into an `α` or says what is wrong with it. Readers go through a
document in the order of its text, so the first fault in the text is the one reported.

Containers nest at most `roomLimit` deep. A reader is given the room that is left; only documents
that are passed over nest as they like.
-/

namespace SoundScenes

/-- What a message says was found. -/
inductive Found where
  | null
  | bool (b : Bool)
  | integer (i : Int)
  | float (x : Float)
  | string (s : String)
  | sequence
  | map

/-- Why a document cannot be read. -/
inductive ReadError where
  | fault (f : Fault)
  | missingField (name : String)
  | duplicateField (name : String)
  | invalidType (found : Found) (expected : String)
  | invalidValue (found : Found) (expected : String)
  | unknownVariant (name : String) (known : List String)
  | invalidLength (length : Nat) (expected : String)

/-- What was found, in words. -/
def Found.phrase : Found → String
  | .null => "null"
  | .bool b => "boolean `" ++ (if b then "true" else "false") ++ "`"
  | .integer i => "integer `" ++ toString i ++ "`"
  | .float x => "floating point `" ++ Decimal.document x ++ "`"
  | .string s => "string " ++ Text.quoted s
  | .sequence => "sequence"
  | .map => "map"

/-- A list of names to choose from, in words. -/
def ReadError.choices : List String → String
  | [] => "there are no variants"
  | [a] => "expected `" ++ a ++ "`"
  | [a, b] => "expected `" ++ a ++ "` or `" ++ b ++ "`"
  | names => "expected one of " ++ ", ".intercalate (names.map fun n => "`" ++ n ++ "`")

/-- The message of an error. Damage of the text has no wording of its own. -/
def ReadError.message : ReadError → String
  | .fault .malformed => "<syntax>"
  | .fault .cut => "<eof>"
  | .missingField name => "missing field `" ++ name ++ "`"
  | .duplicateField name => "duplicate field `" ++ name ++ "`"
  | .invalidType found expected =>
    "invalid type: " ++ found.phrase ++ ", expected " ++ expected
  | .invalidValue found expected =>
    "invalid value: " ++ found.phrase ++ ", expected " ++ expected
  | .unknownVariant name known => "unknown variant `" ++ name ++ "`, " ++ choices known
  | .invalidLength length expected =>
    "invalid length " ++ toString length ++ ", expected " ++ expected

/-- Turns a document into an `α`. The number is the room for nested containers that is left. -/
abbrev Reader (α : Type) := Nat → Document → Except ReadError α

/-- How deep containers may nest. -/
def roomLimit : Nat := 127

namespace Reader

/-- Damage of the text as a reader's error. -/
def sound {α : Type} (r : Except Fault α) : Except ReadError α := r.mapError .fault

/-- The string that pieces spell. -/
def spelled (pieces : List Piece) (ending : Option Fault) : Except ReadError String :=
  sound ((Piece.join ending pieces).map String.ofList)

/-- The error of a reader that expects something else than what stands there. -/
def mismatch {α : Type} (expected : String) (d : Document) : Except ReadError α := do
  let found ← match d with
    | .null => pure .null
    | .bool b => pure (.bool b)
    | .number n => do
      match ← sound n.value with
      | .integer i => pure (.integer i)
      | .float x => pure (.float x)
    | .string ps e => do pure (.string (← spelled ps e))
    | .array .. => pure .sequence
    | .object .. => pure .map
    | .scrap _ f _ => throw (.fault f)
    | .gap f => throw (.fault f)
  throw (.invalidType found expected)

/-- A string, called `expected` in messages. -/
def stringAs (expected : String) : Reader String := fun _ d =>
  match d with
  | .string ps e => spelled ps e
  | d => mismatch expected d

/-- A string. -/
def string : Reader String := stringAs "a string"

/-- A boolean. -/
def bool : Reader Bool := fun _ d =>
  match d with
  | .bool b => .ok b
  | d => mismatch "a boolean" d

/-- An integer from `low` to `high`. -/
def integer (low high : Int) (expected : String) : Reader Int := fun _ d =>
  match d with
  | .number n => do
    match ← sound n.value with
    | .integer i =>
      if low ≤ i ∧ i ≤ high then pure i else throw (.invalidValue (.integer i) expected)
    | .float x => throw (.invalidType (.float x) expected)
  | d => mismatch expected d

/-- A natural number below a bound. -/
def natural (bound : Nat) (expected : String) : Reader Nat := fun room d =>
  (integer 0 (bound - 1) expected room d).map Int.toNat

/-- A count or position. -/
def size : Reader Nat := natural UInt64.size "usize"

/-- A 64-bit number. -/
def word64 : Reader Nat := natural UInt64.size "u64"

/-- A 32-bit number. -/
def word32 : Reader Nat := natural UInt32.size "u32"

/-- A signed 32-bit number. -/
def signed32 : Reader Int := integer (-0x80000000) 0x7fffffff "i32"

/-- A floating-point number. An integer is taken as the nearest one. -/
def float : Reader Float := fun _ d =>
  match d with
  | .number n => do
    match ← sound n.value with
    | .integer i => pure (Float.ofInt i)
    | .float x => pure x
  | d => mismatch "f64" d

/-- Something that may be `null`. -/
def option {α : Type} (r : Reader α) : Reader (Option α) := fun room d =>
  match d with
  | .null => .ok none
  | .scrap 'n' f _ => .error (.fault f)
  | d => (r room d).map some

/-- Goes into a container, if there is room for it. -/
def enter {α : Type} (room : Nat) (inside : Nat → Except ReadError α) : Except ReadError α :=
  match room with
  | 0 => .error (.fault .malformed)
  | room + 1 => inside room

/-- An array of any length. -/
def list {α : Type} (r : Reader α) : Reader (List α) := fun room d =>
  match d with
  | .array items e => enter room fun room => do
    let values ← items.mapM (r room)
    sound (Document.ending values e)
  | d => mismatch "a sequence" d

/-- The key of an entry. -/
def key (d : Document) : Except ReadError String :=
  match d with
  | .string ps e => spelled ps e
  | .gap f => .error (.fault f)
  | _ => .error (.fault .malformed)

/-- One of several names. -/
def choose {α : Type} (cases : List (String × α)) (name : String) : Except ReadError α :=
  match cases.lookup name with
  | some a => .ok a
  | none => .error (.unknownVariant name (cases.map Prod.fst))

/-- One of several named values, written as its name or as an object whose only key is the name and
whose only value is `null`. -/
def variant {α : Type} (cases : List (String × α)) : Reader α := fun room d =>
  match d with
  | .string ps e => do choose cases (← spelled ps e)
  | .object entries e => enter room fun _ =>
    match entries with
    | [] => .error (.fault (e.getD .malformed))
    | (k, v) :: rest => do
      let a ← choose cases (← key k)
      match v with
      | .null => pure ()
      | v => mismatch "unit" v
      if rest.isEmpty then sound (Document.ending a e) else throw (.fault .malformed)
  | .gap f => .error (.fault f)
  | _ => .error (.fault .malformed)

mutual

/-- Any value. An object keeps the last value of a key. -/
def value (room : Nat) : Document → Except ReadError Json
  | .null => .ok .null
  | .bool b => .ok (.bool b)
  | .number n => (sound n.value).map .number
  | .string ps e => (spelled ps e).map .string
  | .array items e => enter room fun room => do
    let vs ← values room items
    sound (Document.ending (.array vs) e)
  | .object entries e => enter room fun room => do
    let es ← entriesOf room entries
    let kept := es.foldl (fun kept e => Json.insertEntry e.1 e.2 kept) []
    sound (Document.ending (.object kept) e)
  | .scrap _ f _ => .error (.fault f)
  | .gap f => .error (.fault f)

/-- Any values. -/
def values (room : Nat) : List Document → Except ReadError (List Json)
  | [] => .ok []
  | d :: ds => do
    let v ← value room d
    return v :: (← values room ds)

/-- Any entries. -/
def entriesOf (room : Nat) : List (Document × Document) → Except ReadError (List (String × Json))
  | [] => .ok []
  | (k, d) :: es => do
    let k ← key k
    let v ← value room d
    return (k, v) :: (← entriesOf room es)

end

/-- Reads a whole text. Nothing may stand behind the document. -/
def run {α : Type} (r : Reader α) (text : String) : Except ReadError α := do
  let (d, surplus) := Document.ofString text
  let a ← r roomLimit d
  if surplus then throw (.fault .malformed) else return a

end Reader

end SoundScenes
