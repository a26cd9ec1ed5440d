import SoundScenes.Json.Reader

/-!
# Records

A record is read from an object by the names of its fields, or from an array in the order of its
fields. A `Record α` lists the fields; each one says how its value changes the record, which starts
from `blank`.

Unknown keys are passed over. A key that comes twice is an error even under two of a field's names.
-/

namespace SoundScenes

/-- What the absence of a field means. -/
inductive Presence where
  /-- It must be given. -/
  | required
  /-- An object may leave it out, an array may not. -/
  | optional
  /-- It may be left out; the blank record has its value. -/
  | defaulted
  deriving DecidableEq

/-- A field of a record of type `α`. -/
structure Field (α : Type) where
  name : String
  aliases : List String
  presence : Presence
  /-- How a value changes the record. -/
  read : Reader (α → α)

namespace Field

/-- A field whose value is set by `put`. -/
def of {α β : Type} (name : String) (presence : Presence) (r : Reader β) (put : β → α → α) :
    Field α :=
  ⟨name, [], presence, fun room d => (r room d).map put⟩

/-- The same field under another name besides its own. -/
def orNamed {α : Type} (f : Field α) (other : String) : Field α :=
  { f with aliases := other :: f.aliases }

/-- Whether a key names the field. -/
def answersTo {α : Type} (f : Field α) (key : String) : Bool :=
  f.name = key ∨ key ∈ f.aliases

end Field

/-- How a record is read. -/
structure Record (α : Type) where
  name : String
  fields : List (Field α)
  blank : α

namespace Record

/-- How many elements an array must have, in words. -/
def shape {α : Type} (r : Record α) : String :=
  "struct " ++ r.name ++ " with " ++ toString r.fields.length ++
    (if r.fields.length = 1 then " element" else " elements")

/-- Reads the entries of an object. `seen` holds the names of the fields already given. -/
def readEntries {α : Type} (r : Record α) (room : Nat) :
    List (Document × Document) → α → List String → Except ReadError (α × List String)
  | [], a, seen => .ok (a, seen)
  | (k, v) :: es, a, seen => do
    let k ← Reader.key k
    match r.fields.find? (·.answersTo k) with
    | some f =>
      if f.name ∈ seen then throw (.duplicateField f.name)
      let change ← f.read room v
      readEntries r room es (change a) (f.name :: seen)
    | none =>
      Reader.sound v.skip
      readEntries r room es a seen

/-- Reads the elements of an array into the fields in order, beginning with element `index`. -/
def readElements {α : Type} (r : Record α) (room : Nat) (ending : Option Fault) :
    List (Field α) → List Document → Nat → α → Except ReadError α
  | [], [], _, a => Reader.sound (Document.ending a ending)
  | [], _ :: _, _, _ => .error (.fault .malformed)
  | f :: fs, [], index, a =>
    match ending with
    | some e => .error (.fault e)
    | none =>
      if f.presence = .defaulted then readElements r room ending fs [] (index + 1) a
      else .error (.invalidLength index r.shape)
  | f :: fs, d :: ds, index, a => do
    let change ← f.read room d
    readElements r room ending fs ds (index + 1) (change a)

/-- The first required field that is not among those given. -/
def missing {α : Type} (r : Record α) (seen : List String) : Option String :=
  (r.fields.find? fun f => f.presence = .required ∧ f.name ∉ seen).map (·.name)

/-- Reads a record. -/
def read {α : Type} (r : Record α) : Reader α := fun room d =>
  match d with
  | .object entries e => Reader.enter room fun room => do
    let (a, seen) ← r.readEntries room entries r.blank []
    Reader.sound (Document.ending () e)
    match r.missing seen with
    | some name => throw (.missingField name)
    | none => return a
  | .array items e => Reader.enter room fun room =>
    r.readElements room e r.fields items 0 r.blank
  | d => Reader.mismatch ("struct " ++ r.name) d

end Record

end SoundScenes
