import SoundScenes.Json.Reader

/-!
# Tagged choices

A value of one of several forms, where an entry of the object says which form it is. The tag may
stand anywhere in the object, so the whole object is read before any other entry is looked at. In an
array the tag comes first.
-/

namespace SoundScenes

/-- A form of a tagged choice: a value by itself, or a value made from one field. -/
inductive TaggedCase (α : Type) where
  | bare (a : α)
  /-- The title stands in messages. -/
  | holding (title field : String) (read : Reader α)

/-- How a tagged choice is read. -/
structure Tagged (α : Type) where
  name : String
  /-- The key of the entry that holds the tag. -/
  tag : String
  cases : List (String × TaggedCase α)

namespace Tagged

variable {α : Type}

/-- The form that a tag names. -/
def caseOf (t : Tagged α) (room : Nat) (d : Document) : Except ReadError (TaggedCase α) := do
  Reader.choose t.cases (← Reader.stringAs "variant identifier" room d)

/-- Looks for the tag and keeps the other entries, each of which must be a sound value. -/
def splitEntries (t : Tagged α) (room : Nat) :
    List (Document × Document) → Option (TaggedCase α) →
      Except ReadError (Option (TaggedCase α) × List (String × Document))
  | [], found => .ok (found, [])
  | (k, d) :: es, found => do
    let k ← Reader.key k
    if k = t.tag then
      if found.isSome then throw (.duplicateField t.tag)
      splitEntries t room es (some (← t.caseOf room d))
    else
      let _ ← Reader.value room d
      let (found, others) ← splitEntries t room es found
      return (found, (k, d) :: others)

/-- The value of a field among entries, which must be there once. -/
def fieldOf (field : String) (read : Reader α) (room : Nat) :
    List (String × Document) → Option α → Except ReadError α
  | [], some a => .ok a
  | [], none => .error (.missingField field)
  | (k, d) :: es, found => do
    if k = field then
      if found.isSome then throw (.duplicateField field)
      fieldOf field read room es (some (← read room d))
    else fieldOf field read room es found

/-- A form made from the entries besides the tag. A form by itself passes them over. -/
def ofEntries (room : Nat) (entries : List (String × Document)) :
    TaggedCase α → Except ReadError α
  | .bare a => .ok a
  | .holding _ field read => fieldOf field read room entries none

/-- A form made from the items behind the tag. -/
def ofItems (t : Tagged α) (room : Nat) (items : List Document) : TaggedCase α → Except ReadError α
  | .bare a =>
    if items.isEmpty then .ok a else .error (.invalidLength items.length "0 elements in sequence")
  | .holding title _ read =>
    match items with
    | [] => .error (.invalidLength 0 ("struct variant " ++ t.name ++ "::" ++ title ++
        " with 1 element"))
    | [d] => read room d
    | d :: _ => do
      let _ ← read room d
      throw (.invalidLength items.length "1 element in sequence")

/-- Reads a tagged choice. -/
def read (t : Tagged α) : Reader α := fun room d =>
  match d with
  | .object entries e => Reader.enter room fun room => do
    let (found, others) ← t.splitEntries room entries none
    Reader.sound (Document.ending () e)
    match found with
    | some c => ofEntries room others c
    | none => throw (.missingField t.tag)
  | .array items e => Reader.enter room fun room =>
    match items with
    | [] => do
      Reader.sound (Document.ending () e)
      throw (.missingField t.tag)
    | d :: rest => do
      let c ← t.caseOf room d
      let _ ← Reader.values room rest
      Reader.sound (Document.ending () e)
      t.ofItems room rest c
  | d => Reader.mismatch ("internally tagged enum " ++ t.name) d

end Tagged

end SoundScenes
