import SoundScenes.Json.Reader

/-!
# Objects as tables

An object whose keys are not fixed is read as a list of entries. Its keys are strings, names of a
fixed choice, or numbers between quotes.
-/

namespace SoundScenes

/-- The characters of a string as they stand in the text, up to the first escape. The quote or the
escape at the end is kept; nothing is there when the text ends before. -/
def Piece.plainText (ending : Option Fault) : List Piece → List Char
  | [] =>
    match ending with
    | none => ['"']
    | some .cut => []
    | some .malformed => ['\\']
  | .plain c :: ps => c :: plainText ending ps
  | .escaped _ :: _ | .unit _ :: _ => ['\\']

namespace Reader

/-- A key that is one of several names. -/
def keyAmong {α : Type} (cases : List (String × α)) (d : Document) : Except ReadError α := do
  choose cases (← key d)

/-- A key that is a count. The number must fill the string and is written without escapes. -/
def keySize (d : Document) : Except ReadError Nat := do
  match d with
  | .string ps e =>
    let text := Piece.plainText e ps
    match text.head? with
    | none => throw (.fault .malformed)
    | some c =>
      if c.isDigit ∨ c = '-' then
        let (digits, rest) ← sound (Token.scanNumber text)
        let n ← size 0 (.number digits)
        if rest.head? = some '"' then return n else throw (.fault .malformed)
      else throw (.fault .malformed)
  | .gap f => throw (.fault f)
  | _ => throw (.fault .malformed)

/-- The entries of a table. -/
def entriesWith {κ α : Type} (readKey : Document → Except ReadError κ) (r : Reader α)
    (room : Nat) : List (Document × Document) → Except ReadError (List (κ × α))
  | [] => .ok []
  | (k, d) :: es => do
    let k ← readKey k
    let a ← r room d
    return (k, a) :: (← entriesWith readKey r room es)

/-- A table with keys of one kind and values of one kind. -/
def table {κ α : Type} (readKey : Document → Except ReadError κ) (r : Reader α) :
    Reader (List (κ × α)) := fun room d =>
  match d with
  | .object entries e => enter room fun room => do
    let es ← entriesWith readKey r room entries
    sound (Document.ending es e)
  | d => mismatch "a map" d

end Reader

end SoundScenes
