import SoundScenes.Json.Token

/-!
# Documents as found

A `Document` is the tree that a text spells, together with the damage that the text has. Readers
walk the tree from left to right, as they would walk the text, and report the first thing that is
wrong for them; damage behind that point is never seen.

* `Document.skip` — passes over a document, which only damage of its shape can prevent;
* `Assembly.step` — takes one more token into a half-built document;
* `Document.ofString` — the document of a text.

Damage of the shape is always the last thing in a document, because nothing is read behind it.
-/

namespace SoundScenes

/-- A JSON document as found in a text. -/
inductive Document where
  | null
  | bool (b : Bool)
  | number (d : Digits)
  /-- A string and, where it breaks off, the damage at its end. -/
  | string (pieces : List Piece) (ending : Option Fault)
  /-- The items of an array and the damage that stands instead of its closing bracket. -/
  | array (items : List Document) (ending : Option Fault)
  /-- The entries of an object and the damage that stands instead of its closing brace. A key may be
  any document; only a string is a sound one. -/
  | object (entries : List (Document × Document)) (ending : Option Fault)
  /-- Something that begins with `first` and is no value: the damage met by a reader, and by one who
  passes over it. -/
  | scrap (first : Char) (reading skipping : Fault)
  /-- Nothing stands where a value should. -/
  | gap (fault : Fault)

namespace Document

instance : Inhabited Document := ⟨.null⟩

/-- Damage as the result of a reading. -/
def ending {α : Type} (a : α) : Option Fault → Except Fault α
  | none => .ok a
  | some f => .error f

mutual

/-- Passes over a document. Numbers and strings need no value for this. -/
def skip : Document → Except Fault Unit
  | .null => .ok ()
  | .bool _ => .ok ()
  | .number _ => .ok ()
  | .string _ e => ending () e
  | .array items e => do
    skipItems items
    ending () e
  | .object entries e => do
    skipEntries entries
    ending () e
  | .scrap _ _ f => .error f
  | .gap f => .error f

/-- Passes over the items of an array. -/
def skipItems : List Document → Except Fault Unit
  | [] => .ok ()
  | d :: ds => do
    skip d
    skipItems ds

/-- Passes over the entries of an object. A key that is no string is malformed. -/
def skipEntries : List (Document × Document) → Except Fault Unit
  | [] => .ok ()
  | (k, v) :: es => do
    match k with
    | .string _ e => ending () e
    | .gap f => .error f
    | _ => .error .malformed
    skip v
    skipEntries es

end

end Document

/-- A container that is still open: what stands in it so far, the last first. In an object the key
of the value to come is known. -/
inductive Frame where
  | array (items : List Document)
  | object (entries : List (Document × Document)) (key : Document)

/-- A half-built document, with the containers around the place reached, the innermost first. -/
inductive Assembly where
  /-- A value must follow. -/
  | value (frames : List Frame)
  /-- An array has just been opened: a value or its end must follow. -/
  | item (frames : List Frame)
  /-- A key must follow or, if the object has just been opened, its end. -/
  | key (frames : List Frame) (entries : List (Document × Document)) (opened : Bool)
  /-- A colon must follow. -/
  | colon (frames : List Frame) (entries : List (Document × Document)) (key : Document)
  /-- A value is complete. -/
  | after (frames : List Frame) (d : Document)
  /-- Damage ends the document. -/
  | torn (d : Document)
  /-- The document is complete and something stands behind it. -/
  | surplus (d : Document)

namespace Assembly

/-- Puts a value into the open containers around it and leaves them as they are. -/
def wrap : List Frame → Document → Document
  | [], d => d
  | .array items :: fs, d => wrap fs (.array (items.reverse ++ [d]) none)
  | .object entries k :: fs, d => wrap fs (.object (entries.reverse ++ [(k, d)]) none)

/-- What a token is where a value is expected. -/
def ofToken : Token → Document
  | .null => .null
  | .bool b => .bool b
  | .number d => .number d
  | .string ps e => .string ps e
  | .scrap c r s => .scrap c r s
  | .openArray => .array [] none
  | .openObject => .object [] none
  | .closeArray => .scrap ']' .malformed .malformed
  | .closeObject => .scrap '\x7d' .malformed .malformed
  | .comma => .scrap ',' .malformed .malformed
  | .colon => .scrap ':' .malformed .malformed

/-- A token where a value must follow. -/
def place (frames : List Frame) : Token → Assembly
  | .openArray => .item frames
  | .openObject => .key frames [] true
  | .closeArray => .torn (wrap frames (ofToken .closeArray))
  | .closeObject => .torn (wrap frames (ofToken .closeObject))
  | .comma => .torn (wrap frames (ofToken .comma))
  | .colon => .torn (wrap frames (ofToken .colon))
  | t => .after frames (ofToken t)

/-- A token behind a complete value. -/
def follow : List Frame → Document → Token → Assembly
  | [], d, _ => .surplus d
  | .array items :: fs, d, .comma => .value (.array (d :: items) :: fs)
  | .array items :: fs, d, .closeArray => .after fs (.array (d :: items).reverse none)
  | .array items :: fs, d, _ => .torn (wrap fs (.array (d :: items).reverse (some .malformed)))
  | .object entries k :: fs, d, .comma => .key fs ((k, d) :: entries) false
  | .object entries k :: fs, d, .closeObject =>
    .after fs (.object ((k, d) :: entries).reverse none)
  | .object entries k :: fs, d, _ =>
    .torn (wrap fs (.object ((k, d) :: entries).reverse (some .malformed)))

/-- Takes one more token into a half-built document. -/
def step : Assembly → Token → Assembly
  | .value frames, t => place frames t
  | .item frames, .closeArray => .after frames (.array [] none)
  | .item frames, t => place (.array [] :: frames) t
  | .key frames entries _, .string ps e => .colon frames entries (.string ps e)
  | .key frames entries true, .closeObject => .after frames (.object entries.reverse none)
  | .key frames entries _, t =>
    .torn (wrap frames (.object (entries.reverse ++ [(ofToken t, .gap .malformed)]) none))
  | .colon frames entries k, .colon => .value (.object entries k :: frames)
  | .colon frames entries k, _ =>
    .torn (wrap frames (.object (entries.reverse ++ [(k, .gap .malformed)]) none))
  | .after frames d, t => follow frames d t
  | .torn d, _ => .torn d
  | .surplus d, _ => .surplus d

/-- The document at the end of the text, and whether anything stands behind it. -/
def finish : Assembly → Document × Bool
  | .value frames => (wrap frames (.gap .cut), false)
  | .item frames => (wrap frames (.array [] (some .cut)), false)
  | .key frames entries true => (wrap frames (.object entries.reverse (some .cut)), false)
  | .key frames entries false =>
    (wrap frames (.object (entries.reverse ++ [(.gap .cut, .gap .cut)]) none), false)
  | .colon frames entries k =>
    (wrap frames (.object (entries.reverse ++ [(k, .gap .cut)]) none), false)
  | .after [] d => (d, false)
  | .after (.array items :: fs) d => (wrap fs (.array (d :: items).reverse (some .cut)), false)
  | .after (.object entries k :: fs) d =>
    (wrap fs (.object ((k, d) :: entries).reverse (some .cut)), false)
  | .torn d => (d, false)
  | .surplus d => (d, true)

end Assembly

/-- The document of a sequence of tokens, and whether anything stands behind it. -/
def Document.ofTokens (ts : List Token) : Document × Bool :=
  (ts.foldl Assembly.step (.value [])).finish

/-- The document of a text, and whether anything stands behind it. -/
def Document.ofString (s : String) : Document × Bool :=
  Document.ofTokens (Token.scan s.toList)

end SoundScenes
