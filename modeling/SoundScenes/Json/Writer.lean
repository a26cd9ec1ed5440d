import SoundScenes.Json.Value

/-!
# Written JSON

The text of a value, either on one line without spaces (`Json.compact`) or indented by two spaces a
level (`Json.pretty`). Both are `Json.write`, which differs only in what stands between the parts.

Inside a string only the quote, the backslash and the control characters below `0x20` are escaped.
-/

namespace SoundScenes.Json

/-- One character of a string. -/
def escape (c : Char) : List Char :=
  match c with
  | '"' => ['\\', '"']
  | '\\' => ['\\', '\\']
  | '\x08' => ['\\', 'b']
  | '\x0c' => ['\\', 'f']
  | '\n' => ['\\', 'n']
  | '\r' => ['\\', 'r']
  | '\t' => ['\\', 't']
  | c =>
    if c.toNat < 0x20 then
      ['\\', 'u', '0', '0', Nat.digitChar (c.toNat / 16), Nat.digitChar (c.toNat % 16)]
    else [c]

/-- A string between quotes. -/
def writeString (s : String) : List Char := '"' :: s.toList.flatMap escape ++ ['"']

/-- A number. -/
def writeNumeral : Numeral → List Char
  | .integer (.ofNat n) => Nat.toDigits 10 n
  | .integer (.negSucc n) => '-' :: Nat.toDigits 10 (n + 1)
  | .float x => Decimal.Layout.document.finite x

/-- Where a text stands: on one line, or indented by a number of levels. -/
abbrev Level := Option Nat

/-- What stands between the parts of a container: nothing, or a new line with its indentation. -/
def lineBreak : Level → List Char
  | none => []
  | some n => '\n' :: List.replicate (2 * n) ' '

/-- The level inside a container. -/
def deeper (l : Level) : Level := l.map (· + 1)

/-- What stands between a key and its value. -/
def afterKey : Level → List Char
  | none => [':']
  | some _ => [':', ' ']

mutual

/-- The text of a value. -/
def write (l : Level) : Json → List Char
  | .null => "null".toList
  | .bool true => "true".toList
  | .bool false => "false".toList
  | .number n => writeNumeral n
  | .string s => writeString s
  | .array [] => ['[', ']']
  | .array (x :: xs) =>
    '[' :: (lineBreak (deeper l) ++ write (deeper l) x ++ writeItems (deeper l) xs ++
      lineBreak l ++ [']'])
  | .object [] => ['\x7b', '\x7d']
  | .object ((k, v) :: es) =>
    '\x7b' :: (lineBreak (deeper l) ++ writeString k ++ afterKey l ++ write (deeper l) v ++
      writeEntries (deeper l) es ++ lineBreak l ++ ['\x7d'])

/-- The items of an array after the first. -/
def writeItems (l : Level) : List Json → List Char
  | [] => []
  | x :: xs => ',' :: (lineBreak l ++ write l x ++ writeItems l xs)

/-- The entries of an object after the first. -/
def writeEntries (l : Level) : List (String × Json) → List Char
  | [] => []
  | (k, v) :: es =>
    ',' :: (lineBreak l ++ writeString k ++ afterKey l ++ write l v ++ writeEntries l es)

end

/-- The text of a value on one line, without spaces. -/
def compact (v : Json) : String := String.ofList (write none v)

/-- The text of a value on indented lines. -/
def pretty (v : Json) : String := String.ofList (write (some 0) v)

/-- The text that stands for a value up to the order of keys: its canonical form on one line. -/
def canonicalText (v : Json) : String := v.canonical.compact

end SoundScenes.Json
