import SoundScenes.Text.Hidden

/-!
# Quoted text in messages

A message that shows a text puts it between double quotes. A quote or backslash inside takes a
backslash, tab, line feed, carriage return and NUL take their letters, and a character without a
picture of its own is spelled `\u{…}` with its number in hexadecimal.
-/

namespace SoundScenes.Text

/-- One character of a quoted text. -/
def quotedChar (c : Char) : List Char :=
  match c with
  | '"' => ['\\', '"']
  | '\\' => ['\\', '\\']
  | '\t' => ['\\', 't']
  | '\n' => ['\\', 'n']
  | '\r' => ['\\', 'r']
  | '\x00' => ['\\', '0']
  | c =>
    if isHidden c then '\\' :: 'u' :: '\x7b' :: Nat.toDigits 16 c.toNat ++ ['\x7d'] else [c]

/-- A text between double quotes. -/
def quoted (s : String) : String :=
  String.ofList ('"' :: s.toList.flatMap quotedChar ++ ['"'])

end SoundScenes.Text
