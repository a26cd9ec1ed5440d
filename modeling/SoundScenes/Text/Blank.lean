/-!
# Blank text

White space as Unicode's property `White_Space` gives it. A name of white space alone is blank.
-/

namespace SoundScenes.Text

/-- The code points with the property `White_Space`. -/
def blankRanges : List (Nat × Nat) :=
  [(0x09, 0x0D), (0x20, 0x20), (0x85, 0x85), (0xA0, 0xA0), (0x1680, 0x1680), (0x2000, 0x200A),
    (0x2028, 0x2029), (0x202F, 0x202F), (0x205F, 0x205F), (0x3000, 0x3000)]

/-- Whether a code point lies in one of several ranges. -/
def inRanges (ranges : List (Nat × Nat)) (n : Nat) : Bool :=
  ranges.any fun r => r.1 ≤ n ∧ n ≤ r.2

/-- Whether a character is white space. -/
def isBlank (c : Char) : Bool := inRanges blankRanges c.toNat

/-- Whether a text consists of white space alone. -/
def blank (s : String) : Bool := s.toList.all isBlank

example : (blankRanges.map fun r => r.2 - r.1 + 1).sum = 25 := by decide

end SoundScenes.Text
