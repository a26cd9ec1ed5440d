import SoundScenes.Json.Keyed
import SoundScenes.Json.Writer
import SoundScenes.Proofs.Json.Numbers

/-!
# Written strings are scanned back

Every character of a string is written as one piece: as it is, escaped by a letter, or escaped by
number. A scan up to the closing quote finds these pieces, and they spell the string.

* `Token.scanPieces_flatMap` — the pieces of a written string;
* `Reader.spelled_pieces` — what they spell;
* `Piece.plainText_map_ofChar` — digits are written as they are.
-/

namespace SoundScenes

/-- The piece as which a character is written. -/
def Piece.ofChar (c : Char) : Piece :=
  match c with
  | '"' | '\\' | '\x08' | '\x0c' | '\n' | '\r' | '\t' => .escaped c
  | c => if c.toNat < 0x20 then .unit c.toNat else .plain c

/-- The pieces of a string. -/
def Json.pieces (s : String) : List Piece := s.toList.map Piece.ofChar

namespace Token

/-- A control character is spelled by two hexadecimal digits. -/
theorem hexUnit_control : ∀ n < 32,
    hexUnit '0' '0' (Nat.digitChar (n / 16)) (Nat.digitChar (n % 16)) = some n := by decide

/-- A character that needs no escape is scanned as it stands. -/
theorem scanPieces_plain {c : Char} (hquote : c ≠ '"') (hslash : c ≠ '\\')
    (hcontrol : ¬ c.toNat < 0x20) (rest : List Char) :
    scanPieces (c :: rest) = (.plain c :: (scanPieces rest).1, (scanPieces rest).2) := by
  rw [scanPieces.eq_def]
  split <;> simp_all

/-- A written character is scanned as its piece. -/
theorem scanPieces_escape (c : Char) (rest : List Char) :
    scanPieces (Json.escape c ++ rest) =
      (Piece.ofChar c :: (scanPieces rest).1, (scanPieces rest).2) := by
  unfold Json.escape
  split
  · rfl
  · rfl
  · rfl
  · rfl
  · rfl
  · rfl
  · rfl
  · next hquote hslash hb hf hn hr ht =>
    have hpiece : Piece.ofChar c = if c.toNat < 0x20 then .unit c.toNat else .plain c := by
      unfold Piece.ofChar
      split <;> simp_all
    rw [hpiece]
    split
    · next hcontrol =>
      have hunit := hexUnit_control c.toNat hcontrol
      simp only [List.cons_append, List.nil_append]
      rw [scanPieces]
      simp only [hunit]
    · next hcontrol => exact scanPieces_plain hquote hslash hcontrol rest

/-- A written string is scanned up to its closing quote. -/
theorem scanPieces_flatMap (cs rest : List Char) :
    scanPieces (cs.flatMap Json.escape ++ '"' :: rest) = (cs.map Piece.ofChar, .ok rest) := by
  induction cs with
  | nil => rfl
  | cons c cs ih =>
    rw [List.flatMap_cons, List.append_assoc, scanPieces_escape, ih]
    rfl

end Token

namespace Piece

/-- Only characters that are no digits are escaped by a letter, and only control characters are
escaped by number. -/
theorem ofChar_cases (c : Char) : ofChar c = .escaped c ∧ c.isDigit = false ∨
    ofChar c = .unit c.toNat ∧ c.toNat < 0x20 ∨ ofChar c = .plain c := by
  unfold ofChar
  split
  all_goals try exact .inl ⟨rfl, rfl⟩
  split
  · next hcontrol => exact .inr (.inl ⟨rfl, hcontrol⟩)
  · exact .inr (.inr rfl)

/-- A piece by itself spells its character, since a control character is no surrogate half. -/
theorem join_ofChar_cons (c : Char) (ending : Option Fault) (ps : List Piece) :
    join ending (ofChar c :: ps) = (join ending ps).map (c :: ·) := by
  rcases ofChar_cases c with ⟨hc, -⟩ | ⟨hc, hcontrol⟩ | hc <;> rw [hc]
  · rfl
  · have hhigh : isHigh c.toNat = false := by
      unfold isHigh
      exact decide_eq_false (by omega)
    have hlow : isLow c.toNat = false := by
      unfold isLow
      exact decide_eq_false (by omega)
    rw [join.eq_def]
    simp only [hhigh, hlow, Char.ofNat_toNat]
    rfl
  · rfl

theorem join_map_ofChar (cs : List Char) : join none (cs.map ofChar) = .ok cs := by
  induction cs with
  | nil => rfl
  | cons c cs ih =>
    rw [List.map_cons, join_ofChar_cons, ih]
    rfl

/-- Digits are written as they are. -/
theorem plainText_map_ofChar {cs : List Char} (h : ∀ c ∈ cs, c.isDigit = true) :
    plainText none (cs.map ofChar) = cs ++ ['"'] := by
  induction cs with
  | nil => rfl
  | cons c cs ih =>
    have hc : c.isDigit = true := h c List.mem_cons_self
    have hplain : ofChar c = .plain c := by
      have hrange := Char.isDigit_iff_toNat.mp hc
      rcases ofChar_cases c with ⟨-, hno⟩ | ⟨-, hcontrol⟩ | hplain
      · rw [hno] at hc
        cases hc
      · have hzero : '0'.toNat = 48 := rfl
        omega
      · exact hplain
    rw [List.map_cons, hplain, plainText, ih fun c hc => h c (List.mem_cons_of_mem _ hc)]
    rfl

end Piece

/-- The pieces of a string spell it. -/
theorem Reader.spelled_pieces (s : String) : spelled (Json.pieces s) none = .ok s := by
  rw [spelled, Json.pieces, Piece.join_map_ofChar]
  show Except.ok (String.ofList s.toList) = _
  rw [String.ofList_toList]

end SoundScenes
