import Mathlib.Data.String.Basic

/-!
# The order of texts

Texts are compared character by character, and the greater of two characters has the greater bytes
in UTF-8. So texts are in the order of their bytes.

* `encode_append_lt` — a greater character has greater bytes, whatever follows;
* `lt_iff_bytes_lt` — texts are in the order of their bytes.
-/

namespace SoundScenes.Text

/-- The UTF-8 bytes of a text. -/
def bytes (s : String) : List UInt8 := s.toUTF8.data.toList

theorem bytes_eq (s : String) : bytes s = s.toList.flatMap String.utf8EncodeChar := by
  have hbytes : s.toUTF8 = s.toList.utf8Encode := by
    rw [← String.toByteArray_ofList, String.ofList_toList]
    rfl
  rw [bytes, hbytes, List.utf8Encode, List.toList_data_toByteArray]

/-! ## Characters -/

/-- The first byte of a character, which tells how many there are. -/
def firstByte (v : Nat) : Nat :=
  if v ≤ 127 then v
  else if v ≤ 2047 then v / 64 % 32 + 192
  else if v ≤ 65535 then v / 4096 % 16 + 224
  else v / 262144 % 8 + 240

/-- The bytes of a character behind the first. -/
def laterBytes (v : Nat) : List Nat :=
  if v ≤ 127 then []
  else if v ≤ 2047 then [v % 64 + 128]
  else if v ≤ 65535 then [v / 64 % 64 + 128, v % 64 + 128]
  else [v / 4096 % 64 + 128, v / 64 % 64 + 128, v % 64 + 128]

theorem encode_eq (c : Char) : String.utf8EncodeChar c =
    (firstByte c.val.toNat :: laterBytes c.val.toNat).map UInt8.ofNat := by
  unfold String.utf8EncodeChar firstByte laterBytes
  simp only
  split_ifs <;> rfl

theorem cons_ofNat_lt {a b : Nat} (hb : b < 256) {bs bs' : List UInt8}
    (h : a < b ∨ a = b ∧ bs < bs') : UInt8.ofNat a :: bs < UInt8.ofNat b :: bs' := by
  rw [List.cons_lt_cons_iff]
  rcases h with hlt | ⟨rfl, hbs⟩
  · refine .inl ?_
    rw [UInt8.lt_iff_toNat_lt, UInt8.toNat_ofNat', UInt8.toNat_ofNat']
    omega
  · exact .inr ⟨rfl, hbs⟩

variable {m n : Nat}

theorem firstByte_lt (h : n < 0x110000) : firstByte n < 256 := by
  unfold firstByte
  split_ifs <;> omega

theorem firstByte_le (h : m < n) (hn : n < 0x110000) : firstByte m ≤ firstByte n := by
  unfold firstByte
  split_ifs <;> omega

/-- Characters with the same first byte have as many bytes, of which the last ones decide. -/
theorem laterBytes_append_lt (h : m < n) (hn : n < 0x110000) (hfirst : firstByte m = firstByte n)
    (rest rest' : List UInt8) :
    (laterBytes m).map UInt8.ofNat ++ rest < (laterBytes n).map UInt8.ofNat ++ rest' := by
  unfold firstByte at hfirst
  unfold laterBytes
  split_ifs at hfirst ⊢
  all_goals try omega
  · exact cons_ofNat_lt (by omega) (.inl (by omega))
  · refine cons_ofNat_lt (by omega) ?_
    have hdigits : m / 64 % 64 + 128 < n / 64 % 64 + 128 ∨
        m / 64 % 64 + 128 = n / 64 % 64 + 128 ∧ m % 64 + 128 < n % 64 + 128 := by
      omega
    exact hdigits.imp_right (And.imp_right fun hlast => cons_ofNat_lt (by omega) (.inl hlast))
  · refine cons_ofNat_lt (by omega) ?_
    have hdigits : m / 4096 % 64 + 128 < n / 4096 % 64 + 128 ∨
        m / 4096 % 64 + 128 = n / 4096 % 64 + 128 ∧ (m / 64 % 64 + 128 < n / 64 % 64 + 128 ∨
          m / 64 % 64 + 128 = n / 64 % 64 + 128 ∧ m % 64 + 128 < n % 64 + 128) := by
      omega
    refine hdigits.imp_right (And.imp_right fun hdigits => cons_ofNat_lt (by omega) ?_)
    exact hdigits.imp_right (And.imp_right fun hlast => cons_ofNat_lt (by omega) (.inl hlast))

/-- A greater character has greater bytes, whatever follows. -/
theorem encode_append_lt {c d : Char} (h : c < d) (rest rest' : List UInt8) :
    String.utf8EncodeChar c ++ rest < String.utf8EncodeChar d ++ rest' := by
  have hlt : c.val.toNat < d.val.toNat := h
  have hmax : d.val.toNat < 0x110000 := by
    rcases d.valid with hd | ⟨-, hd⟩
    · exact Nat.lt_trans hd (by decide)
    · exact hd
  rw [encode_eq, encode_eq]
  refine cons_ofNat_lt (firstByte_lt hmax) ?_
  rcases Nat.lt_or_eq_of_le (firstByte_le hlt hmax) with hfirst | hfirst
  · exact .inl hfirst
  · exact .inr ⟨hfirst, laterBytes_append_lt hlt hmax hfirst rest rest'⟩

/-! ## Texts -/

theorem flatMap_encode_lt {cs ds : List Char} (h : cs < ds) :
    cs.flatMap String.utf8EncodeChar < ds.flatMap String.utf8EncodeChar := by
  induction cs generalizing ds with
  | nil =>
    cases ds with
    | nil => exact absurd h (List.not_lt_nil _)
    | cons d ds =>
      rw [List.flatMap_cons, encode_eq]
      exact List.nil_lt_cons _ _
  | cons c cs ih =>
    cases ds with
    | nil => exact absurd h (List.not_lt_nil _)
    | cons d ds =>
      rw [List.flatMap_cons, List.flatMap_cons]
      rcases List.cons_lt_cons_iff.mp h with hlt | ⟨rfl, hlt⟩
      · exact encode_append_lt hlt _ _
      · exact List.append_left_lt (ih hlt)

/-- **Texts are in the order of their bytes.** -/
theorem lt_iff_bytes_lt {s t : String} : s < t ↔ bytes s < bytes t := by
  have hmono {s t : String} (h : s < t) : bytes s < bytes t := by
    rw [bytes_eq, bytes_eq]
    exact flatMap_encode_lt (String.lt_iff_toList_lt.mp h)
  refine ⟨hmono, fun h => ?_⟩
  rcases lt_trichotomy s t with hlt | rfl | hgt
  · exact hlt
  · exact absurd h (List.lt_irrefl _)
  · exact absurd (List.lt_trans h (hmono hgt)) (List.lt_irrefl _)

end SoundScenes.Text
