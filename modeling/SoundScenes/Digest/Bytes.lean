/-!
# Bytes

Numbers and texts as sequences of bytes, and bytes in hexadecimal.

* `littleEndian` — a number in a fixed count of bytes, the lowest first;
* `ofLittleEndian` — the number that bytes stand for, which inverts it.
-/

namespace SoundScenes.Digest

/-- The lowest `count` bytes of a number, the lowest first. -/
def littleEndian : Nat → Nat → List UInt8
  | 0, _ => []
  | count + 1, n => n.toUInt8 :: littleEndian count (n / 256)

/-- The number that bytes stand for, the lowest byte first. -/
def ofLittleEndian : List UInt8 → Nat
  | [] => 0
  | b :: bs => b.toNat + 256 * ofLittleEndian bs

@[simp] theorem length_littleEndian (count n : Nat) : (littleEndian count n).length = count := by
  induction count generalizing n with
  | zero => rfl
  | succ count ih => simp [littleEndian, ih]

/-- A number that fits the bytes is read back from them. -/
theorem ofLittleEndian_littleEndian {count n : Nat} (h : n < Nat.pow 256 count) :
    ofLittleEndian (littleEndian count n) = n := by
  induction count generalizing n with
  | zero => simp_all [littleEndian, ofLittleEndian]
  | succ count ih =>
    have hn : n / 256 < Nat.pow 256 count := (Nat.div_lt_iff_lt_mul (by decide)).mpr h
    have hb : n.toUInt8.toNat = n % 256 := rfl
    simp only [littleEndian, ofLittleEndian, ih hn, hb]
    omega

/-- The UTF-8 bytes of a text. -/
def utf8 (s : String) : List UInt8 := s.toUTF8.toList

/-- Bytes in hexadecimal, two lower-case digits each. -/
def hex (bytes : List UInt8) : String :=
  String.ofList (bytes.flatMap fun b =>
    [Nat.digitChar (b.toNat / 16), Nat.digitChar (b.toNat % 16)])

end SoundScenes.Digest
