import SoundScenes.Digest.Blake3

/-!
# Fingerprints

Scenes are identified by the digest of a text in which their order plays no part. Every scene is a
sequence of identifiers; the sequences are sorted and written with their lengths, so that the text
shows where each of them ends.

* `Fingerprint.preimage` — the bytes that are hashed;
* `fingerprint` — their digest.
-/

namespace SoundScenes

namespace Fingerprint

/-- A number in eight bytes, the lowest first. -/
def word (n : Nat) : List UInt8 := Digest.littleEndian 8 n

/-- A sequence with its length in front. -/
def sequence (ids : List Nat) : List UInt8 := word ids.length ++ ids.flatMap word

/-- Sequences in lexicographic order. -/
def sorted (scenes : List (List Nat)) : List (List Nat) :=
  scenes.mergeSort fun a b => !b.lex a

/-- The bytes that stand for scenes in any order. -/
def preimage (scenes : List (List Nat)) : List UInt8 :=
  word scenes.length ++ (sorted scenes).flatMap sequence

end Fingerprint

/-- The digest of scenes in any order, in hexadecimal. -/
def fingerprint (scenes : List (List Nat)) : String :=
  Digest.hex (Digest.Blake3.digest (Fingerprint.preimage scenes))

end SoundScenes
