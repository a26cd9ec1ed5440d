import SoundScenes.Json.Writer
import SoundScenes.Digest.Blake3

/-!
# Digests of values

A value is identified by the digest of its canonical text, in which the order of keys and the layout
of a document play no part.
-/

namespace SoundScenes.Json

/-- The bytes of a value that are hashed. -/
def preimage (v : Json) : List UInt8 := Digest.utf8 v.canonicalText

/-- The digest of a value, in hexadecimal. -/
def hash (v : Json) : String := Digest.hex (Digest.Blake3.digest v.preimage)

end SoundScenes.Json
