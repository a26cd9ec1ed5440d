import SoundScenes.Digest.Bytes

/-!
# BLAKE3

The hash function BLAKE3 without a key, for digests of 32 bytes. The input is cut into chunks of
1024 bytes, a chunk into blocks of 64. Chunks are the leaves of a binary tree in which every left
subtree is full; its inner nodes compress the chaining values of their two children.
-/

namespace SoundScenes.Digest.Blake3

/-- A chaining value. -/
abbrev Chain := Vector UInt32 8

/-- A message block, or the state of a compression. -/
abbrev Block := Vector UInt32 16

/-- The initial chaining value. -/
def start : Chain :=
  #v[0x6A09E667, 0xBB67AE85, 0x3C6EF372, 0xA54FF53A, 0x510E527F, 0x9B05688C, 0x1F83D9AB, 0x5BE0CD19]

/-- The order of message words in the next round. -/
def order : Vector (Fin 16) 16 := #v[2, 6, 3, 10, 7, 0, 4, 13, 1, 11, 12, 5, 9, 14, 15, 8]

/-- First block of a chunk. -/
def chunkStart : UInt32 := 1
/-- Last block of a chunk. -/
def chunkEnd : UInt32 := 2
/-- Inner node. -/
def parent : UInt32 := 4
/-- Root of the tree. -/
def root : UInt32 := 8

/-- Rotation to the right by a number of bits between 1 and 31. -/
def rotate (x : UInt32) (n : UInt32) : UInt32 := (x >>> n) ||| (x <<< (32 - n))

/-- Mixes two message words into four words of the state. -/
def mix (s : Block) (a b c d : Fin 16) (x y : UInt32) : Block :=
  let s := s.set a (s[a] + s[b] + x)
  let s := s.set d (rotate (s[d] ^^^ s[a]) 16)
  let s := s.set c (s[c] + s[d])
  let s := s.set b (rotate (s[b] ^^^ s[c]) 12)
  let s := s.set a (s[a] + s[b] + y)
  let s := s.set d (rotate (s[d] ^^^ s[a]) 8)
  let s := s.set c (s[c] + s[d])
  s.set b (rotate (s[b] ^^^ s[c]) 7)

/-- One round: the columns, then the diagonals. -/
def round (s m : Block) : Block :=
  let s := mix s 0 4 8 12 m[0] m[1]
  let s := mix s 1 5 9 13 m[2] m[3]
  let s := mix s 2 6 10 14 m[4] m[5]
  let s := mix s 3 7 11 15 m[6] m[7]
  let s := mix s 0 5 10 15 m[8] m[9]
  let s := mix s 1 6 11 12 m[10] m[11]
  let s := mix s 2 7 8 13 m[12] m[13]
  mix s 3 4 9 14 m[14] m[15]

/-- Some rounds, each with the message words in the next order. -/
def rounds : Nat → Block → Block → Block
  | 0, s, _ => s
  | n + 1, s, m => rounds n (round s m) (order.map fun i => m[i])

/-- What is compressed at one node of the tree, kept back until it is known whether the node is the
root. -/
structure Node where
  chain : Chain
  block : Block
  /-- The number of the chunk. -/
  counter : Nat
  /-- Bytes of the block that are in use. -/
  length : Nat
  flags : UInt32

/-- Compresses a node to eight words. -/
def Node.compress (n : Node) : Chain :=
  let s : Block := n.chain ++ #v[start[0], start[1], start[2], start[3],
    n.counter.toUInt32, (n.counter >>> 32).toUInt32, n.length.toUInt32, n.flags]
  let s := rounds 7 s n.block
  Vector.ofFn fun (i : Fin 8) => s[i.val] ^^^ s[i.val + 8]

/-- A block's words, least significant byte first, with zeros after the last byte. -/
def blockWords (bytes : List UInt8) : Block :=
  Vector.ofFn fun i => (ofLittleEndian ((bytes.drop (4 * i.val)).take 4)).toUInt32

/-- The node of a chunk's last block, after the blocks before it. -/
def chunk (counter : Nat) (chain : Chain) (flags : UInt32) (bytes : List UInt8) : Node :=
  if bytes.length ≤ 64 then
    ⟨chain, blockWords bytes, counter, bytes.length, flags ||| chunkEnd⟩
  else
    let n : Node := ⟨chain, blockWords (bytes.take 64), counter, 64, flags⟩
    chunk counter n.compress 0 (bytes.drop 64)
termination_by bytes.length

/-- The bytes under the left child of a node: the most full chunks, in a power of two, that leave
something for the right. -/
def leftLength (n : Nat) : Nat := 1024 <<< ((n - 1) / 1024).log2

theorem leftLength_pos (n : Nat) : 0 < leftLength n := by
  rw [leftLength, Nat.shiftLeft_eq]
  exact Nat.mul_pos (by decide) (Nat.two_pow_pos _)

theorem leftLength_lt {n : Nat} (h : 1024 < n) : leftLength n < n := by
  have h0 : (n - 1) / 1024 ≠ 0 := by omega
  have := Nat.log2_self_le h0
  rw [leftLength, Nat.shiftLeft_eq]
  omega

/-- The tree over some bytes, whose first chunk has the number `counter`. -/
def tree (counter : Nat) (bytes : List UInt8) : Node :=
  if bytes.length ≤ 1024 then chunk counter start chunkStart bytes
  else
    let k := leftLength bytes.length
    let left := (tree counter (bytes.take k)).compress
    let right := (tree (counter + k / 1024) (bytes.drop k)).compress
    ⟨start, left ++ right, 0, 64, parent⟩
termination_by bytes.length
decreasing_by
  · have := leftLength_lt (n := bytes.length) (by omega)
    simp only [List.length_take]
    omega
  · have := leftLength_pos bytes.length
    simp only [List.length_drop]
    omega

/-- The digest of some bytes. -/
def digest (bytes : List UInt8) : List UInt8 :=
  let n := tree 0 bytes
  let words := { n with flags := n.flags ||| root }.compress
  words.toList.flatMap fun w => littleEndian 4 w.toNat

end SoundScenes.Digest.Blake3
