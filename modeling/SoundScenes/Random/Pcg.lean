import SoundScenes.Random.Source
import SoundScenes.Digest.Blake3

/-!
# The PCG32 generator

A linear congruential generator of 64 bits whose output is permuted to 32. Numbers below a bound are
drawn by multiplication: the high half of the product with the bound is the answer, and products
whose low half lies outside the last full stretch are drawn again.

* `Pcg.ofSeed` — the generator of a run;
* `Pcg.ofStream` — the generator of a named part of a run, independent of the others;
* `Pcg.shuffle` — a random arrangement.
-/

namespace SoundScenes

/-- A generator: its state and the odd increment that makes its stream. -/
structure Pcg where
  state : UInt64
  increment : UInt64
  deriving Repr, DecidableEq

namespace Pcg

/-- The multiplier of the congruence. -/
def multiplier : UInt64 := 6364136223846793005

/-- The output for a state: bits are folded together and rotated by the highest ones. -/
def output (s : UInt64) : UInt32 :=
  let folded := (((s >>> 18) ^^^ s) >>> 27).toUInt32
  let turn := (s >>> 59).toUInt32
  (folded >>> turn) ||| (folded <<< ((32 - turn) % 32))

/-- The next 32 bits. -/
def next32 (g : Pcg) : BitVec 32 × Pcg :=
  ((output g.state).toBitVec, { g with state := g.state * multiplier + g.increment })

/-- The next 64 bits, the low half first. -/
def next64 (g : Pcg) : BitVec 64 × Pcg :=
  let (low, g) := g.next32
  let (high, g) := g.next32
  (high ++ low, g)

/-- Some steps of the generator that spreads a seed over the state. -/
def spread : Nat → UInt64 → List UInt32
  | 0, _ => []
  | n + 1, s =>
    let s := s * multiplier + 11634580027462260723
    output s :: spread n s

/-- The generator of a 64-bit seed. -/
def ofWord (seed : UInt64) : Pcg :=
  let words := (spread 4 seed).map UInt32.toUInt64
  let low := words.getD 0 0 ||| (words.getD 1 0 <<< 32)
  let high := words.getD 2 0 ||| (words.getD 3 0 <<< 32)
  let increment := high ||| 1
  { state := (low + increment) * multiplier + increment, increment }

/-- The generator of a 32-bit seed, which fills both halves of the word. -/
def ofSeed (seed : Nat) : Pcg :=
  let s := seed.toUInt32.toUInt64
  ofWord (s ||| (s <<< 32))

/-- The seed of a named part of a run: the first four bytes of the digest of the run's seed and the
name. -/
def streamSeed (seed : Nat) (name : String) : Nat :=
  Digest.ofLittleEndian ((Digest.Blake3.digest
    (Digest.littleEndian 4 seed ++ Digest.utf8 name)).take 4)

/-- The generator of a named part of a run. -/
def ofStream (seed : Nat) (name : String) : Pcg := ofSeed (streamSeed seed name)

/-- The largest low half of a product that is accepted: the bound, shifted until its highest bit is
the highest of the word, less one. -/
def zone (width n : Nat) : Nat := n <<< (width - 1 - n.log2) - 1

/-- The high half of a product is smaller than the bound. -/
theorem high_lt {width n : Nat} (v : BitVec width) (h : 0 < n) : (v.toNat * n) >>> width < n := by
  rw [Nat.shiftRight_eq_div_pow, Nat.div_lt_iff_lt_mul (Nat.two_pow_pos width), Nat.mul_comm]
  exact Nat.mul_lt_mul_of_pos_left v.isLt h

/-- Draws a number below `n` from words of `width` bits, in at most so many attempts. -/
def attempt {width : Nat} (next : Pcg → BitVec width × Pcg) (n : Nat) (h : 0 < n) :
    Nat → Pcg → Fin n × Pcg
  | 0, g => (⟨0, h⟩, g)
  | attempts + 1, g =>
    let (v, g) := next g
    let product := v.toNat * n
    if product % (1 <<< width) ≤ zone width n then (⟨product >>> width, high_lt v h⟩, g)
    else attempt next n h attempts g

/-- The states of a generator. One that accepts nothing in as many attempts is back at its start and
never will. -/
def period : Nat := UInt64.size

/-- A number below `n`, from 32-bit words. -/
def below32 (n : Nat) (h : 0 < n) (g : Pcg) : Fin n × Pcg := attempt next32 n h period g

/-- A number below `n`, from 64-bit words. -/
def below64 (n : Nat) (h : 0 < n) (g : Pcg) : Fin n × Pcg := attempt next64 n h period g

instance : RandomSource Pcg := ⟨below64⟩

/-- A position below `n`, from words as short as they may be. -/
def position (n : Nat) (h : 0 < n) (g : Pcg) : Fin n × Pcg :=
  if n < UInt32.size then below32 n h g else below64 n h g

/-- Puts a random item of the first `i + 1` into place `i`, for each place down to the second. -/
def shuffleDown {α : Type} : Nat → Array α → Pcg → Array α × Pcg
  | 0, a, g => (a, g)
  | i + 1, a, g =>
    let (j, g) := position (i + 2) (by omega) g
    shuffleDown i (a.swapIfInBounds (i + 1) j) g

/-- A random arrangement of a list. -/
def shuffle {α : Type} (items : List α) (g : Pcg) : List α × Pcg :=
  let (a, g) := shuffleDown (items.length - 1) items.toArray g
  (a.toList, g)

/-- Shuffling changes nothing but the order. -/
theorem shuffleDown_perm {α : Type} (i : Nat) (a : Array α) (g : Pcg) :
    (shuffleDown i a g).1.Perm a := by
  induction i generalizing a g with
  | zero => exact Array.Perm.refl _
  | succ i ih =>
    refine (ih _ _).trans ?_
    unfold Array.swapIfInBounds
    split
    · split
      · exact Array.swap_perm _ _
      · exact Array.Perm.refl _
    · exact Array.Perm.refl _

theorem shuffle_perm {α : Type} (items : List α) (g : Pcg) : (shuffle items g).1.Perm items := by
  have := shuffleDown_perm (items.length - 1) items.toArray g
  simpa [shuffle, Array.perm_iff_toList_perm] using this

end Pcg

end SoundScenes
