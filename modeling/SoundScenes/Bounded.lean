/-!
# Bounded counts

Counts fit 64 bits. A product that does not is held at the largest count.
-/

namespace SoundScenes

/-- The largest count. -/
def countLimit : Nat := UInt64.size - 1

/-- A product, held at the largest count. -/
def boundedMul (a b : Nat) : Nat := min (a * b) countLimit

/-- A bounded product exceeds a smaller count exactly when the product does. -/
theorem lt_boundedMul_iff {a b n : Nat} : n < boundedMul a b ↔ n < a * b ∧ n < countLimit :=
  Nat.lt_min

end SoundScenes
