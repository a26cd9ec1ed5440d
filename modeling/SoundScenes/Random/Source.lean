/-!
# Sources of random numbers

The search draws numbers from any source that can choose below a bound. What it finds may depend on
the choices; that it ends, and what a choice may be, does not.
-/

namespace SoundScenes

/-- States from which numbers below a bound can be drawn. -/
class RandomSource (σ : Type) where
  /-- Draws a number below `n` and gives the state after it. -/
  draw : (n : Nat) → 0 < n → σ → Fin n × σ

/-- Draws an item of a non-empty list. -/
def RandomSource.choose {σ α : Type} [RandomSource σ] (items : List α) (h : 0 < items.length)
    (s : σ) : α × σ :=
  let (i, s) := draw items.length h s
  (items[i], s)

theorem RandomSource.choose_mem {σ α : Type} [RandomSource σ] {items : List α}
    (h : 0 < items.length) (s : σ) : (choose items h s).1 ∈ items :=
  List.getElem_mem _

end SoundScenes
