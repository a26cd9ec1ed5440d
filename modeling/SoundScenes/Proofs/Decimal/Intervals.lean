import SoundScenes.Decimal.Shortest
import Mathlib.Algebra.Order.Field.Power
import Mathlib.Data.Rat.Cast.Order
import Mathlib.Order.Monotone.Basic
import Mathlib.Tactic.Linarith
import Mathlib.Tactic.Ring

/-!
# Shortest decimals tell numbers apart

The numbers without a sign are ordered by their bits. The reals that round to one of them end where
those of the next one begin, also where the numbers become less dense, and of two neighbours one has
an even mantissa and the other an odd one, so that the point between them belongs to one of them
only. The shortest decimal of a number is one of its reals. So no two numbers share it.

* `Binary.ofIndex` — the numbers without a sign, in increasing order;
* `Binary.low_succ` — where the reals of a number begin;
* `Binary.shortest_holds` — the search for a shortest decimal always finds one;
* `Binary.eq_of_shortest_magnitude` — two numbers with one shortest decimal are the same.
-/

namespace SoundScenes.Decimal

/-- The number that a decimal stands for. -/
def magnitude (d : Decimal) : ℚ := d.digits * 10 ^ d.exponent

namespace Interval

variable {i : Interval} {tie : Tie} {k : Int} {c : Nat}

/-! ## Points of a grid -/

theorem scales_eq (i : Interval) (k : Int) :
    i.scales k =
      (10 ^ k.toNat * 2 ^ (-i.exponent).toNat, 10 ^ (-k).toNat * 2 ^ i.exponent.toNat) := by
  rw [scales, Nat.shiftLeft_eq, Nat.shiftLeft_eq]
  rfl

theorem grid_pos (i : Interval) (k : Int) : 0 < (i.scales k).1 := by
  rw [scales_eq]
  positivity

/-- Both factors of a scale are the powers that they stand for, up to one factor. -/
theorem exists_scale (i : Interval) (k : Int) : ∃ s : ℚ, 0 < s ∧
    ((i.scales k).1 : ℚ) = 10 ^ k * s ∧ ((i.scales k).2 : ℚ) = 2 ^ i.exponent * s := by
  have hsplit (a : ℚ) (ha : a ≠ 0) (z : Int) : a ^ z.toNat = a ^ z * a ^ (-z).toNat := by
    rw [← zpow_natCast, ← zpow_natCast, ← zpow_add₀ ha]
    congr 1
    omega
  refine ⟨10 ^ (-k).toNat * 2 ^ (-i.exponent).toNat, by positivity, ?_, ?_⟩
  · rw [scales_eq]
    push_cast
    rw [hsplit 10 (by norm_num) k]
    ring
  · rw [scales_eq]
    push_cast
    rw [hsplit 2 (by norm_num) i.exponent]
    ring

/-- A point of a grid that lies in an interval is between its ends, and it is none of them unless
they belong to the interval. -/
theorem bounds_of_holds (h : i.holds k c = true) :
    i.low * 2 ^ i.exponent ≤ magnitude ⟨c, k⟩ ∧ magnitude ⟨c, k⟩ ≤ i.high * 2 ^ i.exponent ∧
      (i.closed = false → i.low * 2 ^ i.exponent < magnitude ⟨c, k⟩ ∧
        magnitude ⟨c, k⟩ < i.high * 2 ^ i.exponent) := by
  obtain ⟨s, hs, hgrid, hunit⟩ := i.exists_scale k
  have hscale (a : Nat) : (a * (i.scales k).2 : ℚ) = a * 2 ^ i.exponent * s := by
    rw [hunit, mul_assoc]
  have hpoint : (c * (i.scales k).1 : ℚ) = magnitude ⟨c, k⟩ * s := by
    rw [hgrid, magnitude, mul_assoc]
  have hle {a : Nat} : a * (i.scales k).2 ≤ c * (i.scales k).1 ↔
      a * 2 ^ i.exponent ≤ magnitude ⟨c, k⟩ := by
    rw [← Nat.cast_le (α := ℚ), Nat.cast_mul, Nat.cast_mul, hscale, hpoint,
      mul_le_mul_iff_left₀ hs]
  have hge {a : Nat} : c * (i.scales k).1 ≤ a * (i.scales k).2 ↔
      magnitude ⟨c, k⟩ ≤ a * 2 ^ i.exponent := by
    rw [← Nat.cast_le (α := ℚ), Nat.cast_mul, Nat.cast_mul, hscale, hpoint,
      mul_le_mul_iff_left₀ hs]
  unfold holds at h
  simp only at h
  split at h
  · next hclosed =>
    rw [decide_eq_true_eq, hle, hge] at h
    exact ⟨h.1, h.2, fun hopen => by rw [hopen] at hclosed; cases hclosed⟩
  · rw [decide_eq_true_eq, ← not_le, ← not_le, hle, hge, not_le, not_le] at h
    exact ⟨h.1.le, h.2.le, fun _ => h⟩

theorem holds_of_pick (h : i.pick tie k = some c) : i.holds k c = true := by
  unfold pick at h
  simp only at h
  split at h
  · cases h
  · next hbelow _ =>
    cases h
    exact hbelow
  · next _ habove =>
    cases h
    exact habove
  · next hbelow habove =>
    split at h
    · cases h
      exact hbelow
    · cases h
      exact habove

/-- A fine grid has a point in every interval: the last one that is not above the value. -/
theorem pick_ne_none (hlow : i.low < i.value) (hhigh : i.value < i.high)
    (hfine : (i.scales k).1 ≤ (i.scales k).2) : i.pick tie k ≠ none := by
  have hgrid := i.grid_pos k
  have hbelow : i.holds k (i.value * (i.scales k).2 / (i.scales k).1) = true := by
    have hdiv := Nat.div_add_mod (i.value * (i.scales k).2) (i.scales k).1
    have hmod := Nat.mod_lt (i.value * (i.scales k).2) hgrid
    rw [Nat.mul_comm] at hdiv
    have hlow : i.low * (i.scales k).2 + (i.scales k).2 ≤ i.value * (i.scales k).2 := by
      rw [← Nat.succ_mul]
      exact Nat.mul_le_mul_right _ hlow
    have hhigh : i.value * (i.scales k).2 + (i.scales k).2 ≤ i.high * (i.scales k).2 := by
      rw [← Nat.succ_mul]
      exact Nat.mul_le_mul_right _ hhigh
    unfold holds
    simp only
    split <;> (rw [decide_eq_true_eq]; omega)
  unfold pick
  simp only [hbelow]
  split
  · next h _ => cases h
  · simp
  · simp
  · split <;> simp

end Interval

namespace Binary

variable {b : Binary} {n n' : Nat} {tie : Tie}

/-! ## The shortest decimal is found -/

/-- Mantissa and exponent of a number in the format. -/
structure InFormat (b : Binary) : Prop where
  mantissa_lt : b.mantissa < 2 * leading
  exponent_ge : -1074 ≤ b.exponent
  exponent_le : b.exponent ≤ 972

theorem leading_eq : leading = 4503599627370496 := rfl

theorem ten_pow_le_two_pow {p q : Nat} (h : 10 * p ≤ 3 * q) : 10 ^ p ≤ 2 ^ q := by
  refine (Nat.pow_le_pow_iff_left (n := 3) (by decide)).mp ?_
  calc (10 ^ p) ^ 3 = (10 ^ 3) ^ p := Nat.pow_right_comm ..
    _ ≤ (2 ^ 10) ^ p := Nat.pow_le_pow_left (by decide) p
    _ = 2 ^ (10 * p) := (Nat.pow_mul ..).symm
    _ ≤ 2 ^ (q * 3) := Nat.pow_le_pow_right (by decide) (by omega)
    _ = (2 ^ q) ^ 3 := Nat.pow_mul ..

theorem two_pow_le_ten_pow {p q : Nat} (h : 10 * p ≤ 33 * q) : 2 ^ p ≤ 10 ^ q := by
  refine (Nat.pow_le_pow_iff_left (n := 33) (by decide)).mp ?_
  calc (2 ^ p) ^ 33 = (2 ^ 33) ^ p := Nat.pow_right_comm ..
    _ ≤ (10 ^ 10) ^ p := Nat.pow_le_pow_left (by decide) p
    _ = 10 ^ (10 * p) := (Nat.pow_mul ..).symm
    _ ≤ 10 ^ (q * 33) := Nat.pow_le_pow_right (by decide) (by omega)
    _ = (10 ^ q) ^ 33 := Nat.pow_mul ..

/-- The last grid is finer than a quarter of the distance between two numbers. -/
theorem last_grid_fine (h : b.InFormat) (hpos : 0 < b.mantissa) :
    (b.interval.scales (b.ceiling - 23)).1 ≤ (b.interval.scales (b.ceiling - 23)).2 := by
  have hlog : b.mantissa.log2 < 53 := (Nat.log2_lt (by omega)).mpr h.mantissa_lt
  have hlow := h.exponent_ge
  have hhigh := h.exponent_le
  rw [Interval.scales_eq]
  show 10 ^ (b.ceiling - 23).toNat * 2 ^ (-(b.exponent - 2)).toNat ≤
    10 ^ (-(b.ceiling - 23)).toNat * 2 ^ (b.exponent - 2).toNat
  have hceiling : b.ceiling =
      ((b.mantissa.log2 + 1 : Nat) + b.exponent) * 30103 / 100000 + 1 := rfl
  generalize b.ceiling = k at hceiling ⊢
  rcases le_or_gt 23 k with hk | hk
  · -- a power of ten below a power of two
    have htwo : (-(b.exponent - 2)).toNat = 0 := by omega
    have hten : (-(k - 23)).toNat = 0 := by omega
    rw [htwo, hten, Nat.pow_zero, Nat.pow_zero, Nat.mul_one, Nat.one_mul]
    exact ten_pow_le_two_pow (by omega)
  · have hten : (k - 23).toNat = 0 := by omega
    rw [hten, Nat.pow_zero, Nat.one_mul]
    refine (two_pow_le_ten_pow ?_).trans (Nat.le_mul_of_pos_right _ (Nat.two_pow_pos _))
    omega

/-- The search for a shortest decimal always finds one, and it reads back. -/
theorem shortest_holds (h : b.InFormat) (hpos : 0 < b.mantissa) (tie : Tie) :
    b.interval.holds (b.shortest tie).exponent (b.shortest tie).digits = true := by
  have hlast : b.ceiling - 23 ∈ b.grids :=
    List.mem_map.mpr ⟨23, List.mem_range.mpr (by decide), rfl⟩
  have hlow : b.interval.low < b.interval.value := by
    show 4 * b.mantissa - (if _ then 1 else 2) < 4 * b.mantissa
    split <;> omega
  have hhigh : b.interval.value < b.interval.high := Nat.lt_add_of_pos_right (by decide)
  have hpick : b.interval.pick tie (b.ceiling - 23) ≠ none :=
    Interval.pick_ne_none hlow hhigh (last_grid_fine h hpos)
  have hsome : (b.grids.findSome? fun k => (b.interval.pick tie k).map (⟨·, k⟩)) ≠
      (none : Option Decimal) := by
    intro hnone
    have hmap := List.findSome?_eq_none_iff.mp hnone _ hlast
    exact hpick (Option.map_eq_none_iff.mp hmap)
  obtain ⟨d, hd⟩ := Option.ne_none_iff_exists'.mp hsome
  have hshortest : b.shortest tie = d := by
    rw [shortest, if_neg (Nat.ne_of_gt hpos), hd]
    rfl
  obtain ⟨k, -, hk⟩ := List.exists_of_findSome?_eq_some hd
  obtain ⟨c, hc, rfl⟩ := Option.map_eq_some_iff.mp hk
  rw [hshortest]
  exact Interval.holds_of_pick hc

/-! ## Numbers in increasing order -/

/-- The number without a sign that has an index as its bits: the fraction field below the exponent
field. -/
def ofIndex (n : Nat) : Binary where
  negative := false
  mantissa := if n / leading = 0 then n % leading else leading + n % leading
  exponent := (if n / leading = 0 then 1 else ((n / leading : Nat) : Int)) - 1075

theorem ofIndex_eq {field fraction : Nat} (h : fraction < leading) :
    ofIndex (leading * field + fraction) =
      ⟨false, if field = 0 then fraction else leading + fraction,
        (if field = 0 then 1 else (field : Int)) - 1075⟩ := by
  have hdiv : (leading * field + fraction) / leading = field := by
    rw [Nat.mul_add_div (by decide), Nat.div_eq_of_lt h, Nat.add_zero]
  have hmod : (leading * field + fraction) % leading = fraction := by
    rw [Nat.mul_add_mod, Nat.mod_eq_of_lt h]
  rw [ofIndex, hdiv, hmod]

theorem exists_fields (n : Nat) : ∃ field fraction, n = leading * field + fraction ∧
    fraction < leading :=
  ⟨n / leading, n % leading, (Nat.div_add_mod n leading).symm, Nat.mod_lt n (by decide)⟩

theorem inFormat_ofIndex (h : n < 2048 * leading) : (ofIndex n).InFormat := by
  obtain ⟨field, fraction, rfl, hfraction⟩ := exists_fields n
  rw [leading_eq] at h hfraction
  constructor <;> (rw [ofIndex_eq hfraction]; simp only [leading_eq]; split <;> omega)

theorem ofIndex_mantissa_mod_two (n : Nat) : (ofIndex n).mantissa % 2 = n % 2 := by
  obtain ⟨field, fraction, rfl, hfraction⟩ := exists_fields n
  rw [ofIndex_eq hfraction]
  simp only [leading_eq]
  split <;> omega

theorem ofIndex_mantissa_pos (h : 0 < n) : 0 < (ofIndex n).mantissa := by
  obtain ⟨field, fraction, rfl, hfraction⟩ := exists_fields n
  rw [ofIndex_eq hfraction]
  simp only [leading_eq] at h ⊢
  split <;> omega

/-- Where the reals that round to a number end. -/
def upper (n : Nat) : ℚ := (ofIndex n).interval.high * 2 ^ (ofIndex n).interval.exponent

/-- The reals of a number begin where those of the number before it end. -/
theorem low_succ (n : Nat) :
    (ofIndex (n + 1)).interval.low * 2 ^ (ofIndex (n + 1)).interval.exponent = upper n := by
  obtain ⟨field, fraction, rfl, hfraction⟩ := exists_fields n
  unfold upper
  rw [ofIndex_eq hfraction]
  rcases Nat.lt_or_ge (fraction + 1) leading with hnext | hnext
  · -- both numbers have one exponent
    have hne : (if field = 0 then fraction + 1 else leading + (fraction + 1)) ≠ leading := by
      split <;> omega
    rw [Nat.add_assoc, ofIndex_eq hnext]
    simp only [interval, if_neg fun h : _ ∧ _ => hne h.1]
    congr 2
    split <;> omega
  · -- the fraction starts again
    have hlast : fraction + 1 = leading := by omega
    have hindex : leading * field + fraction + 1 = leading * (field + 1) + 0 := by
      rw [Nat.add_assoc, hlast, Nat.mul_succ, Nat.add_zero]
    rw [hindex, ofIndex_eq (by decide)]
    simp only [interval, if_neg (Nat.succ_ne_zero field)]
    rcases Nat.eq_zero_or_pos field with rfl | hfield
    · rw [if_neg (by decide)]
      congr 2
      simp only [if_true]
      omega
    · have hgap : (-1074 : Int) < ((field + 1 : Nat) : Int) - 1075 := by omega
      have hhigh : 4 * (leading + fraction) + 2 = 2 * (4 * leading - 1) := by omega
      have hexponent : ((field + 1 : Nat) : Int) - 1075 - 2 = (field : Int) - 1075 - 2 + 1 := by
        omega
      rw [if_pos ⟨Nat.add_zero _, hgap⟩, if_neg (Nat.ne_of_gt hfield),
        if_neg (Nat.ne_of_gt hfield), Nat.add_zero, hhigh, hexponent, zpow_add_one₀ (by norm_num)]
      push_cast
      ring

theorem low_lt_high (b : Binary) : b.interval.low < b.interval.high := by
  show 4 * b.mantissa - (if _ then 1 else 2) < 4 * b.mantissa + 2
  split <;> omega

theorem upper_strictMono : StrictMono upper := by
  refine strictMono_nat_of_lt_succ fun n => ?_
  rw [← low_succ, upper]
  have hlt : ((ofIndex (n + 1)).interval.low : ℚ) < (ofIndex (n + 1)).interval.high :=
    Nat.cast_lt.mpr (low_lt_high _)
  exact mul_lt_mul_of_pos_right hlt (by positivity)

/-! ## Shortest decimals -/

/-- The shortest decimal of a number lies behind the reals of the number before it, and before those
of the next one. Only an even number has the points between. -/
theorem shortest_bounds (h : n + 1 < 2048 * leading) (tie : Tie) :
    upper n ≤ ((ofIndex (n + 1)).shortest tie).magnitude ∧
      ((ofIndex (n + 1)).shortest tie).magnitude ≤ upper (n + 1) ∧
      ((n + 1) % 2 = 1 → upper n < ((ofIndex (n + 1)).shortest tie).magnitude ∧
        ((ofIndex (n + 1)).shortest tie).magnitude < upper (n + 1)) := by
  have hpos := ofIndex_mantissa_pos (Nat.succ_pos n)
  have hholds := shortest_holds (inFormat_ofIndex h) hpos tie
  obtain ⟨hlow, hhigh, hopen⟩ := Interval.bounds_of_holds hholds
  rw [low_succ] at hlow hopen
  refine ⟨hlow, hhigh, fun hodd => hopen ?_⟩
  rw [← ofIndex_mantissa_mod_two] at hodd
  exact decide_eq_false (by omega)

theorem shortest_zero (tie : Tie) : ((ofIndex 0).shortest tie).magnitude = 0 := by
  have hzero : (ofIndex 0).shortest tie = ⟨0, 0⟩ := if_pos (by decide)
  rw [hzero, magnitude, Nat.cast_zero, zero_mul]

/-- A greater number has a greater shortest decimal. -/
theorem shortest_lt (hlt : n < n') (h : n' < 2048 * leading) (tie : Tie) :
    ((ofIndex n).shortest tie).magnitude < ((ofIndex n').shortest tie).magnitude := by
  obtain ⟨last, rfl⟩ : ∃ last, n' = last + 1 := ⟨n' - 1, by omega⟩
  obtain ⟨hlow, -, hlow'⟩ := shortest_bounds h tie
  have hbetween : upper n ≤ upper last := upper_strictMono.monotone (by omega)
  rcases Nat.eq_zero_or_pos n with rfl | hn
  · have hpos : 0 < upper 0 := by
      unfold upper
      have hhigh : 0 < (ofIndex 0).interval.high := Nat.succ_pos _
      positivity
    rw [shortest_zero]
    linarith
  · obtain ⟨first, rfl⟩ : ∃ first, n = first + 1 := ⟨n - 1, by omega⟩
    obtain ⟨-, hhigh, hhigh'⟩ := shortest_bounds (n := first) (by omega) tie
    rcases Nat.lt_or_ge (first + 1) last with hapart | hnext
    · have hstrict := upper_strictMono hapart
      linarith
    · -- one of two neighbours is odd
      obtain rfl : last = first + 1 := by omega
      rcases Nat.mod_two_eq_zero_or_one (first + 1) with heven | hodd
      · have hstrict := (hlow' (by omega)).1
        linarith
      · have hstrict := (hhigh' hodd).2
        linarith

/-- Two numbers with one shortest decimal are the same. -/
theorem eq_of_shortest_magnitude (h : n < 2048 * leading) (h' : n' < 2048 * leading)
    (heq : ((ofIndex n).shortest tie).magnitude = ((ofIndex n').shortest tie).magnitude) :
    n = n' := by
  rcases Nat.lt_trichotomy n n' with hlt | heq | hlt
  · exact absurd heq (shortest_lt hlt h' tie).ne
  · exact heq
  · exact absurd heq (shortest_lt hlt h tie).ne'

end Binary

end SoundScenes.Decimal
