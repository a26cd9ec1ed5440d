import SoundScenes.Proofs.Decimal.Intervals
import SoundScenes.Proofs.Json.Written
import Mathlib.Data.List.Induction

/-!
# Different values have different texts

A written number stands for the shortest decimal of the number that it was written from, whatever
its layout, so it tells which number that was. A number with neither point nor exponent is an
integer. With this the document of a value, and so its text on one line, tells the whole value.

* `Digits.magnitude` — what a written number stands for, without its sign;
* `Decimal.documentParts_injective` — no two numbers are written alike;
* `Json.document_injective`, `Json.compact_injective` — nor are two values.
-/

namespace SoundScenes

/-! ## Written numbers -/

namespace Digits

/-- The number that an exponent stands for. -/
def exponentValue : Option (Bool × List Char) → Int
  | none => 0
  | some (true, ds) => -(number ds : Int)
  | some (false, ds) => number ds

/-- The number that written digits stand for, without the sign. -/
def magnitude (d : Digits) : ℚ :=
  number (d.whole ++ d.fraction.getD []) *
    10 ^ (exponentValue d.exponent - ((d.fraction.getD []).length : Int))

theorem number_append (ds es : List Char) :
    number (ds ++ es) = number ds * 10 ^ es.length + number es := by
  induction es using List.reverseRecOn with
  | nil => simp [number]
  | append_singleton es c ih =>
    have hlast (ds : List Char) : number (ds ++ [c]) = 10 * number ds + digit c := by
      rw [number, List.foldl_append]
      rfl
    rw [← List.append_assoc, hlast, ih, hlast, List.length_append, List.length_singleton,
      Nat.pow_succ]
    ring

theorem number_replicate_zero (n : Nat) : number (List.replicate n '0') = 0 := by
  induction n with
  | zero => rfl
  | succ n ih =>
    rw [List.replicate_succ', number_append, ih]
    rfl

theorem exponentValue_toDigits (e : Int) :
    exponentValue (some (decide (e < 0), Nat.toDigits 10 e.natAbs)) = e := by
  by_cases h : e < 0
  · rw [decide_eq_true h, exponentValue, number_toDigits]
    omega
  · rw [decide_eq_false h, exponentValue, number_toDigits]
    omega

end Digits

namespace Decimal

open Digits

/-- The significant digits of a number, with the point behind the first, stand for it. -/
theorem significant_magnitude (d : Decimal) :
    number d.significant.1 * 10 ^ (d.significant.2 + 1 - (d.significant.1.length : Int)) =
      d.magnitude := by
  obtain ⟨n, hwritten⟩ := d.exists_trimmed_append
  rw [significant_eq, magnitude]
  by_cases hzero : d.digits = 0
  · rw [if_pos (List.isEmpty_iff.mpr (d.trimmed_eq_nil_iff.mpr hzero)), hzero]
    simp [number, digit]
  · have hne : d.trimmed ≠ [] := mt d.trimmed_eq_nil_iff.mp hzero
    have hdigits : d.digits = number d.trimmed * 10 ^ n := by
      rw [← number_toDigits d.digits, hwritten, number_append, number_replicate_zero,
        List.length_replicate, Nat.add_zero]
    have hlength : (Nat.toDigits 10 d.digits).length = d.trimmed.length + n := by
      rw [hwritten, List.length_append, List.length_replicate]
    rw [if_neg (by simpa using hne), if_neg hzero, hlength, hdigits]
    push_cast
    rw [mul_assoc, ← zpow_natCast, ← zpow_add₀ (by norm_num)]
    congr 2
    omega

variable (negative : Bool) {digits : List Char} {e : Int}

theorem magnitude_spreadParts : (spreadParts negative digits e).magnitude =
    number digits * 10 ^ (e + 1 - (digits.length : Int)) := by
  unfold spreadParts
  split
  · next hneg =>
    simp only [Digits.magnitude, Option.getD_some, exponentValue]
    rw [show ['0'] = List.replicate 1 '0' from rfl, number_append, number_append,
      number_replicate_zero, number_replicate_zero]
    simp only [Nat.zero_mul, Nat.zero_add, List.length_append, List.length_replicate]
    congr 2
    omega
  · next hge =>
    simp only
    split
    · next hle =>
      simp only [Digits.magnitude, Option.getD_some, exponentValue]
      rw [show ['0'] = List.replicate 1 '0' from rfl, number_append, number_append,
        number_replicate_zero, number_replicate_zero]
      simp only [Nat.add_zero, List.length_replicate]
      push_cast
      rw [mul_assoc, mul_assoc, zpow_neg_one, mul_inv_cancel₀ (by norm_num), mul_one,
        ← zpow_natCast]
      congr 2
      omega
    · next hlong =>
      simp only [Digits.magnitude, Option.getD_some, exponentValue, List.take_append_drop,
        List.length_drop]
      congr 2
      omega

theorem magnitude_scientificParts (hne : digits ≠ []) :
    (scientificParts negative digits e).magnitude =
      number digits * 10 ^ (e + 1 - (digits.length : Int)) := by
  have hpos := List.length_pos_iff.mpr hne
  have hfraction : (if (digits.drop 1).isEmpty then none else some (digits.drop 1)).getD [] =
      digits.drop 1 := by
    split
    · next hempty => exact (List.isEmpty_iff.mp hempty).symm
    · rfl
  simp only [scientificParts, Digits.magnitude, hfraction, exponentValue_toDigits,
    List.take_append_drop, List.length_drop]
  congr 2
  omega

/-- A number in a document stands for its shortest decimal. -/
theorem magnitude_documentParts (x : Float) : (documentParts x).magnitude =
    ((Binary.ofFloat x).shortest Layout.document.tie).magnitude := by
  have hne := (significant_spec ((Binary.ofFloat x).shortest Layout.document.tie)).1.1
  rw [← significant_magnitude, documentParts]
  simp only
  split
  · exact magnitude_spreadParts _
  · exact magnitude_scientificParts _ hne

theorem negative_documentParts (x : Float) :
    (documentParts x).negative = (Binary.ofFloat x).negative := by
  unfold documentParts spreadParts scientificParts
  simp only
  split
  · split
    · rfl
    · split <;> rfl
  · rfl

/-! ## Numbers -/

/-- The bits of a number without its sign. -/
def index (x : Float) : Nat := x.toBits.toNat % (2048 * Binary.leading)

theorem ofFloat_eq (x : Float) : Binary.ofFloat x =
    { Binary.ofIndex (index x) with negative := (Binary.ofFloat x).negative } := by
  have hfield : index x / Binary.leading = x.toBits.toNat / Binary.leading % 2048 := by
    rw [index, Nat.mul_comm, Nat.mod_mul_right_div_self]
  have hfraction : index x % Binary.leading = x.toBits.toNat % Binary.leading :=
    Nat.mod_mod_of_dvd _ (Nat.dvd_mul_left _ _)
  simp only [Binary.ofFloat, Binary.ofIndex, hfield, hfraction]

theorem index_lt (x : Float) : index x < 2048 * Binary.leading := Nat.mod_lt _ (by decide)

theorem float_ext {x y : Float} (h : x.toBits = y.toBits) : x = y := by
  cases x with | ofModel x =>
  cases y with | ofModel y =>
  cases x
  cases y
  cases h
  rfl

/-- A number is known by its sign and its other bits. -/
theorem eq_of_index_eq {x y : Float} (hindex : index x = index y)
    (hsign : (Binary.ofFloat x).negative = (Binary.ofFloat y).negative) : x = y := by
  have hx := x.toBits.toNat_lt
  have hy := y.toBits.toNat_lt
  simp only [Binary.ofFloat, decide_eq_decide, Nat.div_div_eq_div_mul, index, Binary.leading_eq]
    at hsign hindex
  refine float_ext (UInt64.toNat_inj.mp ?_)
  omega

/-- **No two numbers are written alike.** -/
theorem documentParts_injective : Function.Injective documentParts := by
  intro x y heq
  have hmagnitude := magnitude_documentParts x
  rw [heq, magnitude_documentParts y, ofFloat_eq x, ofFloat_eq y] at hmagnitude
  refine eq_of_index_eq ?_ ?_
  · exact Binary.eq_of_shortest_magnitude (index_lt x) (index_lt y) hmagnitude.symm
  · rw [← negative_documentParts, ← negative_documentParts, heq]

/-- A number that is no integer has a point or an exponent. -/
theorem fraction_or_exponent (x : Float) :
    (documentParts x).fraction ≠ none ∨ (documentParts x).exponent ≠ none := by
  unfold documentParts spreadParts scientificParts
  simp only
  split
  · split
    · exact .inl (by simp)
    · split <;> exact .inl (by simp)
  · exact .inr (by simp)

end Decimal

namespace Numeral

theorem toDigits_inj {m n : Nat} (h : Nat.toDigits 10 m = Nat.toDigits 10 n) : m = n := by
  rw [← number_toDigits m, h, number_toDigits]

theorem digits_injective : Function.Injective digits := by
  have hinteger (i : Int) (x : Float) : digits (.integer i) ≠ digits (.float x) := by
    intro heq
    have hx : digits (.float x) = Decimal.documentParts x := rfl
    rcases Decimal.fraction_or_exponent x with h | h <;> rw [← hx, ← heq] at h
    · cases i <;> exact h rfl
    · cases i <;> exact h rfl
  intro m n heq
  cases m with
  | integer i =>
    cases n with
    | integer j =>
      congr 1
      cases i <;> cases j <;> simp only [digits, Digits.mk.injEq, and_true] at heq
      · rw [toDigits_inj heq.2]
      · cases heq.1
      · cases heq.1
      · rw [Nat.succ.inj (toDigits_inj heq.2)]
    | float y => exact absurd heq (hinteger i y)
  | float x =>
    cases n with
    | integer j => exact absurd heq.symm (hinteger j x)
    | float y => exact congrArg float (Decimal.documentParts_injective heq)

end Numeral

/-! ## Values -/

namespace Json

theorem pieces_injective : Function.Injective pieces := by
  intro s s' h
  have hspelled := Reader.spelled_pieces s
  rw [h, Reader.spelled_pieces s'] at hspelled
  exact (Except.ok.inj hspelled).symm

mutual

/-- The document of a value tells the value. -/
theorem document_injective (v v' : Json) (h : v.document = v'.document) : v = v' := by
  match v, v' with
  | .null, .null => rfl
  | .bool b, .bool b' =>
    cases h
    rfl
  | .number n, .number n' =>
    simp only [document, Document.number.injEq] at h
    rw [Numeral.digits_injective h]
  | .string s, .string s' =>
    simp only [document, Document.string.injEq, and_true] at h
    rw [pieces_injective h]
  | .array items, .array items' =>
    simp only [document, Document.array.injEq, and_true] at h
    rw [documentItems_injective items items' h]
  | .object entries, .object entries' =>
    simp only [document, Document.object.injEq, and_true] at h
    rw [documentEntries_injective entries entries' h]

theorem documentItems_injective (vs vs' : List Json) (h : documentItems vs = documentItems vs') :
    vs = vs' := by
  match vs, vs' with
  | [], [] => rfl
  | v :: vs, v' :: vs' =>
    obtain ⟨hv, hvs⟩ := List.cons.inj h
    rw [document_injective v v' hv, documentItems_injective vs vs' hvs]

theorem documentEntries_injective (es es' : List (String × Json))
    (h : documentEntries es = documentEntries es') : es = es' := by
  match es, es' with
  | [], [] => rfl
  | (k, v) :: es, (k', v') :: es' =>
    obtain ⟨hentry, hes⟩ := List.cons.inj h
    obtain ⟨hkey, hv⟩ := Prod.mk.inj hentry
    simp only [Document.string.injEq, and_true] at hkey
    rw [pieces_injective hkey, document_injective v v' hv, documentEntries_injective es es' hes]

end

/-- **The text of a value on one line tells the value.** -/
theorem compact_injective : Function.Injective compact := by
  intro v v' h
  have hdocument := Document.ofString_compact v
  rw [h, Document.ofString_compact v'] at hdocument
  exact document_injective v v' (congrArg Prod.fst hdocument).symm

end Json

end SoundScenes
