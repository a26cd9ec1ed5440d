import SoundScenes.Json.Token
import SoundScenes.Json.Writer

/-!
# Written numbers are scanned back

A number is written as digits with an optional sign, point and exponent. Whatever stands behind it,
as long as it does not go on with the number, a scan finds the same parts again. An integer that
fits 64 bits is then its own value.

* `Digits.WellFormed`, `Digits.text` — the parts of a number that can be written, and their text;
* `Token.scanNumber_text` — the text is scanned back;
* `Numeral.text_digits`, `Numeral.wellFormed_digits` — what is written of a number is such a text;
* `Numeral.value_digits` — the value of a written integer.
-/

namespace SoundScenes

/-! ## Digits -/

/-- A text of digits only, at least one. -/
def IsDigits (ds : List Char) : Prop := ds ≠ [] ∧ ∀ c ∈ ds, c.isDigit = true

theorem isDigits_toDigits (n : Nat) : IsDigits (Nat.toDigits 10 n) :=
  ⟨Nat.toDigits_ne_nil, fun _ hc => Nat.isDigit_of_mem_toDigits (by decide) (by decide) hc⟩

theorem isDigits_zero : IsDigits ['0'] := by
  refine ⟨List.cons_ne_nil _ _, fun c hc => ?_⟩
  rw [List.mem_singleton.mp hc]
  rfl

/-- Only zero is written with a zero in front. -/
theorem eq_zero_of_head_toDigits {n : Nat} (h : (Nat.toDigits 10 n).head? = some '0') : n = 0 := by
  induction n using Nat.strongRecOn with
  | ind n ih =>
    by_cases hn : n < 10
    · rw [Nat.toDigits_of_lt_base hn, List.head?_cons, Option.some.injEq] at h
      have hall : ∀ m < 10, Nat.digitChar m = '0' → m = 0 := by decide
      exact hall n hn h
    · have hne : Nat.toDigits 10 (n / 10) ≠ [] := Nat.toDigits_ne_nil
      rw [Nat.toDigits_of_base_le (by decide) (by omega), List.head?_append,
        List.head?_eq_some_head hne, Option.some_or, ← List.head?_eq_some_head hne] at h
      have hzero := ih (n / 10) (by omega) h
      omega

theorem number_toDigits (n : Nat) : Digits.number (Nat.toDigits 10 n) = n :=
  Nat.ofDigitChars_toDigits (by decide) (by decide)

namespace Digits

/-- The fraction of a number as it is written. -/
def fractionText : Option (List Char) → List Char
  | none => []
  | some ds => '.' :: ds

/-- The exponent of a number as it is written. -/
def exponentText : Option (Bool × List Char) → List Char
  | none => []
  | some (negative, ds) => 'e' :: (if negative then '-' else '+') :: ds

/-- The text of a number, with a sign in front of every exponent. -/
def text (d : Digits) : List Char :=
  (if d.negative then ['-'] else []) ++ (d.whole ++ (fractionText d.fraction ++
    exponentText d.exponent))

/-- A number that can be written: no part is empty, and no zero stands in front. -/
structure WellFormed (d : Digits) : Prop where
  whole : IsDigits d.whole
  zero : d.whole.head? = some '0' → d.whole.length = 1
  fraction : ∀ ds, d.fraction = some ds → IsDigits ds
  exponent : ∀ negative ds, d.exponent = some (negative, ds) → IsDigits ds

end Digits

/-! ## Scanning -/

/-- A text that does not go on with a number. -/
def EndsNumber (rest : List Char) : Prop :=
  ∀ c, rest.head? = some c → c.isDigit = false ∧ c ≠ '.' ∧ c ≠ 'e' ∧ c ≠ 'E'

theorem endsNumber_nil : EndsNumber [] := fun _ h => by cases h

namespace Token

variable {rest ds : List Char}

theorem splitDigits_append (hds : ∀ c ∈ ds, c.isDigit = true)
    (hrest : ∀ c, rest.head? = some c → c.isDigit = false) :
    splitDigits (ds ++ rest) = (ds, rest) := by
  induction ds with
  | nil =>
    cases rest with
    | nil => rfl
    | cons c rest => simp [splitDigits, hrest c rfl]
  | cons c ds ih =>
    have hc : c.isDigit = true := hds c List.mem_cons_self
    have hsplit := ih fun c hc => hds c (List.mem_cons_of_mem _ hc)
    rw [splitDigits, Prod.mk.injEq] at hsplit
    rw [splitDigits, List.cons_append, List.takeWhile_cons_of_pos hc,
      List.dropWhile_cons_of_pos hc, hsplit.1, hsplit.2]

theorem scanFraction_text {fraction : Option (List Char)}
    (hfraction : ∀ ds, fraction = some ds → IsDigits ds)
    (hrest : ∀ c, rest.head? = some c → c.isDigit = false ∧ c ≠ '.') :
    scanFraction (Digits.fractionText fraction ++ rest) = .ok (fraction, rest) := by
  cases fraction with
  | some ds =>
    obtain ⟨hne, hds⟩ := hfraction ds rfl
    rw [Digits.fractionText, List.cons_append]
    simp only [scanFraction, splitDigits_append hds fun c hc => (hrest c hc).1]
    exact if_neg (by simpa using hne)
  | none =>
    rw [Digits.fractionText, List.nil_append]
    unfold scanFraction
    split
    · next r => exact absurd rfl (hrest '.' rfl).2
    · rfl

theorem scanExponent_text {exponent : Option (Bool × List Char)}
    (hexponent : ∀ negative ds, exponent = some (negative, ds) → IsDigits ds)
    (hrest : EndsNumber rest) :
    scanExponent (Digits.exponentText exponent ++ rest) = .ok (exponent, rest) := by
  cases exponent with
  | some e =>
    obtain ⟨negative, ds⟩ := e
    obtain ⟨hne, hds⟩ := hexponent negative ds rfl
    have hsign : scanSign ((if negative = true then '-' else '+') :: (ds ++ rest)) =
        (negative, ds ++ rest) := by
      cases negative <;> rfl
    rw [Digits.exponentText, List.cons_append, List.cons_append]
    simp only [scanExponent, true_or, if_true, hsign,
      splitDigits_append hds fun c hc => (hrest c hc).1]
    exact if_neg (by simpa using hne)
  | none =>
    rw [Digits.exponentText, List.nil_append]
    unfold scanExponent
    cases rest with
    | nil => rfl
    | cons c rest =>
      obtain ⟨-, -, he, hE⟩ := hrest c rfl
      exact if_neg (by simp [he, hE])

/-- What stands behind the digits in front of the point begins with none of them. -/
theorem head?_exponentText_append (exponent : Option (Bool × List Char)) (hrest : EndsNumber rest) :
    ∀ c, (Digits.exponentText exponent ++ rest).head? = some c → c.isDigit = false ∧ c ≠ '.' := by
  intro c hc
  cases exponent with
  | none => exact ⟨(hrest c hc).1, (hrest c hc).2.1⟩
  | some e =>
    cases hc
    decide

theorem head?_fractionText_append (fraction : Option (List Char))
    (exponent : Option (Bool × List Char)) (hrest : EndsNumber rest) :
    ∀ c, (Digits.fractionText fraction ++ (Digits.exponentText exponent ++ rest)).head? = some c →
      c.isDigit = false := by
  intro c hc
  cases fraction with
  | none => exact (head?_exponentText_append exponent hrest c hc).1
  | some ds =>
    cases hc
    decide

theorem scanMagnitude_text {d : Digits} (h : d.WellFormed) (hrest : EndsNumber rest) :
    scanMagnitude d.negative
      (d.whole ++ (Digits.fractionText d.fraction ++ (Digits.exponentText d.exponent ++ rest))) =
        .ok (d, rest) := by
  have hhead := head?_fractionText_append d.fraction d.exponent hrest
  have hfraction := scanFraction_text h.fraction (head?_exponentText_append d.exponent hrest)
  have hexponent := scanExponent_text h.exponent hrest
  have hzero : ¬(d.whole.head? = some '0' ∧ 1 < d.whole.length) := fun ⟨h0, hlength⟩ => by
    rw [h.zero h0] at hlength
    exact absurd hlength (by decide)
  unfold scanMagnitude
  simp only [splitDigits_append h.whole.2 hhead]
  rw [if_neg (by simpa using h.whole.1), if_neg hzero, hfraction]
  show (scanExponent (Digits.exponentText d.exponent ++ rest)).map _ = _
  rw [hexponent]
  rfl

/-- The text of a number is scanned back, whatever stands behind it. -/
theorem scanNumber_text {d : Digits} (h : d.WellFormed) (hrest : EndsNumber rest) :
    scanNumber (d.text ++ rest) = .ok (d, rest) := by
  have hscan := scanMagnitude_text h hrest
  rw [Digits.text, List.append_assoc, List.append_assoc, List.append_assoc]
  cases hsign : d.negative with
  | true =>
    rw [hsign] at hscan
    exact hscan
  | false =>
    rw [hsign] at hscan
    -- the first character is a digit, so it is no sign
    cases hwhole : d.whole with
    | nil => exact absurd hwhole h.whole.1
    | cons c ds =>
      have hc : c.isDigit = true := h.whole.2 c (hwhole ▸ List.mem_cons_self)
      rw [hwhole] at hscan
      show scanNumber (c :: (ds ++ _)) = _
      unfold scanNumber
      split
      · next heq =>
        obtain ⟨rfl, -⟩ := List.cons.inj heq
        cases hc
      · exact hscan

end Token

/-! ## Floating-point numbers -/

namespace Decimal

theorem isDigits_append {ds zeros : List Char} (hds : IsDigits ds) (hzeros : ∀ c ∈ zeros, c = '0') :
    IsDigits (ds ++ zeros) ∧ IsDigits (zeros ++ ds) := by
  have hall : ∀ c ∈ ds ++ zeros, c.isDigit = true := by
    intro c hc
    rcases List.mem_append.mp hc with hc | hc
    · exact hds.2 c hc
    · rw [hzeros c hc]
      rfl
  refine ⟨⟨by simp [hds.1], hall⟩, ⟨by simp [hds.1], fun c hc => hall c ?_⟩⟩
  exact List.mem_append.mpr (List.mem_append.mp hc).symm

/-- The digits of a number without the zeros at their end. -/
def trimmed (d : Decimal) : List Char :=
  ((Nat.toDigits 10 d.digits).reverse.dropWhile (· == '0')).reverse

theorem significant_eq (d : Decimal) :
    d.significant = (if d.trimmed.isEmpty then ['0'] else d.trimmed,
      if d.digits = 0 then 0 else d.exponent + (Nat.toDigits 10 d.digits).length - 1) :=
  rfl

theorem exists_trimmed_append (d : Decimal) :
    ∃ n, Nat.toDigits 10 d.digits = d.trimmed ++ List.replicate n '0' := by
  let zeros := ((Nat.toDigits 10 d.digits).reverse.takeWhile (· == '0')).reverse
  have hzeros : ∀ c ∈ zeros, c = '0' := fun c hc =>
    eq_of_beq (List.all_eq_true.mp List.all_takeWhile c (List.mem_reverse.mp hc))
  refine ⟨zeros.length, ?_⟩
  rw [← List.eq_replicate_of_mem hzeros, trimmed, ← List.reverse_append,
    List.takeWhile_append_dropWhile, List.reverse_reverse]

/-- Only of zero no digit is left. -/
theorem trimmed_eq_nil_iff (d : Decimal) : d.trimmed = [] ↔ d.digits = 0 := by
  constructor
  · intro htrimmed
    obtain ⟨n, hwritten⟩ := d.exists_trimmed_append
    rw [htrimmed, List.nil_append] at hwritten
    refine eq_zero_of_head_toDigits ?_
    have hne : Nat.toDigits 10 d.digits ≠ [] := Nat.toDigits_ne_nil
    have hmem := List.head_mem hne
    simp only [hwritten] at hmem
    rw [List.head?_eq_some_head hne]
    simp only [hwritten, List.eq_of_mem_replicate hmem]
  · intro hzero
    rw [trimmed, hzero]
    rfl

/-- The significant digits of a number are digits, and they begin with a zero only where there is no
other and no exponent. -/
theorem significant_spec (d : Decimal) : IsDigits d.significant.1 ∧
    (d.significant.1.head? = some '0' → d.significant.1.length = 1 ∧ d.significant.2 = 0) := by
  obtain ⟨n, hwritten⟩ := d.exists_trimmed_append
  rw [significant_eq]
  by_cases htrimmed : d.trimmed = []
  · -- all digits are zeros, so the number is zero
    rw [if_pos (List.isEmpty_iff.mpr htrimmed), if_pos (d.trimmed_eq_nil_iff.mp htrimmed)]
    exact ⟨isDigits_zero, fun _ => ⟨rfl, rfl⟩⟩
  · rw [if_neg (by simpa using htrimmed)]
    refine ⟨⟨htrimmed, fun c hc => ?_⟩, fun hhead => ?_⟩
    · have hmem : c ∈ Nat.toDigits 10 d.digits := by
        rw [hwritten]
        exact List.mem_append_left _ hc
      exact (isDigits_toDigits d.digits).2 c hmem
    · -- then the number is zero, and no digit is left of it
      refine absurd (d.trimmed_eq_nil_iff.mpr (eq_zero_of_head_toDigits ?_)) htrimmed
      rw [hwritten, List.head?_append, hhead, Option.some_or]

/-- The parts of a number in positional form. -/
def spreadParts (negative : Bool) (digits : List Char) (e : Int) : Digits :=
  if e < 0 then ⟨negative, ['0'], some (List.replicate (-e - 1).toNat '0' ++ digits), none⟩
  else
    let whole := e.toNat + 1
    if digits.length ≤ whole then
      ⟨negative, digits ++ List.replicate (whole - digits.length) '0', some ['0'], none⟩
    else ⟨negative, digits.take whole, some (digits.drop whole), none⟩

/-- The parts of a number with an exponent. -/
def scientificParts (negative : Bool) (digits : List Char) (e : Int) : Digits :=
  let fraction := digits.drop 1
  ⟨negative, digits.take 1, if fraction.isEmpty then none else some fraction,
    some (decide (e < 0), Nat.toDigits 10 e.natAbs)⟩

variable (negative : Bool) {digits : List Char} {e : Int}

theorem text_spreadParts (digits : List Char) (e : Int) : (spreadParts negative digits e).text =
    (if negative then ['-'] else []) ++ Layout.document.spread digits e := by
  unfold spreadParts Layout.spread
  split
  · simp [Digits.text, Digits.fractionText, Digits.exponentText]
  · simp only
    split <;> simp [Digits.text, Digits.fractionText, Digits.exponentText, Layout.document]

theorem text_scientificParts (digits : List Char) (e : Int) :
    (scientificParts negative digits e).text =
      (if negative then ['-'] else []) ++ Layout.scientific digits e := by
  unfold scientificParts Layout.scientific
  simp only
  split <;> simp [Digits.text, Digits.fractionText, Digits.exponentText]

theorem wellFormed_spreadParts (hdigits : IsDigits digits)
    (hhead : digits.head? = some '0' → digits.length = 1 ∧ e = 0) :
    (spreadParts negative digits e).WellFormed := by
  unfold spreadParts
  split
  · exact {
      whole := isDigits_zero
      zero := fun _ => rfl
      fraction := fun ds hds => Option.some.inj hds ▸
        (isDigits_append hdigits fun c hc => List.eq_of_mem_replicate hc).2
      exponent := fun _ _ h => by cases h }
  · simp only
    split
    · exact {
        whole := (isDigits_append hdigits fun c hc => List.eq_of_mem_replicate hc).1
        zero := fun h => by
          rw [List.head?_append, List.head?_eq_some_head hdigits.1, Option.some_or,
            ← List.head?_eq_some_head hdigits.1] at h
          obtain ⟨hlength, rfl⟩ := hhead h
          simp [hlength]
        fraction := fun ds hds => Option.some.inj hds ▸ isDigits_zero
        exponent := fun _ _ h => by cases h }
    · next hlong =>
      exact {
        whole := ⟨by simp [hdigits.1], fun c hc => hdigits.2 c (List.mem_of_mem_take hc)⟩
        zero := fun h => by
          rw [List.head?_take, if_neg (Nat.succ_ne_zero _)] at h
          have := (hhead h).1
          omega
        fraction := fun ds hds => Option.some.inj hds ▸
          ⟨by rw [Ne, List.drop_eq_nil_iff]; exact hlong,
            fun c hc => hdigits.2 c (List.mem_of_mem_drop hc)⟩
        exponent := fun _ _ h => by cases h }

theorem wellFormed_scientificParts (hdigits : IsDigits digits) :
    (scientificParts negative digits e).WellFormed where
  whole := ⟨by simp [scientificParts, hdigits.1],
    fun c hc => hdigits.2 c (List.mem_of_mem_take hc)⟩
  zero _ := by
    have hpos := List.length_pos_iff.mpr hdigits.1
    rw [scientificParts, List.length_take]
    omega
  fraction ds hds := by
    unfold scientificParts at hds
    simp only at hds
    split at hds
    · cases hds
    · next hne =>
      exact Option.some.inj hds ▸ ⟨by simpa using hne,
        fun c hc => hdigits.2 c (List.mem_of_mem_drop hc)⟩
  exponent _ _ h := by
    cases h
    exact isDigits_toDigits _

/-- The parts of a number in a document. -/
def documentParts (x : Float) : Digits :=
  let b := Binary.ofFloat x
  let (digits, e) := (b.shortest Layout.document.tie).significant
  if Layout.document.positional e then spreadParts b.negative digits e
  else scientificParts b.negative digits e

theorem text_documentParts (x : Float) : (documentParts x).text = Layout.document.finite x := by
  unfold documentParts Layout.finite
  simp only
  generalize ((Binary.ofFloat x).shortest Layout.document.tie).significant = written
  split
  · rw [text_spreadParts]
    cases (Binary.ofFloat x).negative <;> rfl
  · rw [text_scientificParts]
    cases (Binary.ofFloat x).negative <;> rfl

theorem wellFormed_documentParts (x : Float) : (documentParts x).WellFormed := by
  unfold documentParts
  simp only
  obtain ⟨hdigits, hhead⟩ :=
    significant_spec ((Binary.ofFloat x).shortest Layout.document.tie)
  split
  · exact wellFormed_spreadParts _ hdigits hhead
  · exact wellFormed_scientificParts _ hdigits

end Decimal

/-! ## Numbers of a document -/

/-- The parts of a number as it is written. -/
def Numeral.digits : Numeral → Digits
  | .integer (.ofNat n) => ⟨false, Nat.toDigits 10 n, none, none⟩
  | .integer (.negSucc n) => ⟨true, Nat.toDigits 10 (n + 1), none, none⟩
  | .float x => Decimal.documentParts x

namespace Numeral

theorem text_digits (n : Numeral) : n.digits.text = Json.writeNumeral n := by
  cases n with
  | integer i =>
    cases i <;> simp [digits, Digits.text, Digits.fractionText, Digits.exponentText,
      Json.writeNumeral]
  | float x => exact Decimal.text_documentParts x

theorem wellFormed_integer (negative : Bool) (n : Nat) :
    (⟨negative, Nat.toDigits 10 n, none, none⟩ : Digits).WellFormed where
  whole := isDigits_toDigits n
  zero h := by
    rw [eq_zero_of_head_toDigits h]
    rfl
  fraction _ h := by cases h
  exponent _ _ h := by cases h

theorem wellFormed_digits (n : Numeral) : n.digits.WellFormed := by
  cases n with
  | integer i =>
    cases i with
    | ofNat n => exact wellFormed_integer false n
    | negSucc n => exact wellFormed_integer true (n + 1)
  | float x => exact Decimal.wellFormed_documentParts x

/-- An integer that fits 64 bits is its own value. -/
theorem value_digits {i : Int} (hlow : -(UInt64.size : Int) ≤ 2 * i) (hhigh : i < UInt64.size) :
    (digits (.integer i)).value = .ok (.integer i) := by
  cases i with
  | ofNat n =>
    have hn : n < UInt64.size := Int.ofNat_lt.mp hhigh
    unfold Digits.value
    simp only [digits, number_toDigits]
    rw [if_pos ⟨rfl, rfl⟩, if_pos ⟨trivial, hn⟩]
    rfl
  | negSucc n =>
    have hn : 2 * (n + 1) ≤ UInt64.size := by omega
    unfold Digits.value
    simp only [digits, number_toDigits]
    rw [if_pos ⟨rfl, rfl⟩, if_neg (by simp), if_pos ⟨trivial, Nat.succ_pos n, hn⟩]
    rfl

end Numeral

end SoundScenes
