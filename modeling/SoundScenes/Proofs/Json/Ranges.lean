import SoundScenes.Json.Record
import SoundScenes.Proofs.Results

/-!
# What readers can give

Whatever stands in a text, a reader gives only values of the type that it reads: a count fits 64
bits, and a record has every property that its blank form has and that no field takes from it.

* `Reader.Yields` — a property of all that a reader gives;
* `Reader.yields_natural` — numbers are within their bounds;
* `Record.yields` — a property of records that every field keeps.
-/

namespace SoundScenes

namespace Reader

variable {α : Type} {r : Reader α} {p : α → Prop}

/-- All that a reader gives has a property. -/
def Yields (r : Reader α) (p : α → Prop) : Prop := ∀ room d a, r room d = .ok a → p a

theorem yields_run (h : r.Yields p) {text : String} {a : α} (hread : r.run text = .ok a) : p a := by
  rw [run] at hread
  generalize Document.ofString text = found at hread
  obtain ⟨d, surplus⟩ := found
  obtain ⟨a', ha', hread⟩ := bind_eq_ok.mp hread
  cases surplus with
  | true => cases hread
  | false =>
    cases hread
    exact h _ _ _ ha'

/-- A mismatch is never a value. -/
theorem mismatch_ne_ok (expected : String) (d : Document) (a : α) :
    mismatch expected d ≠ .ok a := by
  intro h
  cases d with
  | number n =>
    change (sound n.value >>= _) = _ at h
    obtain ⟨v, -, h⟩ := bind_eq_ok.mp h
    cases v <;> cases h
  | string ps e =>
    change (spelled ps e >>= _) = _ at h
    obtain ⟨s, -, h⟩ := bind_eq_ok.mp h
    cases h
  | _ => cases h

theorem yields_integer (low high : Int) (expected : String) :
    (integer low high expected).Yields fun i => low ≤ i ∧ i ≤ high := by
  intro room d i h
  unfold integer at h
  split at h
  · next n =>
    obtain ⟨v, -, h⟩ := bind_eq_ok.mp h
    cases v with
    | integer i' =>
      simp only at h
      split at h
      · next hi =>
        cases h
        exact hi
      · cases h
    | float x => cases h
  · exact absurd h (mismatch_ne_ok _ _ _)

/-- A natural number is below its bound. -/
theorem yields_natural (bound : Nat) (expected : String) :
    (natural bound expected).Yields (· < bound) := by
  intro room d n h
  rw [natural] at h
  cases hi : integer 0 (bound - 1) expected room d with
  | error e =>
    rw [hi] at h
    cases h
  | ok i =>
    rw [hi] at h
    cases h
    have hrange := yields_integer _ _ _ _ _ _ hi
    show i.toNat < bound
    omega

theorem yields_size : size.Yields (· < UInt64.size) := yields_natural _ _

theorem yields_word64 : word64.Yields (· < UInt64.size) := yields_natural _ _

theorem yields_word32 : word32.Yields (· < UInt32.size) := yields_natural _ _

theorem yields_signed32 : signed32.Yields fun i => -0x80000000 ≤ i ∧ i ≤ 0x7fffffff :=
  yields_integer _ _ _

theorem Yields.option (h : r.Yields p) : (option r).Yields fun o => ∀ a, o = some a → p a := by
  intro room d o hread a ho
  subst ho
  unfold Reader.option at hread
  split at hread
  · cases hread
  · cases hread
  · cases hr : r room _ with
    | error e =>
      rw [hr] at hread
      cases hread
    | ok a' =>
      rw [hr] at hread
      cases hread
      exact h _ _ _ hr

theorem Yields.list (h : r.Yields p) : (list r).Yields fun as => ∀ a ∈ as, p a := by
  intro room d as hread
  unfold Reader.list at hread
  split at hread
  · next items e =>
    cases room with
    | zero => cases hread
    | succ room =>
      obtain ⟨values, hvalues, hread⟩ := bind_eq_ok.mp hread
      cases e with
      | some f => cases hread
      | none =>
        cases hread
        intro a ha
        obtain ⟨d, -, hd⟩ := exists_of_mem_mapM hvalues ha
        exact h _ _ _ hd
  · exact absurd hread (mismatch_ne_ok _ _ _)

end Reader

/-- A field keeps a property of records, whatever is read for it. -/
def Field.Keeps {α : Type} (f : Field α) (p : α → Prop) : Prop :=
  ∀ room d change, f.read room d = .ok change → ∀ a, p a → p (change a)

/-- A field keeps a property if setting it to what is read does. -/
theorem Field.keeps_of {α β : Type} {name : String} {presence : Presence} {r : Reader β}
    {put : β → α → α} {p : α → Prop} {q : β → Prop} (hr : r.Yields q)
    (hput : ∀ b a, q b → p a → p (put b a)) : (Field.of name presence r put).Keeps p := by
  intro room d change h a ha
  have h : (r room d).map put = .ok change := h
  cases hb : r room d with
  | error e =>
    rw [hb] at h
    cases h
  | ok b =>
    rw [hb] at h
    cases h
    exact hput b a (hr _ _ _ hb) ha

theorem Field.Keeps.orNamed {α : Type} {f : Field α} {p : α → Prop} (h : f.Keeps p)
    (other : String) : (f.orNamed other).Keeps p := h

namespace Record

variable {α : Type} {r : Record α} {p : α → Prop} {room : Nat} {a a' : α}

theorem readEntries_keeps (hfields : ∀ f ∈ r.fields, f.Keeps p) (ha : p a)
    {es : List (Document × Document)} {seen seen' : List String}
    (h : r.readEntries room es a seen = .ok (a', seen')) : p a' := by
  induction es generalizing a seen with
  | nil =>
    cases h
    exact ha
  | cons e es ih =>
    obtain ⟨k, d⟩ := e
    obtain ⟨k, -, h⟩ := bind_eq_ok.mp h
    simp only at h
    split at h
    · next f hf =>
      split at h
      · cases h
      · obtain ⟨change, hchange, h⟩ := bind_eq_ok.mp h
        exact ih (hfields f (List.mem_of_find?_eq_some hf) _ _ _ hchange a ha) h
    · obtain ⟨-, -, h⟩ := bind_eq_ok.mp h
      exact ih ha h

theorem readElements_keeps {ending : Option Fault} {fs : List (Field α)}
    (hfields : ∀ f ∈ fs, f.Keeps p) (ha : p a) {ds : List Document} {index : Nat}
    (h : r.readElements room ending fs ds index a = .ok a') : p a' := by
  induction fs generalizing a ds index with
  | nil =>
    cases ds with
    | nil =>
      cases ending with
      | none =>
        cases h
        exact ha
      | some e => cases h
    | cons d ds => cases h
  | cons f fs ih =>
    have hrest : ∀ f ∈ fs, f.Keeps p := fun g hg => hfields g (List.mem_cons_of_mem _ hg)
    cases ds with
    | nil =>
      unfold readElements at h
      cases ending with
      | some e => cases h
      | none =>
        simp only at h
        split at h
        · exact ih hrest ha h
        · cases h
    | cons d ds =>
      obtain ⟨change, hchange, h⟩ := bind_eq_ok.mp h
      exact ih hrest (hfields f List.mem_cons_self _ _ _ hchange a ha) h

/-- What is read has every property that the blank record has and that all fields keep. -/
theorem yields (hblank : p r.blank) (hfields : ∀ f ∈ r.fields, f.Keeps p) : r.read.Yields p := by
  intro room d a h
  unfold read at h
  split at h
  · next entries e =>
    cases room with
    | zero => cases h
    | succ room =>
      obtain ⟨⟨a', seen⟩, hentries, h⟩ := bind_eq_ok.mp h
      obtain ⟨-, -, h⟩ := bind_eq_ok.mp h
      split at h
      · cases h
      · cases h
        exact readEntries_keeps hfields hblank hentries
  · next items e =>
    cases room with
    | zero => cases h
    | succ room => exact readElements_keeps hfields hblank h
  · exact absurd h (Reader.mismatch_ne_ok _ _ _)

end Record

end SoundScenes
