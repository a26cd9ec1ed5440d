import SoundScenes.Json.Hash
import SoundScenes.Proofs.Json.Distinct
import Mathlib.Data.List.Nodup
import Mathlib.Data.List.Perm.Basic
import Mathlib.Data.String.Basic

/-!
# Canonical texts identify values

The canonical text of a value leaves out in which order the entries of its objects are written, and
nothing else. Texts on one line tell their values, and entries with different keys are put in one
order only.

* `Json.Alike` — values that are equal up to the order of entries;
* `Json.Alike.canonical_eq`, `Json.alike_of_canonical_eq` — alike values have one canonical form;
* `Json.entry?_canonical` — the entries of a canonical form, by their keys;
* `Json.canonicalText_eq_iff` — a canonical text stands for alike values only;
* `Json.preimage_eq_iff` — so are the bytes that are hashed.
-/

namespace SoundScenes

namespace Json

variable {v v' : Json} {es es' : List (String × Json)} {k : String}

/-! ## Alike values -/

mutual

/-- No object in a value has two entries with one key. -/
def DistinctKeys : Json → Prop
  | .array items => DistinctItems items
  | .object entries => (entries.map Prod.fst).Nodup ∧ DistinctEntries entries
  | .null => True
  | .bool _ => True
  | .number _ => True
  | .string _ => True

/-- `DistinctKeys` of each item. -/
def DistinctItems : List Json → Prop
  | [] => True
  | v :: vs => DistinctKeys v ∧ DistinctItems vs

/-- `DistinctKeys` of the value of each entry. -/
def DistinctEntries : List (String × Json) → Prop
  | [] => True
  | (_, v) :: es => DistinctKeys v ∧ DistinctEntries es

end

mutual

/-- Two values are equal up to the order of the entries of their objects. -/
inductive Alike : Json → Json → Prop
  | null : Alike .null .null
  | bool (b : Bool) : Alike (.bool b) (.bool b)
  | number (n : Numeral) : Alike (.number n) (.number n)
  | string (s : String) : Alike (.string s) (.string s)
  | array {items items' : List Json} (h : AlikeItems items items') :
      Alike (.array items) (.array items')
  | object {entries reordered entries' : List (String × Json)} (h : AlikeEntries entries reordered)
      (hperm : reordered.Perm entries') : Alike (.object entries) (.object entries')

/-- Two lists have alike items, one by one. -/
inductive AlikeItems : List Json → List Json → Prop
  | nil : AlikeItems [] []
  | cons {v v' : Json} {vs vs' : List Json} (h : Alike v v') (hs : AlikeItems vs vs') :
      AlikeItems (v :: vs) (v' :: vs')

/-- Two lists have entries with the same keys and alike values, one by one. -/
inductive AlikeEntries : List (String × Json) → List (String × Json) → Prop
  | nil : AlikeEntries [] []
  | cons {k : String} {v v' : Json} {es es' : List (String × Json)} (h : Alike v v')
      (hs : AlikeEntries es es') : AlikeEntries ((k, v) :: es) ((k, v') :: es')

end

/-! ## Canonical forms -/

theorem canonicalEntries_eq_map (es : List (String × Json)) :
    canonicalEntries es = es.map fun e => (e.1, e.2.canonical) := by
  induction es with
  | nil => rfl
  | cons e es ih => rw [canonicalEntries, ih, List.map_cons]

theorem nodup_keys_canonicalEntries (hkeys : (object es).DistinctKeys) :
    ((canonicalEntries es).map Prod.fst).Nodup := by
  rw [canonicalEntries_eq_map, List.map_map]
  exact hkeys.1

theorem canonicalEntries_perm (h : es.Perm es') :
    (canonicalEntries es).Perm (canonicalEntries es') := by
  rw [canonicalEntries_eq_map, canonicalEntries_eq_map]
  exact h.map _

/-- Entries in the order of their keys. -/
def sortEntries (es : List (String × Json)) : List (String × Json) :=
  es.mergeSort fun a b => a.1 ≤ b.1

theorem canonical_object (es : List (String × Json)) :
    (object es).canonical = .object (sortEntries (canonicalEntries es)) := by
  rw [canonical, sortEntries]

theorem sortEntries_perm (es : List (String × Json)) : (sortEntries es).Perm es :=
  List.mergeSort_perm es _

theorem sorted_sortEntries (es : List (String × Json)) :
    (sortEntries es).Pairwise fun a b => a.1 ≤ b.1 := by
  have hsorted : (sortEntries es).Pairwise fun a b => decide (a.1 ≤ b.1) = true :=
    List.pairwise_mergeSort (by simpa using fun a b c => le_trans)
      (by simpa using fun a b => le_total a b) es
  exact hsorted.imp of_decide_eq_true

/-- Entries with different keys are put in one order, whatever the order that they come in. -/
theorem sortEntries_congr (hkeys : (es.map Prod.fst).Nodup) (h : es.Perm es') :
    sortEntries es = sortEntries es' := by
  have hperm : (sortEntries es).Perm (sortEntries es') :=
    (sortEntries_perm es).trans (h.trans (sortEntries_perm es').symm)
  refine hperm.eq_of_pairwise (fun a b ha hb hab hba => ?_) (sorted_sortEntries es)
    (sorted_sortEntries es')
  have ha : a ∈ es := (sortEntries_perm es).mem_iff.mp ha
  have hb : b ∈ es := h.mem_iff.mpr ((sortEntries_perm es').mem_iff.mp hb)
  exact List.inj_on_of_nodup_map hkeys ha hb (le_antisymm hab hba)

mutual

/-- Alike values have one canonical form. -/
theorem Alike.canonical_eq {v v' : Json} (h : Alike v v') (hkeys : v.DistinctKeys) :
    v.canonical = v'.canonical := by
  match h with
  | .null | .bool _ | .number _ | .string _ => rfl
  | .array h =>
    rw [canonical, canonical, h.canonical_eq hkeys]
  | .object h hperm =>
    have hperm := canonicalEntries_perm hperm
    rw [← h.canonical_eq hkeys.2] at hperm
    rw [canonical_object, canonical_object,
      sortEntries_congr (nodup_keys_canonicalEntries hkeys) hperm]

theorem AlikeItems.canonical_eq {vs vs' : List Json} (h : AlikeItems vs vs')
    (hkeys : DistinctItems vs) : canonicalItems vs = canonicalItems vs' := by
  match h with
  | .nil => rfl
  | .cons h hs =>
    rw [canonicalItems, canonicalItems, h.canonical_eq hkeys.1, hs.canonical_eq hkeys.2]

theorem AlikeEntries.canonical_eq {es es' : List (String × Json)} (h : AlikeEntries es es')
    (hkeys : DistinctEntries es) : canonicalEntries es = canonicalEntries es' := by
  match h with
  | .nil => rfl
  | .cons h hs =>
    rw [canonicalEntries, canonicalEntries, h.canonical_eq hkeys.1, hs.canonical_eq hkeys.2]

end

/-- Canonical entries in another order are those of entries in another order. -/
theorem exists_perm_of_canonicalEntries {es es' : List (String × Json)}
    (h : (canonicalEntries es).Perm (canonicalEntries es')) :
    ∃ reordered, canonicalEntries es = canonicalEntries reordered ∧ reordered.Perm es' := by
  simp only [canonicalEntries_eq_map] at h ⊢
  have hcomp := List.eq_map_comp_perm fun e : String × Json => (e.1, e.2.canonical)
  exact (congrFun₂ hcomp _ es').mpr h

mutual

/-- Values with one canonical form are alike. -/
theorem alike_of_canonical_eq (v v' : Json) (h : v.canonical = v'.canonical) : Alike v v' := by
  match v, v' with
  | .null, .null => exact .null
  | .bool b, .bool b' =>
    cases h
    exact .bool b
  | .number n, .number n' =>
    cases h
    exact .number n
  | .string s, .string s' =>
    cases h
    exact .string s
  | .array items, .array items' =>
    rw [canonical, canonical, array.injEq] at h
    exact .array (alikeItems_of_canonical_eq items items' h)
  | .object entries, .object entries' =>
    rw [canonical_object, canonical_object, object.injEq] at h
    have hperm : (canonicalEntries entries).Perm (canonicalEntries entries') :=
      (sortEntries_perm _).symm.trans (h ▸ sortEntries_perm _)
    obtain ⟨reordered, heq, hperm⟩ := exists_perm_of_canonicalEntries hperm
    exact .object (alikeEntries_of_canonical_eq entries reordered heq) hperm

theorem alikeItems_of_canonical_eq (vs vs' : List Json)
    (h : canonicalItems vs = canonicalItems vs') : AlikeItems vs vs' := by
  match vs, vs' with
  | [], [] => exact .nil
  | v :: vs, v' :: vs' =>
    obtain ⟨hv, hvs⟩ := List.cons.inj h
    exact .cons (alike_of_canonical_eq v v' hv) (alikeItems_of_canonical_eq vs vs' hvs)

theorem alikeEntries_of_canonical_eq (es es' : List (String × Json))
    (h : canonicalEntries es = canonicalEntries es') : AlikeEntries es es' := by
  match es, es' with
  | [], [] => exact .nil
  | (k, v) :: es, (k', v') :: es' =>
    obtain ⟨hentry, hes⟩ := List.cons.inj h
    obtain ⟨rfl, hv⟩ := Prod.mk.inj hentry
    exact .cons (alike_of_canonical_eq v v' hv) (alikeEntries_of_canonical_eq es es' hes)

end

/-! ## Entries by key -/

/-- The value of the first entry with a key. -/
def entry? (key : String) : Json → Option Json
  | .object entries => entries.lookup key
  | _ => none

theorem lookup_eq_some_iff (hkeys : (es.map Prod.fst).Nodup) :
    es.lookup k = some v ↔ (k, v) ∈ es := by
  induction es with
  | nil => simp
  | cons e es ih =>
    rw [List.map_cons, List.nodup_cons] at hkeys
    rw [List.lookup_cons, List.mem_cons]
    by_cases hk : k = e.1
    · have hnot : (k, v) ∉ es := fun hmem => hkeys.1 (hk ▸ List.mem_map_of_mem hmem)
      rw [beq_iff_eq.mpr hk, or_iff_left hnot]
      simp only [Option.some.injEq, Prod.ext_iff, hk, true_and]
      exact eq_comm
    · have hne : (k, v) ≠ e := fun heq => hk (congrArg Prod.fst heq)
      rw [beq_eq_false_iff_ne.mpr hk, or_iff_right hne]
      exact ih hkeys.2

theorem lookup_canonicalEntries (k : String) (es : List (String × Json)) :
    (canonicalEntries es).lookup k = (es.lookup k).map canonical := by
  induction es with
  | nil => rfl
  | cons e es ih =>
    obtain ⟨key, v⟩ := e
    rw [canonicalEntries, List.lookup_cons, List.lookup_cons, ih]
    split <;> rfl

/-- Sorting the entries of an object leaves them under their keys. -/
theorem entry?_canonical (hkeys : v.DistinctKeys) (k : String) :
    v.canonical.entry? k = (v.entry? k).map canonical := by
  cases v with
  | object es =>
    have hkeys := nodup_keys_canonicalEntries hkeys
    have hkeys' : ((sortEntries (canonicalEntries es)).map Prod.fst).Nodup :=
      ((sortEntries_perm _).map Prod.fst).nodup_iff.mpr hkeys
    rw [canonical_object, entry?, entry?, ← lookup_canonicalEntries]
    refine Option.ext fun v => ?_
    rw [lookup_eq_some_iff hkeys', lookup_eq_some_iff hkeys, (sortEntries_perm _).mem_iff]
  | null | bool | number | string => rfl
  | array => rw [canonical]; rfl

/-! ## Canonical texts -/

/-- **The canonical text of a value identifies it up to the order of entries.** -/
theorem canonicalText_eq_iff (hkeys : v.DistinctKeys) :
    v.canonicalText = v'.canonicalText ↔ Alike v v' := by
  constructor
  · exact fun h => alike_of_canonical_eq v v' (compact_injective h)
  · exact fun h => congrArg compact (h.canonical_eq hkeys)

end Json

namespace Digest

theorem toList_loop (bytes : ByteArray) (i : Nat) (read : List UInt8) :
    ByteArray.toList.loop bytes i read = read.reverse ++ bytes.data.toList.drop i := by
  fun_induction ByteArray.toList.loop bytes i read with
  | case1 i read h ih =>
    have hlt : i < bytes.data.toList.length := h
    have hget : bytes.get! i = bytes.data.toList[i] := getElem!_pos bytes.data i h
    rw [ih, List.reverse_cons, List.append_assoc, List.singleton_append, hget,
      List.getElem_cons_drop]
  | case2 i read h =>
    have hend : bytes.data.toList.length ≤ i := Nat.le_of_not_lt h
    rw [List.drop_eq_nil_of_le hend, List.append_nil]

/-- A string is known by its bytes. -/
theorem utf8_injective : Function.Injective utf8 := by
  intro s s' h
  rw [utf8, utf8, ByteArray.toList, ByteArray.toList, toList_loop, toList_loop] at h
  exact String.toByteArray_inj.mp (ByteArray.ext (Array.toList_inj.mp h))

end Digest

theorem Json.preimage_eq_iff {v v' : Json} (hkeys : v.DistinctKeys) :
    v.preimage = v'.preimage ↔ Alike v v' :=
  Digest.utf8_injective.eq_iff.trans (canonicalText_eq_iff hkeys)

end SoundScenes
