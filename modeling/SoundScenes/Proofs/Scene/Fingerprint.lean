import SoundScenes.Scene.Fingerprint

/-!
# What a fingerprint tells

Sequences are sorted before they are hashed, and sequences that are put in order come out the same,
whatever order they were given in. So a fingerprint does not depend on the order of the scenes.

Nothing else is lost before the bytes are hashed. A word has eight bytes and a sequence begins with
its length, so that both can be split off in front of whatever follows, and the bytes can be cut
into the sequences again. As even an empty sequence is written, the cut ends where the bytes end.

* `Fingerprint.pairwise_sorted` — the sequences are in lexicographic order;
* `Fingerprint.sorted_eq_of_perm`, `fingerprint_eq_of_perm` — the order given plays no part;
* `Fingerprint.PrefixFree` — codes that can be split off;
* `Fingerprint.preimage_identifies_scenes` — what is hashed tells all but the order.
-/

namespace SoundScenes

namespace Fingerprint

variable {scenes scenes' : List (List Nat)} {a b c : List Nat}

/-! ## Sorted sequences -/

theorem not_lex_trans (hab : (!b.lex a) = true) (hbc : (!c.lex b) = true) :
    (!c.lex a) = true := by
  rw [Bool.not_eq_true', List.lex_eq_false_iff_ge] at *
  exact List.le_trans hab hbc

theorem not_lex_total (a b : List Nat) : (!b.lex a || !a.lex b) = true := by
  simp only [Bool.or_eq_true, Bool.not_eq_true', List.lex_eq_false_iff_ge]
  exact List.le_total a b

theorem not_lex_antisymm (hab : (!b.lex a) = true) (hba : (!a.lex b) = true) : a = b := by
  rw [Bool.not_eq_true', List.lex_eq_false_iff_ge] at *
  exact List.le_antisymm hab hba

theorem sorted_perm (scenes : List (List Nat)) : (sorted scenes).Perm scenes :=
  List.mergeSort_perm _ _

theorem pairwise_sorted (scenes : List (List Nat)) :
    (sorted scenes).Pairwise fun a b => (!b.lex a) = true := by
  refine List.pairwise_mergeSort ?_ ?_ scenes
  · exact fun _ _ _ => not_lex_trans
  · exact not_lex_total

/-- Sequences in any order are put in the same order. -/
theorem sorted_eq_of_perm (h : scenes.Perm scenes') : sorted scenes = sorted scenes' := by
  have hperm : (sorted scenes).Perm (sorted scenes') :=
    (sorted_perm scenes).trans (h.trans (sorted_perm scenes').symm)
  exact hperm.eq_of_pairwise (fun _ _ _ _ => not_lex_antisymm)
    (pairwise_sorted scenes) (pairwise_sorted scenes')

theorem preimage_eq_of_perm (h : scenes.Perm scenes') : preimage scenes = preimage scenes' := by
  rw [preimage, preimage, sorted_eq_of_perm h, h.length_eq]

end Fingerprint

/-- The order of scenes plays no part in their fingerprint. -/
theorem fingerprint_eq_of_perm {scenes scenes' : List (List Nat)} (h : scenes.Perm scenes') :
    fingerprint scenes = fingerprint scenes' := by
  rw [fingerprint, fingerprint, Fingerprint.preimage_eq_of_perm h]

namespace Fingerprint

/-! ## Codes that can be split off -/

/-- In front of any bytes, the code of an item tells which item it is and where it ends. -/
def PrefixFree {α : Type} (p : α → Prop) (code : α → List UInt8) : Prop :=
  ∀ ⦃a b : α⦄, p a → p b → ∀ ⦃s t : List UInt8⦄, code a ++ s = code b ++ t → a = b ∧ s = t

section PrefixFree

variable {α : Type} {p : α → Prop} {code : α → List UInt8} {as bs : List α} {s t : List UInt8}

/-- Items can be split off in front of others, as many as there are. -/
theorem PrefixFree.exists_append (h : PrefixFree p code) (hle : as.length ≤ bs.length)
    (has : ∀ a ∈ as, p a) (hbs : ∀ b ∈ bs, p b)
    (heq : as.flatMap code ++ s = bs.flatMap code ++ t) :
    ∃ rest, bs = as ++ rest ∧ s = rest.flatMap code ++ t := by
  induction as generalizing bs with
  | nil => exact ⟨bs, rfl, heq⟩
  | cons a as ih =>
    cases bs with
    | nil => simp at hle
    | cons b bs =>
      simp only [List.flatMap_cons, List.append_assoc] at heq
      obtain ⟨rfl, hrest⟩ := h (has a List.mem_cons_self) (hbs b List.mem_cons_self) heq
      obtain ⟨rest, rfl, hs⟩ := ih (by simpa using hle)
        (fun x hx => has x (List.mem_cons_of_mem _ hx))
        (fun x hx => hbs x (List.mem_cons_of_mem _ hx)) hrest
      exact ⟨rest, rfl, hs⟩

/-- Where the number of items is known, what stands behind them is known as well. -/
theorem PrefixFree.flatMap_append (h : PrefixFree p code) (hlength : as.length = bs.length)
    (has : ∀ a ∈ as, p a) (hbs : ∀ b ∈ bs, p b)
    (heq : as.flatMap code ++ s = bs.flatMap code ++ t) : as = bs ∧ s = t := by
  obtain ⟨rest, rfl, hs⟩ := h.exists_append (Nat.le_of_eq hlength) has hbs heq
  obtain rfl : rest = [] := by simpa using hlength
  exact ⟨(List.append_nil as).symm, hs⟩

/-- Where every item is written in some bytes, the end of the bytes is the end of the items. -/
theorem PrefixFree.flatMap_inj (h : PrefixFree p code) (hne : ∀ a, code a ≠ [])
    (has : ∀ a ∈ as, p a) (hbs : ∀ b ∈ bs, p b) (heq : as.flatMap code = bs.flatMap code) :
    as = bs := by
  -- behind the shorter of both lists nothing is left of the bytes, and so no item of the other
  have hshort {as bs : List α} (hle : as.length ≤ bs.length) (has : ∀ a ∈ as, p a)
      (hbs : ∀ b ∈ bs, p b) (heq : as.flatMap code = bs.flatMap code) : as = bs := by
    obtain ⟨rest, rfl, hrest⟩ := h.exists_append (s := []) (t := []) hle has hbs (by rw [heq])
    cases rest with
    | nil => exact (List.append_nil as).symm
    | cons b rest => simp [hne b] at hrest
  rcases Nat.le_total as.length bs.length with hle | hle
  · exact hshort hle has hbs heq
  · exact (hshort hle hbs has heq.symm).symm

end PrefixFree

/-! ## Words and sequences -/

@[simp] theorem length_word (n : Nat) : (word n).length = 8 := Digest.length_littleEndian 8 n

theorem ofLittleEndian_word {n : Nat} (h : n < UInt64.size) :
    Digest.ofLittleEndian (word n) = n := Digest.ofLittleEndian_littleEndian h

theorem prefixFree_word : PrefixFree (· < UInt64.size) word := by
  intro m n hm hn s t heq
  obtain ⟨hword, hrest⟩ := List.append_inj heq (by simp)
  refine ⟨?_, hrest⟩
  rw [← ofLittleEndian_word hm, hword, ofLittleEndian_word hn]

/-- The length of a sequence and its identifiers fit into words. -/
structure InRange (ids : List Nat) : Prop where
  length : ids.length < UInt64.size
  ids : ∀ id ∈ ids, id < UInt64.size

theorem sequence_ne_nil (ids : List Nat) : sequence ids ≠ [] := by
  intro h
  have hlength := congrArg List.length h
  simp [sequence] at hlength

/-- The length in front tells how many words belong to a sequence. -/
theorem prefixFree_sequence : PrefixFree InRange sequence := by
  intro a b ha hb s t heq
  rw [sequence, sequence, List.append_assoc, List.append_assoc] at heq
  obtain ⟨hlength, hwords⟩ := prefixFree_word ha.length hb.length heq
  exact prefixFree_word.flatMap_append hlength ha.ids hb.ids hwords

/-! ## What is hashed -/

theorem InRange.of_sorted (h : ∀ ids ∈ scenes, InRange ids) : ∀ ids ∈ sorted scenes, InRange ids :=
  fun ids hids => h ids ((sorted_perm scenes).mem_iff.mp hids)

/-- Behind the number of sequences, what is hashed can be cut into the sorted sequences again. -/
theorem sorted_eq_of_preimage_eq (h : ∀ ids ∈ scenes, InRange ids)
    (h' : ∀ ids ∈ scenes', InRange ids) (heq : preimage scenes = preimage scenes') :
    sorted scenes = sorted scenes' := by
  obtain ⟨-, hsequences⟩ := List.append_inj heq (by simp)
  exact prefixFree_sequence.flatMap_inj sequence_ne_nil (InRange.of_sorted h) (InRange.of_sorted h')
    hsequences

theorem perm_of_preimage_eq (h : ∀ ids ∈ scenes, InRange ids) (h' : ∀ ids ∈ scenes', InRange ids)
    (heq : preimage scenes = preimage scenes') : scenes.Perm scenes' := by
  have hsorted := sorted_eq_of_preimage_eq h h' heq
  exact (sorted_perm scenes).symm.trans (hsorted ▸ sorted_perm scenes')

/-- **What is hashed tells the scenes up to their order.** The same bytes are hashed for two lists
of sequences exactly if one list is a permutation of the other, which is to say that every sequence
is given equally often in both, with its identifiers in order. In particular the fingerprint does
not depend on the order of the scenes. -/
theorem preimage_identifies_scenes (h : ∀ ids ∈ scenes, InRange ids)
    (h' : ∀ ids ∈ scenes', InRange ids) :
    (preimage scenes = preimage scenes' ↔ scenes.Perm scenes') ∧
      (preimage scenes = preimage scenes' ↔ ∀ ids, scenes.count ids = scenes'.count ids) ∧
      (scenes.Perm scenes' → fingerprint scenes = fingerprint scenes') := by
  have hiff : preimage scenes = preimage scenes' ↔ scenes.Perm scenes' :=
    ⟨perm_of_preimage_eq h h', preimage_eq_of_perm⟩
  exact ⟨hiff, hiff.trans List.perm_iff_count, fingerprint_eq_of_perm⟩

/-- The scenes may change places, but no sequence may be turned around, repeated or cut elsewhere,
not even where one of them is empty or the beginning of another. -/
theorem preimage_identifies_fragments :
    let scenes := [[1, 2], [], [1, 2, 3], [1, 2]]
    preimage scenes = preimage [[1, 2, 3], [1, 2], [1, 2], []] ∧
      preimage scenes ≠ preimage [[2, 1], [], [1, 2, 3], [1, 2]] ∧
      preimage scenes ≠ preimage [[1, 2], [], [1, 2, 3], []] ∧
      preimage scenes ≠ preimage [[1], [2], [1, 2, 3], [1, 2]] := by
  intro scenes
  have hfits (scenes : List (List Nat))
      (h : ∀ ids ∈ scenes, ids.length < 4 ∧ ∀ id ∈ ids, id < 4) : ∀ ids ∈ scenes, InRange ids :=
    fun ids hids => ⟨Nat.lt_trans (h ids hids).1 (by decide),
      fun id hid => Nat.lt_trans ((h ids hids).2 id hid) (by decide)⟩
  have hscenes : ∀ ids ∈ scenes, InRange ids := hfits scenes (by decide)
  obtain ⟨hsame, -, -⟩ := preimage_identifies_scenes hscenes
    (hfits [[1, 2, 3], [1, 2], [1, 2], []] (by decide))
  obtain ⟨hturned, -, -⟩ := preimage_identifies_scenes hscenes
    (hfits [[2, 1], [], [1, 2, 3], [1, 2]] (by decide))
  obtain ⟨hrepeated, -, -⟩ := preimage_identifies_scenes hscenes
    (hfits [[1, 2], [], [1, 2, 3], []] (by decide))
  obtain ⟨hcut, -, -⟩ := preimage_identifies_scenes hscenes
    (hfits [[1], [2], [1, 2, 3], [1, 2]] (by decide))
  refine ⟨hsame.mpr (by decide), mt hturned.mp (by decide), mt hrepeated.mp (by decide),
    mt hcut.mp (by decide)⟩

end Fingerprint

end SoundScenes
