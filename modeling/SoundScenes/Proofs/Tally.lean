import SoundScenes.Tally
import Mathlib.Data.List.Nodup

/-!
# Entries and totals of tallies

* `ofEntries_toList` — a tally is made of its entries;
* `getElem?_ofEntries`, `total_ofEntries` — what becomes of entries with different keys;
* `mem_toList_bump`, `mem_toList_ofEntries` — where an entry comes from;
* `total_bump` — one more occurrence adds one to the total.
-/

namespace SoundScenes.Tally

/-- The sum of the counts of some entries. -/
def sum {κ : Type} (entries : List (κ × Nat)) : Nat := entries.foldr (fun e n => e.2 + n) 0

theorem sum_perm {κ : Type} {entries entries' : List (κ × Nat)} (h : entries.Perm entries') :
    sum entries = sum entries' := by
  refine h.foldr_eq' (fun a _ b _ n => ?_) 0
  exact Nat.add_left_comm _ _ _

variable {κ : Type} [Ord κ] [Std.TransOrd κ] [Std.LawfulEqOrd κ]

theorem nodup_toList (t : Tally κ) : t.toList.Nodup :=
  (Std.ExtTreeMap.distinct_keys_toList (t := t)).imp fun hne heq => by
    subst heq
    exact hne Std.ReflOrd.compare_self

theorem not_mem_toList_empty (e : κ × Nat) : e ∉ (∅ : Tally κ).toList := by
  rw [Std.ExtTreeMap.mem_toList_iff_getElem?_eq_some, Std.ExtTreeMap.getElem?_empty]
  exact fun h => by cases h

/-- No entry comes from elsewhere. -/
theorem mem_toList_ofEntries {entries : List (κ × Nat)} {e : κ × Nat}
    (h : e ∈ (ofEntries entries).toList) : e ∈ entries := by
  -- the tally so far is kept open for the induction
  have hfold (entries : List (κ × Nat)) (t : Tally κ)
      (h : e ∈ (entries.foldl (fun t e => t.insert e.1 e.2) t).toList) :
      e ∈ t.toList ∨ e ∈ entries := by
    induction entries generalizing t with
    | nil => exact .inl h
    | cons e' entries ih =>
      rcases ih (t.insert e'.1 e'.2) h with h | h
      · rw [Std.ExtTreeMap.mem_toList_iff_getElem?_eq_some, Std.ExtTreeMap.getElem?_insert] at h
        split at h
        · next hkey =>
          refine .inr (List.mem_cons.mpr (.inl ?_))
          rw [Std.LawfulEqOrd.compare_eq_iff_eq] at hkey
          exact Prod.ext hkey.symm (Option.some.inj h).symm
        · exact .inl (Std.ExtTreeMap.mem_toList_iff_getElem?_eq_some.mpr h)
      · exact .inr (List.mem_cons_of_mem _ h)
  exact (hfold entries ∅ h).resolve_left (not_mem_toList_empty e)

/-- One more occurrence of a key changes its entry only. -/
theorem mem_toList_bump {t : Tally κ} {k : κ} {e : κ × Nat} (h : e ∈ (t.bump k).toList) :
    e ∈ t.toList ∨ e = (k, t.count k + 1) := by
  rw [Std.ExtTreeMap.mem_toList_iff_getElem?_eq_some, bump, Std.ExtTreeMap.getElem?_alter] at h
  split at h
  · next hkey =>
    rw [Std.LawfulEqOrd.compare_eq_iff_eq] at hkey
    rw [count, Std.ExtTreeMap.getD_eq_getD_getElem?]
    exact .inr (Prod.ext hkey.symm (Option.some.inj h).symm)
  · exact .inl (Std.ExtTreeMap.mem_toList_iff_getElem?_eq_some.mpr h)

/-- A bound of all entries holds for every key. -/
theorem count_le {t : Tally κ} {n : Nat} (h : ∀ e ∈ t.toList, e.2 ≤ n) (k : κ) :
    t.count k ≤ n := by
  rw [count, Std.ExtTreeMap.getD_eq_getD_getElem?]
  cases hk : t[k]? with
  | none => exact Nat.zero_le n
  | some c => exact h (k, c) (Std.ExtTreeMap.mem_toList_iff_getElem?_eq_some.mpr hk)

omit [Std.LawfulEqOrd κ] in
theorem ofEntries_eq_ofList (entries : List (κ × Nat)) :
    ofEntries entries = Std.ExtTreeMap.ofList entries compare := by
  rw [Std.ExtTreeMap.ofList_eq_insertMany_empty, Std.ExtTreeMap.insertMany_list_eq_foldl]
  rfl

/-- Where every key comes once, each entry is found under its key. -/
theorem getElem?_ofEntries {entries : List (κ × Nat)} (hnodup : (entries.map Prod.fst).Nodup)
    {k : κ} {n : Nat} : (ofEntries entries)[k]? = some n ↔ (k, n) ∈ entries := by
  have hdistinct : entries.Pairwise fun a b => ¬ compare a.1 b.1 = .eq := by
    rw [List.Nodup, List.pairwise_map] at hnodup
    exact hnodup.imp fun hne heq => hne (Std.LawfulEqOrd.eq_of_compare heq)
  constructor
  · intro h
    exact mem_toList_ofEntries (Std.ExtTreeMap.mem_toList_iff_getElem?_eq_some.mpr h)
  · intro h
    rw [ofEntries_eq_ofList]
    exact Std.ExtTreeMap.getElem?_ofList_of_mem Std.ReflOrd.compare_self hdistinct h

/-- Where every key comes once, all entries count. -/
theorem total_ofEntries {entries : List (κ × Nat)} (hnodup : (entries.map Prod.fst).Nodup) :
    (ofEntries entries).total = sum entries := by
  refine sum_perm ((List.perm_ext_iff_of_nodup (nodup_toList _) hnodup.of_map).mpr fun e => ?_)
  obtain ⟨k, n⟩ := e
  rw [Std.ExtTreeMap.mem_toList_iff_getElem?_eq_some, getElem?_ofEntries hnodup]

variable [DecidableEq κ]

/-- A tally is made of its entries. -/
theorem ofEntries_toList (t : Tally κ) : ofEntries t.toList = t := by
  rw [ofEntries_eq_ofList]
  refine Std.ExtTreeMap.ext_getElem? fun k => ?_
  cases hk : t[k]? with
  | some n =>
    exact Std.ExtTreeMap.getElem?_ofList_of_mem Std.ReflOrd.compare_self
      Std.ExtTreeMap.distinct_keys_toList
      (Std.ExtTreeMap.mem_toList_iff_getElem?_eq_some.mpr hk)
  | none =>
    refine Std.ExtTreeMap.getElem?_ofList_of_contains_eq_false ?_
    rw [← Bool.not_eq_true, List.contains_iff_mem, List.mem_map]
    rintro ⟨⟨k', n⟩, hmem, rfl⟩
    rw [Std.ExtTreeMap.mem_toList_iff_getElem?_eq_some.mp hmem] at hk
    cases hk

/-- The entries of the other keys. -/
def others (t : Tally κ) (k : κ) : List (κ × Nat) := t.toList.filter (·.1 ≠ k)

theorem mem_others {t : Tally κ} {k : κ} {e : κ × Nat} :
    e ∈ t.others k ↔ t[e.1]? = some e.2 ∧ e.1 ≠ k := by
  rw [others, List.mem_filter, ← Std.ExtTreeMap.mem_toList_iff_getElem?_eq_some,
    decide_eq_true_eq]

theorem nodup_others (t : Tally κ) (k : κ) : (t.others k).Nodup := t.nodup_toList.filter _

/-- A tally consists of the entry of a key, if there is one, and of the others. -/
theorem toList_perm (t : Tally κ) (k : κ) :
    t.toList.Perm ((t[k]?.toList.map (k, ·)) ++ t.others k) := by
  have hnodup : ((t[k]?.toList.map (k, ·)) ++ t.others k).Nodup := by
    cases hk : t[k]? with
    | none => exact t.nodup_others k
    | some n =>
      refine List.nodup_cons.mpr ⟨fun hmem => ?_, t.nodup_others k⟩
      exact (mem_others.mp hmem).2 rfl
  refine (List.perm_ext_iff_of_nodup t.nodup_toList hnodup).mpr fun e => ?_
  obtain ⟨k', n⟩ := e
  rw [Std.ExtTreeMap.mem_toList_iff_getElem?_eq_some, List.mem_append, mem_others]
  by_cases hk : k' = k
  · subst hk
    simp [Option.mem_toList]
  · simp [hk, Ne.symm hk]

theorem total_eq (t : Tally κ) (k : κ) : t.total = t.count k + sum (t.others k) := by
  have htotal : t.total = sum t.toList := rfl
  rw [htotal, sum_perm (t.toList_perm k), count, Std.ExtTreeMap.getD_eq_getD_getElem?]
  cases t[k]? with
  | none => exact (Nat.zero_add _).symm
  | some n => rfl

theorem others_bump (t : Tally κ) (k : κ) : ((t.bump k).others k).Perm (t.others k) := by
  refine (List.perm_ext_iff_of_nodup (nodup_others _ k) (t.nodup_others k)).mpr fun e => ?_
  rw [mem_others, mem_others]
  refine and_congr_left fun hne => ?_
  rw [bump, Std.ExtTreeMap.getElem?_alter, if_neg]
  rw [Std.LawfulEqOrd.compare_eq_iff_eq]
  exact Ne.symm hne

/-- One more occurrence adds one to the total. -/
theorem total_bump (t : Tally κ) (k : κ) : (t.bump k).total = t.total + 1 := by
  have hcount : (t.bump k).count k = t.count k + 1 := by rw [count_bump, if_pos rfl]
  rw [total_eq _ k, hcount, sum_perm (t.others_bump k), total_eq t k]
  omega

end SoundScenes.Tally
