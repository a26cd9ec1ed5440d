import SoundScenes.Proofs.Search.Checked
import Mathlib.Data.Finset.Sort

/-!
# Candidates by rank

A candidate is drawn in two passes. The first one marks the sounds that are taken and counts each
mark once, so that the difference to the size of the catalog is the number of sounds that are left.
The second one looks for the place of the drawn number among the sounds without a mark. As the lists
of taken sounds may repeat a sound, overlap, or name sounds that the catalog does not have, the count
and the marks must agree for all lists.

* `Marking.mark` — what marking one more sound keeps;
* `scanCandidate?_eq` — a scan in which nothing can fail draws as `drawCandidate` does;
* `scan_draws_by_rank` — what is drawn, and what a draw changes.
-/

namespace SoundScenes

/-! ## Marks -/

/-- A mark for each sound of a catalog, and the number of marks. -/
structure Marks where
  taken : List Bool
  count : Nat

namespace Marks

/-- No marks for so many sounds. -/
def none (size : Nat) : Marks := ⟨List.replicate size false, 0⟩

/-- Marks a sound that the catalog has, unless it is marked. -/
def mark (m : Marks) (id : Nat) : Marks :=
  if m.taken[id]? = some false then ⟨m.taken.set id true, m.count + 1⟩ else m

/-- The marks for the sounds of a list. -/
def ofTaken (size : Nat) (taken : List Nat) : Marks := taken.foldl mark (none size)

/-- The sounds without a mark, in the order of the catalog. -/
def places (m : Marks) : List Nat := (m.taken.zipIdx.filter fun e => !e.1).map (·.2)

end Marks

/-- The sounds of a list are marked, and the marks are counted. -/
structure Marking (size : Nat) (ids : List Nat) (m : Marks) : Prop where
  taken : m.taken = (List.range size).map fun id => decide (id ∈ ids)
  count : m.count = m.taken.count true

namespace Marking

variable {size : Nat} {ids : List Nat} {m : Marks}

theorem none (size : Nat) : Marking size [] (.none size) where
  taken := by
    simp only [List.not_mem_nil, decide_false, List.map_const', List.length_range]
    rfl
  count := by
    show 0 = (List.replicate size false).count true
    rw [List.count_replicate]
    rfl

theorem taken_getElem? (h : Marking size ids m) (id : Nat) :
    m.taken[id]? = some false ↔ id < size ∧ id ∉ ids := by
  rw [h.taken, List.getElem?_map]
  by_cases hid : id < size
  · rw [List.getElem?_range hid]
    simp [hid]
  · rw [List.getElem?_eq_none (by rw [List.length_range]; omega)]
    simp [hid]

/-- A sound gets its mark once. One that is marked, or that the catalog does not have, changes
nothing. -/
theorem mark (h : Marking size ids m) (id : Nat) : Marking size (ids ++ [id]) (m.mark id) := by
  unfold Marks.mark
  split
  · next hfree =>
    have hget := List.getElem?_eq_some_iff.mp hfree
    obtain ⟨hlt, hfalse⟩ := hget
    constructor
    case taken =>
      refine List.ext_getElem (by simp [h.taken]) fun j hj hj' => ?_
      have hj : j < size := by simpa using hj'
      simp only [h.taken, List.getElem_set, List.getElem_map, List.getElem_range]
      by_cases heq : id = j <;> simp [heq, eq_comm]
    case count =>
      show m.count + 1 = (m.taken.set id true).count true
      rw [List.count_set hlt, hfalse, h.count]
      rfl
  · next hnot =>
    rw [h.taken_getElem?, not_and, not_not] at hnot
    refine ⟨?_, h.count⟩
    rw [h.taken]
    refine List.map_congr_left fun j hj => ?_
    have hj := List.mem_range.mp hj
    simp only [List.mem_append, List.mem_singleton, decide_eq_decide]
    refine ⟨.inl, ?_⟩
    rintro (hmem | rfl)
    · exact hmem
    · exact hnot hj

theorem foldl (h : Marking size ids m) (more : List Nat) :
    Marking size (ids ++ more) (more.foldl Marks.mark m) := by
  induction more generalizing ids m with
  | nil => rwa [List.append_nil]
  | cons id more ih =>
    rw [← List.singleton_append, ← List.append_assoc]
    exact ih (h.mark id)

theorem ofTaken (size : Nat) (ids : List Nat) : Marking size ids (.ofTaken size ids) :=
  (none size).foldl ids

/-- The sounds without a mark are those that are not in the list. -/
theorem places_eq (h : Marking size ids m) :
    m.places = (List.range size).filter fun id => id ∉ ids := by
  have hzip : m.taken.zipIdx = (List.range size).map fun id => (decide (id ∈ ids), id) := by
    rw [h.taken]
    refine List.ext_getElem (by simp) fun j hj hj' => ?_
    simp
  rw [Marks.places, hzip, List.filter_map, List.map_map]
  simp only [Function.comp_def, List.map_id', decide_not]

/-- The marks and the sounds without one are together all sounds. -/
theorem count_add_length (h : Marking size ids m) : m.count + m.places.length = size := by
  have hsplit := (List.range size).length_eq_countP_add_countP fun id => decide (id ∈ ids)
  rw [List.length_range, List.countP_eq_length_filter, List.countP_eq_length_filter] at hsplit
  rw [h.places_eq, h.count, h.taken, List.count_eq_countP, List.countP_map,
    List.countP_eq_length_filter]
  simpa [Function.comp_def] using hsplit.symm

end Marking

/-- Draws below equal bounds are the same. -/
theorem RandomSource.draw_cast {σ : Type} [RandomSource σ] {n n' : Nat} (heq : n = n') (h : 0 < n)
    (h' : 0 < n') (source : σ) :
    draw n' h' source = ((draw n h source).1.cast heq, (draw n h source).2) := by
  subst heq
  rfl

namespace Catalog

variable {σ : Type} [RandomSource σ] {c : Catalog}

/-! ## A scan that may fail -/

/-- Draws a sound that is in neither list by a scan of the marks. The second exit without a sound is
for a drawn number that has no place. The scan is `none` where it takes away or reads what is not
there. -/
def scanCandidate? (c : Catalog) (state siblings : List Nat) (draws : Draws) (s : σ) :
    Option (Except CatalogError Nat × Draws × σ) := do
  let marks := Marks.ofTaken c.size (state ++ siblings)
  let left ← sub? c.size marks.count
  if h : 0 < left then
    let (pick, s) := RandomSource.draw left h s
    match marks.places[pick]? with
    | some id =>
      let family ← c.familyOf[id]?
      return (.ok id, draws.record id family, s)
    | none => return (.error (.exhausted c.size), draws, s)
  else return (.error (.exhausted c.size), draws, s)

theorem places_ofTaken (c : Catalog) (taken : List Nat) :
    (Marks.ofTaken c.size taken).places = c.eligible taken :=
  (Marking.ofTaken c.size taken).places_eq

theorem sub?_ofTaken (c : Catalog) (taken : List Nat) :
    sub? c.size (Marks.ofTaken c.size taken).count = some (c.eligible taken).length := by
  have hsum := (Marking.ofTaken c.size taken).count_add_length
  rw [places_ofTaken] at hsum
  rw [sub?_eq (by omega)]
  congr 1
  omega

/-- The scan draws what is drawn from the sounds that are not taken. It leaves the counts and the
random numbers as they are where there is no such sound. -/
theorem scanCandidate?_eq (c : Catalog) (state siblings : List Nat) (draws : Draws) (source : σ) :
    c.scanCandidate? state siblings draws source =
      some (match c.drawCandidate (state ++ siblings) draws source with
        | .ok (id, draws, source) => (.ok id, draws, source)
        | .error e => (.error e, draws, source)) := by
  rw [scanCandidate?, drawCandidate]
  simp only [sub?_ofTaken, places_ofTaken, Option.bind_eq_bind, Option.bind_some, Option.pure_def]
  split
  · next hpos =>
    simp only [RandomSource.choose]
    generalize RandomSource.draw _ hpos source = drawn
    obtain ⟨pick, source'⟩ := drawn
    have hlt := (mem_eligible.mp (List.getElem_mem pick.2)).1
    simp only [Fin.getElem?_fin, List.getElem?_eq_getElem pick.2, familyOf_getElem? hlt,
      Option.bind_some]
    rfl
  · rfl

/-! ## Ranks -/

/-- The sounds that are in neither list. -/
def untaken (c : Catalog) (state siblings : List Nat) : Finset Nat :=
  (Finset.range c.size).filter fun id => id ∉ state ∧ id ∉ siblings

theorem mem_untaken {state siblings : List Nat} {id : Nat} :
    id ∈ c.untaken state siblings ↔ id ∈ c.eligible (state ++ siblings) := by
  rw [untaken, Finset.mem_filter, Finset.mem_range, mem_eligible, List.mem_append, not_or]

theorem card_untaken (c : Catalog) (state siblings : List Nat) :
    (c.untaken state siblings).card = (c.eligible (state ++ siblings)).length := by
  have hset : c.untaken state siblings = (c.eligible (state ++ siblings)).toFinset :=
    Finset.ext fun id => mem_untaken.trans List.mem_toFinset.symm
  have hnodup : (c.eligible (state ++ siblings)).Nodup := List.nodup_range.filter _
  rw [hset, List.toFinset_card_of_nodup hnodup]

/-- The list of the eligible sounds is determined by which they are. -/
theorem eligible_congr {state siblings state' siblings' : List Nat}
    (h : c.untaken state' siblings' = c.untaken state siblings) :
    c.eligible (state' ++ siblings') = c.eligible (state ++ siblings) := by
  refine List.filter_congr fun id hid => ?_
  have hid := List.mem_range.mp hid
  have hmem := Finset.ext_iff.mp h id
  rw [mem_untaken, mem_untaken, mem_eligible, mem_eligible, and_iff_right hid, and_iff_right hid]
    at hmem
  exact decide_eq_decide.mpr hmem

/-- The sound of a rank: the ranks below their number stand for the untaken sounds in increasing
order. -/
def ofRank (c : Catalog) (state siblings : List Nat) :
    Fin (c.untaken state siblings).card ≃o c.untaken state siblings :=
  (c.untaken state siblings).orderIsoOfFin rfl

/-- The scan counts the ranks. -/
theorem eligible_getElem (c : Catalog) (state siblings : List Nat)
    (rank : Fin (c.untaken state siblings).card) :
    (c.eligible (state ++ siblings)).get (rank.cast (card_untaken c state siblings)) =
      c.ofRank state siblings rank := by
  have hsorted : (c.eligible (state ++ siblings)).Pairwise (· < ·) :=
    List.pairwise_lt_range.filter _
  rw [List.pairwise_iff_getElem] at hsorted
  -- only one map from the ranks to these sounds keeps the order
  have hcard := card_untaken c state siblings
  refine congrFun (Finset.orderEmbOfFin_unique (s := c.untaken state siblings) rfl
    (f := fun rank => (c.eligible (state ++ siblings)).get (rank.cast hcard)) (fun rank => ?_)
    fun i j hlt => ?_) rank
  · exact mem_untaken.mpr (List.get_mem _ _)
  · exact hsorted _ _ _ _ hlt

/-- A draw chooses the rank. -/
theorem drawCandidate_ofRank (c : Catalog) (state siblings : List Nat) (draws : Draws) (source : σ)
    (h : 0 < (c.untaken state siblings).card) :
    let drawn := RandomSource.draw (c.untaken state siblings).card h source
    let id : Nat := c.ofRank state siblings drawn.1
    c.drawCandidate (state ++ siblings) draws source =
      .ok (id, draws.record id (c.family id), drawn.2) := by
  intro drawn id
  have hcard := card_untaken c state siblings
  have hid : id = (c.eligible (state ++ siblings)).get (drawn.1.cast hcard) :=
    (eligible_getElem c state siblings drawn.1).symm
  rw [drawCandidate, dif_pos (hcard ▸ h), RandomSource.choose,
    RandomSource.draw_cast hcard h, hid]
  rfl

theorem drawCandidate_of_untaken_eq_empty {state siblings : List Nat}
    (h : c.untaken state siblings = ∅) (draws : Draws) (source : σ) :
    c.drawCandidate (state ++ siblings) draws source = .error (.exhausted c.size) := by
  have hcard := card_untaken c state siblings
  rw [h, Finset.card_empty] at hcard
  rw [drawCandidate, dif_neg (by omega)]

end Catalog

namespace Draws

variable {d : Draws} {sound family : Nat}

/-- A draw raises the count of its sound by one, and no other. -/
theorem record_bySound_getElem? (j : Nat) :
    (d.record sound family).bySound[j]? =
      d.bySound[j]?.map fun n => if j = sound then n + 1 else n := by
  rw [record, List.getElem?_modify]
  by_cases h : sound = j <;> simp [h, eq_comm]

theorem record_byFamily_getElem? (j : Nat) :
    (d.record sound family).byFamily[j]? =
      d.byFamily[j]?.map fun n => if j = family then n + 1 else n := by
  rw [record, List.getElem?_modify]
  by_cases h : family = j <;> simp [h, eq_comm]

end Draws

namespace Catalog

variable {σ : Type} [RandomSource σ]

/-- **Candidates are drawn by rank.** Whatever the lists of taken sounds, the difference that the
scan takes does not stop at zero, it is the number of sounds that are in neither list, and each
number below it has a place. The scan fails exactly if there is no such sound, and leaves everything
as it is then. Otherwise it draws one number below their count, and gives the sound of this rank. It
counts this draw for the sound and for its family only. The lists matter only by what they leave. -/
theorem scan_draws_by_rank (c : Catalog) (state siblings : List Nat) (draws : Draws) (source : σ) :
    let scan := c.scanCandidate? state siblings draws source
    let marks := Marks.ofTaken c.size (state ++ siblings)
    let left := c.untaken state siblings
    scan = some (match c.drawCandidate (state ++ siblings) draws source with
      | .ok (id, draws, source) => (.ok id, draws, source)
      | .error e => (.error e, draws, source)) ∧
    (marks.count ≤ c.size ∧ c.size - marks.count = left.card ∧
      ∀ pick < left.card, ∃ id, marks.places[pick]? = some id) ∧
    ((∃ e draws' source', scan = some (.error e, draws', source')) ↔ left = ∅) ∧
    (left = ∅ → scan = some (.error (.exhausted c.size), draws, source)) ∧
    (∀ h : 0 < left.card,
      let drawn := RandomSource.draw left.card h source
      let id : Nat := c.ofRank state siblings drawn.1
      scan = some (.ok id, draws.record id (c.family id), drawn.2)) ∧
    (∀ id draws' source', scan = some (.ok id, draws', source') →
      (∀ j, draws'.bySound[j]? =
        draws.bySound[j]?.map fun n => if j = id then n + 1 else n) ∧
      ∀ f, draws'.byFamily[f]? =
        draws.byFamily[f]?.map fun n => if f = c.family id then n + 1 else n) ∧
    ∀ state' siblings', c.untaken state' siblings' = left →
      c.scanCandidate? state' siblings' draws source = scan := by
  intro scan marks left
  have hscan : scan = some _ := scanCandidate?_eq c state siblings draws source
  have hcard : left.card = (c.eligible (state ++ siblings)).length := card_untaken c state siblings
  have hmarks := (Marking.ofTaken c.size (state ++ siblings)).count_add_length
  have hplaces : marks.places = c.eligible (state ++ siblings) := places_ofTaken c _
  have hempty (h : left = ∅) : scan = some (.error (.exhausted c.size), draws, source) := by
    rw [hscan, drawCandidate_of_untaken_eq_empty h]
  have hrank (h : 0 < left.card) :
      let drawn := RandomSource.draw left.card h source
      let id : Nat := c.ofRank state siblings drawn.1
      scan = some (.ok id, draws.record id (c.family id), drawn.2) := by
    intro drawn id
    rw [hscan, drawCandidate_ofRank c state siblings draws source h]
  refine ⟨hscan, ⟨?_, ?_, ?_⟩, ⟨?_, ?_⟩, hempty, hrank, ?_, ?_⟩
  · exact Nat.le.intro hmarks
  · rw [hcard, ← hplaces]
    exact Nat.sub_eq_of_eq_add' hmarks.symm
  · intro pick hpick
    rw [hcard, ← hplaces] at hpick
    exact ⟨_, List.getElem?_eq_getElem hpick⟩
  · rintro ⟨e, draws', source', herror⟩
    by_contra hne
    rw [hrank (Finset.card_pos.mpr (Finset.nonempty_iff_ne_empty.mpr hne))] at herror
    cases herror
  · exact fun h => ⟨_, _, _, hempty h⟩
  · intro id draws' source' hok
    rcases left.eq_empty_or_nonempty with h | h
    · rw [hempty h] at hok
      cases hok
    · rw [hrank (Finset.card_pos.mpr h)] at hok
      cases hok
      exact ⟨Draws.record_bySound_getElem?, Draws.record_byFamily_getElem?⟩
  · intro state' siblings' h
    rw [hscan, scanCandidate?_eq, drawCandidate, drawCandidate]
    simp only [eligible_congr h]

/-- Marks of sounds that repeat, or that three sounds do not have. -/
example : let marks := Marks.ofTaken 3 [0, 7, 0, 2]; marks.places = [1] ∧ marks.count = 2 := by
  decide

end Catalog

end SoundScenes
