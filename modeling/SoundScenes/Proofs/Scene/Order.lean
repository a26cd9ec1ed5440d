import SoundScenes.Scene.Check
import Mathlib.Data.List.Nodup
import Mathlib.Data.List.Perm.Subperm

/-!
# Orders that a check accepts

The order of a scene lists, for every position, those before it and those after it. A check looks at
what is listed before a position, entry by entry, but only counts what is listed after it. So an
order that is right is accepted, however its rows are arranged; but one that is accepted need not be
right, unless each position has all lower ones listed before it.

* `Relationships.Orders` — an order that is right;
* `Relationships.orders_iff` — such orders are those that are accepted and complete in front;
* `Scene.orders_iff_of_violations` — the orders of accepted scenes;
* `crossed_accepted` — an accepted order in which each of two positions is after the other.
-/

namespace SoundScenes

theorem findingIf_eq_nil_iff {α : Type} {p : Prop} [Decidable p] {a : α} :
    findingIf p a = [] ↔ ¬ p := by
  unfold findingIf
  split
  · next hp => exact ⟨fun h => (by cases h), fun h => absurd hp h⟩
  · next hp => exact ⟨fun _ => hp, fun _ => rfl⟩

theorem findingIf_of_not {α : Type} {p : Prop} [Decidable p] (h : ¬ p) (a : α) :
    findingIf p a = [] := if_neg h

namespace Relationships

variable {r : Relationships} {n i : Nat}

/-- Before every position stand exactly the lower ones and after it exactly the higher ones, each
listed once. -/
structure Orders (r : Relationships) (n : Nat) : Prop where
  length_before : r.before.length = n
  length_after : r.after.length = n
  before : ∀ i < n, (r.before.getD i []).Perm (List.range i)
  after : ∀ i < n, (r.after.getD i []).Perm (List.range' (i + 1) (n - (i + 1)))

/-- Before every position at least as many others are listed as there are lower ones, and none of
them twice. -/
def FullBefore (r : Relationships) (n : Nat) : Prop :=
  ∀ i < n, (r.before.getD i []).Nodup ∧ i ≤ (r.before.getD i []).length

/-! ## What is accepted -/

/-- Nothing is wrong with a row if what is listed before its position is lower and agrees, and both
sides together have as many entries as there are other positions. -/
theorem rowFlaws_eq_nil_iff : r.rowFlaws i = [] ↔
    (∀ j ∈ r.before.getD i [], j < i ∧ i ∈ r.after.getD j []) ∧
      (r.before.getD i []).length + (r.after.getD i []).length = r.before.length - 1 := by
  unfold rowFlaws
  simp only
  rw [List.append_eq_nil_iff, List.map_eq_nil_iff, List.filter_eq_nil_iff, findingIf_eq_nil_iff,
    Decidable.not_not]
  simp only [decide_eq_true_eq, not_or, Nat.not_le, Decidable.not_not]

theorem flaws_eq_nil_iff : r.flaws n = [] ↔
    r.before.length = n ∧ r.after.length = n ∧ ∀ i < n, r.rowFlaws i = [] := by
  unfold flaws
  split
  · next hsize =>
    refine ⟨fun h => (by cases h), fun ⟨hbefore, hafter, _⟩ => ?_⟩
    exact absurd hsize (not_or.mpr ⟨not_not_intro hbefore, not_not_intro hafter⟩)
  · next hsize =>
    obtain ⟨hbefore, hafter⟩ := not_or.mp hsize
    rw [List.flatMap_eq_nil_iff]
    simp only [List.mem_range]
    exact ⟨fun h => ⟨not_not.mp hbefore, not_not.mp hafter, h⟩, fun ⟨_, _, h⟩ => h⟩

/-! ## Right orders are accepted -/

theorem orders_positional (n : Nat) : (positional n).Orders n where
  length_before := by simp [positional]
  length_after := by simp [positional]
  before i hi := by
    rw [show (positional n).before.getD i [] = List.range i by
      simp [positional, List.getD_eq_getElem?_getD, hi]]
  after i hi := by
    rw [show (positional n).after.getD i [] = List.range' (i + 1) (n - (i + 1)) by
      simp [positional, List.getD_eq_getElem?_getD, hi]]

namespace Orders

theorem fullBefore (h : r.Orders n) : r.FullBefore n := by
  intro i hi
  have hlength : (r.before.getD i []).length = i :=
    (h.before i hi).length_eq.trans List.length_range
  exact ⟨(h.before i hi).nodup_iff.mpr List.nodup_range, Nat.le_of_eq hlength.symm⟩

/-- Nothing is wrong with an order that is right, however its rows are arranged. -/
theorem flaws (h : r.Orders n) : r.flaws n = [] := by
  refine flaws_eq_nil_iff.mpr ⟨h.length_before, h.length_after, fun i hi => ?_⟩
  refine rowFlaws_eq_nil_iff.mpr ⟨fun j hj => ?_, ?_⟩
  · have hlt : j < i := List.mem_range.mp ((h.before i hi).mem_iff.mp hj)
    refine ⟨hlt, (h.after j (Nat.lt_trans hlt hi)).mem_iff.mpr ?_⟩
    exact List.mem_range'_1.mpr (by omega)
  · rw [(h.before i hi).length_eq, (h.after i hi).length_eq, List.length_range, List.length_range',
      h.length_before]
    omega

end Orders

/-! ## Accepted orders that are right -/

/-- What is listed before a position is lower, so that it is every lower position if it is enough. -/
theorem before_perm (h : r.flaws n = []) (hfull : r.FullBefore n) (hi : i < n) :
    (r.before.getD i []).Perm (List.range i) := by
  obtain ⟨-, -, hrows⟩ := flaws_eq_nil_iff.mp h
  obtain ⟨hentries, -⟩ := rowFlaws_eq_nil_iff.mp (hrows i hi)
  obtain ⟨hnodup, hlength⟩ := hfull i hi
  have hsub : r.before.getD i [] ⊆ List.range i := fun j hj =>
    List.mem_range.mpr (hentries j hj).1
  refine (hnodup.subperm hsub).perm_of_length_le ?_
  rwa [List.length_range]

/-- Every higher position has this one before it, and so this one has every higher position after
it; there is no room for anything else. -/
theorem after_perm (h : r.flaws n = []) (hfull : r.FullBefore n) (hi : i < n) :
    (r.after.getD i []).Perm (List.range' (i + 1) (n - (i + 1))) := by
  obtain ⟨hsize, -, hrows⟩ := flaws_eq_nil_iff.mp h
  obtain ⟨-, hlength⟩ := rowFlaws_eq_nil_iff.mp (hrows i hi)
  have hsub : List.range' (i + 1) (n - (i + 1)) ⊆ r.after.getD i [] := by
    intro j hj
    obtain ⟨hlt, hn⟩ := List.mem_range'_1.mp hj
    have hj : j < n := by omega
    have hmem : i ∈ r.before.getD j [] :=
      (before_perm h hfull hj).mem_iff.mpr (List.mem_range.mpr hlt)
    exact ((rowFlaws_eq_nil_iff.mp (hrows j hj)).1 i hmem).2
  have hnodup : (List.range' (i + 1) (n - (i + 1))).Nodup := List.nodup_range'
  refine ((hnodup.subperm hsub).perm_of_length_le ?_).symm
  rw [(before_perm h hfull hi).length_eq, List.length_range, hsize] at hlength
  rw [List.length_range']
  omega

/-- An order is right exactly if it is accepted and complete in front. -/
theorem orders_iff : r.Orders n ↔ r.flaws n = [] ∧ r.FullBefore n := by
  constructor
  · exact fun h => ⟨h.flaws, h.fullBefore⟩
  · rintro ⟨h, hfull⟩
    obtain ⟨hbefore, hafter, -⟩ := flaws_eq_nil_iff.mp h
    exact ⟨hbefore, hafter, fun i hi => before_perm h hfull hi, fun i hi => after_perm h hfull hi⟩

end Relationships

/-! ## Scenes -/

theorem Scene.relationships_flaws {c : Config} {s : Scene} (h : s.violations c = []) :
    s.relationships.flaws s.sounds.length = [] := by
  have hflaws : s.flaws c = [] := List.map_eq_nil_iff.mp h
  exact (List.append_eq_nil_iff.mp hflaws).2

/-- **The orders of accepted scenes.** Where a check finds nothing wrong with a scene, everything
that is listed before a position is lower and has that position after it, and both sides of a
position have together as many entries as there are others. Before and after each position stand
exactly the lower and the higher ones, each once, if and only if no row in front is short of its
lower positions or lists one of them twice. -/
theorem Scene.orders_iff_of_violations {c : Config} {s : Scene} (h : s.violations c = []) :
    let r := s.relationships
    let n := s.sounds.length
    (∀ i < n, ∀ j ∈ r.before.getD i [], j < i ∧ i ∈ r.after.getD j []) ∧
      (∀ i < n, (r.before.getD i []).length + (r.after.getD i []).length = n - 1) ∧
      (r.Orders n ↔ r.FullBefore n) := by
  intro r n
  have hflaws := relationships_flaws h
  obtain ⟨hsize, -, hrows⟩ := Relationships.flaws_eq_nil_iff.mp hflaws
  refine ⟨fun i hi => (Relationships.rowFlaws_eq_nil_iff.mp (hrows i hi)).1, fun i hi => ?_, ?_⟩
  · rw [(Relationships.rowFlaws_eq_nil_iff.mp (hrows i hi)).2, hsize]
  · rw [Relationships.orders_iff]
    exact and_iff_right hflaws

/-- A scene of sounds of one instrument with an order. -/
def Scene.ordered (r : Relationships) : Scene where
  sounds := (List.range r.before.length).map fun id => .ofInstrument id "flute"
  relationships := r
  split := .train
  index := 0
  file := "AQA_train_000000.png"

/-- Scenes of a length, of which nothing else is asked. -/
def Config.plain (length : Nat) : Config :=
  { Config.standard with sceneLength := length, constraints := .none }

/-- An order whose rows are not increasing is accepted and right. -/
theorem turned_accepted :
    let s := Scene.ordered ⟨[[], [0], [1, 0]], [[2, 1], [2], []]⟩
    s.violations (.plain 3) = [] ∧ s.relationships.Orders 3 := by
  intro s
  have haccepted : s.violations (.plain 3) = [] := rfl
  obtain ⟨-, -, hiff⟩ := Scene.orders_iff_of_violations haccepted
  exact ⟨haccepted, hiff.mpr (by unfold Relationships.FullBefore; decide)⟩

/-- An order is accepted in which each of two positions is after the other and none before. -/
theorem crossed_accepted :
    let s := Scene.ordered ⟨[[], []], [[1], [0]]⟩
    s.violations (.plain 2) = [] ∧ 1 ∈ s.relationships.after.getD 0 [] ∧
      0 ∈ s.relationships.after.getD 1 [] ∧ ¬ s.relationships.Orders 2 := by
  intro s
  refine ⟨rfl, List.mem_singleton.mpr rfl, List.mem_singleton.mpr rfl, fun h => ?_⟩
  exact absurd (h.before 1 (by decide)).length_eq (by decide)

end SoundScenes
