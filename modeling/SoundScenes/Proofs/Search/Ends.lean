import SoundScenes.Proofs.Search.Invariant
import SoundScenes.Proofs.Search.Size

/-!
# Every search ends

Each node is paid for with four steps: one to make it, and at most three to find that it may have no
other child, to leave it and to return to its parent. So the steps taken so far, with those that are
due on the way back to the root, are at most four for every node and three for the root. As the tree
cannot grow beyond its bound, the search ends before a run gives up counting.

* `Move.paid` — no move takes more than is paid for;
* `isDone_run` — a run ends its search, whatever the limits;
* `endsWith_iff` — a run returns what its search ends with;
* `run_unlimited_ends` — without limits the whole tree is tried, within the bounds.
-/

namespace SoundScenes.Search

variable {σ : Type} {s : Search} {m m' : State σ}

/-! ## Steps that are paid for -/

/-- The steps that are due at the current node before the search leaves it. -/
def due (s : Search) (m : State σ) : Nat :=
  match m.phase with
  | .descend =>
    if (m.tree.node m.current).level < s.rule.length ∧
      m.tree.hasRoom m.current s.width = false then 2 else 3
  | .emit => 2
  | .backtrack => 1
  | .done _ => 0

theorem due_le (s : Search) (m : State σ) : s.due m ≤ 3 := by
  unfold due
  split
  · split <;> omega
  all_goals omega

theorem due_of_leaf (hphase : m.phase = .descend)
    (hlevel : s.rule.length ≤ (m.tree.node m.current).level) : s.due m = 3 := by
  rw [due, hphase]
  exact if_neg fun h => absurd hlevel (Nat.not_le_of_lt h.1)

theorem due_of_room (hphase : m.phase = .descend)
    (hroom : m.tree.hasRoom m.current s.width = true) : s.due m = 3 := by
  rw [due, hphase]
  exact if_neg fun h => by rw [hroom] at h; cases h.2

theorem due_of_full (hphase : m.phase = .descend)
    (hlevel : (m.tree.node m.current).level < s.rule.length)
    (hroom : m.tree.hasRoom m.current s.width = false) : s.due m = 2 := by
  rw [due, hphase]
  exact if_pos ⟨hlevel, hroom⟩

theorem due_emit (hphase : m.phase = .emit) : s.due m = 2 := by
  rw [due, hphase]

theorem due_backtrack (hphase : m.phase = .backtrack) : s.due m = 1 := by
  rw [due, hphase]

theorem due_done {t : Termination} (hphase : m.phase = .done t) : s.due m = 0 := by
  rw [due, hphase]

/-- Every node is paid for with four steps, and the root with three. -/
def Paid (s : Search) (m : State σ) : Prop :=
  m.stats.steps + 3 * m.scene.length + s.due m ≤ 4 * m.stats.nodesCreated + 3

theorem paid_start (s : Search) (source : σ) : s.Paid (s.start source) := by
  have hdue := s.due_le (s.start source)
  show 0 + 3 * 0 + _ ≤ 4 * 0 + 3
  omega

/-- A node that is marked as exhausted has no room. -/
theorem hasRoom_exhaust {t : Tree} {id : Nat} (hid : id < t.size) (width : Nat) :
    (t.exhaust id).hasRoom id width = false := by
  rw [Tree.hasRoom, Tree.node_exhaust_eq hid, decide_eq_true rfl, Bool.or_true]
  rfl

/-- No move takes more steps than are paid for. -/
theorem Move.paid (h : Move s m m') (inv : Invariant s m) (hpaid : s.Paid m) : s.Paid m' := by
  -- where the search goes down or comes back, nothing is known of what is due but its bound
  have hle := s.due_le m'
  unfold Paid at *
  cases h with
  | arrive hphase hlevel =>
    rw [due_of_leaf hphase hlevel] at hpaid
    rw [due_emit rfl]
    show m.stats.steps + 1 + 3 * m.scene.length + 2 ≤ 4 * m.stats.nodesCreated + 3
    omega
  | keep sound source hphase hlevel hroom hsound hkeep =>
    rw [due_of_room hphase hroom] at hpaid
    -- the new node brings four steps: the one that is taken, and three that are due there
    show m.stats.steps + 1 + 3 * (m.scene ++ [sound]).length + _ ≤
      4 * (m.stats.nodesCreated + 1) + 3
    rw [List.length_append, List.length_singleton]
    omega
  | prune sound source reason hphase hlevel hroom hsound hprune =>
    rw [due_of_room hphase hroom] at hpaid
    show m.stats.steps + 1 + 3 * m.scene.length + _ ≤ 4 * (m.stats.nodesCreated + 1) + 3
    omega
  | exhaust hphase hlevel hroom hnone =>
    rw [due_of_room hphase hroom] at hpaid
    have hlevel' : ((m.tree.exhaust m.current).node m.current).level < s.rule.length := by
      rw [Tree.node_exhaust_eq inv.current_lt]
      exact hlevel
    have hdue : s.due { m with
        tree := m.tree.exhaust m.current
        stats := m.stats.tick.recordPrune m.scene.length .exhaustedCandidates } = 2 :=
      due_of_full hphase hlevel' (hasRoom_exhaust inv.current_lt _)
    rw [hdue]
    show m.stats.steps + 1 + 3 * m.scene.length + 2 ≤ 4 * m.stats.nodesCreated + 3
    omega
  | leave hphase hlevel hroom =>
    rw [due_of_full hphase hlevel hroom] at hpaid
    rw [due_backtrack rfl]
    show m.stats.steps + 1 + 3 * m.scene.length + 1 ≤ 4 * m.stats.nodesCreated + 3
    omega
  | emit hphase hok =>
    rw [due_emit hphase] at hpaid
    rcases phaseAfter_cases s (m.scenes.push m.scene).size with ha | ⟨k, -, ha⟩
    · rw [due_backtrack ha]
      show m.stats.steps + 1 + 3 * m.scene.length + 1 ≤ 4 * m.stats.nodesCreated + 3
      omega
    · rw [due_done ha]
      show m.stats.steps + 1 + 3 * m.scene.length + 0 ≤ 4 * m.stats.nodesCreated + 3
      omega
  | refuse reason hphase hreason =>
    rw [due_emit hphase] at hpaid
    rw [due_backtrack rfl]
    show m.stats.steps + 1 + 3 * m.scene.length + 1 ≤ 4 * m.stats.nodesCreated + 3
    omega
  | climb parent hphase hparent =>
    rw [due_backtrack hphase] at hpaid
    have hpos : 0 < m.scene.length := by
      rw [Node.parent, Option.map_eq_some_iff] at hparent
      obtain ⟨o, ho, -⟩ := hparent
      rw [← inv.level_eq, (inv.tree.wellFormed.origin_some ho).2.2]
      omega
    show m.stats.steps + 1 + 3 * m.scene.dropLast.length + _ ≤ 4 * m.stats.nodesCreated + 3
    rw [List.length_dropLast]
    omega
  | finish hphase hparent =>
    rw [due_backtrack hphase] at hpaid
    rw [due_done rfl]
    show m.stats.steps + 1 + 3 * m.scene.length + 0 ≤ 4 * m.stats.nodesCreated + 3
    omega

/-- Every move counts as one step. -/
theorem Move.steps_eq (h : Move s m m') : m'.stats.steps = m.stats.steps + 1 := by
  cases h <;> rfl

section Runs

variable [RandomSource σ] {source : σ} {clock : Nat → Nat}

theorem Reachable.paid (h : Reachable s source m) : s.Paid m := by
  induction h with
  | start => exact paid_start s source
  | act h hopen ih => exact (act_move hopen).paid h.invariant ih

/-- The nodes made so far are within the bound of a run. -/
theorem Reachable.nodes_le (h : Reachable s source m) :
    m.stats.nodesCreated ≤ nodeBound s.catalog.size s.width s.rule.length := by
  have hnodes := h.invariant.nodes
  have hsize := h.invariant.tree.size_le
  omega

/-- The steps taken so far are at most four for every node and three for the root. -/
theorem Reachable.steps_le (h : Reachable s source m) :
    m.stats.steps ≤ 4 * m.stats.nodesCreated + 3 := by
  have hpaid := h.paid
  unfold Paid at hpaid
  omega

/-- As long as no budget has ended the search, it ends at its cap or when all has been tried. -/
theorem Reachable.done_cases (h : Reachable s source m) {t : Termination}
    (ht : m.phase = .done t) : t = .treeExhausted ∨ ∃ k, s.cap = some k ∧ t = .sceneCap k := by
  cases h with
  | start =>
    rcases phase_start s source with hp | ⟨k, hcap, hp⟩
    · rw [hp] at ht
      cases ht
    · rw [hp] at ht
      cases ht
      exact .inr ⟨k, hcap, rfl⟩
  | @act m h hopen =>
    have hnot := isDone_eq_false_iff.mp hopen
    have hmove := act_move (s := s) hopen
    generalize s.act m.tick = m' at hmove ht
    cases hmove with
    | keep _ _ hphase | prune _ _ _ hphase | exhaust hphase => exact absurd ht (hnot t)
    | arrive | leave | refuse | climb => cases ht
    | finish =>
      cases ht
      exact .inl rfl
    | emit hphase hok =>
      rcases phaseAfter_cases s (m.scenes.push m.scene).size with ha | ⟨k, hcap, ha⟩
      · exact absurd (ha.symm.trans ht) (by simp)
      · cases ha.symm.trans ht
        exact .inr ⟨k, hcap, rfl⟩

/-! ## Runs -/

/-- As long as a search is under way its steps are counted exactly. -/
theorem steps_of_open {n : Nat} (h : (s.steps clock n (s.start source)).isDone = false) :
    Reachable s source (s.steps clock n (s.start source)) ∧
      (s.steps clock n (s.start source)).stats.steps = n := by
  induction n with
  | zero => exact ⟨.start, rfl⟩
  | succ n ih =>
    rw [steps_succ] at h ⊢
    generalize s.steps clock n (s.start source) = m at *
    have hopen : m.isDone = false := by
      by_contra hdone
      rw [Bool.not_eq_false] at hdone
      rw [step_of_isDone hdone, hdone] at h
      cases h
    obtain ⟨hm, hsteps⟩ := ih hopen
    cases ht : s.overrun? m.stats.steps (clock m.stats.steps) with
    | some t =>
      rw [step_of_overrun hopen ht] at h
      cases h
    | none =>
      rw [step_of_open hopen ht]
      exact ⟨hm.act hopen, by rw [(act_move hopen).steps_eq, hsteps]⟩

/-- A run ends its search, whatever the limits. -/
theorem isDone_run (s : Search) (clock : Nat → Nat) (source : σ) :
    (s.steps clock s.stepBound (s.start source)).isDone = true := by
  by_contra hopen
  rw [Bool.not_eq_true] at hopen
  -- under way, the search would have counted more steps than are paid for
  obtain ⟨hm, hsteps⟩ := steps_of_open hopen
  have hle := hm.steps_le
  have hnodes := hm.nodes_le
  have hbound : s.stepBound = 4 * nodeBound s.catalog.size s.width s.rule.length + 4 := rfl
  rw [hsteps] at hle
  omega

/-- A run takes fewer steps than the bound allows. -/
theorem run_steps_lt (s : Search) (clock : Nat → Nat) (source : σ) :
    (s.run clock source).stats.steps < s.stepBound := by
  have hbound : s.stepBound = 4 * nodeBound s.catalog.size s.width s.rule.length + 4 := rfl
  have hlt {m : State σ} (hm : Reachable s source m) : m.stats.steps < s.stepBound := by
    have hle := hm.steps_le
    have hnodes := hm.nodes_le
    omega
  obtain ⟨m, hm, heq | ⟨t, -, heq⟩⟩ := steps_reachable s clock source s.stepBound
  · rw [run, heq]
    exact hlt hm
  · rw [run, heq]
    exact hlt hm

/-- Some number of steps ends the search, and this is what it has found then. -/
def EndsWith (s : Search) (clock : Nat → Nat) (source : σ) (o : Outcome σ) : Prop :=
  ∃ n, (s.steps clock n (s.start source)).isDone = true ∧
    (s.steps clock n (s.start source)).outcome = o

theorem endsWith_run (s : Search) (clock : Nat → Nat) (source : σ) :
    s.EndsWith clock source (s.run clock source) :=
  ⟨s.stepBound, isDone_run s clock source, rfl⟩

theorem steps_add (a b : Nat) (m : State σ) :
    s.steps clock (a + b) m = s.steps clock b (s.steps clock a m) := by
  induction b with
  | zero => rfl
  | succ b ih => rw [← Nat.add_assoc, steps_succ, ih, ← steps_succ]

/-- A search ends with one outcome only. -/
theorem EndsWith.unique {o o' : Outcome σ} (h : s.EndsWith clock source o)
    (h' : s.EndsWith clock source o') : o = o' := by
  obtain ⟨a, ha, rfl⟩ := h
  obtain ⟨b, hb, rfl⟩ := h'
  have hab : s.steps clock (a + b) (s.start source) =
      s.steps clock b (s.steps clock a (s.start source)) := steps_add a b _
  rw [steps_of_isDone ha, Nat.add_comm, steps_add, steps_of_isDone hb] at hab
  rw [hab]

/-- A run returns what its search ends with. -/
theorem endsWith_iff {o : Outcome σ} : s.EndsWith clock source o ↔ s.run clock source = o := by
  constructor
  · exact fun h => (endsWith_run s clock source).unique h
  · rintro rfl
    exact endsWith_run s clock source

/-- The same search without limits. -/
def unlimited (s : Search) : Search :=
  { s with cap := none, stepBudget := none, timeBudget := none }

/-- Without limits a run comes to a state in which all has been tried. -/
theorem unlimited_steps (s : Search) (clock : Nat → Nat) (source : σ) :
    Reachable s.unlimited source (s.unlimited.steps clock s.stepBound (s.unlimited.start source)) ∧
      (s.unlimited.steps clock s.stepBound (s.unlimited.start source)).phase =
        .done .treeExhausted := by
  obtain ⟨t, ht⟩ := isDone_eq_true_iff.mp (isDone_run s.unlimited clock source)
  rcases steps_cases s.unlimited clock source s.stepBound with h | ⟨_, _, _, _, _, hover, _⟩
  · refine ⟨h, ?_⟩
    rcases h.done_cases ht with rfl | ⟨k, hcap, -⟩
    · exact ht
    · cases hcap
  · cases hover

theorem run_unlimited_state (s : Search) (clock : Nat → Nat) (source : σ) :
    ∃ m, Reachable s.unlimited source m ∧ m.phase = .done .treeExhausted ∧
      s.unlimited.run clock source = m.outcome :=
  ⟨_, (unlimited_steps s clock source).1, (unlimited_steps s clock source).2, rfl⟩

/-- **Without limits a search ends when the whole tree has been tried.** A level of the tree has at
most as many nodes as the product of the children that the levels above it allow, and the search
takes at most four steps for every node and three for the root. -/
theorem run_unlimited_ends (s : Search) (clock : Nat → Nat) (source : σ) :
    let o := s.unlimited.run clock source
    s.unlimited.EndsWith clock source o ∧ o.termination = .treeExhausted ∧
      o.tree.size = o.stats.nodesCreated + 1 ∧
      o.stats.nodesCreated ≤
        ∑ d ∈ Finset.Icc 1 s.rule.length, ∏ k ∈ Finset.range d, min s.width (s.catalog.size - k) ∧
      o.stats.steps ≤ 4 * o.stats.nodesCreated + 3 := by
  intro o
  obtain ⟨m, hm, hdone, hrun⟩ := run_unlimited_state s clock source
  have ho : o = m.outcome := hrun
  refine ⟨endsWith_run _ clock source, ?_, ?_, ?_, ?_⟩
  · rw [ho, State.outcome, hdone]
  · rw [ho]
    exact hm.invariant.nodes.symm
  · rw [ho, ← nodeBound_eq]
    exact hm.nodes_le
  · rw [ho]
    exact hm.steps_le

end Runs

end SoundScenes.Search
