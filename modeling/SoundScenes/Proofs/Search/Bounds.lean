import SoundScenes.Proofs.Tally
import SoundScenes.Proofs.Search.Scenes

/-!
# Bounds of what a search counts

A step adds at most one to every count, so that no count exceeds the number of steps. Beginnings
are given up at the places of a scene only, and a search ends with the number of a limit that it was
given.

* `Move.bounded`, `run_bounded` — the bounds of all counts;
* `run_termination` — how a run ends.
-/

namespace SoundScenes

/-! ## Counts -/

/-- No draw is counted more often than so. -/
structure Draws.Bounded (d : Draws) (bound : Nat) : Prop where
  bySound : ∀ n ∈ d.bySound, n ≤ bound
  byFamily : ∀ n ∈ d.byFamily, n ≤ bound

/-- A count that is raised exceeds the old bound by one at most. -/
theorem le_of_mem_modify {counts : List Nat} {bound n : Nat} (h : ∀ n ∈ counts, n ≤ bound)
    (i : Nat) (hn : n ∈ counts.modify i (· + 1)) : n ≤ bound + 1 := by
  obtain ⟨j, hj, rfl⟩ := List.mem_iff_getElem.mp hn
  rw [List.length_modify] at hj
  have hold := h _ (List.getElem_mem hj)
  rw [List.getElem_modify]
  split <;> omega

theorem Draws.Bounded.record {d : Draws} {bound : Nat} (h : d.Bounded bound) (sound family : Nat) :
    (d.record sound family).Bounded (bound + 1) where
  bySound _ hn := le_of_mem_modify h.bySound sound hn
  byFamily _ hn := le_of_mem_modify h.byFamily family hn

namespace Stats

/-- No count exceeds a bound, and beginnings are given up at so many places only. -/
structure Bounded (c : Stats) (bound places : Nat) : Prop where
  nodesCreated : c.nodesCreated ≤ bound
  scenesEmitted : c.scenesEmitted ≤ bound
  finalRejections : c.finalRejections ≤ bound
  depths : ∀ e ∈ c.prunesByDepth.toList, e.1 < places ∧ e.2 ≤ bound
  reasons : ∀ e ∈ c.prunesByReason.toList, e.2 ≤ bound
  draws : c.draws.Bounded bound

variable {c : Stats} {bound places : Nat}

theorem bounded_start (sounds families places : Nat) :
    (start sounds families).Bounded 0 places where
  nodesCreated := Nat.le_refl 0
  scenesEmitted := Nat.le_refl 0
  finalRejections := Nat.le_refl 0
  depths e he := absurd he (Tally.not_mem_toList_empty e)
  reasons e he := absurd he (Tally.not_mem_toList_empty e)
  draws := ⟨fun _ hn => Nat.le_of_eq (List.eq_of_mem_replicate hn),
    fun _ hn => Nat.le_of_eq (List.eq_of_mem_replicate hn)⟩

theorem Bounded.mono (h : c.Bounded bound places) : c.Bounded (bound + 1) places where
  nodesCreated := Nat.le_succ_of_le h.nodesCreated
  scenesEmitted := Nat.le_succ_of_le h.scenesEmitted
  finalRejections := Nat.le_succ_of_le h.finalRejections
  depths e he := ⟨(h.depths e he).1, Nat.le_succ_of_le (h.depths e he).2⟩
  reasons e he := Nat.le_succ_of_le (h.reasons e he)
  draws := ⟨fun n hn => Nat.le_succ_of_le (h.draws.bySound n hn),
    fun n hn => Nat.le_succ_of_le (h.draws.byFamily n hn)⟩

theorem Bounded.grow (h : c.Bounded bound places) (sound family : Nat) :
    (c.grow sound family).Bounded (bound + 1) places :=
  { h.mono with
    nodesCreated := Nat.succ_le_succ h.nodesCreated
    draws := h.draws.record sound family }

/-- One more beginning is given up, at a place of the scene. -/
theorem Bounded.recordPrune (h : c.Bounded bound places) {depth : Nat} (hdepth : depth < places)
    (reason : PruneReason) : (c.recordPrune depth reason).Bounded (bound + 1) places :=
  { h.mono with
    depths := fun e he => by
      rcases Tally.mem_toList_bump he with he | rfl
      · exact h.mono.depths e he
      · exact ⟨hdepth, Nat.succ_le_succ (Tally.count_le (fun e he => (h.depths e he).2) depth)⟩
    reasons := fun e he => by
      rcases Tally.mem_toList_bump he with he | rfl
      · exact h.mono.reasons e he
      · exact Nat.succ_le_succ (Tally.count_le h.reasons reason) }

end Stats

namespace Search

variable {σ : Type} {s : Search} {m m' : State σ}

/-! ## Moves -/

/-- A step adds at most one to every count. -/
theorem Move.bounded (h : Move s m m') (inv : Invariant s m)
    (hm : m.stats.Bounded m.stats.steps s.rule.length) :
    m'.stats.Bounded m'.stats.steps s.rule.length := by
  have hplace (hlevel : (m.tree.node m.current).level < s.rule.length) :
      m.scene.length < s.rule.length := by
    rwa [← inv.level_eq]
  have hkept : m.stats.tick.Bounded (m.stats.steps + 1) s.rule.length := { hm.mono with }
  cases h with
  | arrive | leave | climb | finish => exact hkept
  | keep sound source hphase hlevel hroom hsound hkeep =>
    exact { hm.grow sound (s.catalog.family sound) with }
  | prune sound source reason hphase hlevel hroom hsound hprune =>
    -- the node and the beginning given up are counted apart
    have hgrown := hm.grow sound (s.catalog.family sound)
    have hpruned := hm.recordPrune (hplace hlevel) reason
    exact { hgrown with depths := hpruned.depths, reasons := hpruned.reasons }
  | exhaust hphase hlevel hroom hnone =>
    exact { hm.recordPrune (hplace hlevel) .exhaustedCandidates with }
  | emit hphase hok =>
    exact { hkept with scenesEmitted := Nat.succ_le_succ hm.scenesEmitted }
  | refuse reason hphase hreason =>
    exact { hkept with finalRejections := Nat.succ_le_succ hm.finalRejections }

/-! ## Runs -/

section Runs

variable [RandomSource σ] {source : σ} {clock : Nat → Nat}

theorem Reachable.bounded (h : Reachable s source m) :
    m.stats.Bounded m.stats.steps s.rule.length := by
  induction h with
  | start => exact Stats.bounded_start _ _ _
  | act h hopen ih => exact (act_move hopen).bounded h.invariant ih

/-- No count of a run exceeds its steps, and every scene that it has found is counted. -/
theorem run_bounded (s : Search) (clock : Nat → Nat) (source : σ) :
    let o := s.run clock source
    o.stats.Bounded o.stats.steps s.rule.length ∧ o.stats.scenesEmitted = o.scenes.length := by
  intro o
  obtain ⟨m, hm, heq | ⟨t, -, heq⟩⟩ := steps_reachable s clock source s.stepBound
  · have ho : o = m.outcome := congrArg State.outcome heq
    rw [ho]
    exact ⟨hm.bounded, hm.emitted_eq⟩
  · have ho : o = { m with phase := .done t }.outcome := congrArg State.outcome heq
    rw [ho]
    exact ⟨hm.bounded, hm.emitted_eq⟩

/-- A run ends when all has been tried or at a limit that it was given. -/
theorem run_termination (s : Search) (clock : Nat → Nat) (source : σ) :
    (s.run clock source).termination = .treeExhausted ∨
      (∃ k, s.cap = some k ∧ (s.run clock source).termination = .sceneCap k) ∨
      (∃ k, s.stepBudget = some k ∧ (s.run clock source).termination = .stepBudget k) ∨
      ∃ k, s.timeBudget = some k ∧ (s.run clock source).termination = .timeBudget k := by
  obtain ⟨t, ht⟩ := isDone_eq_true_iff.mp (isDone_run s clock source)
  have hend : (s.run clock source).termination = t := by
    rw [run, State.outcome, ht]
  rw [hend]
  rcases steps_cases s clock source s.stepBound with hm | ⟨m, t', elapsed, -, -, hover, heq⟩
  · rcases hm.done_cases ht with rfl | ⟨k, hcap, rfl⟩
    · exact .inl rfl
    · exact .inr (.inl ⟨k, hcap, rfl⟩)
  · rw [heq] at ht
    cases ht
    rcases Option.or_eq_some_iff.mp hover with hover | ⟨-, hover⟩
    · obtain ⟨k, hk, -, rfl⟩ := spent?_eq_some_iff.mp hover
      exact .inr (.inr (.inl ⟨k, hk, rfl⟩))
    · obtain ⟨k, hk, -, rfl⟩ := spent?_eq_some_iff.mp hover
      exact .inr (.inr (.inr ⟨k, hk, rfl⟩))

end Runs

end Search

end SoundScenes
