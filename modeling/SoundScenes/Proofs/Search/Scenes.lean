import SoundScenes.Proofs.Search.Enumeration

/-!
# The scenes and the tree of a search

A complete scene is looked at one step after its node has been made, and the search leaves the node
afterwards. So every such node is looked at once, in the order of the nodes, and only a budget that
ends the search between both steps can leave out the last of them.

* `accepted` — the complete scenes of a tree that follow the rule, in the order of their nodes;
* `Reachable.scenes_cases` — the scenes at any moment of a search;
* `run_scenes` — the scenes of a run, whatever ends it.
-/

namespace SoundScenes.Search

variable {σ : Type} {s : Search} {m m' : State σ}

/-! ## The scenes of a tree -/

/-- Whether a scene by itself follows the rule. -/
def accepts (s : Search) (scene : List Nat) : Bool :=
  match s.rule.rejectScene? s.catalog scene with
  | .ok none => true
  | _ => false

/-- The complete scenes of a tree that follow the rule, in the order of their nodes. -/
def accepted (s : Search) (t : Tree) : List (List Nat) :=
  ((List.range t.size).filter fun id =>
    (t.node id).depth = (s.rule.length : Int) - 1 ∧ s.accepts (t.path id)).map t.path

theorem accepts_iff {scene : List Nat} (h : ∀ id ∈ scene, id < s.catalog.size) :
    s.accepts scene = true ↔ s.rule.reject? (s.histogramOf scene) = none := by
  rw [accepts, rejectScene?_eq h]
  cases s.rule.reject? (s.histogramOf scene) <;> simp

theorem Grown.accepted_eq {t : Tree} (h : s.Grown t) : s.accepted t = s.leaves t t.size := by
  rw [accepted, leaves]
  congr 1
  refine List.filter_congr fun id hid => ?_
  have haccepts := accepts_iff (h.path_lt id (List.mem_range.mp hid))
  have hdepth : (t.node id).depth = (s.rule.length : Int) - 1 ↔
      (t.node id).level = s.rule.length := by
    rw [Node.depth]
    omega
  rw [follows, decide_eq_decide, hdepth, haccepts]

/-! ## The count of the scenes -/

/-- Every scene that is kept is counted. -/
theorem Move.emitted_eq (h : Move s m m') (heq : m.stats.scenesEmitted = m.scenes.size) :
    m'.stats.scenesEmitted = m'.scenes.size := by
  cases h with
  | emit =>
    show m.stats.scenesEmitted + 1 = (m.scenes.push m.scene).size
    rw [Array.size_push, heq]
  | _ => exact heq

section Runs

variable [RandomSource σ] {source : σ} {clock : Nat → Nat}

theorem Reachable.emitted_eq (h : Reachable s source m) :
    m.stats.scenesEmitted = m.scenes.toList.length := by
  rw [Array.length_toList]
  induction h with
  | start => rfl
  | act _ hopen ih => exact (act_move hopen).emitted_eq ih

/-! ## Scenes found so far -/

/-- Only a scene that has not been looked at is left out. -/
theorem Reachable.scenes_cases (h : Reachable s source m) (hlength : 1 ≤ s.rule.length) :
    m.scenes.toList = s.accepted m.tree ∨ m.scenes.toList = (s.accepted m.tree).dropLast := by
  have inv := h.invariant
  rw [inv.tree.accepted_eq]
  by_cases hpending : s.Pending m
  · obtain ⟨hlast, hfound⟩ := inv.pending hpending
    rw [← hlast, leaves_succ, hfound]
    cases s.follows m.tree m.current with
    | false => exact .inl (List.append_nil _).symm
    | true => exact .inr List.dropLast_concat.symm
  · exact .inl (inv.found hlength hpending)

theorem Reachable.scenes_eq_of_done (h : Reachable s source m) (hlength : 1 ≤ s.rule.length)
    (hdone : m.isDone = true) : m.scenes.toList = s.accepted m.tree := by
  obtain ⟨t, ht⟩ := isDone_eq_true_iff.mp hdone
  rw [h.invariant.tree.accepted_eq]
  exact h.invariant.found hlength (not_pending_of_done ht)

theorem Reachable.nodup_scenes (h : Reachable s source m) (hlength : 1 ≤ s.rule.length) :
    m.scenes.toList.Nodup := by
  have hnodup : (s.accepted m.tree).Nodup := by
    rw [h.invariant.tree.accepted_eq]
    exact h.invariant.tree.nodup_leaves
  rcases h.scenes_cases hlength with heq | heq
  · rw [heq]
    exact hnodup
  · rw [heq]
    exact hnodup.sublist (List.dropLast_sublist _)

/-- **A search loses no scene and finds none twice.** Unless a budget ends it, its scenes are the
complete scenes of its tree that follow the rule, in the order of their nodes; a budget may leave
out the last of them. -/
theorem run_scenes (s : Search) (hlength : 1 ≤ s.rule.length) (clock : Nat → Nat) (source : σ) :
    let o := s.run clock source
    s.EndsWith clock source o ∧
      (o.termination.byBudget = false → o.scenes = s.accepted o.tree) ∧
      (o.termination.byBudget = true →
        o.scenes = s.accepted o.tree ∨ o.scenes = (s.accepted o.tree).dropLast) ∧
      o.scenes.Nodup ∧ o.stats.scenesEmitted = o.scenes.length := by
  intro o
  obtain ⟨m, hm, heq | ⟨t, ht, heq⟩⟩ := steps_reachable s clock source s.stepBound
  · have ho : o = m.outcome := congrArg State.outcome heq
    have hdone := isDone_run s clock source
    rw [heq] at hdone
    refine ⟨endsWith_run s clock source, ?_, ?_, ?_, ?_⟩ <;> rw [ho]
    · exact fun _ => hm.scenes_eq_of_done hlength hdone
    · exact fun _ => hm.scenes_cases hlength
    · exact hm.nodup_scenes hlength
    · exact hm.emitted_eq
  · have ho : o = { m with phase := .done t }.outcome := congrArg State.outcome heq
    refine ⟨endsWith_run s clock source, ?_, ?_, ?_, ?_⟩ <;> rw [ho]
    · intro hnot
      exact absurd (hnot.symm.trans ht) (by simp)
    · exact fun _ => hm.scenes_cases hlength
    · exact hm.nodup_scenes hlength
    · exact hm.emitted_eq

end Runs

/-- Ten steps are enough to make the node of a second scene, but not to look at it. -/
theorem run_duetSearch_ten_steps :
    let s := { duetSearch with stepBudget := some 10 }
    let o := s.run (fun _ => 0) (Pcg.ofSeed 7)
    o.scenes = [[1, 0]] ∧ o.termination = .stepBudget 10 ∧
      (o.scenes = s.accepted o.tree ∨ o.scenes = (s.accepted o.tree).dropLast) := by
  intro s o
  have hcut : o.scenes = [[1, 0]] ∧ o.termination = .stepBudget 10 := by decide +kernel
  have hrun := run_scenes s (by decide) (fun _ => 0) (Pcg.ofSeed 7)
  refine ⟨hcut.1, hcut.2, hrun.2.2.1 ?_⟩
  show o.termination.byBudget = true
  rw [hcut.2]
  rfl

end SoundScenes.Search
