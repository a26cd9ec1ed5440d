import SoundScenes.Proofs.Search.Counts
import SoundScenes.Proofs.Search.Recursion
import SoundScenes.Proofs.Search.Shape

/-!
# Places beyond the catalog

A node has at most one child for every sound that is not on its path, so that only the root can have
a child for each sound of the catalog. Where the width allows for all sounds, further places stay
empty, and all that they can bring about is one draw at the root: when every sound has its child
there, a search with a place left draws once more, finds no sound and marks the root, and a search
without goes back at once. Such a draw takes a step, but neither a random number nor a node.

* `Reachable.of_wide` — two searches with places to spare come to the same states;
* `Reachable.beside` — how a search without is behind one with a place to spare;
* `run_ofWidth` — the outcomes of two widths.
-/

namespace SoundScenes

/-- What a draw at the root that finds no sound adds to an outcome. A search draws at the root once
more only if it has tried everything else. -/
def Outcome.withSpareDraw {σ : Type} (o : Outcome σ) : Outcome σ :=
  if o.termination = .treeExhausted then
    { o with
      tree := o.tree.exhaust 0
      stats := o.stats.tick.recordPrune 0 .exhaustedCandidates }
  else o

/-- Outcomes that differ at most in the mark of the root, in a draw there that finds no sound, and
in the step for it. -/
structure Outcome.EqButSpareDraw {σ : Type} (o o' : Outcome σ) : Prop where
  scenes : o'.scenes = o.scenes
  termination : o'.termination = o.termination
  source : o'.source = o.source
  size : o'.tree.size = o.tree.size
  level : ∀ id, (o'.tree.node id).level = (o.tree.node id).level
  origin : ∀ id, (o'.tree.node id).origin = (o.tree.node id).origin
  children : ∀ id, (o'.tree.node id).children = (o.tree.node id).children
  marks : ∀ id ≠ 0, (o'.tree.node id).exhausted = (o.tree.node id).exhausted
  draws : o'.stats.draws = o.stats.draws
  nodesCreated : o'.stats.nodesCreated = o.stats.nodesCreated
  scenesEmitted : o'.stats.scenesEmitted = o.stats.scenesEmitted
  finalRejections : o'.stats.finalRejections = o.stats.finalRejections
  reasons : ∀ reason ≠ .exhaustedCandidates,
    o'.stats.prunesFor reason = o.stats.prunesFor reason
  depths : ∀ depth ≠ 0, o'.stats.prunesByDepth.count depth = o.stats.prunesByDepth.count depth

namespace Outcome.EqButSpareDraw

variable {σ : Type} {o o' : Outcome σ}

theorem refl (o : Outcome σ) : o.EqButSpareDraw o := by
  constructor <;> intros <;> rfl

theorem symm (h : o.EqButSpareDraw o') : o'.EqButSpareDraw o where
  scenes := h.scenes.symm
  termination := h.termination.symm
  source := h.source.symm
  size := h.size.symm
  level id := (h.level id).symm
  origin id := (h.origin id).symm
  children id := (h.children id).symm
  marks id hid := (h.marks id hid).symm
  draws := h.draws.symm
  nodesCreated := h.nodesCreated.symm
  scenesEmitted := h.scenesEmitted.symm
  finalRejections := h.finalRejections.symm
  reasons reason hreason := (h.reasons reason hreason).symm
  depths depth hdepth := (h.depths depth hdepth).symm

theorem withSpareDraw (hroot : 0 < o.tree.size) : o.EqButSpareDraw o.withSpareDraw := by
  unfold Outcome.withSpareDraw
  split
  · constructor
    case level | origin | children =>
      intro id
      rw [Tree.node_exhaust_eq hroot]
    case size => exact Tree.size_exhaust _ _
    case marks =>
      intro id hid
      rw [Tree.node_exhaust_eq hroot, decide_eq_false hid, Bool.or_false]
    case reasons =>
      intro reason hreason
      rw [Stats.prunesFor_recordPrune, if_neg hreason.symm]
      rfl
    case depths =>
      intro depth hdepth
      exact (Tally.count_bump _ _ _).trans (by rw [if_neg hdepth.symm]; rfl)
    all_goals rfl
  · exact refl o

end Outcome.EqButSpareDraw

namespace Search

variable {σ : Type} {s : Search} {m : State σ} {t : Tree} {id w w' : Nat}

/-- The same search with another width. -/
def ofWidth (s : Search) (w : Nat) : Search := { s with width := w }

/-- The same state after one more draw at the root that finds no sound. -/
def State.withSpareDraw (m : State σ) : State σ :=
  { m with
    tree := m.tree.exhaust 0
    stats := m.stats.tick.recordPrune 0 .exhaustedCandidates }

theorem outcome_withSpareDraw (h : m.phase = .done .treeExhausted) :
    m.withSpareDraw.outcome = m.outcome.withSpareDraw := by
  have htermination : m.outcome.termination = .treeExhausted := by rw [State.outcome, h]
  rw [Outcome.withSpareDraw, if_pos htermination]
  rfl

/-! ## Places of a node -/

theorem hasRoom_congr
    (h : (t.node id).children.length < w ↔ (t.node id).children.length < w') :
    t.hasRoom id w = t.hasRoom id w' := by
  rw [Tree.hasRoom, Tree.hasRoom, decide_eq_decide.mpr h]

/-- A node has a place to spare where there are more places than sounds. -/
theorem Grown.children_lt_of_wide (h : s.Grown t) (hid : id < t.size) (hw : s.catalog.size < w) :
    (t.node id).children.length < w := by
  have hle := h.children_length_le hid
  omega

/-- Only the root has a child for every sound. -/
theorem Grown.eq_root_of_full (h : s.Grown t) (hid : id < t.size)
    (hfull : s.catalog.size ≤ (t.node id).children.length) :
    id = 0 ∧ s.catalog.eligible (t.path id ++ t.childSounds id) = [] := by
  have hpos := s.catalog.size_pos
  have hle := h.children_length_le hid
  have hroot : id = 0 := h.wellFormed.eq_root_of_level hid (by omega)
  refine ⟨hroot, List.eq_nil_iff_forall_not_mem.mpr fun x hx => ?_⟩
  -- as many different sounds as there are leave none
  obtain ⟨hlt, hfree⟩ := Catalog.mem_eligible.mp hx
  have hnodup : (x :: (t.path id ++ t.childSounds id)).Nodup :=
    List.nodup_cons.mpr ⟨hfree, h.nodup_path_append hid⟩
  have hmore := length_le_size (c := s.catalog) hnodup fun y hy => by
    rcases List.mem_cons.mp hy with rfl | hy
    · exact hlt
    · exact h.path_append_lt hid y hy
  rw [List.length_cons, List.length_append, h.wellFormed.length_childSounds] at hmore
  omega

section Steps

variable [RandomSource σ] {source : σ}

/-- A step depends on the width only through the room at a node where another child may be made. -/
theorem act_ofWidth (h : m.phase = .descend → (m.tree.node m.current).level < s.rule.length →
      m.tree.hasRoom m.current w = m.tree.hasRoom m.current s.width) :
    (s.ofWidth w).act m.tick = s.act m.tick := by
  cases hphase : m.phase with
  | descend =>
    have hact (s : Search) : s.act m.tick = s.descend m.tick := act_descend hphase
    rw [hact, hact]
    by_cases hlevel : s.rule.length ≤ (m.tree.node m.current).level
    · exact (if_pos hlevel).trans (if_pos hlevel).symm
    · have hroom : m.tick.tree.hasRoom m.tick.current (s.ofWidth w).width =
          m.tick.tree.hasRoom m.tick.current s.width := h hphase (Nat.lt_of_not_le hlevel)
      rw [descend, descend, hroom]
      rfl
  | emit =>
    have hact (s : Search) : s.act m.tick = s.emit m.tick := act_emit hphase
    rw [hact, hact]
    rfl
  | backtrack =>
    have hact (s : Search) : s.act m.tick = s.backtrack m.tick := act_backtrack hphase
    rw [hact, hact]
    rfl
  | done t =>
    have hact (s : Search) : s.act m.tick = m.tick := by
      have hphase : m.tick.phase = .done t := hphase
      rw [act, hphase]
    rw [hact, hact]

/-- Two searches with places to spare come to the same states. -/
theorem Reachable.of_wide (h : Reachable s source m) (hwide : s.catalog.size < s.width)
    (hw : s.catalog.size < w) : Reachable (s.ofWidth w) source m := by
  induction h with
  | start => exact .start
  | @act m h hopen ih =>
    have inv := h.invariant
    have hplace {w : Nat} (hw : s.catalog.size < w) :
        (m.tree.node m.current).children.length < w :=
      inv.tree.children_lt_of_wide inv.current_lt hw
    have hact : (s.ofWidth w).act m.tick = s.act m.tick :=
      act_ofWidth fun _ _ => hasRoom_congr (iff_of_true (hplace hw) (hplace hwide))
    rw [← hact]
    exact ih.act hopen

/-! ## A place for every sound -/

/-- Where a search of a greater width is when a search is in a state: in the same state, or, on the
way out of the root, in the state after its spare draw. -/
inductive Beside (s : Search) (w : Nat) (source : σ) (m : State σ) : Prop
  | along (h : Reachable (s.ofWidth w) source m)
  | spared (hcurrent : m.current = 0)
      (hphase : m.phase = .backtrack ∨ m.phase = .done .treeExhausted)
      (h : Reachable (s.ofWidth w) source m.withSpareDraw)

/-- At the full root a search goes back, and one with a place to spare marks the root first. -/
theorem beside_leave (h : Reachable (s.ofWidth w) source m) (inv : Invariant s m)
    (hphase : m.phase = .descend) (hlevel : (m.tree.node m.current).level < s.rule.length)
    (hfull : s.catalog.size ≤ (m.tree.node m.current).children.length)
    (hroom : m.tree.hasRoom m.current s.width = false)
    (hspare : m.tree.hasRoom m.current w = true) : Beside s w source (s.act m.tick) := by
  obtain ⟨hcurrent, hnone⟩ := inv.tree.eq_root_of_full inv.current_lt hfull
  have hlt := inv.current_lt
  have hdraw : s.catalog.drawCandidate (m.scene ++ m.tree.childSounds m.current) m.stats.draws
      m.source = .error (.exhausted s.catalog.size) := by
    rw [Catalog.drawCandidate, inv.scene_eq, dif_neg (by rw [hnone]; exact Nat.lt_irrefl 0)]
  have hopen {m : State σ} (hphase : m.phase = .descend) : m.isDone = false :=
    isDone_eq_false_iff.mpr (by simp [hphase])
  have hmark := h.act (hopen hphase)
  rw [act_exhaust (s := s.ofWidth w) hphase hlevel hspare hdraw] at hmark
  have hlevel' : ((exhaust m.tick).tree.node m.current).level < s.rule.length := by
    show ((m.tree.exhaust m.current).node m.current).level < _
    rw [Tree.node_exhaust_eq hlt]
    exact hlevel
  have hleave := hmark.act (hopen hphase)
  rw [act_full (s := s.ofWidth w) (m := exhaust m.tick) hphase hlevel' (hasRoom_exhaust hlt _)]
    at hleave
  rw [act_full hphase hlevel hroom]
  refine .spared hcurrent (.inl rfl) ?_
  have hlength : m.scene.length = 0 := by
    rw [inv.scene_eq, hcurrent, inv.tree.wellFormed.path_root, List.length_nil]
  have heq : { (exhaust m.tick).tick with phase := .backtrack } =
      { m.tick with phase := .backtrack : State σ }.withSpareDraw := by
    unfold exhaust State.withSpareDraw State.tick
    simp only [hcurrent, hlength]
    rfl
  exact heq ▸ hleave

/-- Beside a search with a place for every sound and no more there is one with a place to spare. -/
theorem Reachable.beside (h : Reachable s source m) (hwidth : s.width = s.catalog.size)
    (hw : s.catalog.size < w) : Beside s w source m := by
  induction h with
  | start => exact .along .start
  | @act m h hopen ih =>
    have inv := h.invariant
    cases ih with
    | spared hcurrent hphase hspared =>
      have hphase : m.phase = .backtrack :=
        hphase.resolve_right (isDone_eq_false_iff.mp hopen _)
      have hroot : (m.tree.node m.current).parent = none := by
        rw [hcurrent, Node.parent, inv.tree.wellFormed.root_origin]
        rfl
      have hroot' : (m.withSpareDraw.tree.node m.withSpareDraw.current).parent = none := by
        show ((m.tree.exhaust 0).node m.current).parent = none
        rw [Tree.node_exhaust_eq inv.tree.wellFormed.size_pos]
        exact hroot
      have hfinish := hspared.act hopen
      rw [act_finish (s := s.ofWidth w) (m := m.withSpareDraw) hphase hroot'] at hfinish
      rw [act_finish hphase hroot]
      exact .spared hcurrent (.inr rfl) hfinish
    | along halong =>
      by_cases hagree : m.phase = .descend → (m.tree.node m.current).level < s.rule.length →
          m.tree.hasRoom m.current w = m.tree.hasRoom m.current s.width
      · rw [← act_ofWidth hagree]
        exact .along (halong.act hopen)
      · -- the searches part only where a child has been made for every sound
        simp only [Classical.not_imp] at hagree
        obtain ⟨hphase, hlevel, hdiffer⟩ := hagree
        have hplace := inv.tree.children_lt_of_wide inv.current_lt hw
        have hfull : s.width ≤ (m.tree.node m.current).children.length := by
          by_contra hlt
          exact hdiffer (hasRoom_congr (iff_of_true hplace (Nat.lt_of_not_le hlt)))
        have hroom : m.tree.hasRoom m.current s.width = false := by
          rw [Tree.hasRoom, decide_eq_false (Nat.not_lt.mpr hfull), Bool.and_false]
        rw [hroom, Bool.not_eq_false] at hdiffer
        exact beside_leave halong inv hphase hlevel (hwidth ▸ hfull) hroom hdiffer

/-- Without its spare draw a search with a place to spare does not come to the end of the tree. -/
theorem Reachable.not_done_along (h : Reachable s source m) (h' : Reachable (s.ofWidth w) source m)
    (hwidth : s.width = s.catalog.size) (hw : s.catalog.size < w) (hlength : 1 ≤ s.rule.length) :
    m.phase ≠ .done .treeExhausted := by
  intro hdone
  have inv := h.invariant
  have hpos := inv.tree.wellFormed.size_pos
  have hroot : m.current = 0 := inv.finished hdone
  have hlevel : (m.tree.node m.current).level < (s.ofWidth w).rule.length := by
    rw [hroot, inv.tree.wellFormed.root_level]
    exact hlength
  have hroom : m.tree.hasRoom m.current w = false := h'.invariant.left (.inr hdone) hlevel
  have hplace := inv.tree.children_lt_of_wide inv.current_lt hw
  have hmarked : (m.tree.node m.current).exhausted = true := by
    by_contra hfree
    rw [hasRoom_iff.mpr ⟨Bool.eq_false_iff.mpr hfree, hplace⟩] at hroom
    cases hroom
  -- the mark stands for a draw with a place left, when all sounds had their child at the root
  have hall := inv.tree.length_of_marked inv.current_lt hmarked
  have hshort := h.markedShort m.current hmarked
  rw [hroot, inv.tree.wellFormed.path_root, List.length_nil] at hall
  rw [hroot] at hshort
  omega

/-! ## Runs -/

/-- Without budgets a run ends in a state that the search comes to. -/
theorem exists_reachable_done (hsteps : s.stepBudget = none) (htime : s.timeBudget = none)
    (source : σ) :
    ∃ m, Reachable s source m ∧ m.isDone = true ∧ ∀ clock, s.run clock source = m.outcome := by
  have hdone := isDone_run s (fun _ => 0) source
  rcases steps_cases s (fun _ => 0) source s.stepBound with h | ⟨_, _, _, _, _, hover, _⟩
  · exact ⟨_, h, hdone, h.run_eq hsteps htime hdone⟩
  · rw [overrun?_eq_none hsteps htime] at hover
    cases hover

theorem run_ofWidth_of_wide (hsteps : s.stepBudget = none) (htime : s.timeBudget = none)
    (hwide : s.catalog.size < s.width) (hw : s.catalog.size < w) (clock clock' : Nat → Nat) :
    (s.ofWidth w).run clock' source = s.run clock source := by
  obtain ⟨m, hm, hdone, hrun⟩ := exists_reachable_done hsteps htime source
  rw [hrun clock, (hm.of_wide hwide hw).run_eq hsteps htime hdone clock']

theorem run_ofWidth_of_spare (hlength : 1 ≤ s.rule.length) (hsteps : s.stepBudget = none)
    (htime : s.timeBudget = none) (hwidth : s.width = s.catalog.size) (hw : s.catalog.size < w)
    (clock clock' : Nat → Nat) :
    (s.ofWidth w).run clock' source = (s.run clock source).withSpareDraw := by
  obtain ⟨m, hm, hdone, hrun⟩ := exists_reachable_done hsteps htime source
  rw [hrun clock]
  cases hm.beside hwidth hw with
  | along h =>
    rw [h.run_eq hsteps htime hdone clock', Outcome.withSpareDraw, if_neg]
    obtain ⟨t, ht⟩ := isDone_eq_true_iff.mp hdone
    rw [State.outcome, ht]
    rintro rfl
    exact hm.not_done_along h hwidth hw hlength ht
  | spared _ hphase h =>
    have hphase : m.phase = .done .treeExhausted :=
      hphase.resolve_left fun hback => by rw [State.isDone, hback] at hdone; cases hdone
    rw [h.run_eq hsteps htime hdone clock', outcome_withSpareDraw hphase]

/-- **Places beyond the catalog stay empty.** Without budgets, two widths that both allow for all
sounds find the same scenes with the same nodes, draws and random numbers, and end alike. If both or
neither of them have a place to spare, the outcomes are the same. Otherwise the one with a place to
spare has drawn at the root once more if it has tried everything, and found no sound. -/
theorem run_ofWidth (s : Search) (hlength : 1 ≤ s.rule.length) (hsteps : s.stepBudget = none)
    (htime : s.timeBudget = none) (hw : s.catalog.size ≤ w) (hw' : s.catalog.size ≤ w')
    (clock clock' : Nat → Nat) (source : σ) :
    let o := (s.ofWidth w).run clock source
    let o' := (s.ofWidth w').run clock' source
    (s.ofWidth w).EndsWith clock source o ∧ (s.ofWidth w').EndsWith clock' source o' ∧
      o.EqButSpareDraw o' ∧
      ((s.catalog.size < w ↔ s.catalog.size < w') → o' = o) ∧
      (w = s.catalog.size → s.catalog.size < w' → o' = o.withSpareDraw) ∧
      (w' = s.catalog.size → s.catalog.size < w → o = o'.withSpareDraw) := by
  intro o o'
  have hroot {w : Nat} {clock : Nat → Nat} : 0 < ((s.ofWidth w).run clock source).tree.size := by
    obtain ⟨m, hm, -, hrun⟩ := exists_reachable_done (s := s.ofWidth w) hsteps htime source
    rw [hrun clock]
    exact hm.invariant.tree.wellFormed.size_pos
  have hspare : w = s.catalog.size → s.catalog.size < w' → o' = o.withSpareDraw := fun h h' =>
    run_ofWidth_of_spare (s := s.ofWidth w) hlength hsteps htime h h' clock clock'
  have hspare' : w' = s.catalog.size → s.catalog.size < w → o = o'.withSpareDraw := fun h' h =>
    run_ofWidth_of_spare (s := s.ofWidth w') hlength hsteps htime h' h clock' clock
  have hsame : (s.catalog.size < w ↔ s.catalog.size < w') → o' = o := by
    intro hiff
    by_cases hwide : s.catalog.size < w
    · exact run_ofWidth_of_wide (s := s.ofWidth w) hsteps htime hwide (hiff.mp hwide) clock clock'
    · -- both widths are the size of the catalog
      have hnot := mt hiff.mpr hwide
      have heq : w' = w := by omega
      obtain ⟨m, -, -, hrun⟩ := exists_reachable_done (s := s.ofWidth w) hsteps htime source
      show (s.ofWidth w').run clock' source = (s.ofWidth w).run clock source
      rw [heq, hrun clock, hrun clock']
  refine ⟨endsWith_run _ clock source, endsWith_run _ clock' source, ?_, hsame, hspare, hspare'⟩
  by_cases hiff : s.catalog.size < w ↔ s.catalog.size < w'
  · rw [hsame hiff]
    exact .refl o
  · rcases Nat.eq_or_lt_of_le hw with h | h
    · rw [hspare h.symm (by omega)]
      exact .withSpareDraw hroot
    · rw [hspare' (by omega) h]
      exact (Outcome.EqButSpareDraw.withSpareDraw hroot).symm

end Steps

/-- The scenes of two sounds are found with two places as with five. With two, the root is left
without a mark; with five, as with three, one step more has marked it. -/
theorem run_duetSearch_ofWidth :
    let o := (duetSearch.ofWidth 2).run (fun _ => 0) (Pcg.ofSeed 7)
    let o' := duetSearch.run (fun _ => 0) (Pcg.ofSeed 7)
    o.scenes = o'.scenes ∧ (o.tree.node 0).exhausted = false ∧
      (o'.tree.node 0).exhausted = true ∧ o'.stats.steps = o.stats.steps + 1 ∧
      o.stats.prunesFor .exhaustedCandidates = 2 ∧ o'.stats.prunesFor .exhaustedCandidates = 3 ∧
      o' = (duetSearch.ofWidth 3).run (fun _ => 0) (Pcg.ofSeed 7) := by
  intro o o'
  have htwo : duetSearch.catalog.size ≤ 2 := by decide
  have hthree : duetSearch.catalog.size ≤ 3 := by decide
  have hfive : duetSearch.catalog.size ≤ 5 := by decide
  obtain ⟨-, -, heq, -, hspare, -⟩ := run_ofWidth duetSearch (by decide) rfl rfl htwo hfive
    (fun _ => 0) (fun _ => 0) (Pcg.ofSeed 7)
  obtain ⟨-, -, -, hsame, -⟩ := run_ofWidth duetSearch (by decide) rfl rfl hthree hfive
    (fun _ => 0) (fun _ => 0) (Pcg.ofSeed 7)
  have hspare : o' = o.withSpareDraw := hspare rfl (by decide)
  refine ⟨heq.scenes.symm, by decide +kernel, by decide +kernel, ?_, by decide +kernel,
    by decide +kernel, hsame (by decide)⟩
  have hend : o.termination = .treeExhausted := by decide +kernel
  rw [hspare, Outcome.withSpareDraw, if_pos hend]
  rfl

end Search

end SoundScenes
