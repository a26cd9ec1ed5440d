import SoundScenes.Proofs.Catalog.Grouping
import SoundScenes.Proofs.Search.Checked
import SoundScenes.Proofs.Search.Counts

/-!
# What a search sees of its catalog

Two searches that differ only in their catalogs, which group their sounds alike, go through the same
states but for the histogram and the draws of families. Both are kept by the numbers of families,
and nothing that the search does depends on these numbers.

* `State.retold` — a state with another histogram and other draws of families;
* `act_retold` — one step of both searches;
* `run_retold` — a whole run of both, whatever the limits.
-/

namespace SoundScenes

/-- The same counts with other draws of families. -/
def Stats.retold (s : Stats) (byFamily : List Nat) : Stats :=
  { s with draws := { s.draws with byFamily := byFamily } }

/-- The same outcome with other draws of families. -/
def Outcome.retold {σ : Type} (o : Outcome σ) (byFamily : List Nat) : Outcome σ :=
  { o with stats := o.stats.retold byFamily }

namespace Search

variable {σ : Type} {s : Search} {c : Catalog} {m : State σ} {h : Histogram} {d : List Nat}

/-- The same search in another catalog. -/
def inCatalog (s : Search) (c : Catalog) : Search := { s with catalog := c }

/-- The same state with another histogram and other draws of families. -/
def State.retold (m : State σ) (h : Histogram) (d : List Nat) : State σ :=
  { m with histogram := h, stats := m.stats.retold d }

/-! ## One step -/

/-- What a search in the other catalog does on its way down. -/
theorem descend_inCatalog [RandomSource σ] (s : Search) (c : Catalog) (m : State σ) (h : Histogram)
    (d : List Nat) : (s.inCatalog c).descend (m.retold h d) =
      if s.rule.length ≤ (m.tree.node m.current).level then
        { m with phase := .emit : State σ }.retold h d
      else if m.tree.hasRoom m.current s.width then
        match c.drawCandidate (m.scene ++ m.tree.childSounds m.current)
          { m.stats.draws with byFamily := d } m.source with
        | .ok (sound, draws, source) => (s.inCatalog c).grow sound draws source (m.retold h d)
        | .error _ => (exhaust m).retold h d
      else { m with phase := .backtrack : State σ }.retold h d := rfl

section Step

variable (alike : s.catalog.GroupedAlike c)
include alike

/-- The same sound is drawn, whatever its family is called. -/
theorem drawCandidate_retold [RandomSource σ] (taken : List Nat) (draws : Draws) (source : σ) :
    c.drawCandidate taken { draws with byFamily := d } source =
      (s.catalog.drawCandidate taken draws source).map fun (sound, draws, source) =>
        (sound, { draws with byFamily := d.modify (c.family sound) (· + 1) }, source) := by
  have heligible : c.eligible taken = s.catalog.eligible taken := by
    rw [Catalog.eligible, Catalog.eligible, alike.size_eq]
  unfold Catalog.drawCandidate
  rw [alike.size_eq]
  simp only [heligible]
  split <;> rfl

/-- A new child is kept in both searches or in neither. -/
theorem grow_retold (inv : Invariant s m) (inv' : Invariant (s.inCatalog c) (m.retold h d))
    {sound : Nat} (hsound : sound < s.catalog.size) (draws : Draws) (d' : List Nat) (source : σ) :
    ∃ h', (s.inCatalog c).grow sound { draws with byFamily := d' } source (m.retold h d) =
      (s.grow sound draws source m).retold h' d' := by
  have hlt : ∀ id ∈ m.scene ++ [sound], id < s.catalog.size := by
    intro id hid
    rcases List.mem_append.mp hid with hid | hid
    · exact inv.lt_size id hid
    · exact List.mem_singleton.mp hid ▸ hsound
  have hprune : s.rule.prune? (h.push (c.family sound)) m.scene.length =
      s.rule.prune? (m.histogram.push (s.catalog.family sound)) m.scene.length := by
    rw [Move.histogram_push inv sound]
    exact (congrArg (s.rule.prune? · m.scene.length) (Move.histogram_push inv' sound)).trans
      (alike.prune?_eq hlt s.rule s.rule.constraints.quota m.scene.length)
  unfold grow
  simp only [State.retold, inCatalog, hprune]
  split
  · exact ⟨_, rfl⟩
  · exact ⟨_, rfl⟩

theorem descend_retold [RandomSource σ] (inv : Invariant s m)
    (inv' : Invariant (s.inCatalog c) (m.retold h d)) :
    ∃ h' d', (s.inCatalog c).descend (m.retold h d) = (s.descend m).retold h' d' := by
  have hdraw := drawCandidate_retold (d := d) alike (m.scene ++ m.tree.childSounds m.current)
    m.stats.draws m.source
  rw [descend_inCatalog, descend, hdraw]
  split
  · exact ⟨h, d, rfl⟩
  · split
    · cases hdrawn : s.catalog.drawCandidate (m.scene ++ m.tree.childSounds m.current)
          m.stats.draws m.source with
      | error e => exact ⟨h, d, rfl⟩
      | ok drawn =>
        obtain ⟨sound, draws, source⟩ := drawn
        have hsound := (Catalog.mem_eligible.mp (Catalog.drawCandidate_ok hdrawn).1).1
        obtain ⟨h', hgrow⟩ := grow_retold alike inv inv' hsound draws _ source
        exact ⟨h', _, hgrow⟩
    · exact ⟨h, d, rfl⟩

/-- A complete scene is kept in both searches or in neither. -/
theorem emit_retold (inv : Invariant s m) (inv' : Invariant (s.inCatalog c) (m.retold h d)) :
    (s.inCatalog c).emit (m.retold h d) = (s.emit m).retold h d := by
  have hreject : s.rule.reject? h = s.rule.reject? m.histogram := by
    rw [inv.histogram_eq]
    exact (congrArg s.rule.reject? inv'.histogram_eq).trans
      (alike.reject?_eq inv.lt_size s.rule s.rule.constraints.quota)
  unfold emit
  simp only [State.retold, inCatalog, hreject]
  split <;> rfl

/-- One step of both searches. -/
theorem act_retold [RandomSource σ] (inv : Invariant s m)
    (inv' : Invariant (s.inCatalog c) (m.retold h d)) :
    ∃ h' d', (s.inCatalog c).act (m.retold h d) = (s.act m).retold h' d' := by
  have hphase : (m.retold h d).phase = m.phase := rfl
  unfold act
  rw [hphase]
  cases m.phase with
  | descend => exact descend_retold alike inv inv'
  | emit => exact ⟨h, d, emit_retold alike inv inv'⟩
  | backtrack =>
    unfold backtrack
    simp only [State.retold]
    split
    · exact ⟨_, _, rfl⟩
    · exact ⟨_, _, rfl⟩
  | done t => exact ⟨h, d, rfl⟩

end Step

/-! ## Runs -/

section Runs

variable [RandomSource σ] {clock : Nat → Nat} {source : σ}

/-- As long as a search has not ended, its state is one that it comes to. -/
theorem invariant_steps {n : Nat} (hopen : (s.steps clock n (s.start source)).isDone = false) :
    Invariant s (s.steps clock n (s.start source)) := by
  rcases steps_cases s clock source n with hm | ⟨m, t, _, _, _, _, heq⟩
  · exact hm.invariant
  · rw [heq] at hopen
    cases hopen

/-- After every number of steps both searches are in the same state. -/
theorem steps_retold (alike : s.catalog.GroupedAlike c) (clock : Nat → Nat) (source : σ) (n : Nat) :
    ∃ h d, (s.inCatalog c).steps clock n ((s.inCatalog c).start source) =
      (s.steps clock n (s.start source)).retold h d := by
  induction n with
  | zero =>
    have hstart : (s.inCatalog c).start source = (s.start source).retold
        (s.rule.histogram c.familyCount) (List.replicate c.familyCount 0) := by
      unfold start
      simp only [inCatalog, alike.size_eq]
      rfl
    exact ⟨_, _, hstart⟩
  | succ n ih =>
    obtain ⟨h, d, heq⟩ := ih
    rw [steps_succ, steps_succ]
    by_cases hdone : (s.steps clock n (s.start source)).isDone = true
    · have hdone' : ((s.steps clock n (s.start source)).retold h d).isDone = true := hdone
      rw [heq, step_of_isDone hdone, step_of_isDone hdone']
      exact ⟨h, d, rfl⟩
    · have hopen : (s.steps clock n (s.start source)).isDone = false := Bool.eq_false_iff.mpr hdone
      have inv := invariant_steps hopen
      have inv' : Invariant (s.inCatalog c) ((s.steps clock n (s.start source)).retold h d) :=
        heq ▸ invariant_steps (heq ▸ hopen)
      rw [heq]
      generalize s.steps clock n (s.start source) = m at *
      have hopen' : (m.retold h d).isDone = false := hopen
      cases hover : s.overrun? m.stats.steps (clock m.stats.steps) with
      | some t =>
        have hover' : (s.inCatalog c).overrun? (m.retold h d).stats.steps
            (clock (m.retold h d).stats.steps) = some t := hover
        rw [step_of_overrun hopen hover, step_of_overrun hopen' hover']
        exact ⟨h, d, rfl⟩
      | none =>
        have hover' : (s.inCatalog c).overrun? (m.retold h d).stats.steps
            (clock (m.retold h d).stats.steps) = none := hover
        rw [step_of_open hopen hover, step_of_open hopen' hover']
        exact act_retold alike inv.tick inv'.tick

/-- The nodes that hold a sound of a family are the same, whatever its number. -/
theorem familyHolders_renumbering (alike : s.catalog.GroupedAlike c) (t : Tree) {f : Nat}
    (hf : f < s.catalog.familyCount) :
    (s.inCatalog c).familyHolders t (s.catalog.renumbering c f) = s.familyHolders t f := by
  rw [familyHolders, familyHolders, inCatalog, alike.size_eq]
  refine Finset.sum_congr (Finset.filter_congr fun sound hsound => ?_) fun _ _ => rfl
  have hsound := Finset.mem_range.mp hsound
  rw [Catalog.renumbering, alike.family_eq_iff hsound (Catalog.idxOf_familyOf_lt hf),
    Catalog.family_idxOf hf]

/-- A run in a catalog that groups its sounds alike comes to the same outcome, but that the draws of
families are told by other numbers. -/
theorem run_retold (alike : s.catalog.GroupedAlike c) (clock : Nat → Nat) (source : σ) :
    ∃ d, (s.inCatalog c).run clock source = (s.run clock source).retold d ∧
      d.length = s.catalog.familyCount ∧ ∀ f < s.catalog.familyCount,
        d[s.catalog.renumbering c f]? = (s.run clock source).stats.draws.byFamily[f]? := by
  obtain ⟨h, d, heq⟩ := steps_retold alike clock source s.stepBound
  have hbound : (s.inCatalog c).stepBound = s.stepBound := by
    rw [stepBound, stepBound, inCatalog, alike.size_eq]
  have hrun : (s.inCatalog c).run clock source = (s.run clock source).retold d := by
    rw [run, run, hbound, heq]
    rfl
  obtain ⟨m, hm, htree, hstats⟩ := exists_reachable_run s clock source
  obtain ⟨m', hm', htree', hstats'⟩ := exists_reachable_run (s.inCatalog c) clock source
  have hfamily := hm.recounts.draws.byFamily
  have hfamily' := hm'.recounts.draws.byFamily
  rw [← htree, ← hstats] at hfamily
  rw [← htree', ← hstats', hrun] at hfamily'
  have hd : d = (List.range c.familyCount).map
    ((s.inCatalog c).familyHolders (s.run clock source).tree) := hfamily'
  refine ⟨d, hrun, ?_, fun f hf => ?_⟩
  · rw [hd, List.length_map, List.length_range, alike.familyCount_eq]
  · rw [hd, hfamily, List.getElem?_map, List.getElem?_map, List.getElem?_range hf,
      List.getElem?_range (alike.renumbering_lt hf), Option.map_some, Option.map_some,
      familyHolders_renumbering alike _ hf]

end Runs

end Search

end SoundScenes
