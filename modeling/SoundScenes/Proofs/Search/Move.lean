import SoundScenes.Search.Explore
import SoundScenes.Proofs.Search.Arena

/-!
# What a search can do in one step

`Move` lists everything that one step can make of a search that has not ended, with the conditions
under which it happens. What is proved about searches is proved by going through this list once.

* `act_move` — every step is a move;
* `Reachable` — the states that a search comes to as long as no budget ends it;
* `steps_cases` — a state that a run comes to is reachable, or a budget has ended the search there.
-/

namespace SoundScenes

/-- One more step is counted. -/
def Stats.tick (s : Stats) : Stats := { s with steps := s.steps + 1 }

/-- One more node is counted, made with a drawn sound. -/
def Stats.grow (s : Stats) (sound family : Nat) : Stats :=
  { s with nodesCreated := s.nodesCreated + 1, draws := s.draws.record sound family }

/-- A drawn sound is not taken, and its draw is counted. -/
theorem Catalog.drawCandidate_ok {σ : Type} [RandomSource σ] {c : Catalog} {taken : List Nat}
    {draws draws' : Draws} {source source' : σ} {sound : Nat}
    (h : c.drawCandidate taken draws source = .ok (sound, draws', source')) :
    sound ∈ c.eligible taken ∧ draws' = draws.record sound (c.family sound) := by
  unfold drawCandidate at h
  split at h
  · next hpos =>
    cases h
    exact ⟨RandomSource.choose_mem hpos source, rfl⟩
  · cases h

/-- No sound is drawn only if every sound is taken. -/
theorem Catalog.drawCandidate_error {σ : Type} [RandomSource σ] {c : Catalog} {taken : List Nat}
    {draws : Draws} {source : σ} {e : CatalogError}
    (h : c.drawCandidate taken draws source = .error e) : c.eligible taken = [] := by
  unfold drawCandidate at h
  split at h
  · cases h
  · next hpos =>
    rwa [List.length_pos_iff, not_not] at hpos

namespace Search

variable {σ : Type}

/-- One more step is counted. -/
def State.tick (m : State σ) : State σ := { m with stats := m.stats.tick }

/-- The scene of a state, counted afresh. -/
theorem histogramOf_concat (s : Search) (scene : List Nat) (sound : Nat) :
    s.histogramOf (scene ++ [sound]) = (s.histogramOf scene).push (s.catalog.family sound) := by
  rw [histogramOf, List.map_append, Histogram.ofFamilies, List.foldl_append]
  rfl

/-! ## Limits -/

/-- A limit brings a termination once as much as it allows is used. -/
theorem spent?_eq_some_iff {limit : Option Nat} {used : Nat} {f : Nat → Termination}
    {t : Termination} : spent? limit used f = some t ↔ ∃ k, limit = some k ∧ k ≤ used ∧ t = f k := by
  cases limit with
  | none => simp [spent?]
  | some k =>
    simp only [spent?, Option.bind_some, Option.some.injEq, exists_eq_left']
    by_cases hk : k ≤ used
    · simp [hk, eq_comm]
    · simp [hk]

theorem spent?_eq_none_iff {limit : Option Nat} {used : Nat} {f : Nat → Termination} :
    spent? limit used f = none ↔ ∀ k, limit = some k → used < k := by
  cases limit with
  | none => simp [spent?]
  | some k => simp [spent?]

theorem phase_start (s : Search) (source : σ) :
    (s.start source).phase = .descend ∨
      ∃ k, s.cap = some k ∧ (s.start source).phase = .done (.sceneCap k) := by
  unfold start
  split
  · next t ht =>
    obtain ⟨k, hcap, -, rfl⟩ := spent?_eq_some_iff.mp ht
    exact .inr ⟨k, hcap, rfl⟩
  · exact .inl rfl

/-- The phase after a scene has been kept. -/
def phaseAfter (s : Search) (scenes : Nat) : Phase :=
  match s.capReached? scenes with
  | some t => .done t
  | none => .backtrack

theorem phaseAfter_cases (s : Search) (n : Nat) :
    s.phaseAfter n = .backtrack ∨ ∃ k, s.cap = some k ∧ s.phaseAfter n = .done (.sceneCap k) := by
  unfold phaseAfter
  split
  · next t ht =>
    obtain ⟨k, hcap, -, rfl⟩ := spent?_eq_some_iff.mp ht
    exact .inr ⟨k, hcap, rfl⟩
  · exact .inl rfl

/-! ## Moves -/

/-- What one step can make of a search that has not ended. -/
inductive Move (s : Search) (m : State σ) : State σ → Prop
  /-- The current node is at the end of a complete scene. -/
  | arrive (hphase : m.phase = .descend)
      (hlevel : s.rule.length ≤ (m.tree.node m.current).level) :
      Move s m { m.tick with phase := .emit }
  /-- A new child is kept, and the search goes there. -/
  | keep (sound : Nat) (source : σ) (hphase : m.phase = .descend)
      (hlevel : (m.tree.node m.current).level < s.rule.length)
      (hroom : m.tree.hasRoom m.current s.width = true)
      (hsound : sound ∈ s.catalog.eligible (m.scene ++ m.tree.childSounds m.current))
      (hkeep : s.rule.prune? (m.histogram.push (s.catalog.family sound)) m.scene.length = none) :
      Move s m { m with
        tree := m.tree.add m.current sound
        current := m.tree.size
        scene := m.scene ++ [sound]
        histogram := m.histogram.push (s.catalog.family sound)
        stats := m.stats.tick.grow sound (s.catalog.family sound)
        source := source }
  /-- A new child is given up at once. -/
  | prune (sound : Nat) (source : σ) (reason : PruneReason) (hphase : m.phase = .descend)
      (hlevel : (m.tree.node m.current).level < s.rule.length)
      (hroom : m.tree.hasRoom m.current s.width = true)
      (hsound : sound ∈ s.catalog.eligible (m.scene ++ m.tree.childSounds m.current))
      (hprune : s.rule.prune? (m.histogram.push (s.catalog.family sound)) m.scene.length =
        some reason) :
      Move s m { m with
        tree := m.tree.add m.current sound
        stats := (m.stats.tick.grow sound (s.catalog.family sound)).recordPrune m.scene.length reason
        source := source }
  /-- There is no sound left for another child. -/
  | exhaust (hphase : m.phase = .descend)
      (hlevel : (m.tree.node m.current).level < s.rule.length)
      (hroom : m.tree.hasRoom m.current s.width = true)
      (hnone : s.catalog.eligible (m.scene ++ m.tree.childSounds m.current) = []) :
      Move s m { m with
        tree := m.tree.exhaust m.current
        stats := m.stats.tick.recordPrune m.scene.length .exhaustedCandidates }
  /-- The current node may have no other child. -/
  | leave (hphase : m.phase = .descend)
      (hlevel : (m.tree.node m.current).level < s.rule.length)
      (hroom : m.tree.hasRoom m.current s.width = false) :
      Move s m { m.tick with phase := .backtrack }
  /-- A complete scene follows the rule. -/
  | emit (hphase : m.phase = .emit) (hok : s.rule.reject? m.histogram = none) :
      Move s m { m with
        scenes := m.scenes.push m.scene
        stats := { m.stats.tick with scenesEmitted := m.stats.scenesEmitted + 1 }
        phase := s.phaseAfter (m.scenes.push m.scene).size }
  /-- A complete scene does not follow the rule. -/
  | refuse (reason : RejectReason) (hphase : m.phase = .emit)
      (hreason : s.rule.reject? m.histogram = some reason) :
      Move s m { m with
        stats := { m.stats.tick with finalRejections := m.stats.finalRejections + 1 }
        phase := .backtrack }
  /-- The search returns to the parent of the current node. -/
  | climb (parent : Nat) (hphase : m.phase = .backtrack)
      (hparent : (m.tree.node m.current).parent = some parent) :
      Move s m { m.tick with
        current := parent
        scene := m.scene.dropLast
        histogram := match m.scene.getLast? with
          | some sound => m.histogram.pop (s.catalog.family sound)
          | none => m.histogram
        phase := .descend }
  /-- The search has come back to the root and ends. -/
  | finish (hphase : m.phase = .backtrack) (hparent : (m.tree.node m.current).parent = none) :
      Move s m { m.tick with phase := .done .treeExhausted }

section Moves

variable {s : Search} {m : State σ}

theorem isDone_eq_false_iff : m.isDone = false ↔ ∀ t, m.phase ≠ .done t := by
  unfold State.isDone
  split
  · next t h => simp [h]
  · next h => simpa using h

theorem isDone_eq_true_iff : m.isDone = true ↔ ∃ t, m.phase = .done t := by
  rw [← not_iff_not, Bool.not_eq_true, isDone_eq_false_iff, not_exists]

theorem grow_move {sound : Nat} {draws : Draws} {source : σ} (hphase : m.phase = .descend)
    (hlevel : (m.tree.node m.current).level < s.rule.length)
    (hroom : m.tree.hasRoom m.current s.width = true)
    (hsound : sound ∈ s.catalog.eligible (m.scene ++ m.tree.childSounds m.current))
    (hdraws : draws = m.stats.draws.record sound (s.catalog.family sound)) :
    Move s m (s.grow sound draws source m.tick) := by
  subst hdraws
  unfold grow
  simp only [State.tick]
  split
  · next hkeep => exact .keep sound source hphase hlevel hroom hsound hkeep
  · next reason hprune => exact .prune sound source reason hphase hlevel hroom hsound hprune

theorem emit_move (hphase : m.phase = .emit) : Move s m (s.emit m.tick) := by
  unfold emit
  split
  · next hok => exact .emit hphase hok
  · next reason hreason => exact .refuse reason hphase hreason

theorem backtrack_move (hphase : m.phase = .backtrack) : Move s m (s.backtrack m.tick) := by
  unfold backtrack
  split
  · next parent hparent => exact .climb parent hphase hparent
  · next hparent => exact .finish hphase hparent

variable [RandomSource σ]

theorem descend_move (hphase : m.phase = .descend) : Move s m (s.descend m.tick) := by
  unfold descend
  split
  · next hlevel => exact .arrive hphase hlevel
  · next hlevel =>
    have hlevel : (m.tree.node m.current).level < s.rule.length := Nat.lt_of_not_le hlevel
    split
    · next hroom =>
      split
      · next hdraw =>
        obtain ⟨hsound, hdraws⟩ := Catalog.drawCandidate_ok hdraw
        exact grow_move hphase hlevel hroom hsound hdraws
      · next hdraw =>
        exact .exhaust hphase hlevel hroom (Catalog.drawCandidate_error hdraw)
    · next hroom => exact .leave hphase hlevel (Bool.eq_false_iff.mpr hroom)

/-- Every step of a search that has not ended is a move. -/
theorem act_move (h : m.isDone = false) : Move s m (s.act m.tick) := by
  unfold act
  split
  · next hphase => exact descend_move hphase
  · next hphase => exact emit_move hphase
  · next hphase => exact backtrack_move hphase
  · next t hphase => exact absurd hphase (isDone_eq_false_iff.mp h t)

end Moves

section Steps

variable [RandomSource σ] {s : Search} {m : State σ} {clock : Nat → Nat}

/-- The states that a search comes to as long as no budget ends it. -/
inductive Reachable (s : Search) (source : σ) : State σ → Prop
  | start : Reachable s source (s.start source)
  | act {m : State σ} (h : Reachable s source m) (hopen : m.isDone = false) :
      Reachable s source (s.act m.tick)

theorem step_of_isDone (h : m.isDone = true) (elapsed : Nat) : s.step elapsed m = m := by
  obtain ⟨t, ht⟩ := isDone_eq_true_iff.mp h
  unfold step
  rw [ht]

theorem step_of_overrun {elapsed : Nat} {t : Termination} (h : m.isDone = false)
    (ht : s.overrun? m.stats.steps elapsed = some t) :
    s.step elapsed m = { m with phase := .done t } := by
  unfold step
  split
  · next t hphase => exact absurd hphase (isDone_eq_false_iff.mp h t)
  · rw [ht]

theorem step_of_open {elapsed : Nat} (h : m.isDone = false)
    (ht : s.overrun? m.stats.steps elapsed = none) : s.step elapsed m = s.act m.tick := by
  unfold step
  split
  · next t hphase => exact absurd hphase (isDone_eq_false_iff.mp h t)
  · rw [ht]
    rfl

theorem steps_of_isDone (h : m.isDone = true) (n : Nat) : s.steps clock n m = m := by
  cases n with
  | zero => rfl
  | succ n => rw [steps, if_pos h]

/-- The last of some steps may be split off as well as the first. -/
theorem steps_succ (n : Nat) (m : State σ) :
    s.steps clock (n + 1) m =
      s.step (clock (s.steps clock n m).stats.steps) (s.steps clock n m) := by
  induction n generalizing m with
  | zero =>
    rw [steps, steps, steps]
    split
    · next h => rw [step_of_isDone h]
    · rfl
  | succ n ih =>
    by_cases h : m.isDone = true
    · rw [steps_of_isDone h, steps_of_isDone h, step_of_isDone h]
    · rw [steps, if_neg h, ih, steps, if_neg h]

/-- A state that a run comes to is reachable, or a budget has ended the search there. -/
theorem steps_cases (s : Search) (clock : Nat → Nat) (source : σ) (n : Nat) :
    Reachable s source (s.steps clock n (s.start source)) ∨
      ∃ m t elapsed, Reachable s source m ∧ m.isDone = false ∧
        s.overrun? m.stats.steps elapsed = some t ∧
        s.steps clock n (s.start source) = { m with phase := .done t } := by
  induction n with
  | zero => exact .inl .start
  | succ n ih =>
    rw [steps_succ]
    generalize s.steps clock n (s.start source) = m at ih
    by_cases hdone : m.isDone = true
    · rwa [step_of_isDone hdone]
    · have hopen : m.isDone = false := Bool.eq_false_iff.mpr hdone
      have hm : Reachable s source m := by
        rcases ih with hm | ⟨m₀, t, _, _, _, _, rfl⟩
        · exact hm
        · exact absurd rfl hdone
      cases ht : s.overrun? m.stats.steps (clock m.stats.steps) with
      | some t => exact .inr ⟨m, t, _, hm, hopen, ht, step_of_overrun hopen ht⟩
      | none =>
        rw [step_of_open hopen ht]
        exact .inl (hm.act hopen)

theorem byBudget_of_overrun? {steps elapsed : Nat} {t : Termination}
    (h : s.overrun? steps elapsed = some t) : t.byBudget = true := by
  rcases Option.or_eq_some_iff.mp h with h | ⟨-, h⟩
  · obtain ⟨k, -, -, rfl⟩ := spent?_eq_some_iff.mp h
    rfl
  · obtain ⟨k, -, -, rfl⟩ := spent?_eq_some_iff.mp h
    rfl

/-- A budget changes nothing in a state but its phase. -/
theorem steps_reachable (s : Search) (clock : Nat → Nat) (source : σ) (n : Nat) :
    ∃ m, Reachable s source m ∧ (s.steps clock n (s.start source) = m ∨
      ∃ t, t.byBudget = true ∧ s.steps clock n (s.start source) = { m with phase := .done t }) := by
  rcases steps_cases s clock source n with h | ⟨m, t, _, h, _, ht, heq⟩
  · exact ⟨_, h, .inl rfl⟩
  · exact ⟨m, h, .inr ⟨t, byBudget_of_overrun? ht, heq⟩⟩

end Steps

end Search

end SoundScenes
