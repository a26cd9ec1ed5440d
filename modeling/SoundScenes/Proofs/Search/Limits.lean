import SoundScenes.Proofs.Search.Enumeration

/-!
# What limits take away

A cap on scenes and a budget of steps only cut a search off. Taken step by step, the limited search
is in the same state as the search without limits, until one of them ends it. A scene that reaches
the cap ends the search at once, the budget before the next step.

* `Follows.step` — the limited search stays behind the search without limits;
* `run_truncates` — what a limited run finds, and how it ends.
-/

namespace SoundScenes.Search

variable {σ : Type} {s : Search} {v m : State σ}

/-! ## Where a limited search is -/

/-- Where a limited search is when the search without limits is in a state. -/
inductive Follows (s : Search) (v : State σ) : State σ → Prop
  /-- Both are in the same state. -/
  | along (hcap : ∀ k, s.cap = some k → v.scenes.size < k)
      (hbudget : ∀ b, s.stepBudget = some b → v.stats.steps ≤ b) : Follows s v v
  /-- The cap has ended the limited search. -/
  | capped (m : State σ) (k : Nat) (hphase : m.phase = .done (.sceneCap k)) (hcap : s.cap = some k)
      (hsize : m.scenes.size = k) (hbudget : ∀ b, s.stepBudget = some b → m.stats.steps ≤ b)
      (hbegins : m.scenes.toList <+: v.scenes.toList) : Follows s v m
  /-- The budget has ended the limited search, and the other one has gone on. -/
  | spent (m : State σ) (b : Nat) (hphase : m.phase = .done (.stepBudget b))
      (hbudget : s.stepBudget = some b) (hsteps : m.stats.steps = b) (hmore : b < v.stats.steps)
      (hcap : ∀ k, s.cap = some k → m.scenes.size < k)
      (hbegins : m.scenes.toList <+: v.scenes.toList) : Follows s v m

/-- The phase of the first state is the only difference that a cap makes there. -/
theorem follows_start (s : Search) (source : σ) :
    Follows s (s.unlimited.start source) (s.start source) := by
  cases hcap : s.capReached? 0 with
  | none =>
    have hstart : s.start source = s.unlimited.start source := by
      rw [start, hcap]
      rfl
    rw [hstart]
    exact .along (spent?_eq_none_iff.mp hcap) fun b _ => Nat.zero_le b
  | some t =>
    obtain ⟨k, hk, hle, rfl⟩ := spent?_eq_some_iff.mp hcap
    refine .capped _ k ?_ hk (Nat.le_zero.mp hle).symm (fun b _ => Nat.zero_le b) List.nil_prefix
    rw [start, hcap]

/-! ## One step -/

theorem overrun?_of_time (htime : s.timeBudget = none) (steps elapsed : Nat) :
    s.overrun? steps elapsed = spent? s.stepBudget steps .stepBudget := by
  rw [overrun?, htime]
  exact Option.or_none

theorem backtrack_scenes (s : Search) (m : State σ) : (s.backtrack m).scenes = m.scenes := by
  unfold backtrack
  split <;> rfl

section Steps

variable [RandomSource σ]

theorem descend_scenes (s : Search) (m : State σ) : (s.descend m).scenes = m.scenes := by
  unfold descend
  split
  · rfl
  · split
    · split
      · unfold grow
        simp only
        split <;> rfl
      · rfl
    · rfl

/-- A step does the same with limits and without, but that a cap may end the search when a scene is
kept. -/
theorem act_cases (s : Search) (m : State σ) :
    (s.act m = s.unlimited.act m ∧ (s.unlimited.act m).scenes = m.scenes) ∨
      (s.act m = { s.unlimited.act m with phase := s.phaseAfter (m.scenes.push m.scene).size } ∧
        (s.unlimited.act m).phase = .backtrack ∧
        (s.unlimited.act m).scenes = m.scenes.push m.scene) := by
  cases hphase : m.phase with
  | descend =>
    have hact (s : Search) : s.act m = s.descend m := by rw [act, hphase]
    rw [hact, hact]
    exact .inl ⟨rfl, descend_scenes _ m⟩
  | emit =>
    have hact (s : Search) : s.act m = s.emit m := by rw [act, hphase]
    have hrule : s.unlimited.rule = s.rule := rfl
    rw [hact, hact]
    cases hok : s.rule.reject? m.histogram with
    | none =>
      rw [emit, emit, hrule, hok]
      exact .inr ⟨rfl, rfl, rfl⟩
    | some reason =>
      rw [emit, emit, hrule, hok]
      exact .inl ⟨rfl, rfl⟩
  | backtrack =>
    have hact (s : Search) : s.act m = s.backtrack m := by rw [act, hphase]
    rw [hact, hact]
    exact .inl ⟨rfl, backtrack_scenes _ m⟩
  | done t =>
    have hact (s : Search) : s.act m = m := by rw [act, hphase]
    rw [hact, hact]
    exact .inl ⟨rfl, rfl⟩

/-- Without limits a search that has not ended always takes its step. -/
theorem unlimited_step (hopen : v.isDone = false) (elapsed : Nat) :
    s.unlimited.step elapsed v = s.unlimited.act v.tick :=
  step_of_open hopen rfl

/-- A step loses no scene and no step. -/
theorem unlimited_step_extends (s : Search) (elapsed : Nat) (v : State σ) :
    v.scenes.toList <+: (s.unlimited.step elapsed v).scenes.toList ∧
      v.stats.steps ≤ (s.unlimited.step elapsed v).stats.steps := by
  by_cases hdone : v.isDone = true
  · rw [step_of_isDone hdone]
    exact ⟨List.prefix_refl _, Nat.le_refl _⟩
  · have hopen : v.isDone = false := Bool.eq_false_iff.mpr hdone
    rw [unlimited_step hopen, (act_move hopen).steps_eq]
    refine ⟨?_, Nat.le_succ _⟩
    rcases act_cases s v.tick with ⟨-, hscenes⟩ | ⟨-, -, hscenes⟩
    · rw [hscenes]
      exact List.prefix_refl _
    · rw [hscenes, Array.toList_push]
      exact List.prefix_append _ _

/-- If the budget allows for a step, both searches take it, and only a cap can part them. -/
theorem follows_act (hopen : v.isDone = false) (hcap : ∀ k, s.cap = some k → v.scenes.size < k)
    (hbudget : ∀ b, s.stepBudget = some b → v.stats.steps < b) :
    Follows s (s.unlimited.act v.tick) (s.act v.tick) := by
  have hsteps (s : Search) : (s.act v.tick).stats.steps = v.stats.steps + 1 :=
    (act_move hopen).steps_eq
  have hbudget (s' : Search) (b : Nat) (hb : s.stepBudget = some b) :
      (s'.act v.tick).stats.steps ≤ b := by
    rw [hsteps]
    exact hbudget b hb
  rcases act_cases s v.tick with ⟨hact, hscenes⟩ | ⟨hact, hphase, hscenes⟩
  · rw [hact]
    refine .along ?_ (hbudget s.unlimited)
    rw [hscenes]
    exact hcap
  · have hsize : (s.unlimited.act v.tick).scenes.size = v.scenes.size + 1 := by
      rw [hscenes]
      exact Array.size_push _
    have hafter : (v.tick.scenes.push v.tick.scene).size = v.scenes.size + 1 := Array.size_push _
    rw [hafter] at hact
    cases hreached : s.capReached? (v.scenes.size + 1) with
    | none =>
      rw [phaseAfter, hreached, ← hphase] at hact
      rw [hact]
      refine .along ?_ (hbudget s.unlimited)
      rw [hsize]
      exact spent?_eq_none_iff.mp hreached
    | some t =>
      obtain ⟨k, hk, hle, rfl⟩ := spent?_eq_some_iff.mp hreached
      have hlt := hcap k hk
      refine .capped _ k ?_ hk ?_ (hbudget s) ?_
      · rw [hact, phaseAfter, hreached]
      · rw [hact]
        show (s.unlimited.act v.tick).scenes.size = k
        omega
      · rw [hact]

/-- A step of both searches leaves the limited one behind the other. -/
theorem Follows.step (h : Follows s v m) (htime : s.timeBudget = none) (elapsed elapsed' : Nat) :
    Follows s (s.unlimited.step elapsed v) (s.step elapsed' m) := by
  obtain ⟨hscenes, hsteps⟩ := unlimited_step_extends s elapsed v
  cases h with
  | capped m k hphase hcap hsize hbudget hbegins =>
    rw [step_of_isDone (isDone_eq_true_iff.mpr ⟨_, hphase⟩)]
    exact .capped m k hphase hcap hsize hbudget (hbegins.trans hscenes)
  | spent m b hphase hbudget hspent hmore hcap hbegins =>
    rw [step_of_isDone (isDone_eq_true_iff.mpr ⟨_, hphase⟩)]
    exact .spent m b hphase hbudget hspent (by omega) hcap (hbegins.trans hscenes)
  | along hcap hbudget =>
    by_cases hdone : v.isDone = true
    · rw [step_of_isDone hdone, step_of_isDone hdone]
      exact .along hcap hbudget
    · have hopen : v.isDone = false := Bool.eq_false_iff.mpr hdone
      cases hover : s.overrun? v.stats.steps elapsed' with
      | none =>
        rw [unlimited_step hopen, step_of_open hopen hover]
        rw [overrun?_of_time htime] at hover
        exact follows_act hopen hcap (spent?_eq_none_iff.mp hover)
      | some t =>
        rw [step_of_overrun hopen hover]
        rw [overrun?_of_time htime] at hover
        obtain ⟨b, hb, hle, rfl⟩ := spent?_eq_some_iff.mp hover
        -- the budget ends the search exactly when it is used up, and the other one goes on
        refine .spent _ b rfl hb (Nat.le_antisymm (hbudget b hb) hle) ?_ hcap hscenes
        have hone := (act_move (s := s.unlimited) hopen).steps_eq
        rw [unlimited_step hopen, hone]
        exact Nat.lt_succ_of_le hle

/-- After every number of steps the limited search is behind the search without limits. -/
theorem follows_steps (s : Search) (htime : s.timeBudget = none) (clock : Nat → Nat) (source : σ)
    (n : Nat) :
    Follows s (s.unlimited.steps clock n (s.unlimited.start source))
      (s.steps clock n (s.start source)) := by
  induction n with
  | zero => exact follows_start s source
  | succ n ih =>
    rw [steps_succ, steps_succ]
    exact ih.step htime _ _

end Steps

/-! ## Runs -/

/-- What a limited search finds of what the whole search finds, and how it ends. -/
structure Truncates (s : Search) (o whole : Outcome σ) : Prop where
  scenes_begin : o.scenes <+: whole.scenes
  length_le : ∀ k, s.cap = some k → o.scenes.length ≤ k
  steps_le : ∀ b, s.stepBudget = some b → o.stats.steps ≤ b
  sceneCap_iff : ∀ k, o.termination = .sceneCap k ↔ s.cap = some k ∧ o.scenes.length = k
  /-- With a cap of zero there is no step, whatever the budget. -/
  cap_zero : s.cap = some 0 → o.stats.steps = 0
  treeExhausted_iff : o.termination = .treeExhausted ↔
    (∀ k, s.cap = some k → o.scenes.length ≠ k) ∧
      ∀ b, s.stepBudget = some b → whole.stats.steps ≤ b
  eq_whole : o.termination = .treeExhausted → o = whole
  stepBudget_iff : ∀ b, o.termination = .stepBudget b ↔
    (∀ k, s.cap = some k → o.scenes.length ≠ k) ∧ s.stepBudget = some b ∧ b < whole.stats.steps
  steps_eq : ∀ b, o.termination = .stepBudget b → o.stats.steps = b
  /-- A cap alone leaves the first scenes. -/
  take : s.stepBudget = none → ∀ k, s.cap = some k → o.scenes = whole.scenes.take k

namespace Truncates

variable {o whole : Outcome σ}

/-- A search that has not been cut off. -/
theorem of_whole (ht : o.termination = .treeExhausted)
    (hcap : ∀ k, s.cap = some k → o.scenes.length < k)
    (hbudget : ∀ b, s.stepBudget = some b → o.stats.steps ≤ b) : Truncates s o o where
  scenes_begin := List.prefix_refl _
  length_le k hk := (hcap k hk).le
  steps_le := hbudget
  sceneCap_iff k := by
    rw [ht]
    refine ⟨fun h => (by cases h), ?_⟩
    rintro ⟨hk, hlength⟩
    exact absurd hlength (hcap k hk).ne
  cap_zero h := absurd (hcap 0 h) (Nat.not_lt_zero _)
  treeExhausted_iff := ⟨fun _ => ⟨fun k hk => (hcap k hk).ne, hbudget⟩, fun _ => ht⟩
  eq_whole _ := rfl
  stepBudget_iff b := by
    rw [ht]
    refine ⟨fun h => (by cases h), ?_⟩
    rintro ⟨-, hb, hlt⟩
    exact absurd (hbudget b hb) (Nat.not_le_of_lt hlt)
  steps_eq b h := by
    rw [ht] at h
    cases h
  take _ k hk := (List.take_of_length_le (hcap k hk).le).symm

/-- A search that the cap has ended. -/
theorem of_capped {k : Nat} (ht : o.termination = .sceneCap k) (hcap : s.cap = some k)
    (hlength : o.scenes.length = k) (hzero : s.cap = some 0 → o.stats.steps = 0)
    (hbudget : ∀ b, s.stepBudget = some b → o.stats.steps ≤ b)
    (hbegins : o.scenes <+: whole.scenes) : Truncates s o whole where
  scenes_begin := hbegins
  length_le k' hk' := by
    rw [hcap] at hk'
    cases hk'
    exact hlength.le
  steps_le := hbudget
  sceneCap_iff k' := by
    rw [ht, hcap]
    constructor
    · rintro ⟨⟩
      exact ⟨rfl, hlength⟩
    · rintro ⟨⟨⟩, -⟩
      rfl
  cap_zero := hzero
  treeExhausted_iff := by
    rw [ht]
    exact ⟨fun h => (by cases h), fun h => absurd hlength (h.1 k hcap)⟩
  eq_whole h := by
    rw [ht] at h
    cases h
  stepBudget_iff b := by
    rw [ht]
    exact ⟨fun h => (by cases h), fun h => absurd hlength (h.1 k hcap)⟩
  steps_eq b h := by
    rw [ht] at h
    cases h
  take _ k' hk' := by
    rw [hcap] at hk'
    cases hk'
    rw [← hlength]
    exact List.prefix_iff_eq_take.mp hbegins

/-- A search that the budget has ended. -/
theorem of_spent {b : Nat} (ht : o.termination = .stepBudget b) (hbudget : s.stepBudget = some b)
    (hsteps : o.stats.steps = b) (hmore : b < whole.stats.steps)
    (hcap : ∀ k, s.cap = some k → o.scenes.length < k)
    (hbegins : o.scenes <+: whole.scenes) : Truncates s o whole where
  scenes_begin := hbegins
  length_le k hk := (hcap k hk).le
  steps_le b' hb' := by
    rw [hbudget] at hb'
    cases hb'
    exact hsteps.le
  sceneCap_iff k := by
    rw [ht]
    refine ⟨fun h => (by cases h), ?_⟩
    rintro ⟨hk, hlength⟩
    exact absurd hlength (hcap k hk).ne
  cap_zero h := absurd (hcap 0 h) (Nat.not_lt_zero _)
  treeExhausted_iff := by
    rw [ht]
    exact ⟨fun h => (by cases h), fun h => absurd (h.2 b hbudget) (Nat.not_le_of_lt hmore)⟩
  eq_whole h := by
    rw [ht] at h
    cases h
  stepBudget_iff b' := by
    rw [ht, hbudget]
    constructor
    · rintro ⟨⟩
      exact ⟨fun k hk => (hcap k hk).ne, rfl, hmore⟩
    · rintro ⟨-, ⟨⟩, -⟩
      rfl
  steps_eq b' h := by
    rw [ht] at h
    cases h
    exact hsteps
  take h := by
    rw [hbudget] at h
    cases h

end Truncates

variable [RandomSource σ]

/-- With a cap of zero a run takes no step. -/
theorem run_cap_zero (hcap : s.cap = some 0) (clock : Nat → Nat) (source : σ) :
    s.run clock source = (s.start source).outcome := by
  have hphase : (s.start source).phase = .done (.sceneCap 0) := by
    rw [start, capReached?, hcap]
    rfl
  rw [run, steps_of_isDone (isDone_eq_true_iff.mpr ⟨_, hphase⟩)]

/-- **A cap and a budget of steps only cut a search off.** What the limited search finds is the
beginning of what the search without limits finds. It ends at the cap exactly if it has found as
many scenes; otherwise by itself if the budget allows for all steps, and at the budget if not. -/
theorem run_truncates (s : Search) (htime : s.timeBudget = none) (clock : Nat → Nat) (source : σ) :
    s.EndsWith clock source (s.run clock source) ∧
      s.unlimited.EndsWith clock source (s.unlimited.run clock source) ∧
      s.Truncates (s.run clock source) (s.unlimited.run clock source) := by
  refine ⟨endsWith_run s clock source, endsWith_run _ clock source, ?_⟩
  have hzero : s.cap = some 0 → (s.run clock source).stats.steps = 0 := fun h => by
    rw [run_cap_zero h]
    rfl
  have hwhole := (unlimited_steps s clock source).2
  have hfollows := follows_steps s htime clock source s.stepBound
  rw [run] at hzero
  rw [run, run]
  show s.Truncates _ (s.unlimited.steps clock s.stepBound (s.unlimited.start source)).outcome
  generalize s.steps clock s.stepBound (s.start source) = m at *
  generalize s.unlimited.steps clock s.stepBound (s.unlimited.start source) = v at *
  cases hfollows with
  | along hcap hbudget =>
    refine .of_whole ?_ hcap hbudget
    rw [State.outcome, hwhole]
  | capped m k hphase hcap hsize hbudget hbegins =>
    refine .of_capped ?_ hcap hsize hzero hbudget hbegins
    rw [State.outcome, hphase]
  | spent m b hphase hbudget hsteps hmore hcap hbegins =>
    refine .of_spent ?_ hbudget hsteps hmore hcap hbegins
    rw [State.outcome, hphase]

/-- A cap of one leaves the first scene of both. -/
theorem run_duetSearch_cap_one :
    ({ duetSearch with cap := some 1 }.run (fun _ => 0) (Pcg.ofSeed 7)).scenes =
      (duetSearch.unlimited.run (fun _ => 0) (Pcg.ofSeed 7)).scenes.take 1 :=
  (run_truncates { duetSearch with cap := some 1 } rfl (fun _ => 0) (Pcg.ofSeed 7)).2.2.take
    rfl 1 rfl

end SoundScenes.Search
