import FreeRtosSim.Sim.Generator

/-!
# What the generator's tests decide

The third loop of `startTaskSetGenerator` tests a table in which every
duration is still 0, so it accepts whatever it has drawn; then constraints
are drawn once more and the durations computed. What the tests say of the task
set that is simulated, nobody has looked at.
-/

namespace FreeRtosSim

variable {K : Type*} [Field K] [LinearOrder K] [FloorRing K] {libc : Libc K}
  {g g' : Generator K} {i n fuel : Nat}

/-! ## Loops -/

/-- What a loop ends with has passed the test, and keeps what the body keeps. -/
theorem loopUntil_some {σ : Type*} {test : σ → Bool} {body : σ → σ}
    {I : σ → Prop} (hI : ∀ s, I s → I (body s)) {s s' : σ} (hs : I s)
    (h : loopUntil test body fuel s = some s') : I s' ∧ test s' = true := by
  induction fuel generalizing s with
  | zero => simp [loopUntil] at h
  | succ fuel ih =>
      rw [loopUntil] at h
      split at h
      · next htest =>
          cases h
          exact ⟨hI s hs, htest⟩
      · exact ih (hI s hs) h

/-- What a loop ends with is what its last round made. -/
theorem loopUntil_body {σ : Type*} {test : σ → Bool} {body : σ → σ}
    {I : σ → Prop} (hI : ∀ s, I s → I (body s)) {s s' : σ} (hs : I s)
    (h : loopUntil test body fuel s = some s') : ∃ s₀, I s₀ ∧ s' = body s₀ ∧
      test s' = true := by
  induction fuel generalizing s with
  | zero => simp [loopUntil] at h
  | succ fuel ih =>
      rw [loopUntil] at h
      split at h
      · next htest =>
          cases h
          exact ⟨s, hs, rfl, htest⟩
      · exact ih (hI s hs) h

namespace Generator

/-! ## Draws -/

omit [LinearOrder K] [FloorRing K] in
theorem drawEach_eq (f : K → PeriodicTask → PeriodicTask) (g : Generator K) :
    g.drawEach libc f =
      { g with
        sim := { g.sim with
          taskSet := fun i =>
            if i < g.sim.taskCnt then
              f (rand0To1 libc (g.drawn + i)) (g.sim.taskSet i)
            else g.sim.taskSet i }
        drawn := g.drawn + g.sim.taskCnt } := by
  have hrounds : ∀ n, (List.range n).foldl (fun g i =>
      { draw g with sim := g.sim.modify i (f (rand0To1 libc g.drawn)) }) g =
      { g with
        sim := (List.range n).foldl (fun s i =>
          s.modify i (f (rand0To1 libc (g.drawn + i)))) g.sim
        drawn := g.drawn + n } := by
    intro n
    induction n with
    | zero => rfl
    | succ n ih =>
        rw [List.range_succ, List.foldl_append, ih, List.foldl_append]
        rfl
  rw [drawEach, hrounds, Simulator.foldl_modify]

/-- No task has a duration yet. -/
def Idle (g : Generator K) : Prop := ∀ i, (g.sim.taskSet i).duration = 0

omit [LinearOrder K] [FloorRing K] in
theorem Idle.drawEach (libc : Libc K) {f : K → PeriodicTask → PeriodicTask}
    (hf : ∀ r t, (f r t).duration = t.duration) (h : g.Idle) :
    (g.drawEach libc f).Idle := by
  intro i
  rw [drawEach_eq]
  show (if i < g.sim.taskCnt then _ else _ : PeriodicTask).duration = 0
  split
  · rw [hf]
    exact h i
  · exact h i

omit [LinearOrder K] [FloorRing K] in
theorem calculateUtilization_sim (utilization : K) (g : Generator K) :
    (g.calculateUtilization libc utilization).sim = g.sim := by
  have hrounds : ∀ (l : List Nat) (acc : K × Generator K),
      (l.foldl (utilizationStep libc) acc).2.sim = acc.2.sim := by
    intro l
    induction l with
    | nil => intro acc; rfl
    | cons i l ih => intro acc; rw [List.foldl_cons, ih]; rfl
  exact hrounds _ _

/-- The first two loops leave the durations alone. -/
theorem idle_choosePeriods {utilization : K}
    (h : choosePeriods libc fuel utilization (zeroed n) = some g) :
    g.Idle ∧ g.sim.taskCnt = n := by
  obtain ⟨g₁, hfirst, hsecond⟩ := Option.bind_eq_some_iff.mp h
  have hutil := (loopUntil_some
    (I := fun g : Generator K => g.Idle ∧ g.sim.taskCnt = n)
    (fun s hs => by
      rw [Idle, calculateUtilization_sim]
      exact hs) ⟨fun _ => rfl, rfl⟩ hfirst).1
  refine (loopUntil_some
    (I := fun g : Generator K => g.Idle ∧ g.sim.taskCnt = n)
    (fun s hs => ?_) hutil hsecond).1
  refine ⟨hs.1.drawEach libc
    (f := fun r t => { t with period := tickOfInt (periodOf r) })
    fun _ _ => rfl, ?_⟩
  show (s.generatePeriods libc).sim.taskCnt = n
  rw [generatePeriods, drawEach_eq]
  exact hs.2

/-! ## The acceptance loop -/

theorem nesseryTerm_of_idle {t : PeriodicTask} (h : t.duration = 0) :
    nesseryTerm t = 0 := by
  have hzero : t.getTaskDuration = 0 := by
    rw [PeriodicTask.getTaskDuration, h]
    rfl
  unfold nesseryTerm
  rw [hzero]
  split <;> simp

/-- Without durations the tests pass whatever was drawn. -/
theorem chooseWeaklyHard_eq (h : g.Idle) :
    chooseWeaklyHard libc (fuel + 1) g = some (g.generateWeaklyHard libc) := by
  have hidle : (g.generateWeaklyHard libc).Idle := h.drawEach libc fun _ _ => rfl
  have hnessery : checkNesseryCondition (g.generateWeaklyHard libc).sim = 1 := by
    rw [checkNesseryCondition_eq_one_iff,
      Finset.sum_eq_zero fun i _ => nesseryTerm_of_idle (hidle i)]
    exact zero_le_one
  rw [chooseWeaklyHard, loopUntil, if_pos]
  rw [hnessery, checkSufficientCondition_eq]
  rfl

/-- The generator is the first two loops, one draw that nothing depends on,
and the rest. -/
theorem startTaskSetGenerator_eq (utilization : K) :
    startTaskSetGenerator libc (fuel + 1) utilization n =
      (choosePeriods libc (fuel + 1) utilization (zeroed n)).map
        fun g => (g.generateWeaklyHard libc).finish libc := by
  rw [startTaskSetGenerator]
  cases hchoose : choosePeriods libc (fuel + 1) utilization (zeroed n) with
  | none => rfl
  | some g =>
      have hidle := (idle_choosePeriods hchoose).1
      simp only [bind, Option.bind, chooseWeaklyHard_eq hidle, Option.map]
      rfl

/-! ## The table at return -/

theorem finish_taskCnt : (g.finish libc).sim.taskCnt = g.sim.taskCnt := by
  simp only [finish, Simulator.resetReports, Simulator.resetTimesKilled,
    Simulator.calculateNumOfPeriods, Simulator.forEachTask_eq,
    calculateHiperperiod, calculateTaskDuration, generateWeaklyHard,
    drawEach_eq, Simulator.foldl_modify]

/-- The fields the tests read. -/
theorem finish_entry (libc : Libc K) (hi : i < g.sim.taskCnt) :
    ((g.finish libc).sim.taskSet i).period = (g.sim.taskSet i).period ∧
    ((g.finish libc).sim.taskSet i).duration =
      durationOf (g.sim.taskSet i) (g.u i) ∧
    ((g.finish libc).sim.taskSet i).weaklyHardConstraint =
      (weaklyHardOf (rand0To1 libc (g.drawn + i) : K)).toNat := by
  simp only [finish, Simulator.resetReports, Simulator.resetTimesKilled,
    Simulator.calculateNumOfPeriods, Simulator.forEachTask_eq,
    calculateHiperperiod, calculateTaskDuration, generateWeaklyHard,
    drawEach_eq, Simulator.foldl_modify, if_pos hi, true_and, and_true]
  rfl

/-- The draws `1073741824, 0, 0, 0, 0, 0, 0`: two tasks with half of the
utilisation each, period 20, and constraint 0. -/
def halves : Libc ℚ where
  rand m := if m = 0 then 1073741824 else 0
  pow x _ := x

/-- With a total utilisation of 1.3 they get 13 of 20 ticks each. -/
theorem admission_fails_at_return :
    ∃ g', startTaskSetGenerator halves 1 (13 / 10) 2 = some g' ∧
      checkNesseryCondition g'.sim = 0 := by
  have hrun : (startTaskSetGenerator halves 1 (13 / 10) 2).map
      (fun g => checkNesseryCondition g.sim) = some 0 := by
    rw [startTaskSetGenerator_eq, Option.map_map]
    decide +kernel
  rw [Option.map_eq_some_iff] at hrun
  exact hrun

end Generator

end FreeRtosSim
