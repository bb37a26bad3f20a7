import FreeRtosSim.Proofs.Sampled
import FreeRtosSim.Proofs.Hyperperiod

/-!
# The tasks the generator hands over

A draw is scaled to a range one larger than it should be at the top, since
`rand_0_to_1` may be 1: only `RAND_MAX` itself gives a period of 101 or a
constraint of 6. The durations are always in range, the loops have seen to
that. The number of periods is at least 1 if the hyperperiod has not wrapped
around; when it has, it may be less than a period.
-/

namespace FreeRtosSim

namespace Generator

variable {K : Type*} [Field K] [LinearOrder K] [IsStrictOrderedRing K] [FloorRing K]
  {libc : Libc K} {U : K} {g g' : Generator K} {n fuel m i : Nat}

/-! ## What a draw is scaled to -/

/-- What is asked of the C library. -/
structure LibcOk (libc : Libc K) : Prop where
  rand : ∀ m, libc.rand m ≤ randMax
  pow : PowInUnit libc.pow

theorem rand0To1_bounds (h : libc.rand m ≤ randMax) :
    0 ≤ (rand0To1 libc m : K) ∧ (rand0To1 libc m : K) ≤ 1 ∧
      ((rand0To1 libc m : K) = 1 ↔ libc.rand m = randMax) := by
  have hpos : (0 : K) < randMax := by exact_mod_cast (show 0 < randMax by decide)
  have hle : (libc.rand m : K) ≤ randMax := by exact_mod_cast h
  refine ⟨div_nonneg (Nat.cast_nonneg _) hpos.le, (div_le_one hpos).mpr hle, ?_⟩
  rw [rand0To1, div_eq_one_iff_eq hpos.ne']
  exact Nat.cast_inj

/-- A draw scaled to a range of `w + 1` values and shifted goes over the top
exactly if it is `RAND_MAX`. -/
theorem castInt_scaled (w low : Nat) (h : libc.rand m ≤ randMax) :
    (low : Int) ≤ castInt ((rand0To1 libc m : K) * (w + 1 : Nat) + low) ∧
    castInt ((rand0To1 libc m : K) * (w + 1 : Nat) + low) ≤ low + w + 1 ∧
    (castInt ((rand0To1 libc m : K) * (w + 1 : Nat) + low) ≤ low + w ↔
      libc.rand m ≠ randMax) := by
  obtain ⟨hr, hr', htop⟩ := rand0To1_bounds (K := K) h
  have hw : (0 : K) < (w + 1 : Nat) := by positivity
  have hlow : (0 : K) ≤ low := Nat.cast_nonneg low
  have hprod : 0 ≤ (rand0To1 libc m : K) * (w + 1 : Nat) := mul_nonneg hr hw.le
  have hprod' : (rand0To1 libc m : K) * (w + 1 : Nat) ≤ (w + 1 : Nat) :=
    mul_le_of_le_one_left hw.le hr'
  rw [castInt_of_nonneg (by linarith), Int.floor_add_natCast]
  have hfloor : 0 ≤ ⌊(rand0To1 libc m : K) * (w + 1 : Nat)⌋ := Int.floor_nonneg.mpr hprod
  have hle : ⌊(rand0To1 libc m : K) * (w + 1 : Nat)⌋ ≤ w + 1 := by
    have := (Int.floor_le _).trans hprod'
    exact_mod_cast this
  refine ⟨by omega, by omega, ?_⟩
  rw [ne_eq, ← htop]
  constructor
  · intro hlast hone
    rw [hone, one_mul, Int.floor_natCast] at hlast
    omega
  · intro hne
    have hlt : (rand0To1 libc m : K) * (w + 1 : Nat) < (w + 1 : Nat) :=
      mul_lt_of_lt_one_left hw (lt_of_le_of_ne hr' hne)
    have hfl : ⌊(rand0To1 libc m : K) * (w + 1 : Nat)⌋ < (w + 1 : Nat) :=
      Int.floor_lt.mpr (by exact_mod_cast hlt)
    omega

theorem periodOf_bounds (h : libc.rand m ≤ randMax) :
    20 ≤ periodOf (rand0To1 libc m : K) ∧ periodOf (rand0To1 libc m : K) ≤ 101 ∧
      (periodOf (rand0To1 libc m : K) ≤ 100 ↔ libc.rand m ≠ randMax) := by
  have heq : periodOf (rand0To1 libc m : K) =
      castInt ((rand0To1 libc m : K) * (80 + 1 : Nat) + (20 : Nat)) := by
    rw [periodOf, highestPeriod, lowestPeriod]
    norm_num
  rw [heq]
  exact castInt_scaled 80 20 h

theorem weaklyHardOf_bounds (h : libc.rand m ≤ randMax) :
    0 ≤ weaklyHardOf (rand0To1 libc m : K) ∧
      (weaklyHardOf (rand0To1 libc m : K) ≤ 5 ↔ libc.rand m ≠ randMax) := by
  have heq : weaklyHardOf (rand0To1 libc m : K) =
      castInt ((rand0To1 libc m : K) * (5 + 1 : Nat) + (0 : Nat)) := by
    rw [weaklyHardOf, highestWh, lowestWh]
    norm_num
  rw [heq]
  obtain ⟨hlow, -, htop⟩ := castInt_scaled (K := K) 5 0 h
  exact ⟨hlow, htop⟩

/-! ## What the first two loops leave -/

/-- The state before the constraints are drawn. The accepted periods are the
last `n` draws. -/
structure Chosen (libc : Libc K) (U : K) (n : Nat) (g : Generator K) : Prop where
  taskCnt : g.sim.taskCnt = n
  u : ∀ i < n, 0 ≤ g.u i ∧ g.u i < 7 / 10
  sum : 1 ≤ n → ∑ i ∈ Finset.range n, g.u i = U
  drawn : n ≤ g.drawn
  period : ∀ i < n, (g.sim.taskSet i).period =
    tickOfInt (periodOf (rand0To1 libc (g.drawn - n + i) : K))
  hiperperiod : g.sim.hiperperiod = (calculateHiperperiod g.sim).hiperperiod
  accepted : g.sim.hiperperiod < maxHiperperiod

theorem chosen_of_choosePeriods (hl : LibcOk libc) (hU : 0 ≤ U)
    (h : choosePeriods libc fuel U (zeroed n) = some g) : Chosen libc U n g := by
  obtain ⟨g₁, hfirst, hsecond⟩ := Option.bind_eq_some_iff.mp h
  have hunit : FactorsInUnit (rand0To1 libc : Nat → K) := fun m => by
    obtain ⟨hr, hr', -⟩ := rand0To1_bounds (K := K) (hl.rand m)
    exact ⟨hr, hr'⟩
  rw [calculateUtilization_eq] at hfirst
  obtain ⟨s, hcnt, rfl, htest⟩ := loopUntil_body (I := fun g : Generator K =>
    g.sim.taskCnt = n) (fun s hs => by rw [sampleUtilization_sim]; exact hs) rfl hfirst
  rw [decide_eq_true_eq, checkUtilization_iff, sampleUtilization_sim, hcnt] at htest
  have hu : ∀ i < n, 0 ≤ (sampleUtilization (rand0To1 libc) libc.pow U s).u i ∧
      (sampleUtilization (rand0To1 libc) libc.pow U s).u i < 7 / 10 := fun i hi =>
    ⟨(sampleUtilization_bounds hunit hl.pow hU (by omega)).1, htest i hi⟩
  obtain ⟨s', hs', rfl, hacc⟩ := loopUntil_body (I := fun g : Generator K =>
      g.sim.taskCnt = n ∧ g.u = (sampleUtilization (rand0To1 libc) libc.pow U s).u)
    (fun t ht => by
      dsimp only
      rw [generatePeriods, drawEach_eq]
      exact ht) ⟨by rw [sampleUtilization_sim]; exact hcnt, rfl⟩ hsecond
  obtain ⟨hcnt', hu'⟩ := hs'
  rw [decide_eq_true_eq] at hacc
  have hfields : (s'.generatePeriods libc).sim.taskCnt = n ∧
      (s'.generatePeriods libc).u = s'.u ∧
      (s'.generatePeriods libc).drawn = s'.drawn + n ∧
      ∀ i < n, ((s'.generatePeriods libc).sim.taskSet i).period =
        tickOfInt (periodOf (rand0To1 libc (s'.drawn + i) : K)) := by
    rw [generatePeriods, drawEach_eq]
    refine ⟨hcnt', rfl, congrArg (s'.drawn + ·) hcnt', fun i hi => ?_⟩
    dsimp only
    rw [if_pos (by omega)]
  obtain ⟨hc, hku, hd, hp⟩ := hfields
  exact
    { taskCnt := hc
      u := by
        intro i hi
        show 0 ≤ (s'.generatePeriods libc).u i ∧ (s'.generatePeriods libc).u i < 7 / 10
        rw [hku, hu']
        exact hu i hi
      sum := by
        intro hn
        show ∑ i ∈ Finset.range n, (s'.generatePeriods libc).u i = U
        rw [hku, hu', ← hcnt]
        exact sampleUtilization_sum _ _ U s (by omega)
      drawn := by
        show n ≤ (s'.generatePeriods libc).drawn
        omega
      period := by
        intro i hi
        show ((s'.generatePeriods libc).sim.taskSet i).period =
          tickOfInt (periodOf (rand0To1 libc ((s'.generatePeriods libc).drawn - n + i) : K))
        rw [hp i hi, hd, Nat.add_sub_cancel]
      hiperperiod := calculateHiperperiod_congr rfl fun _ => rfl
      accepted := hacc }

section Chosen

variable (hl : LibcOk libc) (h : Chosen libc U n g)

include hl h

theorem Chosen.period_bounds (hi : i < n) : 20 ≤ (g.sim.taskSet i).period ∧
    (g.sim.taskSet i).period ≤ 101 ∧
    ((g.sim.taskSet i).period ≤ 100 ↔ libc.rand (g.drawn - n + i) ≠ randMax) := by
  obtain ⟨hlow, hhigh, htop⟩ := periodOf_bounds (K := K) (hl.rand (g.drawn - n + i))
  rw [h.period i hi, ← htop, tickOfInt]
  omega

theorem Chosen.getTaskPeriod (hi : i < n) :
    (g.sim.taskSet i).getTaskPeriod = (g.sim.taskSet i).period := by
  obtain ⟨-, hhigh, -⟩ := h.period_bounds hl hi
  exact intOfTick_of_lt (by omega)

/-- The test on the utilisations keeps the durations in range. -/
theorem Chosen.duration_bounds (hi : i < n) :
    1 ≤ durationOf (g.sim.taskSet i) (g.u i) ∧
      durationOf (g.sim.taskSet i) (g.u i) ≤ (g.sim.taskSet i).period := by
  obtain ⟨hlow, hhigh, -⟩ := h.period_bounds hl hi
  obtain ⟨hu, hu'⟩ := h.u i hi
  have hP := h.getTaskPeriod hl hi
  have hone : 1 ≤ (g.sim.taskSet i).getTaskPeriod := by omega
  have hlowK : (20 : K) ≤ (g.sim.taskSet i).getTaskPeriod := by
    rw [hP]
    exact_mod_cast hlow
  have hhighK : ((g.sim.taskSet i).getTaskPeriod : K) ≤ 101 := by
    rw [hP]
    exact_mod_cast hhigh
  have hprod : ((g.sim.taskSet i).getTaskPeriod : K) * g.u i ≤
      (g.sim.taskSet i).getTaskPeriod * (7 / 10) :=
    mul_le_mul_of_nonneg_left hu'.le (by linarith)
  have heq := durationOf_eq hone hu (by norm_num; linarith)
  obtain ⟨hclose, hpos⟩ := exactDuration_close (K := K) hone hu
  have hle : exactDuration (g.sim.taskSet i).getTaskPeriod (g.u i) ≤
      (g.sim.taskSet i).getTaskPeriod := by
    have hup := (abs_le.mp hclose).2
    have hleK : (exactDuration (g.sim.taskSet i).getTaskPeriod (g.u i) : K) ≤
        (g.sim.taskSet i).getTaskPeriod := by linarith
    exact_mod_cast hleK
  omega

theorem Chosen.periodsFit : PeriodsFit g.sim := fun i hi => by
  obtain ⟨hlow, hhigh, -⟩ := h.period_bounds hl (h.taskCnt ▸ hi)
  omega

/-- A period is at most the hyperperiod unless that has wrapped around. -/
theorem Chosen.period_le (hi : i < n) (hlt : periodLcm g.sim n < 2 ^ 31) :
    ((g.sim.taskSet i).period : Int) ≤ g.sim.hiperperiod := by
  have hfit := h.periodsFit hl
  have hpos := hfit.lcm_pos (Nat.le_refl g.sim.taskCnt)
  have hdvd : (g.sim.taskSet i).period ∣ periodLcm g.sim g.sim.taskCnt :=
    Finset.dvd_lcm (Finset.mem_range.mpr (h.taskCnt ▸ hi))
  rw [h.hiperperiod, calculateHiperperiod_eq hfit (by rw [h.taskCnt]; omega)
    (by rw [h.taskCnt]; exact hlt)]
  exact_mod_cast Nat.le_of_dvd hpos hdvd

end Chosen

/-! ## The table at return -/

/-- A task as `main_demo_periodic` should get it. -/
structure WellFormed (t : PeriodicTask) : Prop where
  period : lowestPeriod ≤ t.period ∧ (t.period : Int) ≤ highestPeriod
  duration : 1 ≤ t.duration ∧ t.duration ≤ t.period
  constraint : lowestWh ≤ t.weaklyHardConstraint ∧
    (t.weaklyHardConstraint : Int) ≤ highestWh
  numOfPeriods : 1 ≤ t.numOfPeriods ∧ t.numOfPeriods ≤ maxPeriodCnt

omit [IsStrictOrderedRing K] in
theorem finish_numOfPeriods (hi : i < g.sim.taskCnt) :
    ((g.finish libc).sim.taskSet i).numOfPeriods =
      ((calculateHiperperiod g.sim).hiperperiod / (g.sim.taskSet i).period).toNat := by
  have hcnt : (g.generateWeaklyHard libc).calculateTaskDuration.sim.taskCnt =
      g.sim.taskCnt := by
    rw [calculateTaskDuration, Simulator.foldl_modify
      (fun i t => { t with duration := durationOf t ((g.generateWeaklyHard libc).u i) }),
      generateWeaklyHard, drawEach_eq]
  have hperiod : ∀ j, ((g.generateWeaklyHard libc).calculateTaskDuration.sim.taskSet
      j).period = (g.sim.taskSet j).period := by
    intro j
    rw [calculateTaskDuration, Simulator.foldl_modify
      (fun i t => { t with duration := durationOf t ((g.generateWeaklyHard libc).u i) }),
      generateWeaklyHard, drawEach_eq]
    dsimp only
    split <;> rfl
  have hsame := calculateHiperperiod_congr hcnt hperiod
  have hlt : i < (calculateHiperperiod
      (g.generateWeaklyHard libc).calculateTaskDuration.sim).taskCnt := by
    rw [show (calculateHiperperiod
      (g.generateWeaklyHard libc).calculateTaskDuration.sim).taskCnt = _ from hcnt]
    exact hi
  simp only [finish, Simulator.resetReports, Simulator.resetTimesKilled,
    Simulator.calculateNumOfPeriods, Simulator.forEachTask_eq, if_pos hlt]
  rw [hsame]
  exact congrArg (fun P : Nat => ((calculateHiperperiod g.sim).hiperperiod / (P : Int)).toNat)
    (hperiod i)

omit [IsStrictOrderedRing K] in
/-- The entry of task `i`, when the constraints are drawn once more. -/
theorem Chosen.entry (h : Chosen libc U n g) (hi : i < n) :
    let t := ((g.generateWeaklyHard libc).finish libc).sim.taskSet i
    t.period = (g.sim.taskSet i).period ∧
    t.duration = durationOf (g.sim.taskSet i) (g.u i) ∧
    t.weaklyHardConstraint =
      (weaklyHardOf (rand0To1 libc (g.drawn + n + i) : K)).toNat ∧
    t.numOfPeriods = (g.sim.hiperperiod / (g.sim.taskSet i).period).toNat := by
  have hcnt : (g.generateWeaklyHard libc).sim.taskCnt = n := by
    rw [generateWeaklyHard, drawEach_eq]
    exact h.taskCnt
  have hdrawn : (g.generateWeaklyHard libc).drawn = g.drawn + n := by
    rw [generateWeaklyHard, drawEach_eq, h.taskCnt]
  have hu : (g.generateWeaklyHard libc).u = g.u := by
    rw [generateWeaklyHard, drawEach_eq]
  have hperiod : ∀ j, ((g.generateWeaklyHard libc).sim.taskSet j).period =
      (g.sim.taskSet j).period := by
    intro j
    rw [generateWeaklyHard, drawEach_eq]
    dsimp only
    split <;> rfl
  have hdur : durationOf ((g.generateWeaklyHard libc).sim.taskSet i) (g.u i) =
      durationOf (g.sim.taskSet i) (g.u i) := by
    rw [durationOf, durationOf, PeriodicTask.getTaskPeriod, PeriodicTask.getTaskPeriod,
      hperiod i]
  obtain ⟨hp, hd, hw⟩ := finish_entry libc (g := g.generateWeaklyHard libc)
    (by rw [hcnt]; exact hi)
  refine ⟨hp.trans (hperiod i), ?_, ?_, ?_⟩
  · rw [hd, hu, hdur]
  · rw [hw, hdrawn]
  · rw [finish_numOfPeriods (by rw [hcnt]; exact hi), hperiod i,
      calculateHiperperiod_congr (hcnt.trans h.taskCnt.symm) hperiod, ← h.hiperperiod]

/-- Which of the bounds are left to the draws. -/
theorem Chosen.wellFormed_iff (hl : LibcOk libc) (h : Chosen libc U n g) (hi : i < n) :
    WellFormed (((g.generateWeaklyHard libc).finish libc).sim.taskSet i) ↔
      libc.rand (g.drawn - n + i) ≠ randMax ∧ libc.rand (g.drawn + n + i) ≠ randMax ∧
      ((g.sim.taskSet i).period : Int) ≤ g.sim.hiperperiod := by
  obtain ⟨hp, hd, hw, hnum⟩ := h.entry hi
  obtain ⟨hplow, -, hptop⟩ := h.period_bounds hl hi
  obtain ⟨hdlow, hdhigh⟩ := h.duration_bounds hl hi
  obtain ⟨hwlow, hwtop⟩ := weaklyHardOf_bounds (K := K) (hl.rand (g.drawn + n + i))
  have hacc := h.accepted
  rw [maxHiperperiod] at hacc
  have hquot : 1 ≤ g.sim.hiperperiod / (g.sim.taskSet i).period ↔
      ((g.sim.taskSet i).period : Int) ≤ g.sim.hiperperiod := by
    rw [Int.le_ediv_iff_mul_le (by omega), one_mul]
  have hsmall : g.sim.hiperperiod / (g.sim.taskSet i).period ≤ 10000 := by
    refine (Int.ediv_le_ediv (by omega) hacc.le).trans ?_
    exact Int.ediv_le_self _ (by omega)
  rw [← hptop, ← hwtop, ← hquot]
  constructor
  · intro hwf
    obtain ⟨⟨-, h1⟩, -, ⟨-, h2⟩, h3, -⟩ := hwf
    rw [hp, highestPeriod] at h1
    rw [hw, highestWh] at h2
    rw [hnum] at h3
    omega
  · rintro ⟨h1, h2, h3⟩
    refine ⟨?_, ?_, ?_, ?_⟩
    · rw [hp, lowestPeriod, highestPeriod]
      omega
    · rw [hp, hd]
      exact ⟨hdlow, hdhigh⟩
    · rw [hw, lowestWh, highestWh]
      omega
    · rw [hnum, maxPeriodCnt]
      omega

/-- The least common multiple of the periods that `n` draws make, from draw `m`
on. -/
def drawnLcm (libc : Libc K) (m n : Nat) : Nat :=
  (Finset.range n).lcm fun i => tickOfInt (periodOf (rand0To1 libc (m + i) : K))

omit [IsStrictOrderedRing K] in
theorem Chosen.periodLcm_eq (h : Chosen libc U n g) :
    periodLcm g.sim n = drawnLcm libc (g.drawn - n) n :=
  Finset.lcm_congr rfl fun i hi => h.period i (Finset.mem_range.mp hi)

/-- No task is well formed unless none of the draws for the periods and the
constraints was `RAND_MAX`, and that is all it takes if the least common
multiple of the periods is below `2 ^ 31`. The draws that count are the last `n`
of the period loop and the `n` that follow the accepted constraints. -/
theorem well_formed_at_return (hl : LibcOk libc) (hU : 0 ≤ U)
    (h : startTaskSetGenerator libc fuel U n = some g') :
    ∃ g, choosePeriods libc fuel U (zeroed n) = some g ∧
      ((∀ i < n, WellFormed (g'.sim.taskSet i)) →
        ∀ i < n, libc.rand (g.drawn - n + i) ≠ randMax ∧
          libc.rand (g.drawn + n + i) ≠ randMax) ∧
      ((∀ i < n, libc.rand (g.drawn - n + i) ≠ randMax ∧
          libc.rand (g.drawn + n + i) ≠ randMax) →
        drawnLcm libc (g.drawn - n) n < 2 ^ 31 →
        ∀ i < n, WellFormed (g'.sim.taskSet i)) := by
  cases fuel with
  | zero => simp [startTaskSetGenerator, choosePeriods, loopUntil] at h
  | succ fuel =>
      rw [startTaskSetGenerator_eq, Option.map_eq_some_iff] at h
      obtain ⟨g, hchoose, rfl⟩ := h
      refine ⟨g, hchoose, ?_⟩
      have hg := chosen_of_choosePeriods hl hU hchoose
      constructor
      · intro hall i hi
        obtain ⟨hperiod, hconstraint, -⟩ := (hg.wellFormed_iff hl hi).mp (hall i hi)
        exact ⟨hperiod, hconstraint⟩
      · intro hdraws hlt i hi
        rw [← hg.periodLcm_eq] at hlt
        obtain ⟨hperiod, hconstraint⟩ := hdraws i hi
        exact (hg.wellFormed_iff hl hi).mpr
          ⟨hperiod, hconstraint, hg.period_le hl hi hlt⟩

theorem halves_ok : LibcOk halves where
  rand m := by
    show (if m = 0 then 1073741824 else 0) ≤ randMax
    split <;> decide
  pow := fun _ _ h h' _ _ => ⟨h, h'⟩

/-- Both tasks get period 20. -/
theorem well_formed_at_return_halves :
    ∃ g', startTaskSetGenerator halves 1 1 2 = some g' ∧
      ∀ i < 2, WellFormed (g'.sim.taskSet i) := by
  have hrun : (choosePeriods halves 1 1 (zeroed 2)).map Generator.drawn = some 3 := by
    decide +kernel
  have hsome : (startTaskSetGenerator halves 1 1 2).isSome = true := by
    rw [startTaskSetGenerator_eq, Option.isSome_map]
    decide +kernel
  obtain ⟨g', hg'⟩ := Option.isSome_iff_exists.mp hsome
  obtain ⟨g, hg, -, hwell⟩ := well_formed_at_return halves_ok zero_le_one hg'
  rw [hg, Option.map_some, Option.some.injEq] at hrun
  rw [hrun] at hwell
  exact ⟨g', hg', hwell (by decide) (by decide +kernel)⟩

/-- Every call of `rand` gives the largest number. -/
def topDraws : Libc ℚ where
  rand _ := randMax
  pow x _ := x

/-- One task with half of the processor gets period 101 and constraint 6. -/
theorem top_draws_not_wellFormed :
    ∃ g', startTaskSetGenerator topDraws 1 (1 / 2) 1 = some g' ∧
      (g'.sim.taskSet 0).period = 101 ∧ (g'.sim.taskSet 0).weaklyHardConstraint = 6 ∧
      ¬ WellFormed (g'.sim.taskSet 0) := by
  have hrun : (startTaskSetGenerator topDraws 1 (1 / 2) 1).map (fun g =>
      ((g.sim.taskSet 0).period, (g.sim.taskSet 0).weaklyHardConstraint)) =
      some (101, 6) := by
    rw [startTaskSetGenerator_eq, Option.map_map]
    decide +kernel
  rw [Option.map_eq_some_iff] at hrun
  obtain ⟨g', hg', hvalues⟩ := hrun
  rw [Prod.mk.injEq] at hvalues
  obtain ⟨hperiod, hconstraint⟩ := hvalues
  refine ⟨g', hg', hperiod, hconstraint, fun hwf => ?_⟩
  have htop := hwf.period.2
  rw [hperiod, highestPeriod] at htop
  omega

end Generator

end FreeRtosSim
