import Mathlib.Data.Rat.BigOperators
import FreeRtosSim.Proofs.Drawn

/-!
# When the simulated task set passes the tests

The third loop of the generator accepts whatever it has drawn, and nothing
after it looks at the load again. What the simulated task set asks for is the
requested utilisation and what the rounding adds to it: a task that is due less
than half a tick in its period gets a whole one, and any other at most half a
tick more than its share. With periods of 20 at least that is a twentieth for
each task, and a fortieth less for one of them unless all are bumped.
-/

namespace FreeRtosSim

open Finset

namespace Generator

variable {K : Type*} [Field K] [LinearOrder K] [IsStrictOrderedRing K] [FloorRing K]
  {libc : Libc K} {pow : K → K → K} {U : K} {g g' : Generator K} {n fuel i : Nat}

/-! ## What rounding adds -/

/-- A duration is bumped, or is rounded up by half a tick at most. -/
theorem exactDuration_div_cases {P : Int} {u : K} (hP : 20 ≤ P) (hu : 0 ≤ u) :
    (exactDuration P u : K) / P ≤ 1 / 20 ∨
      (exactDuration P u : K) / P ≤ u + 1 / 40 := by
  have hPK : (20 : K) ≤ P := by exact_mod_cast hP
  have hx : 0 ≤ (P : K) * u := mul_nonneg (by linarith) hu
  have hle := Int.floor_le ((P : K) * u + 1 / 2)
  rw [exactDuration, castInt_of_nonneg (show 0 ≤ (P : K) * u + 1 / 2 by linarith)]
  by_cases hd : ⌊(P : K) * u + 1 / 2⌋ = 0
  · refine Or.inl ?_
    simp only [hd, if_true]
    rw [div_le_div_iff₀ (by linarith) (by norm_num)]
    push_cast
    linarith
  · refine Or.inr ?_
    simp only [hd, if_false]
    rw [div_le_iff₀ (by linarith)]
    linarith

/-- The rounded load is at most one if no more is asked for than this. -/
theorem rounded_load_le {P : Nat → Int} {u : Nat → K} (hP : ∀ i < n, 20 ≤ P i)
    (hu : ∀ i < n, 0 ≤ u i) (hsum : ∑ i ∈ range n, u i = U) (hn : n ≤ 20)
    (hU : 20 * U + n ≤ 41 / 2) :
    ∑ i ∈ range n, (exactDuration (P i) (u i) : K) / P i ≤ 1 := by
  have hnK : (n : K) ≤ 20 := by exact_mod_cast hn
  by_cases hall : ∀ i < n, (exactDuration (P i) (u i) : K) / P i ≤ 1 / 20
  · -- every duration is bumped
    calc ∑ i ∈ range n, (exactDuration (P i) (u i) : K) / P i
        ≤ ∑ _i ∈ range n, (1 / 20 : K) :=
          sum_le_sum fun i hi => hall i (mem_range.mp hi)
      _ = n / 20 := by rw [sum_const, card_range, nsmul_eq_mul, mul_one_div]
      _ ≤ 1 := by linarith
  · push Not at hall
    obtain ⟨j, hj, hmore⟩ := hall
    have hone : (exactDuration (P j) (u j) : K) / P j ≤ u j + 1 / 40 :=
      (exactDuration_div_cases (hP j hj) (hu j hj)).resolve_left (not_le.mpr hmore)
    have heach : ∀ i ∈ range n, (exactDuration (P i) (u i) : K) / P i ≤
        u i + 1 / 20 - if i = j then 1 / 40 else 0 := fun i hi => by
      have hi := mem_range.mp hi
      have hui := hu i hi
      by_cases hij : i = j
      · rw [if_pos hij, hij]
        linarith
      · rw [if_neg hij]
        rcases exactDuration_div_cases (hP i hi) hui with h | h <;> linarith
    calc ∑ i ∈ range n, (exactDuration (P i) (u i) : K) / P i
        ≤ ∑ i ∈ range n, (u i + 1 / 20 - if i = j then 1 / 40 else 0) :=
          sum_le_sum heach
      _ = U + n / 20 - 1 / 40 := by
          rw [sum_sub_distrib, sum_add_distrib, hsum, sum_const, card_range,
            nsmul_eq_mul, mul_one_div, sum_ite_eq' (range n) j,
            if_pos (mem_range.mpr hj)]
      _ ≤ 1 := by linarith

/-- A constraint only takes away from the load of a task. -/
theorem nesseryTerm_le {t : PeriodicTask} (hP : 1 ≤ t.getTaskPeriod)
    (hd : 0 ≤ t.getTaskDuration) :
    nesseryTerm t ≤ (t.getTaskDuration : ℚ) / t.getTaskPeriod := by
  have hPQ : (0 : ℚ) < t.getTaskPeriod := by exact_mod_cast (show 0 < t.getTaskPeriod by omega)
  have hdQ : (0 : ℚ) ≤ t.getTaskDuration := by exact_mod_cast hd
  rw [nesseryTerm]
  split
  · next hs =>
      have hsQ : (0 : ℚ) < t.weaklyHardConstraint := by
        exact_mod_cast Nat.pos_of_ne_zero hs
      rw [div_le_div_iff₀ (mul_pos hPQ hsQ) hPQ]
      have hnn := mul_nonneg hdQ hPQ.le
      nlinarith only [hnn]
  · exact le_refl _

/-! ## The task set at return -/

section Chosen

variable (hl : LibcOk libc) (h : Chosen libc U n g) (hi : i < n)

include hl h hi

/-- What the tests read of task `i`. -/
theorem Chosen.getters :
    let t := ((g.generateWeaklyHard libc).finish libc).sim.taskSet i
    t.getTaskPeriod = (g.sim.taskSet i).period ∧
      t.getTaskDuration = exactDuration (g.sim.taskSet i).period (g.u i) := by
  obtain ⟨hp, hd, -⟩ := h.entry hi
  obtain ⟨hlow, hhigh, -⟩ := h.period_bounds hl hi
  obtain ⟨hdlow, hdhigh⟩ := h.duration_bounds hl hi
  obtain ⟨hu, hu'⟩ := h.u i hi
  have hP := h.getTaskPeriod hl hi
  have hhighK : ((g.sim.taskSet i).period : K) ≤ 101 := by exact_mod_cast hhigh
  have hprod : ((g.sim.taskSet i).period : K) * g.u i ≤ 101 * (7 / 10) :=
    mul_le_mul hhighK hu'.le hu (by norm_num)
  have heq := durationOf_eq (t := g.sim.taskSet i) (u := g.u i) (by omega) hu (by
    rw [hP, Int.cast_natCast]
    norm_num
    linarith)
  refine ⟨?_, ?_⟩
  · rw [PeriodicTask.getTaskPeriod, hp]
    exact intOfTick_of_lt (by omega)
  · rw [PeriodicTask.getTaskDuration, hd, ← hP, ← heq]
    exact intOfTick_of_lt (by omega)

end Chosen

/-- The load of the simulated task set with all of its jobs. -/
theorem Chosen.passes (hl : LibcOk libc) (h : Chosen libc U n g) (hn : 1 ≤ n)
    (hn' : n ≤ 20) (hU : 20 * U + n ≤ 41 / 2) :
    checkNesseryCondition ((g.generateWeaklyHard libc).finish libc).sim = 1 := by
  have hcnt : ((g.generateWeaklyHard libc).finish libc).sim.taskCnt = n := by
    rw [finish_taskCnt, generateWeaklyHard, drawEach_eq]
    exact h.taskCnt
  have hlow : ∀ i < n, 20 ≤ ((g.sim.taskSet i).period : Int) := fun i hi => by
    have := (h.period_bounds hl hi).1
    omega
  have hload := rounded_load_le hlow (fun i hi => (h.u i hi).1) (h.sum hn) hn' hU
  have hcast : ((∑ i ∈ range n, (exactDuration (g.sim.taskSet i).period (g.u i) : ℚ) /
      ((g.sim.taskSet i).period : Int) : ℚ) : K) ≤ (1 : ℚ) := by
    rw [Rat.cast_sum]
    simpa only [Rat.cast_div, Rat.cast_intCast, Rat.cast_one] using hload
  rw [checkNesseryCondition_eq_one_iff, hcnt]
  refine le_trans (sum_le_sum fun i hi => ?_) (Rat.cast_le.mp hcast)
  have hi := mem_range.mp hi
  obtain ⟨hperiod, hduration⟩ := h.getters hl hi
  have hone := (exactDuration_close (K := K) (P := (g.sim.taskSet i).period)
    (by have := hlow i hi; omega) (h.u i hi).1).2
  have hterm := nesseryTerm_le
    (t := ((g.generateWeaklyHard libc).finish libc).sim.taskSet i)
    (by rw [hperiod]; have := hlow i hi; omega) (by rw [hduration]; omega)
  rwa [hperiod, hduration] at hterm

/-! ## Draws that are all zero -/

/-- `rand` returns 0 every time. -/
def zeroDraws (pow : K → K → K) : Libc K where
  rand _ := 0
  pow := pow

omit [IsStrictOrderedRing K] [FloorRing K] [LinearOrder K] in
theorem rand0To1_zeroDraws (m : Nat) : (rand0To1 (zeroDraws pow) m : K) = 0 := by
  simp [rand0To1, zeroDraws]

omit [FloorRing K] in
/-- The first task gets everything. -/
theorem sampled_zeroDraws (hzero : ∀ e : K, 0 < e → pow 0 e = 0) {k : Nat}
    (hk : k < g.sim.taskCnt) :
    (sampled (rand0To1 (zeroDraws pow)) pow U g k).1 = (if k = 0 then U else 0) ∧
    ∀ i < k, (sampled (rand0To1 (zeroDraws pow)) pow U g k).2.u i =
      if i = 0 then U else 0 := by
  induction k with
  | zero => exact ⟨rfl, fun i hi => absurd hi (Nat.not_lt_zero i)⟩
  | succ k ih =>
      obtain ⟨hrest, hold⟩ := ih (by omega)
      have hnext : (sampled (rand0To1 (zeroDraws pow)) pow U g (k + 1)).1 = 0 := by
        rw [sampled_succ, factorStep, sampled_sim, rand0To1_zeroDraws]
        dsimp only
        rw [hzero _ (exponent_mem hk).1, mul_zero]
      have hpiece : (sampled (rand0To1 (zeroDraws pow)) pow U g (k + 1)).2.u k =
          (sampled (rand0To1 (zeroDraws pow)) pow U g k).1 -
            (sampled (rand0To1 (zeroDraws pow)) pow U g (k + 1)).1 := by
        rw [sampled_succ]
        simp [factorStep]
      refine ⟨by rw [hnext, if_neg (Nat.succ_ne_zero k)], fun i hi => ?_⟩
      rcases Nat.lt_succ_iff_lt_or_eq.mp hi with hlt | rfl
      · rw [sampled_u_succ hlt]
        exact hold i hlt
      · rw [hpiece, hnext, hrest, sub_zero]

omit [FloorRing K] in
theorem sampleUtilization_zeroDraws (hzero : ∀ e : K, 0 < e → pow 0 e = 0)
    (hi : i < g.sim.taskCnt) :
    (sampleUtilization (rand0To1 (zeroDraws pow)) pow U g).u i =
      if i = 0 then U else 0 := by
  obtain ⟨hrest, hold⟩ :=
    sampled_zeroDraws (U := U) (g := g) (k := g.sim.taskCnt - 1) hzero (by omega)
  rw [sampleUtilization_u]
  by_cases hlast : i = g.sim.taskCnt - 1
  · rw [hlast, Function.update_self, hrest]
  · rw [Function.update_of_ne hlast]
    exact hold i (by omega)

theorem periodOf_zero : periodOf (0 : K) = 20 := by
  rw [periodOf, zero_mul, zero_add, lowestPeriod, castInt_of_nonneg (by norm_num),
    Int.floor_intCast]

theorem weaklyHardOf_zero : weaklyHardOf (0 : K) = 0 := by
  rw [weaklyHardOf, zero_mul, zero_add, lowestWh, castInt_of_nonneg (by norm_num),
    Int.floor_intCast]

/-- One round of each of the first two loops is enough. -/
theorem choosePeriods_zeroDraws (hzero : ∀ e : K, 0 < e → pow 0 e = 0) (hn : 1 ≤ n)
    (hU : U < 7 / 10) :
    ∃ g, choosePeriods (zeroDraws pow) 1 U (zeroed n) = some g ∧
      ∀ i < n, g.u i = if i = 0 then U else 0 := by
  have hshare : ∀ i < n, (calculateUtilization (zeroDraws pow) U (zeroed n)).u i =
      if i = 0 then U else 0 := fun i hi => by
    rw [calculateUtilization_eq]
    exact sampleUtilization_zeroDraws hzero hi
  have hcnt : (calculateUtilization (zeroDraws pow) U (zeroed n)).sim.taskCnt = n := by
    rw [calculateUtilization_sim]
    rfl
  have htest : (calculateUtilization (zeroDraws pow) U (zeroed n)).checkUtilization = 1 := by
    rw [checkUtilization_iff, hcnt]
    intro i hi
    rw [hshare i hi]
    split
    · exact hU
    · norm_num
  rw [choosePeriods, loopUntil, if_pos (by rw [htest]; rfl)]
  simp only [bind, Option.bind]
  generalize calculateUtilization (zeroDraws pow) U (zeroed n) = s at *
  have hperiods : (s.generatePeriods (zeroDraws pow)).sim.taskCnt = n ∧
      (s.generatePeriods (zeroDraws pow)).u = s.u ∧
      ∀ i < n, ((s.generatePeriods (zeroDraws pow)).sim.taskSet i).period = 20 := by
    rw [generatePeriods, drawEach_eq]
    refine ⟨hcnt, rfl, fun i hi => ?_⟩
    dsimp only
    rw [if_pos (by omega), rand0To1_zeroDraws, periodOf_zero]
    rfl
  obtain ⟨hcnt', hu', hperiod⟩ := hperiods
  have hlcm : periodLcm (s.generatePeriods (zeroDraws pow)).sim n ∣ 20 :=
    Finset.lcm_dvd fun i hi => by rw [hperiod i (mem_range.mp hi)]
  have hle := Nat.le_of_dvd (by decide) hlcm
  have hfit : PeriodsFit (s.generatePeriods (zeroDraws pow)).sim := fun i hi => by
    rw [hperiod i (by omega)]
    decide
  have hacc := calculateHiperperiod_eq hfit (by omega) (by rw [hcnt']; omega)
  rw [hcnt'] at hacc
  refine ⟨{ s.generatePeriods (zeroDraws pow) with
    sim := calculateHiperperiod (s.generatePeriods (zeroDraws pow)).sim }, ?_,
    fun i hi => (congrFun hu' i).trans (hshare i hi)⟩
  rw [loopUntil, if_pos]
  rw [decide_eq_true_eq]
  dsimp only
  rw [hacc, maxHiperperiod]
  omega

theorem exactDuration_eq_max {P : Int} {u : K} (hP : 0 ≤ P) (hu : 0 ≤ u) :
    exactDuration P u = max 1 ⌊(P : K) * u + 1 / 2⌋ := by
  have hPK : (0 : K) ≤ P := by exact_mod_cast hP
  have hx : 0 ≤ (P : K) * u + 1 / 2 := by
    have := mul_nonneg hPK hu
    linarith
  have hnn := Int.floor_nonneg.mpr hx
  rw [exactDuration, castInt_of_nonneg hx]
  split <;> omega

/-- The load of the table after draws that are all zero. -/
theorem Chosen.load_zeroDraws (hl : LibcOk (zeroDraws pow))
    (h : Chosen (zeroDraws pow) U n g) (hn : 1 ≤ n)
    (hshare : ∀ i < n, g.u i = if i = 0 then U else 0) :
    ∑ i ∈ range n, nesseryTerm
      (((g.generateWeaklyHard (zeroDraws pow)).finish (zeroDraws pow)).sim.taskSet i) =
      ((max 1 ⌊20 * U + 1 / 2⌋ + (n - 1 : Nat) : Int) : ℚ) / 20 := by
  have hterm : ∀ i ∈ range n, nesseryTerm
      (((g.generateWeaklyHard (zeroDraws pow)).finish (zeroDraws pow)).sim.taskSet i) =
      1 / 20 + if i = 0 then ((max 1 ⌊20 * U + 1 / 2⌋ - 1 : Int) : ℚ) / 20 else 0 := by
    intro i hi
    have hi := mem_range.mp hi
    obtain ⟨hperiod, hduration⟩ := h.getters hl hi
    obtain ⟨-, -, hconstraint, -⟩ := h.entry hi
    have hP : ((g.sim.taskSet i).period : Int) = 20 := by
      rw [h.period i hi, rand0To1_zeroDraws, periodOf_zero]
      rfl
    rw [rand0To1_zeroDraws, weaklyHardOf_zero] at hconstraint
    rw [hP] at hperiod hduration
    rw [nesseryTerm, if_neg (by rw [hconstraint]; decide), hperiod, hduration,
      exactDuration_eq_max (by decide) (h.u i hi).1, hshare i hi]
    split
    · push_cast
      ring
    · norm_num
  rw [sum_congr rfl hterm, sum_add_distrib, sum_const, card_range,
    sum_ite_eq' (range n) 0, if_pos (mem_range.mpr hn), nsmul_eq_mul]
  push_cast [Nat.cast_sub hn]
  ring

/-- On which loads the tests pass for the task set at return: whatever is drawn
if the load and the tasks leave this much room, and not on draws that are all
zero if the first task and the others together need more than 20 ticks. -/
theorem admission_at_return (hn : 1 ≤ n) (hU : 0 ≤ U) :
    (n ≤ 20 → 20 * U + n ≤ 41 / 2 →
      ∀ (libc : Libc K) fuel g', LibcOk libc →
        startTaskSetGenerator libc fuel U n = some g' →
        checkNesseryCondition g'.sim = 1 ∧ checkSufficientCondition g'.sim = 1) ∧
    (U < 7 / 10 → 21 < max 1 ⌊20 * U + 1 / 2⌋ + n →
      ∀ pow, PowInUnit pow → (∀ e : K, 0 < e → pow 0 e = 0) →
        ∃ g', startTaskSetGenerator (zeroDraws pow) 1 U n = some g' ∧
          checkNesseryCondition g'.sim = 0) := by
  constructor
  · intro hn' hroom libc fuel g' hl h
    cases fuel with
    | zero => simp [startTaskSetGenerator, choosePeriods, loopUntil] at h
    | succ fuel =>
        rw [startTaskSetGenerator_eq, Option.map_eq_some_iff] at h
        obtain ⟨g, hchoose, rfl⟩ := h
        have hg := chosen_of_choosePeriods hl hU hchoose
        exact ⟨hg.passes hl hn hn' hroom, checkSufficientCondition_eq _⟩
  · intro hU' hmore pow hpow hzero
    have hl : LibcOk (zeroDraws pow) := ⟨fun _ => Nat.zero_le _, hpow⟩
    obtain ⟨g, hchoose, hshare⟩ := choosePeriods_zeroDraws hzero hn hU'
    have hg := chosen_of_choosePeriods hl hU hchoose
    refine ⟨_, by rw [startTaskSetGenerator_eq, hchoose]; rfl, ?_⟩
    have hcnt : ((g.generateWeaklyHard (zeroDraws pow)).finish
        (zeroDraws pow)).sim.taskCnt = n := by
      rw [finish_taskCnt, generateWeaklyHard, drawEach_eq]
      exact hg.taskCnt
    rw [checkNesseryCondition_eq_zero_iff, hcnt, hg.load_zeroDraws hl hn hshare,
      lt_div_iff₀ (by norm_num)]
    exact_mod_cast (show 20 < max 1 ⌊20 * U + 1 / 2⌋ + (n - 1 : Nat) by omega)

/-- Two tasks with 90 percent, and 21 tasks with 50. -/
theorem admission_at_return_halves :
    (∀ fuel g', startTaskSetGenerator halves fuel (9 / 10) 2 = some g' →
      checkNesseryCondition g'.sim = 1 ∧ checkSufficientCondition g'.sim = 1) ∧
    ∃ g', startTaskSetGenerator (zeroDraws fun x _ : ℚ => x) 1 (1 / 2) 21 = some g' ∧
      checkNesseryCondition g'.sim = 0 := by
  constructor
  · intro fuel g' h
    exact (admission_at_return (U := (9 / 10 : ℚ)) (n := 2) (by decide) (by norm_num)).1
      (by decide) (by norm_num) halves fuel g' halves_ok h
  · exact (admission_at_return (U := (1 / 2 : ℚ)) (n := 21) (by decide) (by norm_num)).2
      (by norm_num) (by norm_num) (fun x _ => x) (fun _ _ h h' _ _ => ⟨h, h'⟩) (fun _ _ => rfl)

end Generator

end FreeRtosSim
