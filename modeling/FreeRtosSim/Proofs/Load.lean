import Mathlib.Algebra.Order.BigOperators.Group.Finset
import FreeRtosSim.Sim.Factors
import FreeRtosSim.Sim.Run

/-!
# The load that is sampled and the load that is simulated

The loop of `calculateUtilization` cuts the requested load into pieces: after
round `i` the first `i` utilisations and what is left to share out add up to
what was asked for, and nothing is negative. Rounding a duration then moves a
task's load by at most one tick in its period.
-/

namespace FreeRtosSim

open Finset

variable {K : Type*} [Field K] {factor : Nat → K} {pow : K → K → K} {U : K}
  {g : Generator K} {i k : Nat}

namespace Generator

/-! ## The sampling loop -/

/-- The state of the loop after `k` rounds. -/
def sampled (factor : Nat → K) (pow : K → K → K) (U : K) (g : Generator K) (k : Nat) :
    K × Generator K :=
  (List.range' 1 k).foldl (factorStep factor pow) (U, g)

theorem sampled_succ (k : Nat) : sampled factor pow U g (k + 1) =
    factorStep factor pow (sampled factor pow U g k) (k + 1) := by
  rw [sampled, List.range'_concat, List.foldl_append, sampled, Nat.one_mul, Nat.add_comm 1 k]
  rfl

theorem sampled_sim (factor : Nat → K) (pow : K → K → K) (U : K) (g : Generator K)
    (k : Nat) : (sampled factor pow U g k).2.sim = g.sim := by
  induction k with
  | zero => rfl
  | succ k ih =>
      rw [sampled_succ]
      exact ih

theorem sampled_drawn (k : Nat) : (sampled factor pow U g k).2.drawn = g.drawn + k := by
  induction k with
  | zero => rfl
  | succ k ih =>
      rw [sampled_succ]
      exact congrArg (· + 1) ih

/-- A utilisation is written once. -/
theorem sampled_u_succ (hik : i < k) : (sampled factor pow U g (k + 1)).2.u i =
    (sampled factor pow U g k).2.u i := by
  rw [sampled_succ]
  simp [factorStep, draw, Nat.ne_of_lt hik]

/-- The pieces and the rest make up the whole. -/
theorem sampled_sum (k : Nat) : (∑ i ∈ range k, (sampled factor pow U g k).2.u i) +
    (sampled factor pow U g k).1 = U := by
  induction k with
  | zero => simp [sampled]
  | succ k ih =>
      have hold : ∑ i ∈ range k, (sampled factor pow U g (k + 1)).2.u i =
          ∑ i ∈ range k, (sampled factor pow U g k).2.u i :=
        sum_congr rfl fun i hi => sampled_u_succ (mem_range.mp hi)
      have hnew : (sampled factor pow U g (k + 1)).2.u k + (sampled factor pow U g (k + 1)).1 =
          (sampled factor pow U g k).1 := by
        rw [sampled_succ]
        simp [factorStep]
      rw [sum_range_succ, hold, add_assoc, hnew, ih]

theorem sampleUtilization_u (factor : Nat → K) (pow : K → K → K) (U : K)
    (g : Generator K) : (sampleUtilization factor pow U g).u =
      Function.update (sampled factor pow U g (g.sim.taskCnt - 1)).2.u
        (g.sim.taskCnt - 1) (sampled factor pow U g (g.sim.taskCnt - 1)).1 := by
  have hsim := sampled_sim factor pow U g (g.sim.taskCnt - 1)
  rw [sampled] at hsim
  rw [sampleUtilization]
  dsimp only
  rw [hsim]
  rfl

theorem sampleUtilization_sim (factor : Nat → K) (pow : K → K → K) (U : K)
    (g : Generator K) : (sampleUtilization factor pow U g).sim = g.sim := sampled_sim ..

/-- The utilisations add up to what was asked for. -/
theorem sampleUtilization_sum (factor : Nat → K) (pow : K → K → K) (U : K)
    (g : Generator K) (hn : 1 ≤ g.sim.taskCnt) :
    ∑ i ∈ range g.sim.taskCnt, (sampleUtilization factor pow U g).u i = U := by
  obtain ⟨m, hm⟩ : ∃ m, g.sim.taskCnt = m + 1 := ⟨g.sim.taskCnt - 1, by omega⟩
  have hold : ∑ i ∈ range m, Function.update (sampled factor pow U g m).2.u m
      (sampled factor pow U g m).1 i = ∑ i ∈ range m, (sampled factor pow U g m).2.u i :=
    sum_congr rfl fun i hi => Function.update_of_ne (Nat.ne_of_lt (mem_range.mp hi)) ..
  rw [sampleUtilization_u, hm, sum_range_succ, Nat.add_sub_cancel, Function.update_self, hold]
  exact sampled_sum m

end Generator

variable [LinearOrder K] [IsStrictOrderedRing K]

namespace Generator

/-- The exponents of the loop. -/
theorem exponent_mem {n : Nat} (hk : k < n) :
    (0 : K) < 1 / (((n : Int) - (k : Int) : Int) : K) ∧
      1 / (((n : Int) - (k : Int) : Int) : K) ≤ 1 := by
  have hone : (1 : K) ≤ (((n : Int) - (k : Int) : Int) : K) := by
    have hint : (1 : Int) ≤ (n : Int) - (k : Int) := by omega
    exact_mod_cast hint
  have hpos : (0 : K) < (((n : Int) - (k : Int) : Int) : K) := lt_of_lt_of_le one_pos hone
  exact ⟨one_div_pos.mpr hpos, (div_le_one hpos).mpr hone⟩

/-- What is left to share out shrinks. -/
theorem sampled_bounds (hf : FactorsInUnit factor) (hpow : PowInUnit pow) (hU : 0 ≤ U)
    (hk : k < g.sim.taskCnt) :
    0 ≤ (sampled factor pow U g k).1 ∧ (sampled factor pow U g k).1 ≤ U ∧
    ∀ i < k, 0 ≤ (sampled factor pow U g k).2.u i ∧ (sampled factor pow U g k).2.u i ≤ U := by
  induction k with
  | zero => exact ⟨hU, le_refl U, fun i hi => absurd hi (Nat.not_lt_zero i)⟩
  | succ k ih =>
      obtain ⟨hlow, hhigh, hold⟩ := ih (by omega)
      obtain ⟨hx, hx'⟩ := hf (sampled factor pow U g k).2.drawn
      obtain ⟨he, he'⟩ := exponent_mem (K := K) hk
      obtain ⟨hp, hp'⟩ := hpow _ _ hx hx' he he'
      have hnext : (sampled factor pow U g (k + 1)).1 = (sampled factor pow U g k).1 *
          pow (factor (sampled factor pow U g k).2.drawn)
            (1 / (((g.sim.taskCnt : Int) - ((k + 1 : Nat) : Int) : Int) : K)) := by
        rw [sampled_succ, factorStep, sampled_sim]
      have hpiece : (sampled factor pow U g (k + 1)).2.u k =
          (sampled factor pow U g k).1 - (sampled factor pow U g (k + 1)).1 := by
        rw [sampled_succ]
        simp [factorStep]
      have hle : (sampled factor pow U g (k + 1)).1 ≤ (sampled factor pow U g k).1 := by
        rw [hnext]
        exact mul_le_of_le_one_right hlow hp'
      have hnn : 0 ≤ (sampled factor pow U g (k + 1)).1 := by
        rw [hnext]
        exact mul_nonneg hlow hp
      refine ⟨hnn, hle.trans hhigh, fun i hi => ?_⟩
      rcases Nat.lt_succ_iff_lt_or_eq.mp hi with hlt | rfl
      · rw [sampled_u_succ hlt]
        exact hold i hlt
      · rw [hpiece]
        exact ⟨sub_nonneg.mpr hle, (sub_le_self _ hnn).trans hhigh⟩

/-- Every utilisation is a part of what was asked for. -/
theorem sampleUtilization_bounds (hf : FactorsInUnit factor) (hpow : PowInUnit pow)
    (hU : 0 ≤ U) (hi : i < g.sim.taskCnt) :
    0 ≤ (sampleUtilization factor pow U g).u i ∧
      (sampleUtilization factor pow U g).u i ≤ U := by
  obtain ⟨hlow, hhigh, hold⟩ := sampled_bounds (K := K) (g := g) (k := g.sim.taskCnt - 1)
    hf hpow hU (by omega)
  rw [sampleUtilization_u]
  by_cases hlast : i = g.sim.taskCnt - 1
  · rw [hlast, Function.update_self]
    exact ⟨hlow, hhigh⟩
  · rw [Function.update_of_ne hlast]
    exact hold i (by omega)

end Generator

/-! ## Rounding -/

variable [FloorRing K]

omit [IsStrictOrderedRing K] in
theorem castInt_of_nonneg {q : K} (h : 0 ≤ q) : castInt q = ⌊q⌋ := if_pos h

/-- A duration is at most one tick away from the product it is rounded from. -/
theorem exactDuration_close {P : Int} {u : K} (hP : 1 ≤ P) (hu : 0 ≤ u) :
    |(exactDuration P u : K) - P * u| ≤ 1 ∧ 1 ≤ exactDuration P u := by
  have hPK : (1 : K) ≤ P := by exact_mod_cast hP
  have hx : 0 ≤ (P : K) * u := mul_nonneg (zero_le_one.trans hPK) hu
  have hfloor := castInt_of_nonneg (show 0 ≤ (P : K) * u + 1 / 2 by linarith)
  have hle := Int.floor_le ((P : K) * u + 1 / 2)
  have hlt := Int.lt_floor_add_one ((P : K) * u + 1 / 2)
  have hnn : 0 ≤ ⌊(P : K) * u + 1 / 2⌋ := Int.floor_nonneg.mpr (by linarith)
  rw [exactDuration, hfloor]
  generalize ⌊(P : K) * u + 1 / 2⌋ = d at *
  generalize (P : K) * u = x at *
  by_cases hd : d = 0
  · -- rounded to nothing, and bumped
    subst hd
    norm_num at hle hlt ⊢
    rw [abs_le]
    constructor <;> linarith
  · rw [if_neg hd, abs_le]
    refine ⟨⟨by linarith, by linarith⟩, by omega⟩

theorem exactDuration_div_close {P : Int} {u : K} (hP : 1 ≤ P) (hu : 0 ≤ u) :
    |(exactDuration P u : K) / P - u| ≤ 1 / P := by
  have hPK : (0 : K) < P := by exact_mod_cast (show 0 < P by omega)
  have hdiv : (exactDuration P u : K) / P - u = ((exactDuration P u : K) - P * u) / P := by
    field_simp
  rw [hdiv, abs_div, abs_of_pos hPK]
  exact div_le_div_of_nonneg_right (exactDuration_close hP hu).1 hPK.le

/-- Rounding all durations moves the load by at most a tick in each period. -/
theorem load_close {n : Nat} {P : Nat → Int} {u : Nat → K} (hP : ∀ i < n, 1 ≤ P i)
    (hu : ∀ i < n, 0 ≤ u i) :
    |(∑ i ∈ range n, (exactDuration (P i) (u i) : K) / P i) - ∑ i ∈ range n, u i| ≤
      ∑ i ∈ range n, 1 / (P i : K) := by
  rw [← sum_sub_distrib]
  calc |∑ i ∈ range n, ((exactDuration (P i) (u i) : K) / P i - u i)|
      ≤ ∑ i ∈ range n, |(exactDuration (P i) (u i) : K) / P i - u i| :=
        abs_sum_le_sum_abs _ _
    _ ≤ ∑ i ∈ range n, 1 / (P i : K) := sum_le_sum fun i hi =>
        exactDuration_div_close (hP i (mem_range.mp hi)) (hu i (mem_range.mp hi))

/-- The field `duration` holds that number whenever the conversion to `int`
has a value. -/
theorem durationOf_eq {t : PeriodicTask} {u : K} (hP : 1 ≤ t.getTaskPeriod) (hu : 0 ≤ u)
    (hfits : (t.getTaskPeriod : K) * u + 1 / 2 < 2 ^ 31) :
    (Generator.durationOf t u : Int) = exactDuration t.getTaskPeriod u := by
  have hPK : (1 : K) ≤ t.getTaskPeriod := by exact_mod_cast hP
  have hx : 0 ≤ (t.getTaskPeriod : K) * u := mul_nonneg (zero_le_one.trans hPK) hu
  have hfloor := castInt_of_nonneg (show 0 ≤ (t.getTaskPeriod : K) * u + 1 / 2 by linarith)
  have hnn : 0 ≤ ⌊(t.getTaskPeriod : K) * u + 1 / 2⌋ := Int.floor_nonneg.mpr (by linarith)
  have hlt : ⌊(t.getTaskPeriod : K) * u + 1 / 2⌋ < 2 ^ 31 := by
    rw [Int.floor_lt]
    exact_mod_cast hfits
  rw [Generator.durationOf, exactDuration, hfloor]
  generalize ⌊(t.getTaskPeriod : K) * u + 1 / 2⌋ = d at *
  have htick : (tickOfInt d : Int) = d := by
    rw [tickOfInt]
    omega
  split <;> split <;> omega

namespace Generator

omit [IsStrictOrderedRing K] in
theorem calculateTaskDuration_duration (g : Generator K) (hi : i < g.sim.taskCnt) :
    (g.calculateTaskDuration.sim.taskSet i).duration =
      durationOf (g.sim.taskSet i) (g.u i) := by
  rw [calculateTaskDuration, Simulator.foldl_modify
    (fun i t => { t with duration := durationOf t (g.u i) })]
  simp only [if_pos hi]

/-- The utilisations are parts of the requested load and add up to it; the load
of the rounded durations is off by at most the sum of the inverse periods. -/
theorem load_within_rounding (factor : Nat → K) (pow : K → K → K) (U : K)
    (g : Generator K) (hf : FactorsInUnit factor) (hpow : PowInUnit pow) (hU : 0 ≤ U)
    (hn : 1 ≤ g.sim.taskCnt)
    (hperiod : ∀ i < g.sim.taskCnt, 1 ≤ (g.sim.taskSet i).getTaskPeriod) :
    let u := (sampleUtilization factor pow U g).u
    let period := fun i => (g.sim.taskSet i).getTaskPeriod
    (∀ i < g.sim.taskCnt, 0 ≤ u i ∧ u i ≤ U) ∧
    ∑ i ∈ range g.sim.taskCnt, u i = U ∧
    |(∑ i ∈ range g.sim.taskCnt, (exactDuration (period i) (u i) : K) / period i) - U| ≤
      ∑ i ∈ range g.sim.taskCnt, 1 / (period i : K) ∧
    ∀ i < g.sim.taskCnt, (period i : K) * u i + 1 / 2 < 2 ^ 31 →
      (((sampleUtilization factor pow U g).calculateTaskDuration.sim.taskSet i).duration : Int) =
        exactDuration (period i) (u i) := by
  intro u period
  have hbounds : ∀ i < g.sim.taskCnt, 0 ≤ u i ∧ u i ≤ U := fun i hi =>
    sampleUtilization_bounds hf hpow hU hi
  have hsum : ∑ i ∈ range g.sim.taskCnt, u i = U :=
    sampleUtilization_sum factor pow U g hn
  refine ⟨hbounds, hsum, ?_, fun i hi hfits => ?_⟩
  · rw [← hsum]
    exact load_close hperiod fun i hi => (hbounds i hi).1
  · have hsim := sampleUtilization_sim factor pow U g
    rw [calculateTaskDuration_duration _ (by rw [hsim]; exact hi), hsim]
    exact durationOf_eq (hperiod i hi) (hbounds i hi).1 hfits

/-- Half of the load for the first task, the rest for the second. -/
theorem load_within_rounding_twoTasks :
    let g : Generator ℚ := ⟨(twoTasks .edf).simulator, fun _ => 0, 0⟩
    let u := (sampleUtilization (fun _ => 1 / 2) (fun x _ => x) 1 g).u
    let period := fun i => (g.sim.taskSet i).getTaskPeriod
    (∀ i < 2, 0 ≤ u i ∧ u i ≤ 1) ∧ ∑ i ∈ range 2, u i = 1 ∧
    |(∑ i ∈ range 2, (exactDuration (period i) (u i) : ℚ) / period i) - 1| ≤
      ∑ i ∈ range 2, 1 / (period i : ℚ) ∧
    ∀ i < 2, (((sampleUtilization (fun _ => 1 / 2) (fun x _ => x) 1
      g).calculateTaskDuration.sim.taskSet i).duration : Int) =
        exactDuration (period i) (u i) := by
  intro g u period
  have hunit : ∀ x e : ℚ, 0 ≤ x → x ≤ 1 → 0 < e → e ≤ 1 → 0 ≤ x ∧ x ≤ 1 :=
    fun x e h h' _ _ => ⟨h, h'⟩
  have hshort : ∀ i < 2, period i ≤ 4 := by decide
  have hload := load_within_rounding (fun _ => 1 / 2) (fun x _ => x) 1 g
    (fun _ => by norm_num) hunit (by norm_num) (show 1 ≤ 2 by decide)
    (show ∀ i < 2, 1 ≤ (((twoTasks .edf).simulator).taskSet i).getTaskPeriod by decide)
  obtain ⟨hparts, hsum, hclose, hdurations⟩ := hload
  refine ⟨hparts, hsum, hclose, fun i hi => hdurations i hi ?_⟩
  have hu : u i ≤ 1 := (hparts i hi).2
  have hP : (period i : ℚ) ≤ 4 := by exact_mod_cast hshort i hi
  calc (period i : ℚ) * u i + 1 / 2 ≤ 4 * 1 + 1 / 2 := by
        have hu0 : 0 ≤ u i := (hparts i hi).1
        gcongr
    _ < 2 ^ 31 := by norm_num

end Generator

end FreeRtosSim
