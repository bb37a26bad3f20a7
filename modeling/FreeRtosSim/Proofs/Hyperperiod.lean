import Mathlib.Algebra.GCDMonoid.Finset
import Mathlib.Algebra.GCDMonoid.Nat
import FreeRtosSim.Sim.Generator
import FreeRtosSim.Sim.Run

/-!
# What `calculateHiperperiod` stores

`GCD` and `LCM` are right as long as nothing wraps around, and then the loop
ends with the least common multiple. The only check on the product is its
sign, and after 32 bits a product may come back positive, and small: there are
periods from 20 to 100 whose hyperperiod is stored as 1.
-/

namespace FreeRtosSim

variable {sim : Simulator} {n : Nat}

/-! ## `GCD` and `LCM` -/

theorem gcdLoop_eq (n a b : Nat) (hb : b < n) : gcdLoop n a b = (Nat.gcd a b : Nat) := by
  induction n generalizing a b with
  | zero => exact absurd hb (Nat.not_lt_zero b)
  | succ n ih =>
      rw [gcdLoop]
      by_cases h0 : b = 0
      · subst h0
        simp
      · have hlt : a % b < b := Nat.mod_lt a (Nat.pos_of_ne_zero h0)
        rw [if_neg (by omega), ← Int.ofNat_tmod, ih b (a % b) (by omega), Nat.gcd_comm b,
          ← Nat.gcd_rec, Nat.gcd_comm]

theorem GCD_eq (a b : Nat) : GCD a b = (Nat.gcd a b : Nat) :=
  gcdLoop_eq _ a b (Nat.lt_succ_self b)

theorem wrapInt_of_lt {z : Nat} (h : z < 2 ^ 31) : wrapInt z = z := by
  rw [wrapInt]
  omega

/-- The product of `LCM` before it is wrapped. -/
theorem LCM_eq (a b : Nat) : LCM a b = wrapInt (Nat.lcm a b : Nat) := by
  have hdiv : (a : Int).tdiv (Nat.gcd a b : Nat) = (a / Nat.gcd a b : Nat) := rfl
  rw [LCM, GCD_eq, hdiv, Nat.lcm_eq_mul_div]
  congr 1
  have hd := Nat.gcd_dvd_left a b
  rw [← Nat.div_mul_right_comm hd]
  push_cast
  rfl

theorem LCM_of_lt {a b : Nat} (h : Nat.lcm a b < 2 ^ 31) : LCM a b = (Nat.lcm a b : Nat) := by
  rw [LCM_eq, wrapInt_of_lt h]

/-! ## The loop -/

/-- The least common multiple of the first `n` periods. -/
def periodLcm (sim : Simulator) (n : Nat) : Nat :=
  (Finset.range n).lcm fun i => (sim.taskSet i).period

theorem periodLcm_succ (sim : Simulator) (n : Nat) :
    periodLcm sim (n + 1) = Nat.lcm (sim.taskSet n).period (periodLcm sim n) := by
  rw [periodLcm, Finset.range_add_one, Finset.lcm_insert]
  rfl

theorem periodLcm_dvd {m n : Nat} (h : m ≤ n) : periodLcm sim m ∣ periodLcm sim n :=
  Finset.lcm_mono (Finset.range_mono h)

/-- Only the periods count. -/
theorem hiperperiodLoop_congr {sim' : Simulator}
    (h : ∀ i, (sim'.taskSet i).period = (sim.taskSet i).period) (l : List Nat) (temp : Int) :
    hiperperiodLoop sim' l temp = hiperperiodLoop sim l temp := by
  induction l generalizing temp with
  | nil => rfl
  | cons i l ih =>
      have hperiod : (sim'.taskSet i).getTaskPeriod = (sim.taskSet i).getTaskPeriod :=
        congrArg intOfTick (h i)
      rw [hiperperiodLoop, hiperperiodLoop, hperiod, ih]

theorem calculateHiperperiod_congr {sim' : Simulator} (hcnt : sim'.taskCnt = sim.taskCnt)
    (h : ∀ i, (sim'.taskSet i).period = (sim.taskSet i).period) :
    (calculateHiperperiod sim').hiperperiod = (calculateHiperperiod sim).hiperperiod := by
  have hfirst : (sim'.taskSet 0).getTaskPeriod = (sim.taskSet 0).getTaskPeriod :=
    congrArg intOfTick (h 0)
  rw [calculateHiperperiod, calculateHiperperiod, hcnt, hfirst]
  exact hiperperiodLoop_congr h ..

/-- A period that `getTaskPeriod` returns as it is stored. -/
def PeriodsFit (sim : Simulator) : Prop :=
  ∀ i < sim.taskCnt, 1 ≤ (sim.taskSet i).period ∧ (sim.taskSet i).period < 2 ^ 31

theorem PeriodsFit.getTaskPeriod (h : PeriodsFit sim) {i : Nat} (hi : i < sim.taskCnt) :
    (sim.taskSet i).getTaskPeriod = (sim.taskSet i).period :=
  intOfTick_of_lt (h i hi).2

theorem PeriodsFit.lcm_pos (h : PeriodsFit sim) (hn : n ≤ sim.taskCnt) :
    0 < periodLcm sim n := by
  refine Nat.pos_of_ne_zero fun h0 => ?_
  obtain ⟨i, hi, hz⟩ := Finset.lcm_eq_zero_iff.mp h0
  have hpos := (h i (by simp at hi; omega)).1
  omega

/-- As long as the multiples fit an `int`, the loop carries them along. -/
theorem hiperperiodLoop_eq (h : PeriodsFit sim) (k : Nat) :
    ∀ m, m + k ≤ sim.taskCnt → periodLcm sim (m + k) < 2 ^ 31 →
      hiperperiodLoop sim (List.range' m k) (periodLcm sim m) = periodLcm sim (m + k) := by
  induction k with
  | zero =>
      intro m _ _
      rfl
  | succ k ih =>
      intro m hm hlt
      have hnext : periodLcm sim (m + 1) < 2 ^ 31 :=
        Nat.lt_of_le_of_lt (Nat.le_of_dvd (h.lcm_pos hm) (periodLcm_dvd (by omega))) hlt
      have hstep : LCM (sim.taskSet m).getTaskPeriod (periodLcm sim m) =
          periodLcm sim (m + 1) := by
        rw [periodLcm_succ] at hnext ⊢
        rw [h.getTaskPeriod (by omega), LCM_of_lt hnext]
      have hcomm : m + 1 + k = m + (k + 1) := by omega
      have hrest := ih (m + 1) (by omega) (by rw [hcomm]; exact hlt)
      rw [List.range'_succ, hiperperiodLoop, hstep, if_neg (by omega), hrest, hcomm]

/-- The least common multiple of all periods is stored, if it fits an `int`. -/
theorem calculateHiperperiod_eq (h : PeriodsFit sim) (hn : 1 ≤ sim.taskCnt)
    (hlt : periodLcm sim sim.taskCnt < 2 ^ 31) :
    (calculateHiperperiod sim).hiperperiod = periodLcm sim sim.taskCnt := by
  have hone : ((sim.taskSet 0).getTaskPeriod : Int) = periodLcm sim 1 := by
    rw [periodLcm_succ, h.getTaskPeriod hn]
    simp [periodLcm]
  have hall : 1 + (sim.taskCnt - 1) = sim.taskCnt := by omega
  rw [calculateHiperperiod, hone]
  dsimp only
  rw [hiperperiodLoop_eq h (sim.taskCnt - 1) 1 (by omega) (by rw [hall]; exact hlt), hall]

/-- An accepted hyperperiod is the least common multiple of the periods
exactly if that number fits an `int`. -/
theorem accepted_hyperperiod_iff (sim : Simulator) (hn : 1 ≤ sim.taskCnt)
    (hfit : PeriodsFit sim)
    (hacc : (calculateHiperperiod sim).hiperperiod < maxHiperperiod) :
    (calculateHiperperiod sim).hiperperiod = periodLcm sim sim.taskCnt ↔
      periodLcm sim sim.taskCnt < 2 ^ 31 := by
  constructor
  · intro heq
    rw [heq, maxHiperperiod] at hacc
    omega
  · exact calculateHiperperiod_eq hfit hn

theorem accepted_hyperperiod_twoTasks :
    (calculateHiperperiod (twoTasks .edf).simulator).hiperperiod =
      periodLcm (twoTasks .edf).simulator 2 :=
  (accepted_hyperperiod_iff (twoTasks .edf).simulator (by decide)
    (show ∀ i < 2, 1 ≤ ((twoTasks .edf).simulator.taskSet i).period ∧
      ((twoTasks .edf).simulator.taskSet i).period < 2 ^ 31 by decide)
    (by decide)).mpr (by decide)

/-- Eight tasks whose periods the generator may draw. -/
def wrappingPeriods : Simulator :=
  { hardTask.simulator with
    taskCnt := 8
    taskSet := fun i => { hardTask.simulator.taskSet 0 with
      period := [41, 69, 79, 95, 97, 61, 93, 77].getD i 0 } }

theorem wrapped_hyperperiod_accepted :
    (∀ i < 8, 20 ≤ (wrappingPeriods.taskSet i).period ∧
      (wrappingPeriods.taskSet i).period ≤ 100) ∧
    (calculateHiperperiod wrappingPeriods).hiperperiod = 1 ∧
    (1 : Int) < maxHiperperiod ∧
    periodLcm wrappingPeriods 8 ≠ 1 := by
  refine ⟨by decide, by decide, by decide, ?_⟩
  have hdvd : (wrappingPeriods.taskSet 0).period ∣ periodLcm wrappingPeriods 8 :=
    Finset.dvd_lcm (by decide)
  intro h1
  rw [h1] at hdvd
  exact absurd hdvd (by decide)

end FreeRtosSim
