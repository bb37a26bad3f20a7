import Mathlib.Data.Rat.Floor
import FreeRtosSim.Lib.Fold
import FreeRtosSim.Sim.Report

/-!
# The admission tests

`check_nessery_condition` and `check_sufficient_condition` of
`taskSetGenerator.c`, on the durations, periods and constraints that are in
`Task_Set` when they are called. A `double` is read as the rational it stands
for; the cast to `int` truncates towards zero. The getters return `int`.
-/

namespace FreeRtosSim

/-- `MAX_L`. -/
def maxL : Nat := 1000000

/-- `(int) q`. -/
def castInt {K : Type*} [Ring K] [LinearOrder K] [FloorRing K] (q : K) : Int :=
  if 0 ≤ q then ⌊q⌋ else ⌈q⌉

/-- What an `int` holds of a result. -/
def wrapInt (z : Int) : Int := (z + 2 ^ 31) % 2 ^ 32 - 2 ^ 31

/-- A `TickType_t` converted to `int`. -/
def intOfTick (x : Nat) : Int := wrapInt x

theorem intOfTick_of_lt {x : Nat} (h : x < 2 ^ 31) : intOfTick x = x := by
  unfold intOfTick wrapInt
  omega

namespace PeriodicTask

def getTaskPeriod (t : PeriodicTask) : Int := intOfTick t.period

def getTaskDuration (t : PeriodicTask) : Int := intOfTick t.duration

end PeriodicTask

/-- What one task adds to `tmp` in `check_nessery_condition`. -/
def nesseryTerm (t : PeriodicTask) : ℚ :=
  if t.weaklyHardConstraint ≠ 0 then
    ((t.getTaskDuration : ℚ) * ((t.weaklyHardConstraint : ℚ) - 1)) /
      ((t.getTaskPeriod : ℚ) * (t.weaklyHardConstraint : ℚ))
  else (t.getTaskDuration : ℚ) / (t.getTaskPeriod : ℚ)

def checkNesseryCondition (sim : Simulator) : Nat :=
  let tmp := (List.range sim.taskCnt).foldl
    (fun tmp i => tmp + nesseryTerm (sim.taskSet i)) 0
  if tmp ≤ 1 then 1 else 0

/-- `D` in `check_sufficient_condition`, for the interval length `i`. -/
def sufficientD (i : Nat) (t : PeriodicTask) : ℚ :=
  if t.weaklyHardConstraint ≠ 0 then
    (i : ℚ) / (t.getTaskPeriod : ℚ) -
      (i : ℚ) / ((t.getTaskPeriod : ℚ) * (t.weaklyHardConstraint : ℚ))
  else (i : ℚ) / (t.getTaskPeriod : ℚ)

/-- `tmp` after the inner loop of `check_sufficient_condition`. -/
def sufficientTmp (sim : Simulator) (i : Nat) : ℚ :=
  (List.range sim.taskCnt).foldl (fun tmp j => tmp +
    ((castInt (sufficientD i (sim.taskSet j)) *
      (sim.taskSet j).getTaskDuration : Int) : ℚ)) 0

/-- The outer loop of `check_sufficient_condition`: both ways out of it
return 1. -/
def sufficientLoop (sim : Simulator) : List Nat → Nat
  | [] => 1
  | i :: l => if sufficientTmp sim i / (i : ℚ) > 1 then 1 else sufficientLoop sim l

def checkSufficientCondition (sim : Simulator) : Nat :=
  sufficientLoop sim (List.range' 1 (maxL - 1))

/-- The test accepts everything. -/
theorem checkSufficientCondition_eq (sim : Simulator) :
    checkSufficientCondition sim = 1 := by
  unfold checkSufficientCondition
  induction List.range' 1 (maxL - 1) with
  | nil => rfl
  | cons i l ih =>
      rw [sufficientLoop]
      split
      · rfl
      · exact ih

theorem checkNesseryCondition_eq_zero_iff (sim : Simulator) :
    checkNesseryCondition sim = 0 ↔
      1 < ∑ i ∈ Finset.range sim.taskCnt, nesseryTerm (sim.taskSet i) := by
  rw [checkNesseryCondition, foldl_add_eq_sum]
  split
  · next h => simp [not_lt.mpr h]
  · next h => simp [not_le.mp h]

theorem checkNesseryCondition_eq_one_iff (sim : Simulator) :
    checkNesseryCondition sim = 1 ↔
      ∑ i ∈ Finset.range sim.taskCnt, nesseryTerm (sim.taskSet i) ≤ 1 := by
  rw [checkNesseryCondition, foldl_add_eq_sum]
  split
  · next h => simp [h]
  · next h => simp [h]

end FreeRtosSim
