import FreeRtosSim.Kernel.State

/-!
# The simulator's side of a run

The functions of `taskSetGenerator.c` the kernel calls while a run is going
on, and what `exit_function` computes from the reports when it ends.
-/

namespace FreeRtosSim

def maxTaskCnt : Nat := 100

def maxPeriodCnt : Nat := 10000

namespace Simulator

def setWeaklyHard (sim : Simulator) : Simulator := { sim with weaklyHard := 1 }

def weaklyHardBroken (sim : Simulator) : Simulator :=
  { sim with weaklyHard := 0 }

def getWeaklyHard (sim : Simulator) : Nat := sim.weaklyHard

/-- Write one entry of `Task_Set`. -/
def modify (sim : Simulator) (i : Nat) (f : PeriodicTask → PeriodicTask) :
    Simulator :=
  { sim with taskSet := Function.update sim.taskSet i (f (sim.taskSet i)) }

def incrementTimesKilled (i : Nat) (sim : Simulator) : Simulator :=
  sim.modify i fun t => { t with timesKilled := t.timesKilled + 1 }

/-- `Task_Set[i].report[x] = 1`. -/
def setReport (i x : Nat) (sim : Simulator) : Simulator :=
  sim.modify i fun t => { t with report := Function.update t.report x true }

/-- Run `f` over the first `TASK_CNT` entries of `Task_Set`. -/
def forEachTask (f : PeriodicTask → PeriodicTask) (sim : Simulator) :
    Simulator :=
  (List.range sim.taskCnt).foldl (fun s i => s.modify i f) sim

/-- A loop that writes every entry once, entry `i` by `f i`. -/
theorem foldl_modify (f : Nat → PeriodicTask → PeriodicTask) (n : Nat)
    (sim : Simulator) :
    (List.range n).foldl (fun s i => s.modify i (f i)) sim =
      { sim with
        taskSet := fun i =>
          if i < n then f i (sim.taskSet i) else sim.taskSet i } := by
  induction n with
  | zero => simp
  | succ n ih =>
      rw [List.range_succ, List.foldl_append, ih]
      simp only [List.foldl_cons, List.foldl_nil, modify]
      congr 1
      funext i
      by_cases hi : i = n
      · subst hi
        simp
      · have hlt : i < n + 1 ↔ i < n := by omega
        simp [hi, hlt]

/-- `f` over the first `TASK_CNT` entries. -/
theorem forEachTask_eq (f : PeriodicTask → PeriodicTask) (sim : Simulator) :
    sim.forEachTask f =
      { sim with
        taskSet := fun i =>
          if i < sim.taskCnt then f (sim.taskSet i) else sim.taskSet i } :=
  foldl_modify (fun _ => f) sim.taskCnt sim

def calculateNumOfPeriods (sim : Simulator) : Simulator :=
  sim.forEachTask fun t =>
    { t with numOfPeriods := (sim.hiperperiod / t.period).toNat }

def resetTimesKilled (sim : Simulator) : Simulator :=
  sim.forEachTask fun t => { t with timesKilled := 0 }

def resetReports (sim : Simulator) : Simulator :=
  sim.forEachTask fun t => { t with report := fun _ => false }

/-! ## The counts of `exit_function` -/

def countMissed (t : PeriodicTask) : Nat :=
  (List.range t.numOfPeriods).foldl
    (fun cnt j => if t.report j = false then cnt + 1 else cnt) 0

def countMissedDeadlines (sim : Simulator) : Simulator :=
  sim.forEachTask fun t => { t with missedDeadlines := countMissed t }

/-- One round of the loop over `rep[j]`: the pair is
`(prevoius_solved, cnt)`. Both are of type `int`, and the numbers here stand for
them as long as the constraint and the periods are below 2^31 together. -/
def countBrokenStep (t : PeriodicTask) (acc : Nat × Nat) (j : Nat) :
    Nat × Nat :=
  if t.report j = true then (acc.1 + 1, acc.2)
  else (0, if (acc.1 : Int) < (t.weaklyHardConstraint : Int) - 1 then acc.2 + 1
    else acc.2)

def countBroken (t : PeriodicTask) : Nat :=
  ((List.range t.numOfPeriods).foldl (countBrokenStep t)
    (t.weaklyHardConstraint, 0)).2

def countWeaklyHardBroken (sim : Simulator) : Simulator :=
  sim.forEachTask fun t => { t with weaklyHardBroken := countBroken t }

def sumOfWeaklyHardBroken (sim : Simulator) : Nat :=
  (List.range sim.taskCnt).foldl
    (fun ret i => ret + (sim.taskSet i).weaklyHardBroken) 0

def sumOfMissedDeadlines (sim : Simulator) : Nat :=
  (List.range sim.taskCnt).foldl
    (fun ret i => ret + (sim.taskSet i).missedDeadlines) 0

end Simulator

/-- `exit_function`, up to the file and the screen it prints the counts to. -/
def exitFunction {α : Type} (st : State) : Exec α :=
  .error (.exit { st with sim :=
    st.sim.countMissedDeadlines.countWeaklyHardBroken })

end FreeRtosSim
