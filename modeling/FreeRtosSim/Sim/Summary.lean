import Mathlib.Data.Rat.Defs
import FreeRtosSim.Sim.Report

/-!
# The line of the report file

What `writeReportInFile` appends to the file for a run: the sums over all
tasks, the three qualities of service, and the missed deadlines of every
task. A `double` is read as the rational it stands for. `total_utilization`
is what the generator was started with.
-/

namespace FreeRtosSim

namespace Simulator

def sumOfKilledTasks (sim : Simulator) : Nat :=
  (List.range sim.taskCnt).foldl
    (fun ret i => ret + (sim.taskSet i).timesKilled) 0

def sumOfAllTaskNum (sim : Simulator) : Nat :=
  (List.range sim.taskCnt).foldl
    (fun ret i => ret + (sim.taskSet i).numOfPeriods) 0

/-- Tasks that met their deadline over all tasks. -/
def calculateQoS (sim : Simulator) : ℚ :=
  let missed : ℚ := sim.sumOfMissedDeadlines
  let all : ℚ := sim.sumOfAllTaskNum
  (all - missed) / all

def calculateQoS2 (sim : Simulator) : ℚ :=
  let broken : ℚ := sim.sumOfWeaklyHardBroken
  let all : ℚ := sim.sumOfAllTaskNum
  (all - broken) / all

def calculateQoS3 (sim : Simulator) : ℚ :=
  let broken : ℚ := sim.sumOfWeaklyHardBroken
  let all : ℚ := sim.sumOfAllTaskNum
  broken / all

end Simulator

/-- The values of one line, in the order they are printed in. -/
structure ReportLine where
  totalUtilization : ℚ
  taskCnt : Nat
  sumOfMissedDeadlines : Nat
  sumOfWeaklyHardBroken : Nat
  weaklyHard : Nat
  qoS : ℚ
  qoS2 : ℚ
  qoS3 : ℚ
  missedDeadlines : List Nat

def writeReportInFile (totalUtilization : ℚ) (sim : Simulator) : ReportLine where
  totalUtilization := totalUtilization
  taskCnt := sim.taskCnt
  sumOfMissedDeadlines := sim.sumOfMissedDeadlines
  sumOfWeaklyHardBroken := sim.sumOfWeaklyHardBroken
  weaklyHard := sim.getWeaklyHard
  qoS := sim.calculateQoS
  qoS2 := sim.calculateQoS2
  qoS3 := sim.calculateQoS3
  missedDeadlines :=
    (List.range sim.taskCnt).map fun i => (sim.taskSet i).missedDeadlines

end FreeRtosSim
