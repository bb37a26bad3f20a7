import FreeRtosSim.Kernel.Create

/-!
# The closed simulator run

`main_demo_periodic` creates the generated tasks at priority 1 and starts
the scheduler; the timer daemon, which outranks them, runs first and blocks
on its empty queue; from then on the only thing that happens is the tick
handler of the Posix port, until `exit_function` ends the process.

`ClosedSystem` is the input of such a run, with what makes it one as fields:
the tasks fit `Task_Set`, each with `1 ≤ duration ≤ period`, the hyperperiod
is a positive `int` and a common multiple of the periods, and the blocks hold
zero in the two fields that are read and that their creation does not write:
`start_time` in the allocated ones and `xTaskPeriod` in the buffers of the idle
and the timer task. The last is an assumption about the memory behind those
buffers, since a `StaticTask_t` is shorter than a `TCB_t`; `Sim.Contents` starts
from any memory.
-/

namespace FreeRtosSim

/-- The state of the process before `main_demo_periodic`, `heap` being what
the blocks for the task control blocks hold. -/
def bootState (heap : TaskHandle → TCB) (sim : Simulator) : State where
  tcb := heap
  lists := fun _ => CursorList.empty
  pxCurrentTCB := none
  pxDelayedTaskList := .delayed1
  pxOverflowDelayedTaskList := .delayed2
  uxCurrentNumberOfTasks := 0
  xTickCount := 0
  uxTopReadyPriority := 0
  xSchedulerRunning := false
  uxSchedulerSuspended := 0
  xPendedTicks := 0
  xYieldPending := false
  xNextTaskUnblockTime := 0
  sim := sim
  console := []

/-- `mainTASK_PRIORITY`. -/
def mainTaskPriority : Nat := 1

/-- One round of the loop of `main_demo_periodic`; task `i` gets block `i`. -/
def createTask (alg : Algorithm) (st : State) (i : Nat) : Exec State :=
  let t := st.sim.taskSet i
  xTaskCreatePeriodic alg i i mainTaskPriority t.period t.duration
    t.weaklyHardConstraint st

/-- `main_demo_periodic` up to the first task being started. The idle task
and the timer task get the blocks after those of the periodic tasks. -/
def mainDemoPeriodic (alg : Algorithm) (heap : TaskHandle → TCB)
    (sim : Simulator) : Exec State := do
  let st := bootState heap sim.setWeaklyHard
  let st ← (List.range sim.taskCnt).foldlM (createTask alg) st
  vTaskStartScheduler alg sim.taskCnt (sim.taskCnt + 1) st

/-- The timer daemon finds its timer lists and its queue empty, blocks
without a timeout, and yields. -/
def timerDaemonBlocks (st : State) : Exec State :=
  vTaskSwitchContext (vTaskPlaceOnEventListRestricted 0 true st)

/-- `vPortSystemTickHandler`. -/
def vPortSystemTickHandler (alg : Algorithm) (st : State) : Exec State := do
  let (_, st) ← xTaskIncrementTick alg st
  vTaskSwitchContext st

/-- The parameters of one generated task. -/
structure TaskParams where
  period : Nat
  duration : Nat
  weaklyHardConstraint : Nat
  duration_pos : 1 ≤ duration
  duration_le : duration ≤ period

instance : Inhabited TaskParams :=
  ⟨⟨1, 1, 0, Nat.le_refl 1, Nat.le_refl 1⟩⟩

/-- `Task_Set` after the last steps of `startTaskSetGenerator`. -/
def generatedSimulator (tasks : List TaskParams) (hiperperiod : Nat) :
    Simulator :=
  let sim : Simulator :=
    { taskCnt := tasks.length
      taskSet := fun i =>
        { period := (tasks.getD i default).period
          duration := (tasks.getD i default).duration
          weaklyHardConstraint := (tasks.getD i default).weaklyHardConstraint
          numOfPeriods := 0
          report := fun _ => false
          missedDeadlines := 0
          timesKilled := 0
          weaklyHardBroken := 0 }
      weaklyHard := 1
      hiperperiod }
  sim.calculateNumOfPeriods.resetTimesKilled.resetReports

theorem generatedSimulator_hiperperiod (tasks : List TaskParams) (hiperperiod : Nat) :
    (generatedSimulator tasks hiperperiod).hiperperiod = hiperperiod := by
  simp only [generatedSimulator, Simulator.resetReports, Simulator.resetTimesKilled,
    Simulator.calculateNumOfPeriods, Simulator.forEachTask_eq]

/-- The input of a closed simulator run. The idle and the timer task are
assumed to have no period. -/
structure ClosedSystem where
  alg : Algorithm
  tasks : List TaskParams
  hiperperiod : Nat
  heap : TaskHandle → TCB
  tasks_pos : 1 ≤ tasks.length
  tasks_le : tasks.length ≤ maxTaskCnt
  hiperperiod_pos : 0 < hiperperiod
  hiperperiod_lt : hiperperiod < 2 ^ 31
  period_dvd : ∀ p ∈ tasks, p.period ∣ hiperperiod
  start_zero : ∀ i < tasks.length, (heap i).startTime = 0
  idle_zero : (heap tasks.length).xTaskPeriod = 0
  timer_zero : (heap (tasks.length + 1)).xTaskPeriod = 0

/-- A block of zeroed memory. -/
def zeroTcb : TCB where
  xItemValue := 0
  pxContainer := none
  inEventList := false
  uxPriority := 0
  xTaskId := 0
  xTaskPeriod := 0
  startTime := 0
  xTaskDuration := 0
  xRemainingTicks := 0
  weaklyHardConstraint := 0
  previousDeadlineMet := 0

namespace ClosedSystem

/-- A system in zeroed memory. -/
def ofTasks (alg : Algorithm) (tasks : List TaskParams) (hiperperiod : Nat)
    (tasks_pos : 1 ≤ tasks.length) (tasks_le : tasks.length ≤ maxTaskCnt)
    (hiperperiod_pos : 0 < hiperperiod) (hiperperiod_lt : hiperperiod < 2 ^ 31)
    (period_dvd : ∀ p ∈ tasks, p.period ∣ hiperperiod) : ClosedSystem where
  alg := alg
  tasks := tasks
  hiperperiod := hiperperiod
  heap := fun _ => zeroTcb
  tasks_pos := tasks_pos
  tasks_le := tasks_le
  hiperperiod_pos := hiperperiod_pos
  hiperperiod_lt := hiperperiod_lt
  period_dvd := period_dvd
  start_zero := fun _ _ => rfl
  idle_zero := rfl
  timer_zero := rfl

/-- The number of periodic tasks; also the handle of the idle task. -/
abbrev taskCnt (sys : ClosedSystem) : Nat := sys.tasks.length

/-- Task `i`. -/
def task (sys : ClosedSystem) (i : Nat) : TaskParams := sys.tasks.getD i default

def simulator (sys : ClosedSystem) : Simulator :=
  generatedSimulator sys.tasks sys.hiperperiod

/-- The run: the state at the end of each tick, or how it stopped. -/
def run (sys : ClosedSystem) : Nat → Exec State
  | 0 => do
      let st ← mainDemoPeriodic sys.alg sys.heap sys.simulator
      timerDaemonBlocks st
  | t + 1 => do
      let st ← sys.run t
      vPortSystemTickHandler sys.alg st

/-- The state in tick `t + 1` when the accounting is done. -/
def afterCharge (sys : ClosedSystem) (t : Nat) : Exec State := do
  let st ← sys.run t
  let (_, st) ← tickPrologue sys.alg st
  return chargeCurrent st

/-- The state in tick `t + 1` between `killTasks` and `wakeTasks`. -/
def afterKill (sys : ClosedSystem) (t : Nat) : Exec State :=
  return killTasks (← sys.afterCharge t)

/-- The state in tick `t + 1` when `wakeTasks` is done. -/
def afterWake (sys : ClosedSystem) (t : Nat) : Exec State :=
  return wakeTasks sys.alg (← sys.afterKill t)

end ClosedSystem

/-! ## Small systems -/

/-- A small task set under the given algorithm. -/
def twoTasks (alg : Algorithm) : ClosedSystem :=
  .ofTasks alg [⟨4, 2, 0, by decide, by decide⟩, ⟨2, 1, 2, by decide, by decide⟩]
    4 (by decide) (by decide) (by decide) (by decide) (by decide)

/-- Two tasks that want the whole processor each. -/
def twoFullTasks (alg : Algorithm) : ClosedSystem :=
  .ofTasks alg [⟨2, 2, 0, by decide, by decide⟩, ⟨2, 2, 0, by decide, by decide⟩]
    2 (by decide) (by decide) (by decide) (by decide) (by decide)

/-- Three hard tasks that want half the processor each. -/
def threeTasks (alg : Algorithm) : ClosedSystem :=
  .ofTasks alg [⟨2, 1, 0, by decide, by decide⟩, ⟨2, 1, 0, by decide, by decide⟩,
    ⟨2, 1, 0, by decide, by decide⟩]
    2 (by decide) (by decide) (by decide) (by decide) (by decide)

/-- Three tasks with much room and a long hyperperiod; the first may miss
every other job. -/
def longTasks (alg : Algorithm) : ClosedSystem :=
  .ofTasks alg [⟨20, 1, 2, by decide, by decide⟩, ⟨50, 1, 0, by decide, by decide⟩,
    ⟨77, 1, 0, by decide, by decide⟩]
    7700 (by decide) (by decide) (by decide) (by decide) (by decide)

/-- A hard task that wants half the processor. -/
def hardTask : ClosedSystem :=
  .ofTasks .bwp [⟨4, 2, 0, by decide, by decide⟩]
    4 (by decide) (by decide) (by decide) (by decide) (by decide)

/-- The same task behind one that wants all of it and may always miss. -/
def hardBehindSkippable : ClosedSystem :=
  .ofTasks .bwp [⟨2, 2, 1, by decide, by decide⟩, ⟨4, 2, 0, by decide, by decide⟩]
    4 (by decide) (by decide) (by decide) (by decide) (by decide)

/-- Two tasks that want more than the processor has; the first may miss every
other job, the second all of them. -/
def busyTasks : ClosedSystem :=
  .ofTasks .edf [⟨3, 2, 2, by decide, by decide⟩, ⟨4, 3, 1, by decide, by decide⟩]
    12 (by decide) (by decide) (by decide) (by decide) (by decide)

end FreeRtosSim
