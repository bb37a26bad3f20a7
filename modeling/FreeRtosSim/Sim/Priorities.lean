import FreeRtosSim.Sim.Run

/-!
# Periodic tasks at any priority

`xTaskCreatePeriodic` takes a priority, and `main_demo_periodic` passes 1 for
every task. Here every task has its own. A ready task has a place in the list
of its priority and `wakeTasks` puts it back there, but `killTasks` looks at
`pxReadyTasksLists[1]` only; `Enforced` is what the two passes achieve together
at priority 1, asked of every priority.

The run is that of `Sim.Run`: the tasks are created in order, the scheduler is
started, the timer task blocks, and then there are only ticks.
-/

namespace FreeRtosSim

/-- The arguments of one call of `xTaskCreatePeriodic`. -/
structure PriorityTask extends TaskParams where
  xTaskId : Nat
  uxPriority : Nat
  priority_pos : 1 ≤ uxPriority
  priority_lt : uxPriority < configMaxPriorities
  period_le : period ≤ portMaxDelay

instance : Inhabited PriorityTask :=
  ⟨{ toTaskParams := default
     xTaskId := 0
     uxPriority := configMaxPriorities - 1
     priority_pos := Nat.le_of_ble_eq_true rfl
     priority_lt := Nat.le_of_ble_eq_true rfl
     period_le := Nat.le_of_ble_eq_true rfl }⟩

/-- The input of a run. Whatever `Task_Set` holds, the run ends at
`getHiperPeriod()`, a positive `int`. The idle and the timer task are assumed to
have no period, as in a `ClosedSystem`. -/
structure PrioritySystem where
  alg : Algorithm
  tasks : List PriorityTask
  sim : Simulator
  heap : TaskHandle → TCB
  not_rto : alg ≠ .rto
  hiperperiod_pos : 0 < sim.hiperperiod
  hiperperiod_lt : sim.hiperperiod < 2 ^ 31
  start_zero : ∀ i < tasks.length, (heap i).startTime = 0
  idle_zero : (heap tasks.length).xTaskPeriod = 0
  timer_zero : (heap (tasks.length + 1)).xTaskPeriod = 0

namespace PrioritySystem

abbrev taskCnt (sys : PrioritySystem) : Nat := sys.tasks.length

/-- Task `i`, which gets block `i`. -/
def task (sys : PrioritySystem) (i : Nat) : PriorityTask := sys.tasks.getD i default

def createTask (sys : PrioritySystem) (st : State) (i : Nat) : Exec State :=
  let t := sys.task i
  xTaskCreatePeriodic sys.alg i t.xTaskId t.uxPriority t.period t.duration
    t.weaklyHardConstraint st

/-- The state when the timer task is about to run. -/
def start (sys : PrioritySystem) : Exec State := do
  let st ← (List.range sys.taskCnt).foldlM sys.createTask (bootState sys.heap sys.sim)
  vTaskStartScheduler sys.alg sys.taskCnt (sys.taskCnt + 1) st

/-- The state at the end of each tick, or how the run stopped. -/
def run (sys : PrioritySystem) : Nat → Exec State
  | 0 => do
      let st ← sys.start
      timerDaemonBlocks st
  | t + 1 => do
      let st ← sys.run t
      vPortSystemTickHandler sys.alg st

/-- Task `i` has a new job. -/
structure Released (sys : PrioritySystem) (t i : Nat) (st : State) : Prop where
  remaining : (st.tcb i).xRemainingTicks = (sys.task i).duration
  start : (st.tcb i).startTime = t
  ready : i ∈ st.items (.ready (sys.task i).uxPriority)

/-- At the end of tick `t` no ready task can no longer meet its deadline, and
the tasks whose period begins have been released. -/
structure EnforcedIn (sys : PrioritySystem) (t : Nat) (st : State) : Prop where
  feasible : ∀ i < sys.taskCnt, ∀ p, i ∈ st.items (.ready p) → hopeless st i = false
  released : ∀ i < sys.taskCnt, t % (sys.task i).period = 0 → sys.Released t i st

def Enforced (sys : PrioritySystem) (t : Nat) : Prop :=
  ∃ st, sys.run t = .ok st ∧ sys.EnforcedIn t st

/-- A ready task above priority 1 that has no slack left is the one that runs.
No `TickType_t` is larger than a period of `portMAX_DELAY`, so a task with that
period is never found late. -/
def LastSlackRuns (sys : PrioritySystem) (st : State) : Prop :=
  ∀ i < sys.taskCnt, ∀ p, 2 ≤ p → i ∈ st.items (.ready p) →
    (st.tcb i).xTaskPeriod < portMaxDelay →
    st.xTickCount + (st.tcb i).xRemainingTicks =
      (st.tcb i).startTime + (st.tcb i).xTaskPeriod →
    st.pxCurrentTCB = some i

theorem generated_pos {tasks : List TaskParams} {hiperperiod : Nat} (h : 0 < hiperperiod) :
    0 < (generatedSimulator tasks hiperperiod).hiperperiod := by
  rw [generatedSimulator_hiperperiod]
  exact Int.natCast_pos.mpr h

theorem generated_lt {tasks : List TaskParams} {hiperperiod : Nat}
    (h : hiperperiod < 2 ^ 31) :
    (generatedSimulator tasks hiperperiod).hiperperiod < 2 ^ 31 := by
  rw [generatedSimulator_hiperperiod]
  exact Int.ofNat_lt.mpr h

theorem zeroTcb_period : zeroTcb.xTaskPeriod = 0 := rfl

/-- The tasks in zeroed memory. -/
def ofTasks (alg : Algorithm) (tasks : List PriorityTask) (hiperperiod : Nat)
    (not_rto : alg ≠ .rto) (hiperperiod_pos : 0 < hiperperiod)
    (hiperperiod_lt : hiperperiod < 2 ^ 31) : PrioritySystem where
  alg := alg
  tasks := tasks
  sim := generatedSimulator (tasks.map (·.toTaskParams)) hiperperiod
  heap := fun _ => zeroTcb
  not_rto := not_rto
  hiperperiod_pos := generated_pos hiperperiod_pos
  hiperperiod_lt := generated_lt hiperperiod_lt
  start_zero := fun _ _ => rfl
  idle_zero := zeroTcb_period
  timer_zero := zeroTcb_period

end PrioritySystem

/-! ## Small systems -/

theorem pair_duration (full : Bool) :
    1 ≤ (if full then 2 else 1) ∧ (if full then 2 else 1) ≤ 2 := by
  cases full <;> decide

/-- Two hard tasks of priority 2 and period 2 that want the whole processor
each, or half of it. -/
def pairAtTwo (full : Bool) : PrioritySystem :=
  let t : Nat → PriorityTask := fun i =>
    { period := 2
      duration := if full then 2 else 1
      weaklyHardConstraint := 0
      duration_pos := (pair_duration full).1
      duration_le := (pair_duration full).2
      xTaskId := i
      uxPriority := 2
      priority_pos := Nat.le_succ 1
      priority_lt := Nat.le_of_ble_eq_true rfl
      period_le := Nat.le_of_ble_eq_true rfl }
  .ofTasks .edf [t 0, t 1] 8 (fun h => Algorithm.noConfusion h) (Nat.succ_pos 7)
    (Nat.le_of_ble_eq_true rfl)

end FreeRtosSim
