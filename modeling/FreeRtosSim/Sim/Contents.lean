import FreeRtosSim.Sim.Observe

/-!
# Runs from any memory

The closed run of `Sim.Run` asks for zeroed `start_time` fields, and for an idle
and a timer task without a period. Here the task set alone is the input, and the
blocks may hold anything, those from `pvPortMalloc` as well as the buffers of the
idle and the timer task: `xTaskPeriod` lies behind the end of a `StaticTask_t`,
so that the buffers being static says nothing about it. `decisions` is what can
be seen of a tick from outside the kernel.
-/

namespace FreeRtosSim

/-- What `main_demo_periodic` finds in `Task_Set`. -/
structure TaskSet where
  tasks : List TaskParams
  hiperperiod : Nat
  tasks_pos : 1 ≤ tasks.length
  tasks_le : tasks.length ≤ maxTaskCnt
  hiperperiod_pos : 0 < hiperperiod
  hiperperiod_lt : hiperperiod < 2 ^ 31
  period_dvd : ∀ p ∈ tasks, p.period ∣ hiperperiod

namespace TaskSet

abbrev taskCnt (set : TaskSet) : Nat := set.tasks.length

def simulator (set : TaskSet) : Simulator :=
  generatedSimulator set.tasks set.hiperperiod

/-- The state at the end of each tick, or how the run stopped. -/
def run (set : TaskSet) (alg : Algorithm) (heap : TaskHandle → TCB) :
    Nat → Exec State
  | 0 => do
      let st ← mainDemoPeriodic alg heap set.simulator
      timerDaemonBlocks st
  | t + 1 => do
      let st ← set.run alg heap t
      vPortSystemTickHandler alg st

/-- The same task set in zeroed memory. -/
def zeroed (set : TaskSet) (alg : Algorithm) : ClosedSystem :=
  .ofTasks alg set.tasks set.hiperperiod set.tasks_pos set.tasks_le
    set.hiperperiod_pos set.hiperperiod_lt set.period_dvd

end TaskSet

/-- The calls of `setReport` in the tick that begins in the state. -/
def tickReports (alg : Algorithm) (st : State) : List (Nat × Nat) :=
  match tickPrologue alg st with
  | .error _ => []
  | .ok (_, st) => reportLog st

/-- The tasks it releases. -/
def tickWakeUps (alg : Algorithm) (st : State) : List TaskHandle :=
  match tickPrologue alg st with
  | .error _ => []
  | .ok (_, st) =>
      let st' := chargeCurrent st
      if atHiperPeriod st' then [] else wakeLog alg (killTasks st')

/-- The task that was chosen to run, and what the tick after it does. -/
structure Decisions where
  running : Option TaskHandle
  reports : List (Nat × Nat)
  kills : List TaskHandle
  wakeUps : List TaskHandle
  deriving DecidableEq, Repr

/-- What is seen of a run at one tick; nothing once it has stopped. -/
def decisions (alg : Algorithm) : Exec State → Option Decisions
  | .error _ => none
  | .ok st => some
      { running := st.pxCurrentTCB
        reports := tickReports alg st
        kills := tickKills alg st
        wakeUps := tickWakeUps alg st }

namespace TaskSet

/-- The kernel does not take the idle and the timer task for periodic ones.
Their creation does not write `xTaskPeriod`. -/
def StaticZero (set : TaskSet) (heap : TaskHandle → TCB) : Prop :=
  (heap set.taskCnt).xTaskPeriod = 0 ∧ (heap (set.taskCnt + 1)).xTaskPeriod = 0

/-- The contents agree on the fields that are read before they are written: the
period of the idle and the timer task, which has to be 0, and the `start_time`
of the tasks in `known`. -/
structure Agree (set : TaskSet) (known : TaskHandle → Prop)
    (heap heap' : TaskHandle → TCB) : Prop where
  static : set.StaticZero heap
  static' : set.StaticZero heap'
  start : ∀ x, known x → (heap' x).startTime = (heap x).startTime

/-- Two memory contents that no tick tells apart. -/
def SameDecisions (set : TaskSet) (alg : Algorithm)
    (heap heap' : TaskHandle → TCB) : Prop :=
  ∀ t, decisions alg (set.run alg heap t) = decisions alg (set.run alg heap' t)

/-- Whether task `i` is put into a ready list when it is created; RTO sends a
task that may miss its first deadline to `xWaitTaskList`. -/
def StartsReady (set : TaskSet) (alg : Algorithm) (i : Nat) : Prop :=
  alg ≠ .rto ∨ (set.tasks.getD i default).weaklyHardConstraint % 2 ^ 8 ≠ 1

/-- Task `i` is the first to run. -/
def RunsFirst (set : TaskSet) (alg : Algorithm) (i : Nat) : Prop :=
  ∃ st, set.run alg (fun _ => zeroTcb) 0 = .ok st ∧ st.pxCurrentTCB = some i

/-- The first tick reads the `start_time` of task `i`. When the run ends in
that tick, only the accounting for the running job is left to read it. -/
def ReadsStart (set : TaskSet) (alg : Algorithm) (i : Nat) : Prop :=
  i < set.taskCnt ∧ set.StartsReady alg i ∧
    (set.hiperperiod = 1 → set.RunsFirst alg i)

end TaskSet

end FreeRtosSim
