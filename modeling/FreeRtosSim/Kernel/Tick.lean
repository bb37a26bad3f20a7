import FreeRtosSim.Kernel.Ready
import FreeRtosSim.Sim.Report

/-!
# The tick and the context switch

`killTasks`, `wakeTasks`, `xTaskIncrementTick` and `vTaskSwitchContext`. The
two list passes share one loop: reset the list's `pxIndex`, fetch the next
owner, and repeat as many times as the list was long. The body may unlink
the item in hand, and `walk` keeps the cursor arithmetic of the source.

`xTaskIncrementTick` is cut where the source has its blank lines: the part
every FreeRTOS kernel has, the accounting for the running job, the
hyperperiod test, and the two passes.
-/

namespace FreeRtosSim

/-- One pass over a list of tasks with `listGET_OWNER_OF_NEXT_ENTRY`. -/
def walkList (id : ListId) (body : TaskHandle → State → State) (st : State) :
    State :=
  walk (fun st => st.lists id) (fun st l => st.setList id l) body st

/-! ## `killTasks` -/

/-- `check_weakly_hard`. -/
def checkWeaklyHard (x : TaskHandle) (st : State) : State :=
  let t := st.tcb x
  if t.weaklyHardConstraint = 0 then
    { st with sim := st.sim.weaklyHardBroken }
  else if mustMeet t then { st with sim := st.sim.weaklyHardBroken }
  else st

/-- The laxity test of `killTasks`. -/
def hopeless (st : State) (x : TaskHandle) : Bool :=
  let t := st.tcb x
  tickAdd (tickSub st.xTickCount t.startTime) t.xRemainingTicks > t.xTaskPeriod

def killBody (x : TaskHandle) (st : State) : State :=
  if (st.tcb x).uxPriority > 0 then
    if hopeless st x then
      let st := { st with
        sim := st.sim.incrementTimesKilled (st.tcb x).xTaskId }
      let st := checkWeaklyHard x st
      let st := st.modifyTcb x fun t => { t with previousDeadlineMet := 0 }
      addTaskToWaitList x st
    else st
  else st

def killTasks (st : State) : State := walkList (.ready 1) killBody st

/-! ## `wakeTasks` -/

def wakeBody (alg : Algorithm) (x : TaskHandle) (st : State) : State :=
  if (st.tcb x).uxPriority > 0 then
    if st.xTickCount % (st.tcb x).xTaskPeriod = 0 then
      let st := st.modifyTcb x fun t =>
        { t with xRemainingTicks := t.xTaskDuration, startTime := st.xTickCount }
      if alg = .rto ∧ (st.tcb x).weaklyHardConstraint ≠ 0 ∧
          ((st.tcb x).previousDeadlineMet : Int) ≥
            ((st.tcb x).weaklyHardConstraint : Int) - 1 then
        st.modifyTcb x fun t => { t with previousDeadlineMet := 0 }
      else addTaskToReadyList alg x st
    else st
  else st

def wakeTasks (alg : Algorithm) (st : State) : State :=
  walkList .wait (wakeBody alg) st

/-! ## `xTaskIncrementTick` -/

/-- `prvResetNextTaskUnblockTime`. -/
def prvResetNextTaskUnblockTime (st : State) : State :=
  { st with xNextTaskUnblockTime :=
      match st.items st.pxDelayedTaskList with
      | [] => portMaxDelay
      | x :: _ => (st.tcb x).xItemValue }

/-- `taskSWITCH_DELAYED_LISTS`. -/
def taskSwitchDelayedLists (st : State) : Exec State := do
  configAssert (st.items st.pxDelayedTaskList).isEmpty
  return prvResetNextTaskUnblockTime
    { st with
      pxDelayedTaskList := st.pxOverflowDelayedTaskList
      pxOverflowDelayedTaskList := st.pxDelayedTaskList }

/-- `pxTCB->uxPriority >= pxCurrentTCB->uxPriority`. -/
def outranksCurrent (x : TaskHandle) (st : State) : Bool :=
  match st.pxCurrentTCB with
  | some c => (st.tcb x).uxPriority ≥ (st.tcb c).uxPriority
  | none => false

/-- The loop that unblocks delayed tasks whose time has come. Every round
takes one task off the delayed list, so its length bounds the rounds. -/
def unblockLoop (alg : Algorithm) : Nat → Bool → State → Bool × State
  | 0, sw, st => (sw, { st with xNextTaskUnblockTime := portMaxDelay })
  | n + 1, sw, st =>
      match st.items st.pxDelayedTaskList with
      | [] => (sw, { st with xNextTaskUnblockTime := portMaxDelay })
      | x :: _ =>
          if st.xTickCount < (st.tcb x).xItemValue then
            (sw, { st with xNextTaskUnblockTime := (st.tcb x).xItemValue })
          else
            let st := uxListRemove x st
            let st := st.modifyTcb x fun t => { t with inEventList := false }
            let st := prvAddTaskToReadyList alg x st
            unblockLoop alg n (sw || outranksCurrent x st) st

/-- The tick up to the periodic block: count the tick, unblock the delayed
tasks that are due, and note a yield that is pending. -/
def tickPrologue (alg : Algorithm) (st : State) : Exec (Bool × State) := do
  let st := { st with xTickCount := tickAdd st.xTickCount 1 }
  let st ← if st.xTickCount = 0 then taskSwitchDelayedLists st else pure st
  let (sw, st) :=
    if st.xTickCount ≥ st.xNextTaskUnblockTime then
      unblockLoop alg (st.items st.pxDelayedTaskList).length false st
    else (false, st)
  return (sw || st.xYieldPending, st)

/-- The two lines printed when a job runs out after its deadline. -/
def veryBadMessages (st : State) (c : TaskHandle) : List String :=
  let t := st.tcb c
  let late := tickSub st.xTickCount t.startTime
  ["HELOUUU, SOMETHING IS VERY BAD :O \n",
   "task " ++ toString t.xTaskId ++ ", period=" ++ toString t.xTaskPeriod ++
     ", time-start_time = " ++ toString late ++ ", time mod period = " ++
     toString (st.xTickCount % t.xTaskPeriod) ++ "\n"]

/-- A job with no ticks left: report and credit it, and put it to sleep. -/
def completeJob (c : TaskHandle) (st : State) : State :=
  let t := st.tcb c
  if tickSub st.xTickCount t.startTime ≤ t.xTaskPeriod then
    let st := { st with
      sim := st.sim.setReport t.xTaskId (t.startTime / t.xTaskPeriod) }
    let st :=
      if t.weaklyHardConstraint ≠ 0 then
        st.modifyTcb c fun t =>
          { t with previousDeadlineMet := (t.previousDeadlineMet + 1) % 2 ^ 8 }
      else st
    addTaskToWaitList c st
  else { st with console := st.console ++ veryBadMessages st c }

/-- Charge the tick that has just ended to the running job. -/
def chargeCurrent (st : State) : State :=
  match st.pxCurrentTCB with
  | none => st
  | some c =>
      if (st.tcb c).xTaskPeriod ≠ 0 then
        let st :=
          if (st.tcb c).xRemainingTicks > 0 then
            st.modifyTcb c fun t =>
              { t with xRemainingTicks := t.xRemainingTicks - 1 }
          else st
        if (st.tcb c).xRemainingTicks = 0 then completeJob c st else st
      else st

/-- `xTaskGetTickCount() == getHiperPeriod()`; the `int` is converted. -/
def atHiperPeriod (st : State) : Bool :=
  (st.xTickCount : Int) = st.sim.hiperperiod % 2 ^ 64

def xTaskIncrementTick (alg : Algorithm) (st : State) :
    Exec (Bool × State) := do
  if st.uxSchedulerSuspended = 0 then
    let (xSwitchRequired, st) ← tickPrologue alg st
    let st := chargeCurrent st
    if atHiperPeriod st then exitFunction st
    let st := killTasks st
    let st := wakeTasks alg st
    return (xSwitchRequired, st)
  else
    return (false, { st with xPendedTicks := tickAdd st.xPendedTicks 1 })

/-! ## `vTaskSwitchContext` -/

/-- The search of `taskSELECT_HIGHEST_PRIORITY_TASK` downwards from
`uxTopReadyPriority`. -/
def selectTopPriority (st : State) : Nat → Exec Nat
  | 0 =>
      if (st.items (.ready 0)).isEmpty then .error .assertFailed else .ok 0
  | p + 1 =>
      if (st.items (.ready (p + 1))).isEmpty then selectTopPriority st p
      else .ok (p + 1)

def taskSelectHighestPriorityTask (st : State) : Exec State := do
  let uxTopPriority ← selectTopPriority st st.uxTopReadyPriority
  return { st with
    pxCurrentTCB := (st.items (.ready uxTopPriority)).head?
    uxTopReadyPriority := uxTopPriority }

def vTaskSwitchContext (st : State) : Exec State :=
  if st.uxSchedulerSuspended ≠ 0 then .ok { st with xYieldPending := true }
  else taskSelectHighestPriorityTask { st with xYieldPending := false }

end FreeRtosSim
