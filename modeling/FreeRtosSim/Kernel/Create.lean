import FreeRtosSim.Kernel.Tick

/-!
# Creating tasks and starting the scheduler

The three creation paths of `tasks.c` down to `prvAddNewTaskToReadyList`,
`vTaskStartScheduler`, and the way a task blocks. A creation function is
handed the block the allocator returned: fields it does not write keep
whatever the block held.
-/

namespace FreeRtosSim

/-- `prvInitialiseTaskLists`. -/
def prvInitialiseTaskLists (st : State) : State :=
  { st with
    lists := fun _ => CursorList.empty
    pxDelayedTaskList := .delayed1
    pxOverflowDelayedTaskList := .delayed2 }

/-- `prvInitialiseNewTask`: the priority and the two list items. -/
def prvInitialiseNewTask (x : TaskHandle) (uxPriority : Nat) (st : State) :
    Exec State := do
  configAssert (uxPriority < configMaxPriorities)
  let uxPriority :=
    if uxPriority ≥ configMaxPriorities then configMaxPriorities - 1
    else uxPriority
  return st.modifyTcb x fun t =>
    { t with uxPriority := uxPriority, pxContainer := none, inEventList := false }

/-- The choice of `pxCurrentTCB` in `prvAddNewTaskToReadyList`. -/
def chooseCurrent (x : TaskHandle) (st : State) : State :=
  match st.pxCurrentTCB with
  | none =>
      let st := { st with pxCurrentTCB := some x }
      if st.uxCurrentNumberOfTasks = 1 then prvInitialiseTaskLists st else st
  | some c =>
      if st.xSchedulerRunning = false then
        if (st.tcb c).uxPriority ≤ (st.tcb x).uxPriority then
          { st with pxCurrentTCB := some x }
        else st
      else st

/-- `taskYIELD_IF_USING_PREEMPTION` when the new task outranks the running
one. -/
def yieldIfOutranked (x : TaskHandle) (st : State) : Exec State :=
  match st.pxCurrentTCB with
  | none => .ok st
  | some c =>
      if st.xSchedulerRunning = true ∧
          (st.tcb c).uxPriority < (st.tcb x).uxPriority then
        vTaskSwitchContext st
      else .ok st

def prvAddNewTaskToReadyList (alg : Algorithm) (x : TaskHandle) (st : State) :
    Exec State :=
  let st := { st with uxCurrentNumberOfTasks := st.uxCurrentNumberOfTasks + 1 }
  let st := chooseCurrent x st
  let st := prvAddTaskToReadyList alg x st
  yieldIfOutranked x st

/-- `xTaskCreateStatic`, and `xTaskCreate` once its allocations succeeded:
neither writes the fields of a periodic task. -/
def xTaskCreateStatic (alg : Algorithm) (x : TaskHandle) (uxPriority : Nat)
    (st : State) : Exec State := do
  let st ← prvInitialiseNewTask x uxPriority st
  prvAddNewTaskToReadyList alg x st

/-- `xTaskCreatePeriodic` in the block `x`. The identifier and the
constraint are narrowed to `uint8_t`; `start_time` is not written. -/
def xTaskCreatePeriodic (alg : Algorithm) (x : TaskHandle) (id uxPriority
    period duration weaklyHardConstraint : Nat) (st : State) : Exec State := do
  let st := st.modifyTcb x fun t =>
    { t with
      xTaskId := id % 2 ^ 8
      xTaskPeriod := period
      xTaskDuration := duration
      xRemainingTicks := duration
      weaklyHardConstraint := weaklyHardConstraint % 2 ^ 8
      previousDeadlineMet := 0 }
  let st ← prvInitialiseNewTask x uxPriority st
  prvAddNewTaskToReadyList alg x st

/-- `vTaskStartScheduler`: the idle task, the timer task, and the variables
set before the first task is started. -/
def vTaskStartScheduler (alg : Algorithm) (idle timer : TaskHandle)
    (st : State) : Exec State := do
  let st ← xTaskCreateStatic alg idle 0 st
  let st ← xTaskCreateStatic alg timer (configMaxPriorities - 1) st
  return { st with
    xNextTaskUnblockTime := portMaxDelay
    xSchedulerRunning := true
    xTickCount := 0 }

/-- `prvAddCurrentTaskToDelayedList`. -/
def prvAddCurrentTaskToDelayedList (xTicksToWait : Nat)
    (xCanBlockIndefinitely : Bool) (st : State) : State :=
  match st.pxCurrentTCB with
  | none => st
  | some c =>
      let st := uxListRemove c st
      if xTicksToWait = portMaxDelay ∧ xCanBlockIndefinitely = true then
        listInsertEnd .suspended c st
      else
        let xTimeToWake := tickAdd st.xTickCount xTicksToWait
        let st := setItemValue c xTimeToWake st
        if xTimeToWake < st.xTickCount then
          vListInsert st.pxOverflowDelayedTaskList c st
        else
          let st := vListInsert st.pxDelayedTaskList c st
          if xTimeToWake < st.xNextTaskUnblockTime then
            { st with xNextTaskUnblockTime := xTimeToWake }
          else st

/-- `vTaskPlaceOnEventListRestricted`. -/
def vTaskPlaceOnEventListRestricted (xTicksToWait : Nat)
    (xWaitIndefinitely : Bool) (st : State) : State :=
  let st :=
    match st.pxCurrentTCB with
    | none => st
    | some c => st.modifyTcb c fun t => { t with inEventList := true }
  let xTicksToWait := if xWaitIndefinitely then portMaxDelay else xTicksToWait
  prvAddCurrentTaskToDelayedList xTicksToWait xWaitIndefinitely st

end FreeRtosSim
