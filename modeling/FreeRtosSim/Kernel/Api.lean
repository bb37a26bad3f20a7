import FreeRtosSim.Kernel.Create

/-!
# The calls a running task or an interrupt makes

Suspending and resuming tasks, changing priorities, delaying, suspending the
scheduler, catching up on ticks, and the two ends of an event list. On the
Posix port `portYIELD` switches the context at once, so `taskYIELD` and its
variants are `vTaskSwitchContext`.

A tick can interrupt `vTaskSuspend` between its critical sections and
`vTaskDelay` while it holds the scheduler suspended, so each of the two is
cut there. No mutex is modelled, and `uxBasePriority` is always `uxPriority`.
A null pointer the code would follow, the container of an item on no list or
`pxCurrentTCB` when every task is suspended, is treated as if the access had
no effect; what comes after the fault is then one run more, not one less.
-/

namespace FreeRtosSim

/-! ## Event list items -/

/-- `listREMOVE_ITEM` on the event item. Of the lists it can be in only
`xPendingReadyList` has its members recorded. -/
def removeEventItem (x : TaskHandle) (st : State) : State :=
  (st.setList .pendingReady ((st.lists .pendingReady).remove x)).modifyTcb x
    fun t => { t with inEventList := false }

/-- `listINSERT_END` of the event item into `xPendingReadyList`. -/
def insertPendingReady (x : TaskHandle) (st : State) : State :=
  (st.setList .pendingReady ((st.lists .pendingReady).insertEnd x)).modifyTcb x
    fun t => { t with inEventList := true }

/-- `vTaskPlaceOnEventList`. -/
def vTaskPlaceOnEventList (xTicksToWait : Nat) (st : State) : State :=
  let st :=
    match st.pxCurrentTCB with
    | none => st
    | some c => st.modifyTcb c fun t => { t with inEventList := true }
  prvAddCurrentTaskToDelayedList xTicksToWait true st

/-- `xTaskRemoveFromEventList`, `x` being the head of the event list. -/
def xTaskRemoveFromEventList (alg : Algorithm) (x : TaskHandle) (st : State) :
    State :=
  let st := removeEventItem x st
  let st :=
    if st.uxSchedulerSuspended = 0 then addTaskToReadyList alg x st
    else insertPendingReady x st
  match st.pxCurrentTCB with
  | none => st
  | some c =>
      if (st.tcb x).uxPriority > (st.tcb c).uxPriority then
        { st with xYieldPending := true }
      else st

/-! ## `vTaskSuspend` and `vTaskResume` -/

/-- `vTaskSuspend` up to the end of its first critical section. -/
def vTaskSuspendLists (x : TaskHandle) (st : State) : State :=
  let st := uxListRemove x st
  let st := if (st.tcb x).inEventList then removeEventItem x st else st
  listInsertEnd .suspended x st

/-- The rest of `vTaskSuspend`. -/
def vTaskSuspendYield (x : TaskHandle) (st : State) : Exec State := do
  let st := if st.xSchedulerRunning then prvResetNextTaskUnblockTime st else st
  if st.pxCurrentTCB = some x then
    if st.xSchedulerRunning then
      configAssert (st.uxSchedulerSuspended = 0)
      vTaskSwitchContext st
    else if (st.lists .suspended).count = st.uxCurrentNumberOfTasks then
      return { st with pxCurrentTCB := none }
    else vTaskSwitchContext st
  else return st

def vTaskSuspend (x : TaskHandle) (st : State) : Exec State :=
  vTaskSuspendYield x (vTaskSuspendLists x st)

def prvTaskIsTaskSuspended (x : TaskHandle) (st : State) : Bool :=
  (st.tcb x).pxContainer = some .suspended ∧ x ∉ st.items .pendingReady ∧
    (st.tcb x).inEventList = false

def vTaskResume (alg : Algorithm) (x : TaskHandle) (st : State) : Exec State :=
  if st.pxCurrentTCB ≠ some x ∧ prvTaskIsTaskSuspended x st then
    let st := addTaskToReadyList alg x st
    if outranksCurrent x st then vTaskSwitchContext st else .ok st
  else .ok st

def xTaskResumeFromISR (alg : Algorithm) (x : TaskHandle) (st : State) : State :=
  if prvTaskIsTaskSuspended x st then
    if st.uxSchedulerSuspended = 0 then
      let st :=
        if outranksCurrent x st then { st with xYieldPending := true } else st
      addTaskToReadyList alg x st
    else insertPendingReady x st
  else st

/-! ## `vTaskPrioritySet` -/

/-- `xYieldRequired`. -/
def prioritySetYields (x : TaskHandle) (uxNewPriority : Nat) (st : State) : Bool :=
  if uxNewPriority > (st.tcb x).uxPriority then
    match st.pxCurrentTCB with
    | none => false
    | some c => x ≠ c ∧ uxNewPriority ≥ (st.tcb c).uxPriority
  else st.pxCurrentTCB = some x

def vTaskPrioritySet (alg : Algorithm) (x : TaskHandle) (uxNewPriority : Nat)
    (st : State) : Exec State := do
  configAssert (uxNewPriority < configMaxPriorities)
  let uxNewPriority :=
    if uxNewPriority ≥ configMaxPriorities then configMaxPriorities - 1
    else uxNewPriority
  let uxPriorityUsedOnEntry := (st.tcb x).uxPriority
  if uxPriorityUsedOnEntry ≠ uxNewPriority then
    let xYieldRequired := prioritySetYields x uxNewPriority st
    let st := st.modifyTcb x fun t => { t with uxPriority := uxNewPriority }
    let st :=
      if (st.tcb x).pxContainer = some (.ready uxPriorityUsedOnEntry) then
        addTaskToReadyList alg x st
      else st
    if xYieldRequired then vTaskSwitchContext st else return st
  else return st

/-! ## Suspending the scheduler -/

def vTaskSuspendAll (st : State) : State :=
  { st with uxSchedulerSuspended := st.uxSchedulerSuspended + 1 }

/-- The loop that empties `xPendingReadyList`; its length bounds the
rounds. -/
def pendingReadyLoop (alg : Algorithm) : Nat → State → State
  | 0, st => st
  | n + 1, st =>
      match st.items .pendingReady with
      | [] => st
      | x :: _ =>
          let st := addTaskToReadyList alg x (removeEventItem x st)
          pendingReadyLoop alg n
            (if outranksCurrent x st then { st with xYieldPending := true }
              else st)

/-- What `xTaskResumeAll` does before it replays the pended ticks. -/
def resumePending (alg : Algorithm) (st : State) : State :=
  let st' := pendingReadyLoop alg (st.items .pendingReady).length st
  if (st.items .pendingReady).isEmpty then st'
  else prvResetNextTaskUnblockTime st'

/-- The loop over the ticks that came while the scheduler was suspended. -/
def pendedTicksLoop (alg : Algorithm) : Nat → State → Exec State
  | 0, st => .ok st
  | n + 1, st => do
      let (xSwitchRequired, st) ← xTaskIncrementTick alg st
      pendedTicksLoop alg n
        (if xSwitchRequired then { st with xYieldPending := true } else st)

/-- `xTaskResumeAll`, with `xAlreadyYielded`. -/
def xTaskResumeAll (alg : Algorithm) (st : State) : Exec (Bool × State) := do
  configAssert (st.uxSchedulerSuspended ≠ 0)
  let st := { st with uxSchedulerSuspended := st.uxSchedulerSuspended - 1 }
  if st.uxSchedulerSuspended = 0 ∧ st.uxCurrentNumberOfTasks > 0 then
    let st := resumePending alg st
    let st ← pendedTicksLoop alg st.xPendedTicks st
    let st := { st with xPendedTicks := 0 }
    if st.xYieldPending then return (true, ← vTaskSwitchContext st)
    else return (false, st)
  else return (false, st)

/-- The part of `xTaskCatchUpTicks` before the scheduler is resumed. -/
def pendTicks (xTicksToCatchUp : Nat) (st : State) : State :=
  let st := vTaskSuspendAll st
  { st with xPendedTicks := tickAdd st.xPendedTicks xTicksToCatchUp }

def xTaskCatchUpTicks (alg : Algorithm) (xTicksToCatchUp : Nat) (st : State) :
    Exec (Bool × State) := do
  configAssert (st.uxSchedulerSuspended = 0)
  xTaskResumeAll alg (pendTicks xTicksToCatchUp st)

/-! ## `vTaskDelay` -/

/-- `vTaskDelay` of at least one tick, up to `xTaskResumeAll`. -/
def vTaskDelayBlock (xTicksToDelay : Nat) (st : State) : Exec State := do
  configAssert (st.uxSchedulerSuspended = 0)
  return prvAddCurrentTaskToDelayedList xTicksToDelay false (vTaskSuspendAll st)

/-- The rest of it. -/
def vTaskDelayYield (alg : Algorithm) (st : State) : Exec State := do
  let (xAlreadyYielded, st) ← xTaskResumeAll alg st
  if xAlreadyYielded then return st else vTaskSwitchContext st

def vTaskDelay (alg : Algorithm) (xTicksToDelay : Nat) (st : State) :
    Exec State := do
  if xTicksToDelay > 0 then vTaskDelayYield alg (← vTaskDelayBlock xTicksToDelay st)
  else vTaskSwitchContext st

end FreeRtosSim
