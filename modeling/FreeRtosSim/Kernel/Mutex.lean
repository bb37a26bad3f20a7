import FreeRtosSim.Kernel.Api
import FreeRtosSim.Kernel.Queue

/-!
# Mutexes

A mutex is a queue with one place for items of size zero that knows its
holder. `tasks.c` lends the holder the priority of a task that has to wait for
it: the control block keeps in `uxBasePriority` what to go back to and counts
the mutexes held, because only giving back the last one ends the loan, and so
does a waiting task that gives up.

The functions work on the kernel's state with the mutexes and the three fields
of a control block that only they use beside it. A function that runs into an
assertion returns `none`.
-/

namespace FreeRtosSim

/-- The address of a mutex. -/
abbrev MutexHandle := Nat

/-- What `tskTCB` has for mutexes, and the value of `xEventListItem`. -/
structure MutexFields where
  uxBasePriority : Nat
  uxMutexesHeld : Nat
  xEventItemValue : Nat
deriving DecidableEq, Repr

/-- A queue with `u.xSemaphore` in use. -/
structure Mutex where
  queue : QueueDefinition Unit
  xMutexHolder : Option TaskHandle
  uxRecursiveCallCount : Nat

structure MutexKernel where
  st : State
  fields : TaskHandle → MutexFields
  mutex : MutexHandle → Mutex

/-! ## Making a mutex -/

/-- `xQueueGenericSend` puts the item in that makes the mutex free. -/
def prvInitialiseMutex (pxNewQueue : QueueDefinition Unit) : Mutex where
  queue := (pxNewQueue.sendSection () .sendToBack).getD pxNewQueue
  xMutexHolder := none
  uxRecursiveCallCount := 0

def xQueueCreateMutex (sizeOfQueue : Nat) (block : QueueDefinition Unit) :
    Option Mutex :=
  (QueueDefinition.xQueueGenericCreate sizeOfQueue 1 0 block).map
    prvInitialiseMutex

/-- Write the priority of a task. -/
def setPriority (x : TaskHandle) (uxPriority : Nat) (st : State) : State :=
  st.modifyTcb x fun t => { t with uxPriority := uxPriority }

namespace MutexKernel

def modifyFields (x : TaskHandle) (f : MutexFields → MutexFields)
    (k : MutexKernel) : MutexKernel :=
  { k with fields := Function.update k.fields x (f (k.fields x)) }

def setMutex (xMutex : MutexHandle) (mutex : Mutex) (k : MutexKernel) :
    MutexKernel :=
  { k with mutex := Function.update k.mutex xMutex mutex }

/-- The tasks that wait for a mutex. -/
def waiting (xMutex : MutexHandle) (k : MutexKernel) : List TaskHandle :=
  (k.mutex xMutex).queue.xTasksWaitingToReceive

def setWaiting (xMutex : MutexHandle) (waiting : List TaskHandle)
    (k : MutexKernel) : MutexKernel :=
  k.setMutex xMutex { k.mutex xMutex with
    queue := { (k.mutex xMutex).queue with xTasksWaitingToReceive := waiting } }

/-- `listSET_LIST_ITEM_VALUE` on the event item, unless its value is in use for
something else. -/
def resetEventItemValue (x : TaskHandle) (uxPriority : Nat) (k : MutexKernel) :
    MutexKernel :=
  if (k.fields x).xEventItemValue &&& taskEventListItemValueInUse = 0 then
    k.modifyFields x fun t =>
      { t with xEventItemValue := configMaxPriorities - uxPriority }
  else k

/-! ## `tasks.c` -/

/-- The running task has to wait for what `pxMutexHolder` holds. -/
def xTaskPriorityInherit (alg : Algorithm) (pxMutexHolder : Option TaskHandle)
    (k : MutexKernel) : Bool × MutexKernel :=
  match pxMutexHolder, k.st.pxCurrentTCB with
  | some h, some c =>
      let uxPriority := (k.st.tcb c).uxPriority
      if (k.st.tcb h).uxPriority < uxPriority then
        let k := k.resetEventItemValue h uxPriority
        let st :=
          if (k.st.tcb h).pxContainer =
              some (.ready (k.st.tcb h).uxPriority) then
            prvAddTaskToReadyList alg h
              (setPriority h uxPriority (uxListRemove h k.st))
          else setPriority h uxPriority k.st
        (true, { k with st := st })
      else ((k.fields h).uxBasePriority < uxPriority, k)
  | _, _ => (false, k)

def xTaskPriorityDisinherit (alg : Algorithm)
    (pxMutexHolder : Option TaskHandle) (k : MutexKernel) :
    Option (Bool × MutexKernel) :=
  match pxMutexHolder with
  | none => some (false, k)
  | some x =>
      if k.st.pxCurrentTCB = some x ∧ (k.fields x).uxMutexesHeld ≠ 0 then
        let k := k.modifyFields x fun t =>
          { t with uxMutexesHeld := t.uxMutexesHeld - 1 }
        let uxBasePriority := (k.fields x).uxBasePriority
        if (k.st.tcb x).uxPriority ≠ uxBasePriority ∧
            (k.fields x).uxMutexesHeld = 0 then
          let st := setPriority x uxBasePriority (uxListRemove x k.st)
          let k := k.modifyFields x fun t =>
            { t with xEventItemValue := configMaxPriorities - uxBasePriority }
          some (true, { k with st := prvAddTaskToReadyList alg x st })
        else some (false, k)
      else none

def vTaskPriorityDisinheritAfterTimeout (alg : Algorithm)
    (pxMutexHolder : Option TaskHandle) (uxHighestPriorityWaitingTask : Nat)
    (k : MutexKernel) : Option MutexKernel :=
  match pxMutexHolder with
  | none => some k
  | some h =>
      if (k.fields h).uxMutexesHeld ≠ 0 then
        let uxPriorityToUse :=
          if (k.fields h).uxBasePriority < uxHighestPriorityWaitingTask then
            uxHighestPriorityWaitingTask
          else (k.fields h).uxBasePriority
        if (k.st.tcb h).uxPriority ≠ uxPriorityToUse ∧
            (k.fields h).uxMutexesHeld = 1 then
          if k.st.pxCurrentTCB ≠ some h then
            let uxPriorityUsedOnEntry := (k.st.tcb h).uxPriority
            let k := { k with st := setPriority h uxPriorityToUse k.st }
            let k := k.resetEventItemValue h uxPriorityToUse
            if (k.st.tcb h).pxContainer = some (.ready uxPriorityUsedOnEntry) then
              some { k with
                st := prvAddTaskToReadyList alg h (uxListRemove h k.st) }
            else some k
          else none
        else some k
      else none

def pvTaskIncrementMutexHeldCount (k : MutexKernel) :
    Option TaskHandle × MutexKernel :=
  match k.st.pxCurrentTCB with
  | none => (none, k)
  | some c => (some c, k.modifyFields c fun t =>
      { t with uxMutexesHeld := t.uxMutexesHeld + 1 })

/-- `xYieldRequired` of `vTaskPrioritySet`. -/
def prioritySetYields (x : TaskHandle) (uxNewPriority : Nat) (k : MutexKernel) :
    Bool :=
  if uxNewPriority > (k.fields x).uxBasePriority then
    match k.st.pxCurrentTCB with
    | none => false
    | some c => x ≠ c ∧ uxNewPriority ≥ (k.st.tcb c).uxPriority
  else k.st.pxCurrentTCB = some x

/-- `vTaskPrioritySet` up to the yield: an inherited priority stays. -/
def prioritySetLists (alg : Algorithm) (x : TaskHandle) (uxNewPriority : Nat)
    (k : MutexKernel) : MutexKernel :=
  let uxPriorityUsedOnEntry := (k.st.tcb x).uxPriority
  let k := { k with
    st :=
      if (k.fields x).uxBasePriority = (k.st.tcb x).uxPriority then
        setPriority x uxNewPriority k.st
      else k.st }
  let k := k.modifyFields x fun t => { t with uxBasePriority := uxNewPriority }
  let k := k.resetEventItemValue x uxNewPriority
  if (k.st.tcb x).pxContainer = some (.ready uxPriorityUsedOnEntry) then
    { k with st := prvAddTaskToReadyList alg x (uxListRemove x k.st) }
  else k

def vTaskPrioritySet (alg : Algorithm) (x : TaskHandle) (uxNewPriority : Nat)
    (k : MutexKernel) : Exec MutexKernel := do
  configAssert (uxNewPriority < configMaxPriorities)
  let uxNewPriority :=
    if uxNewPriority ≥ configMaxPriorities then configMaxPriorities - 1
    else uxNewPriority
  if (k.fields x).uxBasePriority ≠ uxNewPriority then
    let xYieldRequired := k.prioritySetYields x uxNewPriority
    let k := k.prioritySetLists alg x uxNewPriority
    if xYieldRequired then
      let st ← vTaskSwitchContext k.st
      return { k with st := st }
    else return k
  else return k

/-! ## `queue.c` -/

/-- The mutex branch. -/
def prvCopyDataToQueue (alg : Algorithm) (xMutex : MutexHandle)
    (k : MutexKernel) : Option (Bool × MutexKernel) :=
  (k.xTaskPriorityDisinherit alg (k.mutex xMutex).xMutexHolder).map fun r =>
    let mutex := r.2.mutex xMutex
    (r.1, r.2.setMutex xMutex { mutex with
      queue := mutex.queue.prvCopyDataToQueue () .sendToBack
      xMutexHolder := none })

/-- `xTaskRemoveFromEventList` on the tasks that wait for the mutex, if any
do. -/
def unblockReceiver (alg : Algorithm) (xMutex : MutexHandle) (k : MutexKernel) :
    MutexKernel :=
  match k.waiting xMutex with
  | [] => k
  | y :: ys =>
      { k.setWaiting xMutex ys with st := xTaskRemoveFromEventList alg y k.st }

/-- `xQueueGenericSend` of a mutex, which does not block. The yields are left
out. -/
def xQueueGenericSend (alg : Algorithm) (xMutex : MutexHandle)
    (k : MutexKernel) : Option (Bool × MutexKernel) :=
  if (k.mutex xMutex).queue.mayCopy .sendToBack then
    (k.prvCopyDataToQueue alg xMutex).map fun r =>
      (true, r.2.unblockReceiver alg xMutex)
  else some (false, k)

/-- The critical section at the head of `xQueueSemaphoreTake`, when it
succeeds. -/
def takeSection (xMutex : MutexHandle) (k : MutexKernel) : Option MutexKernel :=
  (k.mutex xMutex).queue.takeSection.map fun queue =>
    let r := k.pvTaskIncrementMutexHeldCount
    r.2.setMutex xMutex { r.2.mutex xMutex with
      queue := queue
      xMutexHolder := r.1 }

/-- `vTaskPlaceOnEventList` on the tasks that wait for the mutex. -/
def placeOnEventList (xTicksToWait : Nat) (xMutex : MutexHandle)
    (k : MutexKernel) : MutexKernel :=
  match k.st.pxCurrentTCB with
  | none => { k with st := vTaskPlaceOnEventList xTicksToWait k.st }
  | some c =>
      { k.setWaiting xMutex (insertByKey (fun y => (k.fields y).xEventItemValue)
          (k.waiting xMutex) c) with
        st := vTaskPlaceOnEventList xTicksToWait k.st }

/-- What `xQueueSemaphoreTake` does when it finds the mutex held, the scheduler
being suspended: `xInheritanceOccurred`, and the kernel. -/
def waitSection (alg : Algorithm) (xTicksToWait : Nat) (xMutex : MutexHandle)
    (k : MutexKernel) : Bool × MutexKernel :=
  let r := k.xTaskPriorityInherit alg (k.mutex xMutex).xMutexHolder
  (r.1, r.2.placeOnEventList xTicksToWait xMutex)

def prvGetDisinheritPriorityAfterTimeout (xMutex : MutexHandle)
    (k : MutexKernel) : Nat :=
  match k.waiting xMutex with
  | [] => 0
  | y :: _ => configMaxPriorities - (k.fields y).xEventItemValue

/-- The critical section of a task that has timed out after it had caused
inheritance. -/
def timeoutSection (alg : Algorithm) (xMutex : MutexHandle) (k : MutexKernel) :
    Option MutexKernel :=
  k.vTaskPriorityDisinheritAfterTimeout alg (k.mutex xMutex).xMutexHolder
    (k.prvGetDisinheritPriorityAfterTimeout xMutex)

/-- Write `uxRecursiveCallCount`. -/
def countCalls (xMutex : MutexHandle) (f : Nat → Nat) (k : MutexKernel) :
    MutexKernel :=
  k.setMutex xMutex { k.mutex xMutex with
    uxRecursiveCallCount := f (k.mutex xMutex).uxRecursiveCallCount }

end MutexKernel

end FreeRtosSim
