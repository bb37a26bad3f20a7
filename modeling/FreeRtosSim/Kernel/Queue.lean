import FreeRtosSim.Kernel.State
import FreeRtosSim.Lib.KeyInsert

/-!
# Queues

The functions of `queue.c` on one queue that is no mutex and in no queue set.
The storage area is counted in items, so `pcWriteTo` and `pcReadFrom` are
numbers of slots and `pcTail` is `uxLength`; a slot holds what `memcpy` puts
there. A queue with items of size zero is a semaphore, and nothing is copied.

What an interrupt or a critical section does is one function. A function that
runs into an assertion returns `none`.
-/

namespace FreeRtosSim

/-- `queueSEND_TO_BACK`, `queueSEND_TO_FRONT` and `queueOVERWRITE`. -/
inductive CopyPosition where
  | sendToBack
  | sendToFront
  | overwrite
deriving DecidableEq, Repr

def queueUnlocked : Int := -1
def queueLockedUnmodified : Int := 0
def queueInt8Max : Int := 127

/-- `SIZE_MAX`. -/
def sizeMax : Nat := 2 ^ 64 - 1

structure QueueDefinition (α : Type) where
  pcHead : Nat → α
  pcWriteTo : Nat
  pcReadFrom : Nat
  xTasksWaitingToSend : List TaskHandle
  xTasksWaitingToReceive : List TaskHandle
  uxMessagesWaiting : Nat
  uxLength : Nat
  uxItemSize : Nat
  cRxLock : Int
  cTxLock : Int

namespace QueueDefinition

variable {α : Type}

/-- `xTaskRemoveFromEventList` on the tasks that wait to receive, if any do. -/
def unblockReceiver (pxQueue : QueueDefinition α) : QueueDefinition α :=
  { pxQueue with
    xTasksWaitingToReceive := pxQueue.xTasksWaitingToReceive.tail }

def unblockSender (pxQueue : QueueDefinition α) : QueueDefinition α :=
  { pxQueue with xTasksWaitingToSend := pxQueue.xTasksWaitingToSend.tail }

/-! ## Making a queue -/

def xQueueGenericReset (xNewQueue : Bool) (pxQueue : QueueDefinition α) :
    Option (QueueDefinition α) :=
  if pxQueue.uxLength ≥ 1 ∧ sizeMax / pxQueue.uxLength ≥ pxQueue.uxItemSize then
    let pxQueue := { pxQueue with
      uxMessagesWaiting := 0
      pcWriteTo := 0
      pcReadFrom := pxQueue.uxLength - 1
      cRxLock := queueUnlocked
      cTxLock := queueUnlocked }
    if xNewQueue = false then some pxQueue.unblockSender
    else some { pxQueue with
      xTasksWaitingToSend := []
      xTasksWaitingToReceive := [] }
  else none

def prvInitialiseNewQueue (uxQueueLength uxItemSize : Nat)
    (pxNewQueue : QueueDefinition α) : Option (QueueDefinition α) :=
  xQueueGenericReset true { pxNewQueue with
    uxLength := uxQueueLength
    uxItemSize := uxItemSize }

/-- `xQueueGenericCreate`, `block` being what `pvPortMalloc` returns and
`sizeOfQueue` the size of the structure in front of the storage area. -/
def xQueueGenericCreate (sizeOfQueue uxQueueLength uxItemSize : Nat)
    (block : QueueDefinition α) : Option (QueueDefinition α) :=
  if uxQueueLength > 0 ∧ sizeMax / uxQueueLength ≥ uxItemSize ∧
      sizeMax - sizeOfQueue ≥ uxQueueLength * uxItemSize then
    prvInitialiseNewQueue uxQueueLength uxItemSize block
  else none

def xQueueCreateCountingSemaphore (sizeOfQueue uxMaxCount uxInitialCount : Nat)
    (block : QueueDefinition α) : Option (QueueDefinition α) :=
  if uxMaxCount ≠ 0 ∧ uxInitialCount ≤ uxMaxCount then
    (xQueueGenericCreate sizeOfQueue uxMaxCount 0 block).map fun xHandle =>
      { xHandle with uxMessagesWaiting := uxInitialCount }
  else none

/-! ## Copying -/

def prvCopyDataToQueue (pvItemToQueue : α) (xPosition : CopyPosition)
    (pxQueue : QueueDefinition α) : QueueDefinition α :=
  let uxMessagesWaiting := pxQueue.uxMessagesWaiting
  if pxQueue.uxItemSize = 0 then
    { pxQueue with uxMessagesWaiting := uxMessagesWaiting + 1 }
  else if xPosition = .sendToBack then
    let pcWriteTo := pxQueue.pcWriteTo + 1
    { pxQueue with
      pcHead := Function.update pxQueue.pcHead pxQueue.pcWriteTo pvItemToQueue
      pcWriteTo := if pcWriteTo ≥ pxQueue.uxLength then 0 else pcWriteTo
      uxMessagesWaiting := uxMessagesWaiting + 1 }
  else
    let uxMessagesWaiting :=
      if xPosition = .overwrite then
        if uxMessagesWaiting > 0 then uxMessagesWaiting - 1
        else uxMessagesWaiting
      else uxMessagesWaiting
    { pxQueue with
      pcHead := Function.update pxQueue.pcHead pxQueue.pcReadFrom pvItemToQueue
      pcReadFrom :=
        if (pxQueue.pcReadFrom : Int) - 1 < 0 then pxQueue.uxLength - 1
        else pxQueue.pcReadFrom - 1
      uxMessagesWaiting := uxMessagesWaiting + 1 }

/-- The buffer after the call, and the queue. -/
def prvCopyDataFromQueue (pvBuffer : α) (pxQueue : QueueDefinition α) :
    α × QueueDefinition α :=
  if pxQueue.uxItemSize ≠ 0 then
    let pcReadFrom := pxQueue.pcReadFrom + 1
    let pcReadFrom := if pcReadFrom ≥ pxQueue.uxLength then 0 else pcReadFrom
    (pxQueue.pcHead pcReadFrom, { pxQueue with pcReadFrom := pcReadFrom })
  else (pvBuffer, pxQueue)

/-! ## From a task

The critical section at the head of the loops; `none` when it does not
succeed. -/

/-- Whether there is room for an item. -/
def mayCopy (xCopyPosition : CopyPosition) (pxQueue : QueueDefinition α) :
    Bool :=
  pxQueue.uxMessagesWaiting < pxQueue.uxLength ∨ xCopyPosition = .overwrite

def sendSection (pvItemToQueue : α) (xCopyPosition : CopyPosition)
    (pxQueue : QueueDefinition α) : Option (QueueDefinition α) :=
  if pxQueue.mayCopy xCopyPosition then
    some (pxQueue.prvCopyDataToQueue pvItemToQueue xCopyPosition).unblockReceiver
  else none

def receiveSection (pvBuffer : α) (pxQueue : QueueDefinition α) :
    Option (α × QueueDefinition α) :=
  let uxMessagesWaiting := pxQueue.uxMessagesWaiting
  if uxMessagesWaiting > 0 then
    let copied := pxQueue.prvCopyDataFromQueue pvBuffer
    let pxQueue := { copied.2 with uxMessagesWaiting := uxMessagesWaiting - 1 }
    some (copied.1, pxQueue.unblockSender)
  else none

/-- The critical section of `xQueueSemaphoreTake`. -/
def takeSection (pxQueue : QueueDefinition α) : Option (QueueDefinition α) :=
  let uxSemaphoreCount := pxQueue.uxMessagesWaiting
  if uxSemaphoreCount > 0 then
    let pxQueue := { pxQueue with uxMessagesWaiting := uxSemaphoreCount - 1 }
    some pxQueue.unblockSender
  else none

def peekSection (pvBuffer : α) (pxQueue : QueueDefinition α) :
    Option (α × QueueDefinition α) :=
  if pxQueue.uxMessagesWaiting > 0 then
    let pcOriginalReadPosition := pxQueue.pcReadFrom
    let copied := pxQueue.prvCopyDataFromQueue pvBuffer
    let pxQueue := { copied.2 with pcReadFrom := pcOriginalReadPosition }
    some (copied.1, pxQueue.unblockReceiver)
  else none

def prvLockQueue (pxQueue : QueueDefinition α) : QueueDefinition α :=
  { pxQueue with
    cRxLock :=
      if pxQueue.cRxLock = queueUnlocked then queueLockedUnmodified
      else pxQueue.cRxLock
    cTxLock :=
      if pxQueue.cTxLock = queueUnlocked then queueLockedUnmodified
      else pxQueue.cTxLock }

/-- The loops of `prvUnlockQueue`: as many tasks are unblocked as the lock has
counted, as long as there are any. -/
def unblockLoop : Nat → List TaskHandle → List TaskHandle
  | 0, waiting => waiting
  | _ + 1, [] => []
  | cLock + 1, _ :: waiting => unblockLoop cLock waiting

/-- The first critical section of `prvUnlockQueue`. -/
def unlockTx (pxQueue : QueueDefinition α) : QueueDefinition α :=
  { pxQueue with
    xTasksWaitingToReceive :=
      unblockLoop pxQueue.cTxLock.toNat pxQueue.xTasksWaitingToReceive
    cTxLock := queueUnlocked }

/-- The second one. -/
def unlockRx (pxQueue : QueueDefinition α) : QueueDefinition α :=
  { pxQueue with
    xTasksWaitingToSend :=
      unblockLoop pxQueue.cRxLock.toNat pxQueue.xTasksWaitingToSend
    cRxLock := queueUnlocked }

def prvIsQueueEmpty (pxQueue : QueueDefinition α) : Bool :=
  pxQueue.uxMessagesWaiting = 0

def prvIsQueueFull (pxQueue : QueueDefinition α) : Bool :=
  pxQueue.uxMessagesWaiting = pxQueue.uxLength

/-- `vTaskPlaceOnEventList` on one of the event lists: the tasks are in order
of their priorities. -/
def placeOnEventList (uxPriority : TaskHandle → Nat) (x : TaskHandle)
    (pxEventList : List TaskHandle) : List TaskHandle :=
  insertByKey (fun x => configMaxPriorities - uxPriority x) pxEventList x

/-! ## From an interrupt -/

/-- What the functions for interrupts do after an item was added. -/
def postedFromISR (cTxLock : Int) (pxQueue : QueueDefinition α) :
    Option (QueueDefinition α) :=
  if cTxLock = queueUnlocked then some pxQueue.unblockReceiver
  else if cTxLock ≠ queueInt8Max then some { pxQueue with cTxLock := cTxLock + 1 }
  else none

def xQueueGenericSendFromISR (pvItemToQueue : α) (xCopyPosition : CopyPosition)
    (pxQueue : QueueDefinition α) : Option (Bool × QueueDefinition α) :=
  if xCopyPosition = .overwrite ∧ pxQueue.uxLength ≠ 1 then none
  else if pxQueue.mayCopy xCopyPosition then
    (postedFromISR pxQueue.cTxLock
      (pxQueue.prvCopyDataToQueue pvItemToQueue xCopyPosition)).map (true, ·)
  else some (false, pxQueue)

def xQueueGiveFromISR (pxQueue : QueueDefinition α) :
    Option (Bool × QueueDefinition α) :=
  let uxMessagesWaiting := pxQueue.uxMessagesWaiting
  if pxQueue.uxItemSize = 0 then
    if uxMessagesWaiting < pxQueue.uxLength then
      (postedFromISR pxQueue.cTxLock
        { pxQueue with uxMessagesWaiting := uxMessagesWaiting + 1 }).map (true, ·)
    else some (false, pxQueue)
  else none

def xQueueReceiveFromISR (pvBuffer : α) (pxQueue : QueueDefinition α) :
    Option (Bool × α × QueueDefinition α) :=
  let uxMessagesWaiting := pxQueue.uxMessagesWaiting
  if uxMessagesWaiting > 0 then
    let cRxLock := pxQueue.cRxLock
    let copied := pxQueue.prvCopyDataFromQueue pvBuffer
    let pxQueue := { copied.2 with uxMessagesWaiting := uxMessagesWaiting - 1 }
    if cRxLock = queueUnlocked then some (true, copied.1, pxQueue.unblockSender)
    else if cRxLock ≠ queueInt8Max then
      some (true, copied.1, { pxQueue with cRxLock := cRxLock + 1 })
    else none
  else some (false, pvBuffer, pxQueue)

def xQueuePeekFromISR (pvBuffer : α) (pxQueue : QueueDefinition α) :
    Option (Bool × α × QueueDefinition α) :=
  if pxQueue.uxItemSize ≠ 0 then
    if pxQueue.uxMessagesWaiting > 0 then
      let pcOriginalReadPosition := pxQueue.pcReadFrom
      let copied := pxQueue.prvCopyDataFromQueue pvBuffer
      some (true, copied.1, { copied.2 with pcReadFrom := pcOriginalReadPosition })
    else some (false, pvBuffer, pxQueue)
  else none

end QueueDefinition

end FreeRtosSim
