import Mathlib.Data.Finset.Card
import FreeRtosSim.Kernel.Queue

/-!
# Tasks and interrupts at one queue

`xQueueGenericSend`, `xQueueReceive`, `xQueuePeek` and `xQueueSemaphoreTake`
are one loop around different critical sections: try; when that fails, stop
the other tasks, lock the queue, look at the time and at the queue once more,
and either wait on an event list or try again. A task can be interrupted
between any two of these steps, by the tick and by the functions for
interrupts, and by other tasks unless it has suspended the scheduler. Here is
each step on its own, so that runs may interleave them in every order.

Whether the time of a task is up is left open, and so is who runs next. A
task without a period that waits runs again only when it was taken off the
event list, for a wake-up or because its time was up (`Proofs.Parked` proves
it of the scheduler). One with a period may also run while it is still on the
list: the tick moves it off the delayed list when it is charged in a tick that
was held back, and `wakeTasks` readies it at its next release without a look
at the event list.
-/

namespace FreeRtosSim

/-- The calls that may block, with what they are given. -/
inductive QueueCall (α : Type) where
  | send (pvItemToQueue : α) (xCopyPosition : CopyPosition)
  | receive (pvBuffer : α)
  | peek (pvBuffer : α)
  | semaphoreTake

/-- What happened to the items of the queue. -/
inductive QueueEvent (α : Type) where
  | sent (item : α) (xCopyPosition : CopyPosition)
  | received (item : α)
  | peeked (item : α)
  | taken

/-- The two event lists: who waits for room and who waits for items. -/
inductive Side where
  | sender
  | receiver
deriving DecidableEq

namespace QueueCall

variable {α : Type}

/-- The assertions at the head of the functions. -/
def Asserts (pxQueue : QueueDefinition α) : QueueCall α → Prop
  | .send _ xCopyPosition => xCopyPosition = .overwrite → pxQueue.uxLength = 1
  | .receive _ | .peek _ => True
  | .semaphoreTake => pxQueue.uxItemSize = 0

def side : QueueCall α → Side
  | .send .. => .sender
  | .receive _ | .peek _ | .semaphoreTake => .receiver

/-- The critical section at the head of the loop. -/
def criticalSection (pxQueue : QueueDefinition α) :
    QueueCall α → Option (QueueDefinition α × QueueEvent α)
  | .send pvItemToQueue xCopyPosition =>
      (pxQueue.sendSection pvItemToQueue xCopyPosition).map
        (·, .sent pvItemToQueue xCopyPosition)
  | .receive pvBuffer =>
      (pxQueue.receiveSection pvBuffer).map fun r => (r.2, .received r.1)
  | .peek pvBuffer =>
      (pxQueue.peekSection pvBuffer).map fun r => (r.2, .peeked r.1)
  | .semaphoreTake => pxQueue.takeSection.map (·, .taken)

end QueueCall

namespace QueueDefinition

variable {α : Type}

/-- The event list of a side. -/
def waiting : Side → QueueDefinition α → List TaskHandle
  | .sender, pxQueue => pxQueue.xTasksWaitingToSend
  | .receiver, pxQueue => pxQueue.xTasksWaitingToReceive

/-- What the calls of a side find when they have to wait. -/
def mustWait : Side → QueueDefinition α → Bool
  | .sender, pxQueue => pxQueue.prvIsQueueFull
  | .receiver, pxQueue => pxQueue.prvIsQueueEmpty

/-- Write one of the event lists. -/
def setWaiting (side : Side) (waiting : List TaskHandle)
    (pxQueue : QueueDefinition α) : QueueDefinition α :=
  match side with
  | .sender => { pxQueue with xTasksWaitingToSend := waiting }
  | .receiver => { pxQueue with xTasksWaitingToReceive := waiting }

end QueueDefinition

/-- What a task does once the queue is unlocked. -/
inductive After where
  | block
  | again
  | expired
deriving DecidableEq

/-- Where a task is. In `attempt` it enters the critical section at the head
of the loop next, `mayBlock` when `xTicksToWait` is not zero. In `mustWait` it
has found the queue full or empty and is not on the event list yet. In
`waiting` it has yielded, and goes on when it is ready. In `lastLook` it looks
whether the queue is empty once more before it gives up. -/
inductive Phase (α : Type) where
  | outside
  | attempt (call : QueueCall α) (mayBlock : Bool)
  | failed (call : QueueCall α)
  | suspended (call : QueueCall α)
  | locked (call : QueueCall α)
  | mustWait (call : QueueCall α)
  | unlockTx (call : QueueCall α) (next : After)
  | unlockRx (call : QueueCall α) (next : After)
  | resume (call : QueueCall α) (next : After)
  | waiting (call : QueueCall α)
  | lastLook (call : QueueCall α)

/-- What a task does after `xTaskResumeAll`. Sending gives up without looking
again. -/
def After.phase {α : Type} (call : QueueCall α) : After → Phase α
  | .block => .waiting call
  | .again => .attempt call true
  | .expired => match call.side with
    | .sender => .outside
    | .receiver => .lastLook call

/-- A queue and the tasks that use it. -/
structure QueueSystem (α : Type) where
  queue : QueueDefinition α
  phase : TaskHandle → Phase α
  suspender : Option TaskHandle

namespace QueueSystem

variable {α : Type}

def setPhase (x : TaskHandle) (p : Phase α) (s : QueueSystem α) :
    QueueSystem α :=
  { s with phase := Function.update s.phase x p }

/-- `x` can run: nobody else has suspended the scheduler. -/
def MayRun (s : QueueSystem α) (x : TaskHandle) : Prop :=
  s.suspender = none ∨ s.suspender = some x

/-- One step of a task or an interrupt, and what it did to the items. The
tasks are those in `tasks`; `xTaskPeriod` is 0 for those without a period. -/
inductive Step (xTaskPeriod uxPriority : TaskHandle → Nat)
    (tasks : Finset TaskHandle) (s : QueueSystem α) :
    List (QueueEvent α) → QueueSystem α → Prop
  | call {x : TaskHandle} {call : QueueCall α} {mayBlock : Bool}
      (hx : x ∈ tasks) (hrun : s.suspender = none)
      (hphase : s.phase x = .outside) (hassert : call.Asserts s.queue) :
      Step xTaskPeriod uxPriority tasks s []
        (s.setPhase x (.attempt call mayBlock))
  | succeed {x : TaskHandle} {call : QueueCall α} {mayBlock : Bool}
      {pxQueue : QueueDefinition α} {e : QueueEvent α}
      (hrun : s.MayRun x) (hphase : s.phase x = .attempt call mayBlock)
      (hsection : call.criticalSection s.queue = some (pxQueue, e)) :
      Step xTaskPeriod uxPriority tasks s [e]
        { s.setPhase x .outside with queue := pxQueue }
  | fail {x : TaskHandle} {call : QueueCall α} {mayBlock : Bool}
      (hrun : s.MayRun x) (hphase : s.phase x = .attempt call mayBlock)
      (hsection : call.criticalSection s.queue = none) :
      Step xTaskPeriod uxPriority tasks s []
        (s.setPhase x (if mayBlock then .failed call else .outside))
  | suspendAll {x : TaskHandle} {call : QueueCall α}
      (hrun : s.suspender = none) (hphase : s.phase x = .failed call) :
      Step xTaskPeriod uxPriority tasks s []
        { s.setPhase x (.suspended call) with suspender := some x }
  | lock {x : TaskHandle} {call : QueueCall α}
      (hrun : s.MayRun x) (hphase : s.phase x = .suspended call) :
      Step xTaskPeriod uxPriority tasks s []
        { s.setPhase x (.locked call) with queue := s.queue.prvLockQueue }
  | timeUp {x : TaskHandle} {call : QueueCall α}
      (hrun : s.MayRun x) (hphase : s.phase x = .locked call) :
      Step xTaskPeriod uxPriority tasks s []
        (s.setPhase x (.unlockTx call .expired))
  | look {x : TaskHandle} {call : QueueCall α}
      (hrun : s.MayRun x) (hphase : s.phase x = .locked call) :
      Step xTaskPeriod uxPriority tasks s [] (s.setPhase x
        (if s.queue.mustWait call.side then .mustWait call
        else .unlockTx call .again))
  | place {x : TaskHandle} {call : QueueCall α}
      (hrun : s.MayRun x) (hphase : s.phase x = .mustWait call) :
      Step xTaskPeriod uxPriority tasks s []
        { s.setPhase x (.unlockTx call .block) with
          queue := s.queue.setWaiting call.side
            (QueueDefinition.placeOnEventList uxPriority x
              (s.queue.waiting call.side)) }
  | unlockTx {x : TaskHandle} {call : QueueCall α} {next : After}
      (hrun : s.MayRun x) (hphase : s.phase x = .unlockTx call next) :
      Step xTaskPeriod uxPriority tasks s []
        { s.setPhase x (.unlockRx call next) with queue := s.queue.unlockTx }
  | unlockRx {x : TaskHandle} {call : QueueCall α} {next : After}
      (hrun : s.MayRun x) (hphase : s.phase x = .unlockRx call next) :
      Step xTaskPeriod uxPriority tasks s []
        { s.setPhase x (.resume call next) with queue := s.queue.unlockRx }
  | resumeAll {x : TaskHandle} {call : QueueCall α} {next : After}
      (hrun : s.MayRun x) (hphase : s.phase x = .resume call next) :
      Step xTaskPeriod uxPriority tasks s []
        { s.setPhase x (next.phase call) with suspender := none }
  | goOn {x : TaskHandle} {call : QueueCall α}
      (hrun : s.MayRun x) (hphase : s.phase x = .waiting call)
      (hready : xTaskPeriod x = 0 → x ∉ s.queue.waiting call.side) :
      Step xTaskPeriod uxPriority tasks s [] (s.setPhase x (.attempt call true))
  | lookAgain {x : TaskHandle} {call : QueueCall α}
      (hrun : s.MayRun x) (hphase : s.phase x = .lastLook call) :
      Step xTaskPeriod uxPriority tasks s [] (s.setPhase x
        (if s.queue.prvIsQueueEmpty then .outside else .attempt call false))
  | timeout {x : TaskHandle} {call : QueueCall α}
      (hrun : s.suspender = none) (hphase : s.phase x = .waiting call) :
      Step xTaskPeriod uxPriority tasks s []
        { s with
          queue := s.queue.setWaiting call.side
            ((s.queue.waiting call.side).erase x) }
  | sendFromISR {item : α} {xCopyPosition : CopyPosition} {ok : Bool}
      {pxQueue : QueueDefinition α}
      (hisr : s.queue.xQueueGenericSendFromISR item xCopyPosition =
        some (ok, pxQueue)) :
      Step xTaskPeriod uxPriority tasks s
        (if ok then [.sent item xCopyPosition] else [])
        { s with queue := pxQueue }
  | giveFromISR {item : α} {ok : Bool} {pxQueue : QueueDefinition α}
      (hisr : s.queue.xQueueGiveFromISR = some (ok, pxQueue)) :
      Step xTaskPeriod uxPriority tasks s
        (if ok then [.sent item .sendToBack] else [])
        { s with queue := pxQueue }
  | receiveFromISR {pvBuffer item : α} {ok : Bool}
      {pxQueue : QueueDefinition α}
      (hisr : s.queue.xQueueReceiveFromISR pvBuffer =
        some (ok, item, pxQueue)) :
      Step xTaskPeriod uxPriority tasks s (if ok then [.received item] else [])
        { s with queue := pxQueue }
  | peekFromISR {pvBuffer item : α} {ok : Bool} {pxQueue : QueueDefinition α}
      (hisr : s.queue.xQueuePeekFromISR pvBuffer = some (ok, item, pxQueue)) :
      Step xTaskPeriod uxPriority tasks s (if ok then [.peeked item] else [])
        { s with queue := pxQueue }

/-- A new queue that no task uses yet. -/
def start (pxQueue : QueueDefinition α) : QueueSystem α where
  queue := pxQueue
  phase := fun _ => .outside
  suspender := none

/-- A run from `s₀` on, with what happened to the items in their order. -/
inductive Runs (xTaskPeriod uxPriority : TaskHandle → Nat)
    (tasks : Finset TaskHandle) (s₀ : QueueSystem α) :
    List (QueueEvent α) → QueueSystem α → Prop
  | refl : Runs xTaskPeriod uxPriority tasks s₀ [] s₀
  | step {s s' : QueueSystem α} {es es' : List (QueueEvent α)} :
      Runs xTaskPeriod uxPriority tasks s₀ es s →
      Step xTaskPeriod uxPriority tasks s es' s' →
      Runs xTaskPeriod uxPriority tasks s₀ (es ++ es') s'

end QueueSystem

end FreeRtosSim
