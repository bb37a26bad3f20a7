import FreeRtosSim.Kernel.Tick
import FreeRtosSim.Lib.RingMemory

/-!
# The two passes on the linked lists

`killTasks` and `wakeTasks` once more, with what they call, on the lists as
`list.h` declares them: links, end markers, `pxIndex` and `uxNumberOfItems`
instead of the sequence of the members. The item of a task is named by its
handle; its value and its container are fields of the block, as in the rest
of the kernel model. The end marker of every list has the value
`portMAX_DELAY` that `vListInitialise` writes.

`LinkedState` has the part of the kernel's state that the two passes read and
write.
-/

namespace FreeRtosSim

structure LinkedState where
  mem : RingMemory ListId TaskHandle
  tcb : TaskHandle → TCB
  xTickCount : Nat
  uxTopReadyPriority : Nat
  sim : Simulator

namespace LinkedState

/-- Write to one control block. -/
def modifyTcb (s : LinkedState) (x : TaskHandle) (f : TCB → TCB) : LinkedState :=
  { s with tcb := Function.update s.tcb x (f (s.tcb x)) }

def setMem (s : LinkedState) (mem : RingMemory ListId TaskHandle) : LinkedState :=
  { s with mem := mem }

/-- `xItemValue` of an item or of an end marker. -/
def itemValue (s : LinkedState) : RingNode ListId TaskHandle → Nat
  | .marker _ => portMaxDelay
  | .item x => (s.tcb x).xItemValue

/-! ## `list.c` -/

/-- The search makes at most as many steps as the list has items before it
meets the end marker. -/
def vListInsert (id : ListId) (x : TaskHandle) (s : LinkedState) : LinkedState :=
  let xValueOfInsertion := (s.tcb x).xItemValue
  let pxIterator :=
    if xValueOfInsertion = portMaxDelay then s.mem.prev (.marker id)
    else s.mem.findPlace s.itemValue xValueOfInsertion (s.mem.count id + 1) (.marker id)
  (s.setMem (s.mem.insertAfter id pxIterator x)).modifyTcb x
    fun t => { t with pxContainer := some id }

def listInsertEnd (id : ListId) (x : TaskHandle) (s : LinkedState) : LinkedState :=
  (s.setMem (s.mem.insertEnd id x)).modifyTcb x
    fun t => { t with pxContainer := some id }

def uxListRemove (x : TaskHandle) (s : LinkedState) : LinkedState :=
  match (s.tcb x).pxContainer with
  | none => s
  | some id =>
      (s.setMem (s.mem.remove id x)).modifyTcb x
        fun t => { t with pxContainer := none }

/-! ## `prvAddTaskToReadyList` -/

def taskRecordReadyPriority (uxPriority : Nat) (s : LinkedState) : LinkedState :=
  { s with uxTopReadyPriority :=
      if uxPriority > s.uxTopReadyPriority then uxPriority
      else s.uxTopReadyPriority }

def setItemValue (x : TaskHandle) (v : Nat) (s : LinkedState) : LinkedState :=
  s.modifyTcb x fun t => { t with xItemValue := v }

def prvAddTaskToReadyListBwp (x : TaskHandle) (s : LinkedState) : LinkedState :=
  let t := s.tcb x
  let s := s.taskRecordReadyPriority t.uxPriority
  let s :=
    if t.weaklyHardConstraint = 0 ∧ t.xTaskPeriod ≠ 0 then
      s.setItemValue x (deadlineValue t.xTaskPeriod s.xTickCount ||| bit31)
    else if mustMeet t ∧ t.xTaskPeriod ≠ 0 then
      s.setItemValue x (deadlineValue t.xTaskPeriod s.xTickCount ||| bit31)
    else if t.xTaskPeriod ≠ 0 then
      s.setItemValue x (deadlineValue t.xTaskPeriod s.xTickCount ||| bit31 ||| bit30)
    else s
  s.vListInsert (.ready t.uxPriority) x

def prvAddTaskToReadyListEdf (x : TaskHandle) (s : LinkedState) : LinkedState :=
  let t := s.tcb x
  let s := s.taskRecordReadyPriority t.uxPriority
  let s :=
    if t.xTaskPeriod ≠ 0 then
      s.setItemValue x (deadlineValue t.xTaskPeriod s.xTickCount)
    else s
  s.vListInsert (.ready t.uxPriority) x

def prvAddTaskToReadyListRto (x : TaskHandle) (s : LinkedState) : LinkedState :=
  let t := s.tcb x
  let s := s.taskRecordReadyPriority t.uxPriority
  if t.weaklyHardConstraint = 0 ∧ t.xTaskPeriod ≠ 0 then
    (s.setItemValue x (deadlineValue t.xTaskPeriod s.xTickCount)).vListInsert
      (.ready t.uxPriority) x
  else if mustMeet t ∧ t.xTaskPeriod ≠ 0 then
    (s.setItemValue x (deadlineValue t.xTaskPeriod s.xTickCount)).vListInsert
      (.ready t.uxPriority) x
  else if s.xTickCount = 0 ∧ t.xTaskPeriod ≠ 0 then
    s.listInsertEnd .wait x
  else if t.xTaskPeriod = 0 then
    s.vListInsert (.ready t.uxPriority) x
  else s

def prvAddTaskToReadyList (alg : Algorithm) (x : TaskHandle) (s : LinkedState) :
    LinkedState :=
  match alg with
  | .edf => s.prvAddTaskToReadyListEdf x
  | .bwp => s.prvAddTaskToReadyListBwp x
  | .rto => s.prvAddTaskToReadyListRto x

def addTaskToWaitList (x : TaskHandle) (s : LinkedState) : LinkedState :=
  (s.uxListRemove x).listInsertEnd .wait x

def addTaskToReadyList (alg : Algorithm) (x : TaskHandle) (s : LinkedState) :
    LinkedState :=
  (s.uxListRemove x).prvAddTaskToReadyList alg x

/-! ## `killTasks` -/

/-- `check_weakly_hard`. -/
def checkWeaklyHard (x : TaskHandle) (s : LinkedState) : LinkedState :=
  let t := s.tcb x
  if t.weaklyHardConstraint = 0 then { s with sim := s.sim.weaklyHardBroken }
  else if mustMeet t then { s with sim := s.sim.weaklyHardBroken }
  else s

/-- The laxity test of `killTasks`. -/
def hopeless (s : LinkedState) (x : TaskHandle) : Bool :=
  let t := s.tcb x
  tickAdd (tickSub s.xTickCount t.startTime) t.xRemainingTicks > t.xTaskPeriod

def killBody (x : TaskHandle) (s : LinkedState) : LinkedState :=
  if (s.tcb x).uxPriority > 0 then
    if s.hopeless x then
      let s := { s with sim := s.sim.incrementTimesKilled (s.tcb x).xTaskId }
      let s := s.checkWeaklyHard x
      let s := s.modifyTcb x fun t => { t with previousDeadlineMet := 0 }
      s.addTaskToWaitList x
    else s
  else s

def killTasks (s : LinkedState) : LinkedState :=
  RingMemory.ringWalk mem setMem (.ready 1) killBody s

/-- The entries `killTasks` has in hand, one a round. -/
def killNodes (s : LinkedState) : List (RingNode ListId TaskHandle) :=
  RingMemory.ringNodes mem setMem (.ready 1) killBody s

/-! ## `wakeTasks` -/

def wakeBody (alg : Algorithm) (x : TaskHandle) (s : LinkedState) : LinkedState :=
  if (s.tcb x).uxPriority > 0 then
    if s.xTickCount % (s.tcb x).xTaskPeriod = 0 then
      let s := s.modifyTcb x fun t =>
        { t with xRemainingTicks := t.xTaskDuration, startTime := s.xTickCount }
      if alg = .rto ∧ (s.tcb x).weaklyHardConstraint ≠ 0 ∧
          ((s.tcb x).previousDeadlineMet : Int) ≥
            ((s.tcb x).weaklyHardConstraint : Int) - 1 then
        s.modifyTcb x fun t => { t with previousDeadlineMet := 0 }
      else s.addTaskToReadyList alg x
    else s
  else s

def wakeTasks (alg : Algorithm) (s : LinkedState) : LinkedState :=
  RingMemory.ringWalk mem setMem .wait (wakeBody alg) s

/-- The entries `wakeTasks` has in hand, one a round. -/
def wakeNodes (alg : Algorithm) (s : LinkedState) :
    List (RingNode ListId TaskHandle) :=
  RingMemory.ringNodes mem setMem .wait (wakeBody alg) s

end LinkedState

end FreeRtosSim
