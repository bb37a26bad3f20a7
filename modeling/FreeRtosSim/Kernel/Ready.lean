import FreeRtosSim.Kernel.State

/-!
# List operations and the ready-list macros

`list.c` and the macros of `list.h` on the state items of tasks, then the
three `prvAddTaskToReadyList` macros of `tasks.c`, one for each algorithm,
and the moves between the ready list and `xWaitTaskList` built from them.

The macros compute the item value from the tick count and the period:
`period + tick - tick % period` is the end of the period the tick falls in,
the absolute deadline. BWP ORs `1 << 31` into it, and `1 << 30` for a job
that may be missed; the operand is an `int`, so bit 31 is sign-extended
when it meets the 64-bit value.
-/

namespace FreeRtosSim

/-! ## `list.c` -/

/-- `vListInsert`: behind every item whose value is not larger; an item of
value `portMAX_DELAY` goes to the back. -/
def vListInsert (id : ListId) (x : TaskHandle) (st : State) : State :=
  let l := st.lists id
  let l :=
    if (st.tcb x).xItemValue = portMaxDelay then
      l.append x
    else l.insertSorted (fun y => (st.tcb y).xItemValue) x
  (st.setList id l).modifyTcb x fun t => { t with pxContainer := some id }

/-- `listINSERT_END`: in front of the member the list's `pxIndex` is on. -/
def listInsertEnd (id : ListId) (x : TaskHandle) (st : State) : State :=
  (st.setList id ((st.lists id).insertEnd x)).modifyTcb x
    fun t => { t with pxContainer := some id }

/-- `uxListRemove`: unlink the item from the list it says it is in. The
number of items left, which it returns, only selects whether
`portRESET_READY_PRIORITY` runs, and that macro is empty here. -/
def uxListRemove (x : TaskHandle) (st : State) : State :=
  match (st.tcb x).pxContainer with
  | none => st
  | some id =>
      (st.setList id ((st.lists id).remove x)).modifyTcb x
        fun t => { t with pxContainer := none }

/-! ## `prvAddTaskToReadyList` -/

/-- `taskRECORD_READY_PRIORITY`. -/
def taskRecordReadyPriority (uxPriority : Nat) (st : State) : State :=
  { st with uxTopReadyPriority :=
      if uxPriority > st.uxTopReadyPriority then uxPriority
      else st.uxTopReadyPriority }

/-- `period + tick - tick % period` in `TickType_t`. -/
def deadlineValue (xTaskPeriod xTickCount : Nat) : Nat :=
  tickSub (tickAdd xTaskPeriod xTickCount) (xTickCount % xTaskPeriod)

/-- `( 1 << 31 )`, an `int`, converted to `TickType_t`. -/
def bit31 : Nat := 2 ^ 64 - 2 ^ 31

/-- `( 1 << 30 )` converted to `TickType_t`. -/
def bit30 : Nat := 2 ^ 30

/-- `previous_deadline_met < ( weakly_hard_constraint - 1 )`: the `uint8_t`
operands are promoted, so the right side is -1 for a hard task. -/
def mustMeet (t : TCB) : Bool :=
  (t.previousDeadlineMet : Int) < (t.weaklyHardConstraint : Int) - 1

/-- `listSET_LIST_ITEM_VALUE` on the state item. -/
def setItemValue (x : TaskHandle) (v : Nat) (st : State) : State :=
  st.modifyTcb x fun t => { t with xItemValue := v }

def prvAddTaskToReadyListBwp (x : TaskHandle) (st : State) : State :=
  let t := st.tcb x
  let st := taskRecordReadyPriority t.uxPriority st
  let st :=
    if t.weaklyHardConstraint = 0 ∧ t.xTaskPeriod ≠ 0 then
      setItemValue x (deadlineValue t.xTaskPeriod st.xTickCount ||| bit31) st
    else if mustMeet t ∧ t.xTaskPeriod ≠ 0 then
      setItemValue x (deadlineValue t.xTaskPeriod st.xTickCount ||| bit31) st
    else if t.xTaskPeriod ≠ 0 then
      setItemValue x
        (deadlineValue t.xTaskPeriod st.xTickCount ||| bit31 ||| bit30) st
    else st
  vListInsert (.ready t.uxPriority) x st

def prvAddTaskToReadyListEdf (x : TaskHandle) (st : State) : State :=
  let t := st.tcb x
  let st := taskRecordReadyPriority t.uxPriority st
  let st :=
    if t.xTaskPeriod ≠ 0 then
      setItemValue x (deadlineValue t.xTaskPeriod st.xTickCount) st
    else st
  vListInsert (.ready t.uxPriority) x st

def prvAddTaskToReadyListRto (x : TaskHandle) (st : State) : State :=
  let t := st.tcb x
  let st := taskRecordReadyPriority t.uxPriority st
  if t.weaklyHardConstraint = 0 ∧ t.xTaskPeriod ≠ 0 then
    vListInsert (.ready t.uxPriority) x
      (setItemValue x (deadlineValue t.xTaskPeriod st.xTickCount) st)
  else if mustMeet t ∧ t.xTaskPeriod ≠ 0 then
    vListInsert (.ready t.uxPriority) x
      (setItemValue x (deadlineValue t.xTaskPeriod st.xTickCount) st)
  else if st.xTickCount = 0 ∧ t.xTaskPeriod ≠ 0 then
    listInsertEnd .wait x st
  else if t.xTaskPeriod = 0 then
    vListInsert (.ready t.uxPriority) x st
  else st

/-- The macro the configuration selects. -/
def prvAddTaskToReadyList (alg : Algorithm) (x : TaskHandle) (st : State) :
    State :=
  match alg with
  | .edf => prvAddTaskToReadyListEdf x st
  | .bwp => prvAddTaskToReadyListBwp x st
  | .rto => prvAddTaskToReadyListRto x st

/-! ## Moves between the ready list and the wait list -/

def addTaskToWaitList (x : TaskHandle) (st : State) : State :=
  listInsertEnd .wait x (uxListRemove x st)

def addTaskToReadyList (alg : Algorithm) (x : TaskHandle) (st : State) :
    State :=
  prvAddTaskToReadyList alg x (uxListRemove x st)

end FreeRtosSim
