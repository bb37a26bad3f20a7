import Mathlib.Algebra.Ring.Int.Defs
import Mathlib.Algebra.Ring.Nat
import Mathlib.Logic.Function.Basic
import FreeRtosSim.Lib.CursorList

/-!
# The state the kernel and the simulator share

The file-scope variables of `tasks.c` that the tick, the context switch and
task creation read, the task control blocks, and the table of
`taskSetGenerator.c` the periodic kernel writes its verdicts into. A task
handle is the address of a control block; memory is a total map from
handles to blocks, so an allocated block starts with whatever the map holds
there.

`TickType_t`, `UBaseType_t` are `unsigned long` on the Posix port, 64 bits:
values are naturals below `2 ^ 64` and the arithmetic that may leave that
range goes through `tickAdd` and `tickSub`. `int` values that are compared
with the `uint8_t` counters are read as integers.
-/

namespace FreeRtosSim

/-- The three scheduling algorithms of `FreeRTOSConfig.h`; exactly one of
`configEDF_ALGORITHM`, `configBWP_ALGORITHM`, `configRTO_ALGORITHM` is 1. -/
inductive Algorithm where
  | edf
  | bwp
  | rto
  deriving DecidableEq, Repr

/-- `configMAX_PRIORITIES`. -/
def configMaxPriorities : Nat := 7

/-- `taskEVENT_LIST_ITEM_VALUE_IN_USE`. -/
def taskEventListItemValueInUse : Nat := 0x80000000

/-- `portMAX_DELAY`, the largest `TickType_t`. -/
def portMaxDelay : Nat := 2 ^ 64 - 1

/-- Addition of two `TickType_t` values. -/
def tickAdd (a b : Nat) : Nat := (a + b) % 2 ^ 64

/-- Subtraction of two `TickType_t` values. -/
def tickSub (a b : Nat) : Nat := (a + (2 ^ 64 - b)) % 2 ^ 64

theorem tickAdd_of_lt {a b : Nat} (h : a + b < 2 ^ 64) :
    tickAdd a b = a + b := Nat.mod_eq_of_lt h

theorem tickSub_of_le {a b : Nat} (ha : a < 2 ^ 64) (h : b ≤ a) :
    tickSub a b = a - b := by
  rw [tickSub, show a + (2 ^ 64 - b) = a - b + 2 ^ 64 by omega,
    Nat.add_mod_right, Nat.mod_eq_of_lt (by omega)]

/-- A `TaskHandle_t`: the address of a task control block. -/
abbrev TaskHandle := Nat

/-- The state lists of `tasks.c`. -/
inductive ListId where
  | ready (uxPriority : Nat)
  | wait
  | delayed1
  | delayed2
  | pendingReady
  | suspended
  deriving DecidableEq, Repr

/-- The fields of `tskTCB` that scheduling depends on. `xStateListItem` is
flattened into its value and its container; of `xEventListItem` only the
container matters here, and which event list that is does not. -/
structure TCB where
  xItemValue : Nat
  pxContainer : Option ListId
  inEventList : Bool
  uxPriority : Nat
  xTaskId : Nat
  xTaskPeriod : Nat
  startTime : Nat
  xTaskDuration : Nat
  xRemainingTicks : Nat
  weaklyHardConstraint : Nat
  previousDeadlineMet : Nat
  deriving DecidableEq, Repr

/-- `struct periodic_task`, one entry of `Task_Set`. The array
`report[MAX_PERIOD_CNT]` is a row without an end: what the code does past
the end of the array is not defined by C. -/
structure PeriodicTask where
  period : Nat
  duration : Nat
  weaklyHardConstraint : Nat
  numOfPeriods : Nat
  report : Nat → Bool
  missedDeadlines : Nat
  timesKilled : Nat
  weaklyHardBroken : Nat

/-- The globals of `taskSetGenerator.c` the run reads and writes. -/
structure Simulator where
  taskCnt : Nat
  taskSet : Nat → PeriodicTask
  weaklyHard : Nat
  hiperperiod : Int

/-- The kernel's globals, the control blocks, the simulator's globals, and
what was printed on the console. -/
structure State where
  tcb : TaskHandle → TCB
  lists : ListId → CursorList TaskHandle
  pxCurrentTCB : Option TaskHandle
  pxDelayedTaskList : ListId
  pxOverflowDelayedTaskList : ListId
  uxCurrentNumberOfTasks : Nat
  xTickCount : Nat
  uxTopReadyPriority : Nat
  xSchedulerRunning : Bool
  uxSchedulerSuspended : Nat
  xPendedTicks : Nat
  xYieldPending : Bool
  xNextTaskUnblockTime : Nat
  sim : Simulator
  console : List String

/-- How a run of the process can end: `exit(0)` inside `exit_function`, or
`vAssertCalled`, which never returns. -/
inductive Stop where
  | exit (st : State)
  | assertFailed

/-- Kernel code that may stop the process. -/
abbrev Exec (α : Type) := Except Stop α

/-- `configASSERT( x )`. -/
def configAssert (x : Bool) : Exec Unit :=
  if x then .ok () else .error .assertFailed

namespace State

/-- Write to one control block. -/
def modifyTcb (st : State) (x : TaskHandle) (f : TCB → TCB) : State :=
  { st with tcb := Function.update st.tcb x (f (st.tcb x)) }

/-- Write one list. -/
def setList (st : State) (id : ListId) (l : CursorList TaskHandle) : State :=
  { st with lists := Function.update st.lists id l }

/-- The members of a list, in order. -/
abbrev items (st : State) (id : ListId) : List TaskHandle :=
  (st.lists id).items

@[simp] theorem modifyTcb_tcb (st : State) (x : TaskHandle) (f : TCB → TCB) :
    (st.modifyTcb x f).tcb = Function.update st.tcb x (f (st.tcb x)) := rfl

@[simp] theorem modifyTcb_lists (st : State) (x : TaskHandle) (f : TCB → TCB) :
    (st.modifyTcb x f).lists = st.lists := rfl

@[simp] theorem modifyTcb_sim (st : State) (x : TaskHandle) (f : TCB → TCB) :
    (st.modifyTcb x f).sim = st.sim := rfl

@[simp] theorem modifyTcb_xTickCount (st : State) (x : TaskHandle)
    (f : TCB → TCB) : (st.modifyTcb x f).xTickCount = st.xTickCount := rfl

@[simp] theorem setList_tcb (st : State) (id : ListId)
    (l : CursorList TaskHandle) : (st.setList id l).tcb = st.tcb := rfl

@[simp] theorem setList_lists (st : State) (id : ListId)
    (l : CursorList TaskHandle) :
    (st.setList id l).lists = Function.update st.lists id l := rfl

@[simp] theorem setList_sim (st : State) (id : ListId)
    (l : CursorList TaskHandle) : (st.setList id l).sim = st.sim := rfl

@[simp] theorem setList_xTickCount (st : State) (id : ListId)
    (l : CursorList TaskHandle) :
    (st.setList id l).xTickCount = st.xTickCount := rfl

end State

/-- Where a cursor stands is no matter of the members. -/
theorem setIndex_items (st : State) (l id : ListId) (c : Option TaskHandle) :
    (st.setList id ((st.lists id).setIndex c)).items l = st.items l := by
  by_cases hl : l = id
  · subst hl
    simp [State.items]
  · simp [State.items, hl]

end FreeRtosSim
