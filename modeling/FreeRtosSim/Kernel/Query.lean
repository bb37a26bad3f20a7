import FreeRtosSim.Kernel.Api
import FreeRtosSim.Lib.Circuit

/-!
# The functions that look for tasks

`uxTaskGetSystemState` and `xTaskGetHandle` enumerate the state lists while
the scheduler is suspended, `eTaskGetState` reads off the list a task's item
is in. The two enumerations are given once as the part between
`vTaskSuspendAll` and `xTaskResumeAll` and once as the whole. `vTaskDelete` is
not modelled, so `xTasksWaitingTermination`, which they look into as well, is
always empty and left out.

A name is a C string, the list of its characters before the terminating NUL.
Two things the queries read are not in the modelled blocks and come in as
parameters: the names, and which tasks wait for a notification. Stack figures,
task numbers and run time counters are not modelled.
-/

namespace FreeRtosSim

/-- `eTaskState`. -/
inductive ETaskState where
  | eRunning
  | eReady
  | eBlocked
  | eSuspended
  | eDeleted
  | eInvalid
  deriving DecidableEq, Repr

/-! ## `eTaskGetState` -/

/-- `eTaskGetState`; `notified x` says that one of the entries of
`ucNotifyState` of `x` is `taskWAITING_NOTIFICATION`. -/
def eTaskGetState (notified : TaskHandle → Bool) (x : TaskHandle) (st : State) :
    ETaskState :=
  if st.pxCurrentTCB = some x then .eRunning
  else
    let pxStateList := (st.tcb x).pxContainer
    if pxStateList = some st.pxDelayedTaskList ∨
        pxStateList = some st.pxOverflowDelayedTaskList then .eBlocked
    else if pxStateList = some .suspended then
      if (st.tcb x).inEventList = false then
        if notified x then .eBlocked else .eSuspended
      else .eBlocked
    else if pxStateList = none then .eDeleted
    else .eReady

/-! ## Names -/

/-- `configMAX_TASK_NAME_LEN`. -/
def configMaxTaskNameLen : Nat := 12

/-- What `prvInitialiseNewTask` stores of a name. -/
def storedName (pcName : List Char) : List Char :=
  pcName.take (configMaxTaskNameLen - 1)

/-- The terminating character. -/
def nul : Char := Char.ofNat 0

/-- The loop that compares a task's name with the one asked for, from one
character on, with the number of characters left to look at. -/
def nameMatches : Nat → List Char → List Char → Bool
  | 0, _, _ => false
  | x + 1, pcTaskName, pcNameToQuery =>
      if pcTaskName.headD nul ≠ pcNameToQuery.headD nul then false
      else if pcTaskName.headD nul = nul then true
      else nameMatches x pcTaskName.tail pcNameToQuery.tail

/-! ## The enumerations -/

/-- `listGET_OWNER_OF_NEXT_ENTRY`, the step an enumeration is made of; a tick
or an interrupt can come between two of them. -/
def nextEntry (id : ListId) (st : State) : State :=
  st.setList id (st.lists id).advance

/-- The modelled part of `TaskStatus_t`. -/
structure TaskStatus where
  xHandle : TaskHandle
  pcTaskName : List Char
  uxCurrentPriority : Nat
  uxBasePriority : Nat
  eCurrentState : ETaskState
  deriving DecidableEq, Repr

section

variable (pcTaskName : TaskHandle → List Char) (notified : TaskHandle → Bool)

/-- `vTaskGetInfo`. The scheduler is suspended when it runs, so suspending and
resuming it around the look at the event item changes nothing. -/
def vTaskGetInfo (x : TaskHandle) (eState : ETaskState) (st : State) : TaskStatus where
  xHandle := x
  pcTaskName := pcTaskName x
  uxCurrentPriority := (st.tcb x).uxPriority
  uxBasePriority := (st.tcb x).uxPriority
  eCurrentState :=
    if eState ≠ .eInvalid then
      if st.pxCurrentTCB = some x then .eRunning
      else if eState = .eSuspended ∧ (st.tcb x).inEventList then .eBlocked
      else eState
    else eTaskGetState notified x st

/-- `prvListTasksWithinSingleList`: the entries it writes and the state. -/
def prvListTasksWithinSingleList (id : ListId) (eState : ETaskState) (st : State) :
    List TaskStatus × State :=
  if (st.lists id).count > 0 then
    let r := (st.lists id).goRound fun _ => false
    (r.1.map fun x => vTaskGetInfo pcTaskName notified x eState st,
      st.setList id r.2)
  else ([], st)

/-- `prvSearchForNameWithinSingleList`. -/
def prvSearchForNameWithinSingleList (id : ListId) (pcNameToQuery : List Char)
    (st : State) : Option TaskHandle × State :=
  if (st.lists id).count > 0 then
    let found := fun x =>
      nameMatches configMaxTaskNameLen (pcTaskName x) pcNameToQuery
    let r := (st.lists id).goRound found
    (r.1.find? found, st.setList id r.2)
  else (none, st)

/-- The ready lists in the order in which they are looked into. -/
def readyLists : List ListId :=
  (List.range configMaxPriorities).reverse.map ListId.ready

/-- The lists `uxTaskGetSystemState` fills the array from. -/
def listedLists (st : State) : List (ListId × ETaskState) :=
  (readyLists.map fun id => (id, .eReady)) ++
    [(st.pxDelayedTaskList, .eBlocked), (st.pxOverflowDelayedTaskList, .eBlocked),
      (.suspended, .eSuspended)]

/-- The calls of `prvListTasksWithinSingleList`, one after the other. -/
def listTasks : List (ListId × ETaskState) → State → List TaskStatus × State
  | [], st => ([], st)
  | (id, eState) :: rest, st =>
      let r := prvListTasksWithinSingleList pcTaskName notified id eState st
      let r' := listTasks rest r.2
      (r.1 ++ r'.1, r'.2)

/-- `uxTaskGetSystemState` while it holds the scheduler suspended. -/
def fillStatusArray (uxArraySize : Nat) (st : State) : List TaskStatus × State :=
  if uxArraySize ≥ st.uxCurrentNumberOfTasks then
    listTasks pcTaskName notified (listedLists st) st
  else ([], st)

/-- `uxTaskGetSystemState`: the entries of `pxTaskStatusArray` it fills, as
many as it returns. -/
def uxTaskGetSystemState (alg : Algorithm) (uxArraySize : Nat) (st : State) :
    Exec (List TaskStatus × State) := do
  let r := fillStatusArray pcTaskName notified uxArraySize (vTaskSuspendAll st)
  let (_, st) ← xTaskResumeAll alg r.2
  return (r.1, st)

/-- The lists `xTaskGetHandle` searches. -/
def searchedLists (st : State) : List ListId :=
  readyLists ++ [st.pxDelayedTaskList, st.pxOverflowDelayedTaskList, .suspended]

/-- The searches, until one finds something. -/
def searchLists (pcNameToQuery : List Char) :
    List ListId → State → Option TaskHandle × State
  | [], st => (none, st)
  | id :: rest, st =>
      let r := prvSearchForNameWithinSingleList pcTaskName id pcNameToQuery st
      match r.1 with
      | some x => (some x, r.2)
      | none => searchLists pcNameToQuery rest r.2

/-- `xTaskGetHandle` while it holds the scheduler suspended. -/
def searchForName (pcNameToQuery : List Char) (st : State) :
    Option TaskHandle × State :=
  searchLists pcTaskName pcNameToQuery (searchedLists st) st

def xTaskGetHandle (alg : Algorithm) (pcNameToQuery : List Char) (st : State) :
    Exec (Option TaskHandle × State) := do
  configAssert (pcNameToQuery.length < configMaxTaskNameLen)
  let r := searchForName pcTaskName pcNameToQuery (vTaskSuspendAll st)
  let (_, st) ← xTaskResumeAll alg r.2
  return (r.1, st)

end

end FreeRtosSim
