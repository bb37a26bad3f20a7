import Mathlib.Data.Finset.Defs
import FreeRtosSim.Kernel.State

/-!
# Event groups

`event_groups.c`. Tasks wait for bits of a word: for any of some bits or for
all of them. What a task waits for, and how, stands in the value of its event
item, and `xEventGroupSetBits` writes the bits that woke the task there. The
scheduler is suspended while bits are set and while a task looks before it
waits, so these are single steps; so is the critical section of a task whose
time is up. In between anything else may happen.
-/

namespace FreeRtosSim

/-- `EventBits_t`. -/
abbrev EventBits := BitVec 64

def eventClearEventsOnExitBit : EventBits := 0x01000000#64

def eventUnblockedDueToBitSet : EventBits := 0x02000000#64

def eventWaitForAllBits : EventBits := 0x04000000#64

def eventEventBitsControlBytes : EventBits := 0xff000000#64

/-- `taskEVENT_LIST_ITEM_VALUE_IN_USE` as the value of an event item. -/
def itemValueInUse : EventBits := BitVec.ofNat 64 taskEventListItemValueInUse

structure EventGroup where
  uxEventBits : EventBits
  xTasksWaitingForBits : List TaskHandle

def xEventGroupCreate : EventGroup where
  uxEventBits := 0
  xTasksWaitingForBits := []

def prvTestWaitCondition (uxCurrentEventBits uxBitsToWaitFor : EventBits)
    (xWaitForAllBits : Bool) : Bool :=
  if xWaitForAllBits = false then uxCurrentEventBits &&& uxBitsToWaitFor ≠ 0
  else uxCurrentEventBits &&& uxBitsToWaitFor = uxBitsToWaitFor

/-- In `waiting` the task has been put on the list and has not returned. -/
inductive EventPhase where
  | outside
  | waiting (uxBitsToWaitFor : EventBits) (xClearOnExit xWaitForAllBits : Bool)
deriving DecidableEq, Repr

structure EventSystem where
  group : EventGroup
  xItemValue : TaskHandle → EventBits
  phase : TaskHandle → EventPhase

namespace EventSystem

def setBits (bits : EventBits) (s : EventSystem) : EventSystem :=
  { s with group := { s.group with uxEventBits := bits } }

def setItemValue (x : TaskHandle) (v : EventBits) (s : EventSystem) :
    EventSystem :=
  { s with xItemValue := Function.update s.xItemValue x v }

def setPhase (x : TaskHandle) (p : EventPhase) (s : EventSystem) : EventSystem :=
  { s with phase := Function.update s.phase x p }

/-- The event item leaves the list. -/
def removeItem (x : TaskHandle) (s : EventSystem) : EventSystem :=
  { s with group := { s.group with
      xTasksWaitingForBits := s.group.xTasksWaitingForBits.erase x } }

/-! ## `tasks.c` -/

def vTaskPlaceOnUnorderedEventList (x : TaskHandle) (xItemValue : EventBits)
    (s : EventSystem) : EventSystem :=
  let s := s.setItemValue x (xItemValue ||| itemValueInUse)
  { s with group := { s.group with
      xTasksWaitingForBits := s.group.xTasksWaitingForBits ++ [x] } }

def vTaskRemoveFromUnorderedEventList (x : TaskHandle) (xItemValue : EventBits)
    (s : EventSystem) : EventSystem :=
  (s.setItemValue x (xItemValue ||| itemValueInUse)).removeItem x

def uxTaskResetEventItemValue (uxPriority : TaskHandle → Nat) (x : TaskHandle)
    (s : EventSystem) : EventBits × EventSystem :=
  (s.xItemValue x,
    s.setItemValue x (BitVec.ofNat 64 (configMaxPriorities - uxPriority x)))

/-! ## `event_groups.c` -/

/-- `xMatchFound`. -/
def matchFound (uxEventBits xItemValue : EventBits) : Bool :=
  let uxControlBits := xItemValue &&& eventEventBitsControlBytes
  let uxBitsWaitedFor := xItemValue &&& ~~~eventEventBitsControlBytes
  if uxControlBits &&& eventWaitForAllBits = 0 then
    uxBitsWaitedFor &&& uxEventBits ≠ 0
  else uxBitsWaitedFor &&& uxEventBits = uxBitsWaitedFor

/-- The loop over the list; the next item is read before the task is taken
off. The result has `uxBitsToClear` too. -/
def setBitsLoop : List TaskHandle → EventBits → EventSystem →
    EventSystem × EventBits
  | [], uxBitsToClear, s => (s, uxBitsToClear)
  | x :: xs, uxBitsToClear, s =>
      let uxControlBits := s.xItemValue x &&& eventEventBitsControlBytes
      let uxBitsWaitedFor := s.xItemValue x &&& ~~~eventEventBitsControlBytes
      if matchFound s.group.uxEventBits (s.xItemValue x) then
        setBitsLoop xs
          (if uxControlBits &&& eventClearEventsOnExitBit ≠ 0 then
            uxBitsToClear ||| uxBitsWaitedFor
          else uxBitsToClear)
          (s.vTaskRemoveFromUnorderedEventList x
            (s.group.uxEventBits ||| eventUnblockedDueToBitSet))
      else setBitsLoop xs uxBitsToClear s

def xEventGroupSetBits (uxBitsToSet : EventBits) (s : EventSystem) :
    EventSystem :=
  let s := s.setBits (s.group.uxEventBits ||| uxBitsToSet)
  let r := setBitsLoop s.group.xTasksWaitingForBits 0 s
  r.1.setBits (r.1.group.uxEventBits &&& ~~~r.2)

def xEventGroupClearBits (uxBitsToClear : EventBits) (s : EventSystem) :
    EventSystem :=
  s.setBits (s.group.uxEventBits &&& ~~~uxBitsToClear)

/-- The control bits of a call. -/
def controlBits (xClearOnExit xWaitForAllBits : Bool) : EventBits :=
  (if xClearOnExit then eventClearEventsOnExitBit else 0) |||
    (if xWaitForAllBits then eventWaitForAllBits else 0)

/-- The task waits. -/
def block (x : TaskHandle) (uxBitsToWaitFor : EventBits)
    (xClearOnExit xWaitForAllBits : Bool) (s : EventSystem) : EventSystem :=
  (s.vTaskPlaceOnUnorderedEventList x
    (uxBitsToWaitFor ||| controlBits xClearOnExit xWaitForAllBits)).setPhase x
      (.waiting uxBitsToWaitFor xClearOnExit xWaitForAllBits)

/-- `xEventGroupWaitBits` while the scheduler is suspended: what it returns if
it does not block. `mayBlock` says that `xTicksToWait` is not zero. -/
def waitSection (x : TaskHandle) (uxBitsToWaitFor : EventBits)
    (xClearOnExit xWaitForAllBits mayBlock : Bool) (s : EventSystem) :
    Option EventBits × EventSystem :=
  let uxCurrentEventBits := s.group.uxEventBits
  if prvTestWaitCondition uxCurrentEventBits uxBitsToWaitFor xWaitForAllBits then
    (some uxCurrentEventBits,
      if xClearOnExit then s.setBits (s.group.uxEventBits &&& ~~~uxBitsToWaitFor)
      else s)
  else if mayBlock = false then (some uxCurrentEventBits, s)
  else (none, s.block x uxBitsToWaitFor xClearOnExit xWaitForAllBits)

/-- `xEventGroupSync` while the scheduler is suspended. -/
def syncSection (x : TaskHandle) (uxBitsToSet uxBitsToWaitFor : EventBits)
    (mayBlock : Bool) (s : EventSystem) : Option EventBits × EventSystem :=
  let uxOriginalBitValue := s.group.uxEventBits
  let s := s.xEventGroupSetBits uxBitsToSet
  if (uxOriginalBitValue ||| uxBitsToSet) &&& uxBitsToWaitFor = uxBitsToWaitFor then
    (some (uxOriginalBitValue ||| uxBitsToSet),
      s.setBits (s.group.uxEventBits &&& ~~~uxBitsToWaitFor))
  else if mayBlock then (none, s.block x uxBitsToWaitFor true true)
  else (some s.group.uxEventBits, s)

/-- Both functions after the task has run again: what they return. -/
def finishSection (uxPriority : TaskHandle → Nat) (x : TaskHandle)
    (uxBitsToWaitFor : EventBits) (xClearOnExit xWaitForAllBits : Bool)
    (s : EventSystem) : EventBits × EventSystem :=
  let r := s.uxTaskResetEventItemValue uxPriority x
  let s := r.2.setPhase x .outside
  if r.1 &&& eventUnblockedDueToBitSet = 0 then
    let uxReturn := s.group.uxEventBits
    (uxReturn &&& ~~~eventEventBitsControlBytes,
      if prvTestWaitCondition uxReturn uxBitsToWaitFor xWaitForAllBits ∧
          xClearOnExit then
        s.setBits (s.group.uxEventBits &&& ~~~uxBitsToWaitFor)
      else s)
  else (r.1 &&& ~~~eventEventBitsControlBytes, s)

/-- A task or the timer task, which does it for interrupts, sets or clears
bits; a task calls one of the functions that wait; the time of a task is up, or
it is suspended; a task returns. The arguments pass the assertions. The tasks
that wait are those in `tasks`. One without a period returns only when it is
off the list (`Proofs.Parked`); one with a period can be readied for its next
job before. -/
inductive Step (xTaskPeriod uxPriority : TaskHandle → Nat)
    (tasks : Finset TaskHandle) (s : EventSystem) : EventSystem → Prop
  | set {uxBitsToSet : EventBits}
      (hset : uxBitsToSet &&& eventEventBitsControlBytes = 0) :
      Step xTaskPeriod uxPriority tasks s (s.xEventGroupSetBits uxBitsToSet)
  | clear {uxBitsToClear : EventBits}
      (hclear : uxBitsToClear &&& eventEventBitsControlBytes = 0) :
      Step xTaskPeriod uxPriority tasks s (s.xEventGroupClearBits uxBitsToClear)
  | wait {x : TaskHandle} {uxBitsToWaitFor : EventBits}
      {xClearOnExit xWaitForAllBits mayBlock : Bool}
      (hx : x ∈ tasks) (hphase : s.phase x = .outside)
      (hwait : uxBitsToWaitFor &&& eventEventBitsControlBytes = 0)
      (hne : uxBitsToWaitFor ≠ 0) :
      Step xTaskPeriod uxPriority tasks s (s.waitSection x uxBitsToWaitFor
        xClearOnExit xWaitForAllBits mayBlock).2
  | sync {x : TaskHandle} {uxBitsToSet uxBitsToWaitFor : EventBits}
      {mayBlock : Bool} (hx : x ∈ tasks) (hphase : s.phase x = .outside)
      (hset : uxBitsToSet &&& eventEventBitsControlBytes = 0)
      (hwait : uxBitsToWaitFor &&& eventEventBitsControlBytes = 0)
      (hne : uxBitsToWaitFor ≠ 0) :
      Step xTaskPeriod uxPriority tasks s
        (s.syncSection x uxBitsToSet uxBitsToWaitFor mayBlock).2
  | timeUp {x : TaskHandle} (hx : x ∈ s.group.xTasksWaitingForBits) :
      Step xTaskPeriod uxPriority tasks s (s.removeItem x)
  | finish {x : TaskHandle} {uxBitsToWaitFor : EventBits}
      {xClearOnExit xWaitForAllBits : Bool}
      (hphase : s.phase x =
        .waiting uxBitsToWaitFor xClearOnExit xWaitForAllBits)
      (hx : xTaskPeriod x = 0 → x ∉ s.group.xTasksWaitingForBits) :
      Step xTaskPeriod uxPriority tasks s (s.finishSection uxPriority x
        uxBitsToWaitFor xClearOnExit xWaitForAllBits).2

def start (xItemValue : TaskHandle → EventBits) : EventSystem where
  group := xEventGroupCreate
  xItemValue := xItemValue
  phase := fun _ => .outside

inductive Runs (xTaskPeriod uxPriority : TaskHandle → Nat)
    (tasks : Finset TaskHandle) (s₀ : EventSystem) : EventSystem → Prop
  | refl : Runs xTaskPeriod uxPriority tasks s₀ s₀
  | step {s s' : EventSystem} :
      Runs xTaskPeriod uxPriority tasks s₀ s →
      Step xTaskPeriod uxPriority tasks s s' →
      Runs xTaskPeriod uxPriority tasks s₀ s'

end EventSystem

end FreeRtosSim
