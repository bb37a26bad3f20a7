import FreeRtosSim.Kernel.State

/-!
# Task notifications

`ulNotifiedValue` and `ucNotifyState` of one task; the array has one entry. The
functions that may block consist of two critical sections, and between them the
task is taken off the ready lists if it has to wait. `blocked` says that it
is. A notification puts it back, from a task at once, and from an interrupt
when the scheduler is not suspended any more.
-/

namespace FreeRtosSim

/-- `taskNOT_WAITING_NOTIFICATION`, `taskWAITING_NOTIFICATION` and
`taskNOTIFICATION_RECEIVED`. -/
inductive NotifyState where
  | notWaiting
  | waiting
  | received
deriving DecidableEq, Repr

/-- `eNotifyAction`. -/
inductive NotifyAction where
  | noAction
  | setBits
  | increment
  | setValueWithOverwrite
  | setValueWithoutOverwrite
deriving DecidableEq, Repr

structure Notification where
  ulNotifiedValue : BitVec 32
  ucNotifyState : NotifyState
  blocked : Bool
deriving DecidableEq, Repr

namespace Notification

/-- A task that was created just now. -/
def initial : Notification where
  ulNotifiedValue := 0
  ucNotifyState := .notWaiting
  blocked := false

/-- The `switch` over the action: the new value, and whether it was written. -/
def notifiedValue (ulValue : BitVec 32) (n : Notification) :
    NotifyAction → BitVec 32 × Bool
  | .setBits => (n.ulNotifiedValue ||| ulValue, true)
  | .increment => (n.ulNotifiedValue + 1, true)
  | .setValueWithOverwrite => (ulValue, true)
  | .setValueWithoutOverwrite =>
      if n.ucNotifyState ≠ .received then (ulValue, true)
      else (n.ulNotifiedValue, false)
  | .noAction => (n.ulNotifiedValue, true)

/-- `xTaskGenericNotify`, and `xTaskGenericNotifyFromISR`. -/
def xTaskGenericNotify (ulValue : BitVec 32) (eAction : NotifyAction)
    (n : Notification) : Bool × Notification :=
  let written := n.notifiedValue ulValue eAction
  (written.2, {
    ulNotifiedValue := written.1
    ucNotifyState := .received
    blocked := if n.ucNotifyState = .waiting then false else n.blocked })

def vTaskGenericNotifyGiveFromISR (n : Notification) : Notification where
  ulNotifiedValue := n.ulNotifiedValue + 1
  ucNotifyState := .received
  blocked := if n.ucNotifyState = .waiting then false else n.blocked

/-- The first critical section of `ulTaskGenericNotifyTake`. -/
def takeEntry (mayBlock : Bool) (n : Notification) : Notification :=
  if n.ulNotifiedValue = 0 then
    { n with ucNotifyState := .waiting, blocked := mayBlock }
  else n

/-- The second one. -/
def takeExit (xClearCountOnExit : Bool) (n : Notification) :
    BitVec 32 × Notification :=
  let ulReturn := n.ulNotifiedValue
  (ulReturn, { n with
    ulNotifiedValue :=
      if ulReturn ≠ 0 then
        if xClearCountOnExit then 0 else ulReturn - 1
      else ulReturn
    ucNotifyState := .notWaiting })

/-- The first critical section of `xTaskGenericNotifyWait`. -/
def waitEntry (ulBitsToClearOnEntry : BitVec 32) (mayBlock : Bool)
    (n : Notification) : Notification :=
  if n.ucNotifyState ≠ .received then
    { ulNotifiedValue := n.ulNotifiedValue &&& ~~~ulBitsToClearOnEntry
      ucNotifyState := .waiting
      blocked := mayBlock }
  else n

/-- The second one. -/
def waitExit (ulBitsToClearOnExit : BitVec 32) (n : Notification) :
    (Bool × BitVec 32) × Notification :=
  if n.ucNotifyState ≠ .received then
    ((false, n.ulNotifiedValue), { n with ucNotifyState := .notWaiting })
  else
    ((true, n.ulNotifiedValue), { n with
      ulNotifiedValue := n.ulNotifiedValue &&& ~~~ulBitsToClearOnExit
      ucNotifyState := .notWaiting })

def xTaskGenericNotifyStateClear (n : Notification) : Bool × Notification :=
  if n.ucNotifyState = .received then
    (true, { n with ucNotifyState := .notWaiting })
  else (false, n)

def ulTaskGenericNotifyValueClear (ulBitsToClear : BitVec 32)
    (n : Notification) : BitVec 32 × Notification :=
  (n.ulNotifiedValue,
    { n with ulNotifiedValue := n.ulNotifiedValue &&& ~~~ulBitsToClear })

end Notification

/-! ## The task and those that notify it -/

/-- The calls of the task, with what they are given. -/
inductive NotifyCall where
  | take (xClearCountOnExit mayBlock : Bool)
  | wait (ulBitsToClearOnEntry ulBitsToClearOnExit : BitVec 32)
      (mayBlock : Bool)

/-- What happened to the value. -/
inductive NotifyEvent where
  | entered (call : NotifyCall)
  | given
  | taken (xClearCountOnExit : Bool) (ulReturn : BitVec 32)
  | notified (eAction : NotifyAction)
  | waited (xReturn : Bool)
  | stateCleared
  | valueCleared

def NotifyCall.entry : NotifyCall → Notification → Notification
  | .take _ mayBlock, n => n.takeEntry mayBlock
  | .wait ulBitsToClearOnEntry _ mayBlock, n =>
      n.waitEntry ulBitsToClearOnEntry mayBlock

def NotifyCall.exit : NotifyCall → Notification → NotifyEvent × Notification
  | .take xClearCountOnExit _, n =>
      let r := n.takeExit xClearCountOnExit
      (.taken xClearCountOnExit r.1, r.2)
  | .wait _ ulBitsToClearOnExit _, n =>
      let r := n.waitExit ulBitsToClearOnExit
      (.waited r.1.1, r.2)

/-- A task with its notification, and the call it is in, between the two
critical sections. -/
structure NotifySystem where
  notification : Notification
  call : Option NotifyCall

namespace NotifySystem

/-- One step of the task, of the tick or of anybody else. -/
inductive Step (s : NotifySystem) : List NotifyEvent → NotifySystem → Prop
  | enter {call : NotifyCall} (hcall : s.call = none) :
      Step s [.entered call] ⟨call.entry s.notification, some call⟩
  | leave {call : NotifyCall} (hcall : s.call = some call)
      (hready : s.notification.blocked = false) :
      Step s [(call.exit s.notification).1]
        ⟨(call.exit s.notification).2, none⟩
  | timeout (hblocked : s.notification.blocked = true) :
      Step s []
        { s with notification := { s.notification with blocked := false } }
  | notify {ulValue : BitVec 32} {eAction : NotifyAction} :
      Step s [if eAction = .increment then .given else .notified eAction]
        { s with
          notification := (s.notification.xTaskGenericNotify ulValue eAction).2 }
  | giveFromISR :
      Step s [.given]
        { s with
          notification := s.notification.vTaskGenericNotifyGiveFromISR }
  | stateClear :
      Step s [.stateCleared]
        { s with
          notification := s.notification.xTaskGenericNotifyStateClear.2 }
  | valueClear {ulBitsToClear : BitVec 32} :
      Step s [.valueCleared]
        { s with
          notification :=
            (s.notification.ulTaskGenericNotifyValueClear ulBitsToClear).2 }

/-- A run of a new task. -/
inductive Runs : List NotifyEvent → NotifySystem → Prop
  | start : Runs [] ⟨.initial, none⟩
  | step {s s' : NotifySystem} {es es' : List NotifyEvent} :
      Runs es s → Step s es' s' → Runs (es ++ es') s'

end NotifySystem

end FreeRtosSim
