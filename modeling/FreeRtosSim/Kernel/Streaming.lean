import Mathlib.Logic.Function.Basic
import FreeRtosSim.Kernel.StreamBuffer

/-!
# A sender and a receiver at one stream buffer

`xStreamBufferSend` and `xStreamBufferReceive` in steps: each critical section,
each access to a member that the other side changes, and the copying, which
happens with the scheduler running and interrupts on. There is one sender and
one receiver, as the functions ask for; each may be a task or an interrupt,
which goes through the same steps and never waits. An interrupt does not check
the length of its data, which is that of an object in memory. Time-outs and
notifications from elsewhere may come at any moment.
-/

namespace FreeRtosSim

/-- Where the sender is. In `check` it is at the head of the loop; in `wait`
it has asked to be notified, in `asleep` it is between the two critical
sections of `xTaskNotifyWait`, in `woken` it is behind them, and in `retry` it
looks at the time. In `look` it is behind the loop, in `copy` in
`prvWriteMessageToBuffer` and in `publish` about to move `xHead`. -/
inductive SendPhase where
  | idle
  | check (pvTxData : List UInt8) (xRequiredSpace : Nat)
  | wait (pvTxData : List UInt8) (xRequiredSpace xSpace : Nat)
  | asleep (pvTxData : List UInt8) (xRequiredSpace xSpace : Nat)
  | woken (pvTxData : List UInt8) (xRequiredSpace xSpace : Nat)
  | retry (pvTxData : List UInt8) (xRequiredSpace xSpace : Nat)
  | look (pvTxData : List UInt8) (xRequiredSpace xSpace : Nat)
  | copy (pvTxData : List UInt8) (xRequiredSpace xSpace : Nat)
  | publish (payload : List UInt8) (xNextHead : Nat)
  | completed
  | notifying

/-- Where the receiver is, in the same words. In `decide` it has read how many
bytes there are. -/
inductive ReceivePhase where
  | idle
  | check (xBufferLengthBytes : Nat)
  | wait (xBufferLengthBytes : Nat)
  | asleep (xBufferLengthBytes : Nat)
  | woken (xBufferLengthBytes : Nat)
  | look (xBufferLengthBytes : Nat)
  | decide (xBufferLengthBytes xBytesAvailable : Nat)
  | publish (payload : List UInt8) (xNextTail : Nat)
  | completed

/-- What was put into the buffer and what was taken out. -/
inductive StreamEvent where
  | sent (payload : List UInt8)
  | received (payload : List UInt8)

structure StreamSystem where
  buffer : StreamBuffer
  sender : SendPhase
  receiver : ReceivePhase
  notification : TaskHandle → Notification

namespace StreamSystem

def setNotification (x : TaskHandle) (n : Notification) (s : StreamSystem) :
    StreamSystem :=
  { s with notification := Function.update s.notification x n }

/-- `xTaskNotify` without an action. -/
def notify (x : TaskHandle) (s : StreamSystem) : StreamSystem :=
  s.setNotification x ((s.notification x).xTaskGenericNotify 0 .noAction).2

/-- `sbSEND_COMPLETED` and `sbSEND_COMPLETE_FROM_ISR`. -/
def sendCompleted (s : StreamSystem) : StreamSystem :=
  match s.buffer.xTaskWaitingToReceive with
  | some x =>
      { s.notify x with
        buffer := { s.buffer with xTaskWaitingToReceive := none } }
  | none => s

/-- `sbRECEIVE_COMPLETED` and `sbRECEIVE_COMPLETED_FROM_ISR`. -/
def receiveCompleted (s : StreamSystem) : StreamSystem :=
  match s.buffer.xTaskWaitingToSend with
  | some x =>
      { s.notify x with
        buffer := { s.buffer with xTaskWaitingToSend := none } }
  | none => s

/-- `x` clears its notification state and asks to be notified. -/
def stateClear (x : TaskHandle) (s : StreamSystem) : StreamSystem :=
  s.setNotification x (s.notification x).xTaskGenericNotifyStateClear.2

/-- One step of the sender, of the receiver or of anybody else. -/
inductive Step (writer reader : TaskHandle) (s : StreamSystem) :
    List StreamEvent → StreamSystem → Prop
  | send {pvTxData : List UInt8} {mayBlock mayWait : Bool} {xRequiredSpace : Nat}
      (hphase : s.sender = .idle)
      (hspace : s.buffer.requiredSpace pvTxData.length mayBlock =
        some (xRequiredSpace, mayWait)) :
      Step writer reader s []
        { s with
          sender := if mayWait then .check pvTxData xRequiredSpace
            else .look pvTxData xRequiredSpace 0 }
  | sendFromISR {pvTxData : List UInt8} (hphase : s.sender = .idle)
      (hlen : pvTxData.length + sbBytesToStoreMessageLength < 2 ^ 64) :
      Step writer reader s []
        { s with
          sender := .look pvTxData
            (s.buffer.requiredSpaceFromISR pvTxData.length) 0 }
  | sendCheck {pvTxData : List UInt8} {xRequiredSpace : Nat}
      (hphase : s.sender = .check pvTxData xRequiredSpace)
      (hspace : ¬ s.buffer.xStreamBufferSpacesAvailable < xRequiredSpace) :
      Step writer reader s []
        { s with
          sender := .look pvTxData xRequiredSpace
            s.buffer.xStreamBufferSpacesAvailable }
  | sendWait {pvTxData : List UInt8} {xRequiredSpace : Nat}
      (hphase : s.sender = .check pvTxData xRequiredSpace)
      (hspace : s.buffer.xStreamBufferSpacesAvailable < xRequiredSpace)
      (hassert : s.buffer.xTaskWaitingToSend = none) :
      Step writer reader s []
        { s.stateClear writer with
          buffer := { s.buffer with xTaskWaitingToSend := some writer }
          sender := .wait pvTxData xRequiredSpace
            s.buffer.xStreamBufferSpacesAvailable }
  | sendSleep {pvTxData : List UInt8} {xRequiredSpace xSpace : Nat}
      (hphase : s.sender = .wait pvTxData xRequiredSpace xSpace) :
      Step writer reader s []
        { s.setNotification writer ((s.notification writer).waitEntry 0 true)
          with sender := .asleep pvTxData xRequiredSpace xSpace }
  | sendWake {pvTxData : List UInt8} {xRequiredSpace xSpace : Nat}
      (hphase : s.sender = .asleep pvTxData xRequiredSpace xSpace)
      (hready : (s.notification writer).blocked = false) :
      Step writer reader s []
        { s.setNotification writer ((s.notification writer).waitExit 0).2
          with sender := .woken pvTxData xRequiredSpace xSpace }
  | sendClear {pvTxData : List UInt8} {xRequiredSpace xSpace : Nat}
      (hphase : s.sender = .woken pvTxData xRequiredSpace xSpace) :
      Step writer reader s []
        { s with
          buffer := { s.buffer with xTaskWaitingToSend := none }
          sender := .retry pvTxData xRequiredSpace xSpace }
  | sendAgain {pvTxData : List UInt8} {xRequiredSpace xSpace : Nat}
      (hphase : s.sender = .retry pvTxData xRequiredSpace xSpace) :
      Step writer reader s []
        { s with sender := .check pvTxData xRequiredSpace }
  | sendTimeUp {pvTxData : List UInt8} {xRequiredSpace xSpace : Nat}
      (hphase : s.sender = .retry pvTxData xRequiredSpace xSpace) :
      Step writer reader s []
        { s with sender := .look pvTxData xRequiredSpace xSpace }
  | sendLook {pvTxData : List UInt8} {xRequiredSpace xSpace : Nat}
      (hphase : s.sender = .look pvTxData xRequiredSpace xSpace) :
      Step writer reader s []
        { s with
          sender := .copy pvTxData xRequiredSpace
            (if xSpace = 0 then s.buffer.xStreamBufferSpacesAvailable
            else xSpace) }
  | sendCopy {pvTxData payload : List UInt8} {xRequiredSpace xSpace xNextHead : Nat}
      {pucBuffer : Nat → UInt8}
      (hphase : s.sender = .copy pvTxData xRequiredSpace xSpace)
      (hcopy : s.buffer.copyMessageIn pvTxData xSpace xRequiredSpace =
        some (pucBuffer, xNextHead, payload)) :
      Step writer reader s []
        { s with
          buffer := { s.buffer with pucBuffer := pucBuffer }
          sender := if payload = [] then .idle else .publish payload xNextHead }
  | sendPublish {payload : List UInt8} {xNextHead : Nat}
      (hphase : s.sender = .publish payload xNextHead) :
      Step writer reader s [.sent payload]
        { s with
          buffer := { s.buffer with xHead := xNextHead }
          sender := .completed }
  | sendTrigger (hphase : s.sender = .completed) :
      Step writer reader s []
        { s with
          sender := if s.buffer.prvBytesInBuffer ≥ s.buffer.xTriggerLevelBytes
            then .notifying else .idle }
  | sendNotify (hphase : s.sender = .notifying) :
      Step writer reader s [] { s.sendCompleted with sender := .idle }
  | receive {xBufferLengthBytes : Nat} {mayBlock : Bool}
      (hphase : s.receiver = .idle) :
      Step writer reader s []
        { s with
          receiver := if mayBlock then .check xBufferLengthBytes
            else .look xBufferLengthBytes }
  | receiveCheck {xBufferLengthBytes : Nat}
      (hphase : s.receiver = .check xBufferLengthBytes)
      (hbytes : ¬ s.buffer.prvBytesInBuffer ≤
        s.buffer.xBytesToStoreMessageLength) :
      Step writer reader s []
        { s with
          receiver := .decide xBufferLengthBytes s.buffer.prvBytesInBuffer }
  | receiveWait {xBufferLengthBytes : Nat}
      (hphase : s.receiver = .check xBufferLengthBytes)
      (hbytes : s.buffer.prvBytesInBuffer ≤ s.buffer.xBytesToStoreMessageLength)
      (hassert : s.buffer.xTaskWaitingToReceive = none) :
      Step writer reader s []
        { s.stateClear reader with
          buffer := { s.buffer with xTaskWaitingToReceive := some reader }
          receiver := .wait xBufferLengthBytes }
  | receiveSleep {xBufferLengthBytes : Nat}
      (hphase : s.receiver = .wait xBufferLengthBytes) :
      Step writer reader s []
        { s.setNotification reader ((s.notification reader).waitEntry 0 true)
          with receiver := .asleep xBufferLengthBytes }
  | receiveWake {xBufferLengthBytes : Nat}
      (hphase : s.receiver = .asleep xBufferLengthBytes)
      (hready : (s.notification reader).blocked = false) :
      Step writer reader s []
        { s.setNotification reader ((s.notification reader).waitExit 0).2
          with receiver := .woken xBufferLengthBytes }
  | receiveClear {xBufferLengthBytes : Nat}
      (hphase : s.receiver = .woken xBufferLengthBytes) :
      Step writer reader s []
        { s with
          buffer := { s.buffer with xTaskWaitingToReceive := none }
          receiver := .look xBufferLengthBytes }
  | receiveLook {xBufferLengthBytes : Nat}
      (hphase : s.receiver = .look xBufferLengthBytes) :
      Step writer reader s []
        { s with
          receiver := .decide xBufferLengthBytes s.buffer.prvBytesInBuffer }
  | receiveNothing {xBufferLengthBytes xBytesAvailable : Nat}
      (hphase : s.receiver = .decide xBufferLengthBytes xBytesAvailable)
      (hbytes : ¬ xBytesAvailable > s.buffer.xBytesToStoreMessageLength) :
      Step writer reader s [] { s with receiver := .idle }
  | receiveCopy {payload : List UInt8}
      {xBufferLengthBytes xBytesAvailable xNextTail : Nat}
      (hphase : s.receiver = .decide xBufferLengthBytes xBytesAvailable)
      (hbytes : xBytesAvailable > s.buffer.xBytesToStoreMessageLength)
      (hcopy : s.buffer.copyMessageOut xBufferLengthBytes xBytesAvailable =
        some (payload, xNextTail)) :
      Step writer reader s []
        { s with
          receiver := if payload = [] then .idle else .publish payload xNextTail }
  | receivePublish {payload : List UInt8} {xNextTail : Nat}
      (hphase : s.receiver = .publish payload xNextTail) :
      Step writer reader s [.received payload]
        { s with
          buffer := { s.buffer with xTail := xNextTail }
          receiver := .completed }
  | receiveComplete (hphase : s.receiver = .completed) :
      Step writer reader s [] { s.receiveCompleted with receiver := .idle }
  | timeout {x : TaskHandle} (hblocked : (s.notification x).blocked = true) :
      Step writer reader s []
        (s.setNotification x { s.notification x with blocked := false })
  | notify {x : TaskHandle} {ulValue : BitVec 32} {eAction : NotifyAction} :
      Step writer reader s []
        (s.setNotification x
          ((s.notification x).xTaskGenericNotify ulValue eAction).2)

/-- A new buffer that nobody uses yet. -/
def start (pxStreamBuffer : StreamBuffer)
    (notification : TaskHandle → Notification) : StreamSystem where
  buffer := pxStreamBuffer
  sender := .idle
  receiver := .idle
  notification := notification

/-- A run from `s₀` on, with what was sent and received in the order of the
moves of `xHead` and `xTail`. -/
inductive Runs (writer reader : TaskHandle) (s₀ : StreamSystem) :
    List StreamEvent → StreamSystem → Prop
  | refl : Runs writer reader s₀ [] s₀
  | step {s s' : StreamSystem} {es es' : List StreamEvent} :
      Runs writer reader s₀ es s → Step writer reader s es' s' →
      Runs writer reader s₀ (es ++ es') s'

end StreamSystem

end FreeRtosSim
