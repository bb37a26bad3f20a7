import FreeRtosSim.Kernel.Notify
import FreeRtosSim.Lib.Framing
import FreeRtosSim.Lib.Ring

/-!
# Stream buffers and message buffers

The functions of `stream_buffer.c`. A message buffer is a stream buffer that
stores the length of a message in front of it. The storage area is much
smaller than the address space, so no sum of two positions in it wraps round.

`prvWriteMessageToBuffer` and `prvReadMessageFromBuffer` copy first and move
`xHead` or `xTail` last, and neither is in a critical section: what they copy
and where they move to are functions of their own, so that the two steps can
be told apart. A function that runs into an assertion returns `none`.
-/

namespace FreeRtosSim

/-- `sbBYTES_TO_STORE_MESSAGE_LENGTH`. -/
def sbBytesToStoreMessageLength : Nat := 8

structure StreamBuffer where
  xTail : Nat
  xHead : Nat
  xLength : Nat
  xTriggerLevelBytes : Nat
  xTaskWaitingToReceive : Option TaskHandle
  xTaskWaitingToSend : Option TaskHandle
  pucBuffer : Nat → UInt8
  /-- `sbFLAGS_IS_MESSAGE_BUFFER` in `ucFlags`. -/
  isMessageBuffer : Bool

namespace StreamBuffer

def prvInitialiseNewStreamBuffer (pucBuffer : Nat → UInt8)
    (xBufferSizeBytes xTriggerLevelBytes : Nat) (isMessageBuffer : Bool) :
    StreamBuffer where
  xTail := 0
  xHead := 0
  xLength := xBufferSizeBytes
  xTriggerLevelBytes := xTriggerLevelBytes
  xTaskWaitingToReceive := none
  xTaskWaitingToSend := none
  pucBuffer := pucBuffer
  isMessageBuffer := isMessageBuffer

/-- `xStreamBufferGenericCreate`, `pucBuffer` being what is in the memory that
`pvPortMalloc` returns and `sizeOfBuffer` the size of the structure. -/
def xStreamBufferGenericCreate (sizeOfBuffer xBufferSizeBytes
    xTriggerLevelBytes : Nat) (xIsMessageBuffer : Bool)
    (pucBuffer : Nat → UInt8) : Option StreamBuffer :=
  if (if xIsMessageBuffer then xBufferSizeBytes > sbBytesToStoreMessageLength
      else xBufferSizeBytes > 0) ∧ xTriggerLevelBytes ≤ xBufferSizeBytes then
    let xTriggerLevelBytes :=
      if xTriggerLevelBytes = 0 then 1 else xTriggerLevelBytes
    if xBufferSizeBytes < (xBufferSizeBytes + 1 + sizeOfBuffer) % 2 ^ 64 then
      some (prvInitialiseNewStreamBuffer pucBuffer (xBufferSizeBytes + 1)
        xTriggerLevelBytes xIsMessageBuffer)
    else none
  else none

/-! ## How much there is -/

def prvBytesInBuffer (pxStreamBuffer : StreamBuffer) : Nat :=
  let xCount := pxStreamBuffer.xLength + pxStreamBuffer.xHead
  let xCount := xCount - pxStreamBuffer.xTail
  if xCount ≥ pxStreamBuffer.xLength then xCount - pxStreamBuffer.xLength
  else xCount

def xStreamBufferSpacesAvailable (pxStreamBuffer : StreamBuffer) : Nat :=
  let xSpace := pxStreamBuffer.xLength + pxStreamBuffer.xTail
  let xSpace := xSpace - pxStreamBuffer.xHead
  let xSpace := xSpace - 1
  if xSpace ≥ pxStreamBuffer.xLength then xSpace - pxStreamBuffer.xLength
  else xSpace

/-- The bytes in front of each message. -/
def xBytesToStoreMessageLength (pxStreamBuffer : StreamBuffer) : Nat :=
  if pxStreamBuffer.isMessageBuffer then sbBytesToStoreMessageLength else 0

def xStreamBufferIsEmpty (pxStreamBuffer : StreamBuffer) : Bool :=
  pxStreamBuffer.xHead = pxStreamBuffer.xTail

def xStreamBufferIsFull (pxStreamBuffer : StreamBuffer) : Bool :=
  pxStreamBuffer.xStreamBufferSpacesAvailable ≤
    pxStreamBuffer.xBytesToStoreMessageLength

/-! ## Writing and reading -/

/-- The storage area after the call, and the next `xHead`. -/
def prvWriteBytesToBuffer (pucBuffer : Nat → UInt8) (xLength : Nat)
    (pucData : List UInt8) (xHead : Nat) : Option ((Nat → UInt8) × Nat) :=
  let xCount := pucData.length
  let xFirstLength := min (xLength - xHead) xCount
  if xCount > 0 ∧ xHead + xFirstLength ≤ xLength ∧
      (xCount > xFirstLength → xCount - xFirstLength ≤ xLength) then
    let pucBuffer := copy pucBuffer xHead (pucData.take xFirstLength)
    let pucBuffer :=
      if xCount > xFirstLength then copy pucBuffer 0 (pucData.drop xFirstLength)
      else pucBuffer
    let xHead := xHead + xCount
    some (pucBuffer, if xHead ≥ xLength then xHead - xLength else xHead)
  else none

/-- The bytes read, and the next `xTail`. -/
def prvReadBytesFromBuffer (pucBuffer : Nat → UInt8) (xLength xCount xTail : Nat) :
    Option (List UInt8 × Nat) :=
  let xFirstLength := min (xLength - xTail) xCount
  if xCount ≠ 0 ∧ xFirstLength ≤ xCount ∧ xTail + xFirstLength ≤ xLength then
    let pucData := piece pucBuffer xTail xFirstLength
    let pucData :=
      if xCount > xFirstLength then
        pucData ++ piece pucBuffer 0 (xCount - xFirstLength)
      else pucData
    let xTail := xTail + xCount
    some (pucData, if xTail ≥ xLength then xTail - xLength else xTail)
  else none

/-- What `prvWriteMessageToBuffer` copies: the storage area, where it moves
`xHead` to, and the bytes it has taken from `pvTxData`. -/
def copyMessageIn (pvTxData : List UInt8) (xSpace xRequiredSpace : Nat)
    (pxStreamBuffer : StreamBuffer) :
    Option ((Nat → UInt8) × Nat × List UInt8) :=
  if pxStreamBuffer.isMessageBuffer then
    if xSpace ≥ xRequiredSpace then do
      let (pucBuffer, xNextHead) ← prvWriteBytesToBuffer
        pxStreamBuffer.pucBuffer pxStreamBuffer.xLength
        (littleEndian sbBytesToStoreMessageLength pvTxData.length)
        pxStreamBuffer.xHead
      if pvTxData.length ≠ 0 then
        let (pucBuffer, xNextHead) ← prvWriteBytesToBuffer pucBuffer
          pxStreamBuffer.xLength pvTxData xNextHead
        pure (pucBuffer, xNextHead, pvTxData)
      else pure (pucBuffer, pxStreamBuffer.xHead, [])
    else some (pxStreamBuffer.pucBuffer, pxStreamBuffer.xHead, [])
  else
    let xDataLengthBytes := min pvTxData.length xSpace
    if xDataLengthBytes ≠ 0 then do
      let (pucBuffer, xNextHead) ← prvWriteBytesToBuffer
        pxStreamBuffer.pucBuffer pxStreamBuffer.xLength
        (pvTxData.take xDataLengthBytes) pxStreamBuffer.xHead
      pure (pucBuffer, xNextHead, pvTxData.take xDataLengthBytes)
    else some (pxStreamBuffer.pucBuffer, pxStreamBuffer.xHead, [])

/-- What `prvReadMessageFromBuffer` copies, and where it moves `xTail` to. -/
def copyMessageOut (xBufferLengthBytes xBytesAvailable : Nat)
    (pxStreamBuffer : StreamBuffer) : Option (List UInt8 × Nat) :=
  if pxStreamBuffer.isMessageBuffer then do
    let (xTempNextMessageLength, xNextTail) ← prvReadBytesFromBuffer
      pxStreamBuffer.pucBuffer pxStreamBuffer.xLength
      sbBytesToStoreMessageLength pxStreamBuffer.xTail
    let xNextMessageLength := ofLittleEndian xTempNextMessageLength
    let xBytesAvailable := xBytesAvailable - sbBytesToStoreMessageLength
    let xNextMessageLength :=
      if xNextMessageLength > xBufferLengthBytes then 0 else xNextMessageLength
    let xCount := min xNextMessageLength xBytesAvailable
    if xCount ≠ 0 then
      prvReadBytesFromBuffer pxStreamBuffer.pucBuffer pxStreamBuffer.xLength
        xCount xNextTail
    else pure ([], pxStreamBuffer.xTail)
  else
    let xCount := min xBufferLengthBytes xBytesAvailable
    if xCount ≠ 0 then
      prvReadBytesFromBuffer pxStreamBuffer.pucBuffer pxStreamBuffer.xLength
        xCount pxStreamBuffer.xTail
    else some ([], pxStreamBuffer.xTail)

/-- The length of the next message, 0 if there is none. -/
def xStreamBufferNextMessageLengthBytes (pxStreamBuffer : StreamBuffer) :
    Option Nat :=
  if pxStreamBuffer.isMessageBuffer then
    let xBytesAvailable := pxStreamBuffer.prvBytesInBuffer
    if xBytesAvailable > sbBytesToStoreMessageLength then
      (prvReadBytesFromBuffer pxStreamBuffer.pucBuffer pxStreamBuffer.xLength
        sbBytesToStoreMessageLength pxStreamBuffer.xTail).map
          fun r => ofLittleEndian r.1
    else if xBytesAvailable = 0 then some 0
    else none
  else some 0

/-- The head of `xStreamBufferSend`: the space that is needed, and whether the
task may still wait for it. -/
def requiredSpace (xDataLengthBytes : Nat) (mayBlock : Bool)
    (pxStreamBuffer : StreamBuffer) : Option (Nat × Bool) :=
  let xMaxReportedSpace := pxStreamBuffer.xLength - 1
  if pxStreamBuffer.isMessageBuffer then
    let xRequiredSpace :=
      (xDataLengthBytes + sbBytesToStoreMessageLength) % 2 ^ 64
    if xRequiredSpace > xDataLengthBytes then
      some (xRequiredSpace,
        if xRequiredSpace > xMaxReportedSpace then false else mayBlock)
    else none
  else
    let xRequiredSpace := xDataLengthBytes
    some (if xRequiredSpace > xMaxReportedSpace then xMaxReportedSpace
      else xRequiredSpace, mayBlock)

/-- The head of `xStreamBufferSendFromISR`. -/
def requiredSpaceFromISR (xDataLengthBytes : Nat)
    (pxStreamBuffer : StreamBuffer) : Nat :=
  if pxStreamBuffer.isMessageBuffer then
    (xDataLengthBytes + sbBytesToStoreMessageLength) % 2 ^ 64
  else xDataLengthBytes

end StreamBuffer

end FreeRtosSim
