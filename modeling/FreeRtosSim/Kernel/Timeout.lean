import FreeRtosSim.Kernel.Api

/-!
# Waiting until, and waiting no longer than

`xTaskDelayUntil` and the time-out of a call that waits in a loop. Both
compare tick counts that may have wrapped since they were noted down: the
first with the previous wake time, the second with the help of
`xNumOfOverflows`, which `taskSWITCH_DELAYED_LISTS` counts up.

A `BaseType_t` that only counts and is compared for equality is read modulo
`2 ^ 64`.
-/

namespace FreeRtosSim

/-! ## `xTaskDelayUntil` -/

/-- `xShouldDelay`. -/
def shouldDelay (xPreviousWakeTime xTimeToWake xConstTickCount : Nat) : Bool :=
  if xConstTickCount < xPreviousWakeTime then
    xTimeToWake < xPreviousWakeTime ∧ xTimeToWake > xConstTickCount
  else
    xTimeToWake < xPreviousWakeTime ∨ xTimeToWake > xConstTickCount

/-- `xTaskDelayUntil`, with what it returns and the new `*pxPreviousWakeTime`.
It ends as `vTaskDelay` does. -/
def xTaskDelayUntil (alg : Algorithm) (xPreviousWakeTime xTimeIncrement : Nat)
    (st : State) : Exec (Bool × Nat × State) := do
  configAssert (xTimeIncrement > 0)
  configAssert (st.uxSchedulerSuspended = 0)
  let st := vTaskSuspendAll st
  let xConstTickCount := st.xTickCount
  let xTimeToWake := tickAdd xPreviousWakeTime xTimeIncrement
  let xShouldDelay := shouldDelay xPreviousWakeTime xTimeToWake xConstTickCount
  let st :=
    if xShouldDelay then
      prvAddCurrentTaskToDelayedList (tickSub xTimeToWake xConstTickCount) false st
    else st
  return (xShouldDelay, xTimeToWake, ← vTaskDelayYield alg st)

/-! ## Time-outs -/

/-- `TimeOut_t`. -/
structure TimeOut where
  xOverflowCount : Nat
  xTimeOnEntering : Nat
  deriving DecidableEq, Repr

/-- The two counters that a time-out is measured with. -/
structure TickReading where
  xNumOfOverflows : Nat
  xTickCount : Nat
  deriving DecidableEq, Repr

/-- A tick, with the overflow that `taskSWITCH_DELAYED_LISTS` counts. -/
def TickReading.tick (r : TickReading) : TickReading where
  xNumOfOverflows :=
    if tickAdd r.xTickCount 1 = 0 then tickAdd r.xNumOfOverflows 1
    else r.xNumOfOverflows
  xTickCount := tickAdd r.xTickCount 1

/-- `vTaskInternalSetTimeOutState`, and `vTaskSetTimeOutState` but for its
critical section. -/
def vTaskInternalSetTimeOutState (r : TickReading) : TimeOut where
  xOverflowCount := r.xNumOfOverflows
  xTimeOnEntering := r.xTickCount

/-- What `xTaskCheckForTimeOut` returns and leaves behind. -/
structure TimeOutCheck where
  xReturn : Bool
  ucDelayAborted : Bool
  pxTimeOut : TimeOut
  xTicksToWait : Nat
  deriving DecidableEq, Repr

/-- `xTaskCheckForTimeOut`; `ucDelayAborted` is the field of the running
task. -/
def xTaskCheckForTimeOut (r : TickReading) (ucDelayAborted : Bool)
    (pxTimeOut : TimeOut) (xTicksToWait : Nat) : TimeOutCheck :=
  let xElapsedTime := tickSub r.xTickCount pxTimeOut.xTimeOnEntering
  if ucDelayAborted then ⟨true, false, pxTimeOut, xTicksToWait⟩
  else if xTicksToWait = portMaxDelay then ⟨false, false, pxTimeOut, xTicksToWait⟩
  else if r.xNumOfOverflows ≠ pxTimeOut.xOverflowCount ∧
      r.xTickCount ≥ pxTimeOut.xTimeOnEntering then ⟨true, false, pxTimeOut, 0⟩
  else if xElapsedTime < xTicksToWait then
    ⟨false, false, vTaskInternalSetTimeOutState r, tickSub xTicksToWait xElapsedTime⟩
  else ⟨true, false, pxTimeOut, 0⟩

/-- The loop of a call that waits: it looks at the time-out each time it is
run again, and goes on until the time is up. The readings are those of its
checks. -/
def waitLoop (pxTimeOut : TimeOut) (xTicksToWait : Nat) :
    List TickReading → Option TickReading
  | [] => none
  | r :: rs =>
      let check := xTaskCheckForTimeOut r false pxTimeOut xTicksToWait
      if check.xReturn then some r
      else waitLoop check.pxTimeOut check.xTicksToWait rs

end FreeRtosSim
