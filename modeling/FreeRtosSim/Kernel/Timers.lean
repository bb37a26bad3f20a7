import FreeRtosSim.Kernel.State
import FreeRtosSim.Lib.KeyInsert

/-!
# Software timers

The part of `timers.c` that the timer task runs. Active timers are in one of
two lists, ordered by the tick count at which they expire: those that expire
before the tick count overflows are in the current list, the others in the
overflow list, and the two change places when it does. The timer task may run
late, so a timer may have expired more than once when it is looked at, and a
command may be older than the overflow.

A callback is an entry of `calls`, the newest first.
-/

namespace FreeRtosSim

/-- The address of a `Timer_t`. -/
abbrev TimerHandle := Nat

structure Timer where
  xTimerPeriodInTicks : Nat
  isAutoreload : Bool
  isActive : Bool
deriving DecidableEq, Repr

structure TimerDaemon where
  timer : TimerHandle → Timer
  xItemValue : TimerHandle → Nat
  pxCurrentTimerList : List TimerHandle
  pxOverflowTimerList : List TimerHandle
  xLastTime : Nat
  calls : List TimerHandle

/-- `tmrMAX_TIME_BEFORE_OVERFLOW`. -/
def tmrMaxTimeBeforeOverflow : Nat := 2 ^ 64 - 1

namespace TimerDaemon

def setItemValue (x : TimerHandle) (v : Nat) (d : TimerDaemon) : TimerDaemon :=
  { d with xItemValue := Function.update d.xItemValue x v }

def modifyTimer (x : TimerHandle) (f : Timer → Timer) (d : TimerDaemon) :
    TimerDaemon :=
  { d with timer := Function.update d.timer x (f (d.timer x)) }

def setActive (x : TimerHandle) (b : Bool) (d : TimerDaemon) : TimerDaemon :=
  d.modifyTimer x fun t => { t with isActive := b }

/-- `pxCallbackFunction`. -/
def callback (x : TimerHandle) (d : TimerDaemon) : TimerDaemon :=
  { d with calls := x :: d.calls }

def insertCurrent (x : TimerHandle) (d : TimerDaemon) : TimerDaemon :=
  { d with pxCurrentTimerList := insertByKey d.xItemValue d.pxCurrentTimerList x }

def insertOverflow (x : TimerHandle) (d : TimerDaemon) : TimerDaemon :=
  { d with pxOverflowTimerList := insertByKey d.xItemValue d.pxOverflowTimerList x }

/-- `uxListRemove`. -/
def removeTimer (x : TimerHandle) (d : TimerDaemon) : TimerDaemon :=
  { d with
    pxCurrentTimerList := d.pxCurrentTimerList.erase x
    pxOverflowTimerList := d.pxOverflowTimerList.erase x }

/-- `xProcessTimerNow` and the lists. -/
def prvInsertTimerInActiveList (x : TimerHandle)
    (xNextExpiryTime xTimeNow xCommandTime : Nat) (d : TimerDaemon) :
    Bool × TimerDaemon :=
  let d := d.setItemValue x xNextExpiryTime
  if xNextExpiryTime ≤ xTimeNow then
    if tickSub xTimeNow xCommandTime ≥ (d.timer x).xTimerPeriodInTicks then (true, d)
    else (false, d.insertOverflow x)
  else if xTimeNow < xCommandTime ∧ xNextExpiryTime ≥ xCommandTime then (true, d)
  else (false, d.insertCurrent x)

/-- The loop of `prvReloadTimer`; with the fuel it runs at most so often. -/
def reloadLoop (x : TimerHandle) (xTimeNow : Nat) :
    Nat → Nat → TimerDaemon → TimerDaemon
  | 0, _, d => d
  | fuel + 1, xExpiredTime, d =>
      let xNextExpiryTime :=
        tickAdd xExpiredTime (d.timer x).xTimerPeriodInTicks
      let r := d.prvInsertTimerInActiveList x xNextExpiryTime xTimeNow xExpiredTime
      if r.1 then reloadLoop x xTimeNow fuel xNextExpiryTime (r.2.callback x)
      else r.2

/-- Every round of the loop takes a tick at least. -/
def prvReloadTimer (x : TimerHandle) (xExpiredTime xTimeNow : Nat)
    (d : TimerDaemon) : TimerDaemon :=
  reloadLoop x xTimeNow (tickSub xTimeNow xExpiredTime + 1) xExpiredTime d

def prvProcessExpiredTimer (xNextExpireTime xTimeNow : Nat) (d : TimerDaemon) :
    TimerDaemon :=
  match d.pxCurrentTimerList with
  | [] => d
  | x :: xs =>
      let d := { d with pxCurrentTimerList := xs }
      let d :=
        if (d.timer x).isAutoreload then d.prvReloadTimer x xNextExpireTime xTimeNow
        else d.setActive x false
      d.callback x

/-- The loop of `prvSwitchTimerLists`, at most so often. -/
def switchLoop : Nat → TimerDaemon → TimerDaemon
  | 0, d => d
  | fuel + 1, d =>
      match d.pxCurrentTimerList with
      | [] => d
      | x :: _ => switchLoop fuel
          (d.prvProcessExpiredTimer (d.xItemValue x) tmrMaxTimeBeforeOverflow)

/-- A timer that is processed here expires after the overflow next, so there
are as many rounds as timers. -/
def prvSwitchTimerLists (d : TimerDaemon) : TimerDaemon :=
  let d := switchLoop d.pxCurrentTimerList.length d
  { d with
    pxCurrentTimerList := d.pxOverflowTimerList
    pxOverflowTimerList := d.pxCurrentTimerList }

/-- `xTimerListsWereSwitched`, and the daemon. -/
def prvSampleTimeNow (xTimeNow : Nat) (d : TimerDaemon) : Bool × TimerDaemon :=
  if xTimeNow < d.xLastTime then
    (true, { d.prvSwitchTimerLists with xLastTime := xTimeNow })
  else (false, { d with xLastTime := xTimeNow })

/-- `prvGetNextExpireTime` and `prvProcessTimerOrBlockTask`. -/
def prvProcessTimerOrBlockTask (xTimeNow : Nat) (d : TimerDaemon) : TimerDaemon :=
  match d.pxCurrentTimerList with
  | [] => (d.prvSampleTimeNow xTimeNow).2
  | x :: _ =>
      let xNextExpireTime := d.xItemValue x
      let r := d.prvSampleTimeNow xTimeNow
      if r.1 = false ∧ xNextExpireTime ≤ xTimeNow then
        r.2.prvProcessExpiredTimer xNextExpireTime xTimeNow
      else r.2

/-! ## Commands -/

/-- `tmrCOMMAND_START` and `tmrCOMMAND_RESET`. -/
def startCommand (x : TimerHandle) (xMessageValue xTimeNow : Nat)
    (d : TimerDaemon) : TimerDaemon :=
  let d := ((d.removeTimer x).prvSampleTimeNow xTimeNow).2.setActive x true
  let xNextExpiryTime := tickAdd xMessageValue (d.timer x).xTimerPeriodInTicks
  let r := d.prvInsertTimerInActiveList x xNextExpiryTime xTimeNow xMessageValue
  if r.1 then
    let d :=
      if (r.2.timer x).isAutoreload then
        r.2.prvReloadTimer x xNextExpiryTime xTimeNow
      else r.2.setActive x false
    d.callback x
  else r.2

/-- `tmrCOMMAND_STOP`, and `tmrCOMMAND_DELETE` of a timer that is not freed. -/
def stopCommand (x : TimerHandle) (xTimeNow : Nat) (d : TimerDaemon) :
    TimerDaemon :=
  ((d.removeTimer x).prvSampleTimeNow xTimeNow).2.setActive x false

/-- `tmrCOMMAND_CHANGE_PERIOD`. -/
def changePeriodCommand (x : TimerHandle) (xMessageValue xTimeNow : Nat)
    (d : TimerDaemon) : TimerDaemon :=
  let d := ((d.removeTimer x).prvSampleTimeNow xTimeNow).2.modifyTimer x fun t =>
    { t with isActive := true, xTimerPeriodInTicks := xMessageValue }
  (d.prvInsertTimerInActiveList x (tickAdd xTimeNow xMessageValue) xTimeNow
    xTimeNow).2

end TimerDaemon

end FreeRtosSim
