import FreeRtosSim.Kernel.Query
import FreeRtosSim.Sim.Run

/-!
# Runs of a system whose tasks call the kernel

The closed run has one source of events, the tick. Here any task and any
interrupt may make the calls of `Kernel.Api` in any order, periodic and
ordinary tasks are created before and after the scheduler starts, and ticks
come whenever they like. A `Call` is a whole kernel function or, where a tick
can get in between, a piece of one.

`Run` is a run with its history, the newest call first. `Call.ticks` are the
states in which the ticks that a call processes begin: one for the tick
interrupt, and for the calls that resume the scheduler one for each tick that
was pended.
-/

namespace FreeRtosSim

/-- The kernel's state and the tasks created so far, newest first. -/
structure System where
  kernel : State
  created : List TaskHandle

/-- The system before its first call, `heap` being what the blocks for task
control blocks hold. -/
def System.boot (heap : TaskHandle → TCB) (sim : Simulator) : System where
  kernel := bootState heap sim
  created := []

inductive Call where
  | create (x : TaskHandle) (uxPriority : Nat)
  | createPeriodic (x : TaskHandle)
      (id uxPriority period duration weaklyHardConstraint : Nat)
  | startScheduler (idle timer : TaskHandle)
  | tick
  | yield
  | suspend (x : TaskHandle)
  | suspendLists (x : TaskHandle)
  | suspendYield (x : TaskHandle)
  | resume (x : TaskHandle)
  | resumeFromISR (x : TaskHandle)
  | prioritySet (x : TaskHandle) (uxNewPriority : Nat)
  | delay (xTicksToDelay : Nat)
  | delayBlock (xTicksToDelay : Nat)
  | delayYield
  | suspendAll
  | resumeAll
  | catchUpTicks (xTicksToCatchUp : Nat)
  | placeOnEventList (xTicksToWait : Nat)
  | removeFromEventList (x : TaskHandle)
  | nextEntry (id : ListId)
  deriving DecidableEq, Repr

namespace Call

/-- What the environment guarantees: a new task gets a block of its own, the
scheduler is started once, a handle is that of a task, and an event item goes
into one event list at a time. -/
def Allowed (s : System) : Call → Prop
  | .create x _ => x ∉ s.created
  | .createPeriodic x _ _ period _ _ => x ∉ s.created ∧ 1 ≤ period
  | .startScheduler idle timer =>
      idle ∉ s.created ∧ timer ∉ s.created ∧ idle ≠ timer ∧
        s.kernel.xSchedulerRunning = false
  | .suspend x | .suspendLists x | .suspendYield x | .resume x
  | .resumeFromISR x | .prioritySet x _ => x ∈ s.created
  | .placeOnEventList _ =>
      ∀ c ∈ s.kernel.pxCurrentTCB, (s.kernel.tcb c).inEventList = false
  | .removeFromEventList x =>
      x ∈ s.created ∧ (s.kernel.tcb x).inEventList = true ∧
        x ∉ s.kernel.items .pendingReady
  | _ => True

instance (s : System) (c : Call) : Decidable (c.Allowed s) := by
  cases c <;> unfold Allowed <;> infer_instance

/-- The tasks that exist after the call. -/
def createdAfter (s : System) : Call → List TaskHandle
  | .create x _ | .createPeriodic x _ _ _ _ _ => x :: s.created
  | .startScheduler idle timer => timer :: idle :: s.created
  | _ => s.created

/-- What the call does to the kernel. -/
def exec (alg : Algorithm) (st : State) : Call → Exec State
  | .create x uxPriority => xTaskCreateStatic alg x uxPriority st
  | .createPeriodic x id uxPriority period duration weaklyHardConstraint =>
      xTaskCreatePeriodic alg x id uxPriority period duration
        weaklyHardConstraint st
  | .startScheduler idle timer => vTaskStartScheduler alg idle timer st
  | .tick => vPortSystemTickHandler alg st
  | .yield => vTaskSwitchContext st
  | .suspend x => vTaskSuspend x st
  | .suspendLists x => .ok (vTaskSuspendLists x st)
  | .suspendYield x => vTaskSuspendYield x st
  | .resume x => vTaskResume alg x st
  | .resumeFromISR x => .ok (xTaskResumeFromISR alg x st)
  | .prioritySet x uxNewPriority => vTaskPrioritySet alg x uxNewPriority st
  | .delay xTicksToDelay => vTaskDelay alg xTicksToDelay st
  | .delayBlock xTicksToDelay => vTaskDelayBlock xTicksToDelay st
  | .delayYield => vTaskDelayYield alg st
  | .suspendAll => .ok (vTaskSuspendAll st)
  | .resumeAll => do
      let (_, st) ← xTaskResumeAll alg st
      return st
  | .catchUpTicks xTicksToCatchUp => do
      let (_, st) ← xTaskCatchUpTicks alg xTicksToCatchUp st
      return st
  | .placeOnEventList xTicksToWait =>
      .ok (vTaskPlaceOnEventList xTicksToWait st)
  | .removeFromEventList x => .ok (xTaskRemoveFromEventList alg x st)
  | .nextEntry id => .ok (FreeRtosSim.nextEntry id st)

end Call

/-- A run and the calls it made, each with the system it was made in. -/
inductive Run (alg : Algorithm) (heap : TaskHandle → TCB) (sim : Simulator) :
    List (System × Call) → System → Prop
  | boot : Run alg heap sim [] (System.boot heap sim)
  | call {hist : List (System × Call)} {s : System} {c : Call} {st : State} :
      Run alg heap sim hist s → c.Allowed s → c.exec alg s.kernel = .ok st →
      Run alg heap sim ((s, c) :: hist) ⟨st, c.createdAfter s⟩

/-- Make the calls one after the other; `none` when one is not allowed or does
not return. -/
def makeCalls (alg : Algorithm) : List Call → List (System × Call) → System →
    Option (List (System × Call) × System)
  | [], hist, s => some (hist, s)
  | c :: cs, hist, s =>
      if c.Allowed s then
        match c.exec alg s.kernel with
        | .ok st => makeCalls alg cs ((s, c) :: hist) ⟨st, c.createdAfter s⟩
        | .error _ => none
      else none

theorem Run.makeCalls {alg : Algorithm} {heap : TaskHandle → TCB} {sim : Simulator}
    {cs : List Call} {hist' : List (System × Call)} {s' : System} :
    ∀ {hist : List (System × Call)} {s : System}, Run alg heap sim hist s →
      FreeRtosSim.makeCalls alg cs hist s = some (hist', s') →
        Run alg heap sim hist' s' := by
  induction cs with
  | nil =>
      intro hist s h hs
      cases hs
      exact h
  | cons c cs ih =>
      intro hist s h hs
      rw [FreeRtosSim.makeCalls] at hs
      split at hs
      · next hal =>
          cases hok : c.exec alg s.kernel with
          | error e =>
              rw [hok] at hs
              exact absurd hs (by simp)
          | ok st =>
              rw [hok] at hs
              exact ih (h.call hal hok) hs
      · exact absurd hs (by simp)

/-- The calls made in zeroed memory. -/
def sampleRun (alg : Algorithm) (cs : List Call) :
    Option (List (System × Call) × System) :=
  makeCalls alg cs [] (System.boot (fun _ => zeroTcb) hardTask.simulator)

theorem sampleRun_run {alg : Algorithm} {cs : List Call}
    {hist : List (System × Call)} {s : System}
    (h : sampleRun alg cs = some (hist, s)) :
    Run alg (fun _ => zeroTcb) hardTask.simulator hist s := Run.boot.makeCalls h

/-! ## The ticks a call processes -/

/-- The states in which the rounds of `pendedTicksLoop` begin. -/
def pendedTicks (alg : Algorithm) : Nat → State → List State
  | 0, _ => []
  | n + 1, st =>
      st :: match xTaskIncrementTick alg st with
        | .error _ => []
        | .ok (xSwitchRequired, st) => pendedTicks alg n
            (if xSwitchRequired then { st with xYieldPending := true } else st)

/-- The same for `xTaskResumeAll`. -/
def resumeAllTicks (alg : Algorithm) (st : State) : List State :=
  if st.uxSchedulerSuspended = 1 ∧ st.uxCurrentNumberOfTasks > 0 then
    let st := resumePending alg { st with uxSchedulerSuspended := 0 }
    pendedTicks alg st.xPendedTicks st
  else []

/-- The states in which the ticks that the call processes begin. -/
def Call.ticks (alg : Algorithm) (st : State) : Call → List State
  | .tick => if st.uxSchedulerSuspended = 0 then [st] else []
  | .resumeAll | .delayYield => resumeAllTicks alg st
  | .catchUpTicks xTicksToCatchUp =>
      resumeAllTicks alg (pendTicks xTicksToCatchUp st)
  | .delay xTicksToDelay =>
      match vTaskDelayBlock xTicksToDelay st with
      | .error _ => []
      | .ok st => if xTicksToDelay > 0 then resumeAllTicks alg st else []
  | _ => []

/-- The tasks that the next tick unblocks. -/
def dueTasks (st : State) : List TaskHandle :=
  let tick := tickAdd st.xTickCount 1
  let due := fun id =>
    (st.items id).takeWhile fun x => decide ((st.tcb x).xItemValue ≤ tick)
  if tick = 0 then due st.pxOverflowDelayedTaskList
  else if tick ≥ st.xNextTaskUnblockTime then due st.pxDelayedTaskList
  else []

/-! ## The tasks a call handles -/

/-- The tasks that a call hands to `prvAddTaskToReadyList` outside a tick,
those it creates apart. -/
def Call.readied (st : State) : Call → List TaskHandle
  | .resume x => if prvTaskIsTaskSuspended x st then [x] else []
  | .resumeFromISR x =>
      if prvTaskIsTaskSuspended x st ∧ st.uxSchedulerSuspended = 0 then [x] else []
  | .prioritySet x uxNewPriority =>
      if (st.tcb x).uxPriority ≠ uxNewPriority ∧
          (st.tcb x).pxContainer = some (.ready (st.tcb x).uxPriority) then [x]
      else []
  | .removeFromEventList x => if st.uxSchedulerSuspended = 0 then [x] else []
  | .resumeAll | .delayYield =>
      if st.uxSchedulerSuspended = 1 ∧ st.uxCurrentNumberOfTasks > 0 then
        st.items .pendingReady
      else []
  | _ => []

/-- The tasks a call creates and the blocks it creates them with. -/
def Call.newBlocks (st : State) : Call → List (TaskHandle × TCB)
  | .create x _ => [(x, st.tcb x)]
  | .createPeriodic x id _ period duration weaklyHardConstraint =>
      [(x, { st.tcb x with
        xTaskId := id % 2 ^ 8
        xTaskPeriod := period
        xTaskDuration := duration
        xRemainingTicks := duration
        weaklyHardConstraint := weaklyHardConstraint % 2 ^ 8
        previousDeadlineMet := 0 })]
  | .startScheduler idle timer => [(idle, st.tcb idle), (timer, st.tcb timer)]
  | _ => []

def Call.newPeriodic : Call → List TaskHandle
  | .createPeriodic x _ _ _ _ _ => [x]
  | _ => []

/-- The idle and the timer task are ordinary tasks. -/
def Call.newOrdinary : Call → List TaskHandle
  | .create x _ => [x]
  | .startScheduler idle timer => [idle, timer]
  | _ => []

/-- The tasks that `xTaskCreatePeriodic` made in a run. -/
def periodicTasks (hist : List (System × Call)) : List TaskHandle :=
  hist.flatMap fun e => e.2.newPeriodic

/-- The tasks that `xTaskCreate` and `xTaskCreateStatic` made. -/
def ordinaryTasks (hist : List (System × Call)) : List TaskHandle :=
  hist.flatMap fun e => e.2.newOrdinary

end FreeRtosSim
