import Mathlib.Data.Finset.Card
import FreeRtosSim.Kernel.Mutex
import FreeRtosSim.Sim.System

/-!
# Tasks that share mutexes

`xSemaphoreTake` on a mutex is the loop of `xQueueSemaphoreTake`: try; when the
mutex is held, suspend the scheduler and look at the time, then wait on the
event list or give up. A task that gives up looks once more whether the mutex
is held, and takes the loan back from the holder if it was the cause of one.
Between two of these steps any other task, tick and interrupt may do anything:
the kernel's calls of `Sim.System` are steps here too, and so is
`vTaskSuspendAll` before a task looks at the time and `xTaskResumeAll` after.
Interrupts may not use mutexes.

Of the callers it is assumed that nobody is ready to wait while the scheduler is
suspended, and that the functions for recursive mutexes are used for these and
for no others. A task may give a mutex that is not recursive and that it does
not hold, and take one again that it holds: what then stops it are the
assertions of the code. A task may also go on while its event item is listed
still, as a periodic one does that `wakeTasks` has made ready.
-/

namespace FreeRtosSim

/-- Where a task is in a call. In `attempt` it enters the critical section at
the head of the loop next; `mayBlock` says that `xTicksToWait` is not zero. In
`failed` it has found the mutex held, in `waiting` it has been put on the event
list. In `lastLook` its time is up, and in `disinherit` it has found the mutex
held still. In `taken` it has a recursive mutex and has not counted the call
yet; in `giving` it is about to send. -/
inductive MutexPhase where
  | outside
  | attempt (xMutex : MutexHandle) (mayBlock xInheritanceOccurred : Bool)
  | failed (xMutex : MutexHandle) (xInheritanceOccurred : Bool)
  | waiting (xMutex : MutexHandle) (xInheritanceOccurred : Bool)
  | lastLook (xMutex : MutexHandle) (xInheritanceOccurred : Bool)
  | disinherit (xMutex : MutexHandle)
  | taken (xMutex : MutexHandle)
  | giving (xMutex : MutexHandle)
deriving DecidableEq, Repr

structure MutexSystem where
  kernel : MutexKernel
  created : List TaskHandle
  phase : TaskHandle → MutexPhase

/-- What a step was. `moved` stands for the steps that only move a task on in
its call. -/
inductive MutexEvent where
  | call (c : Call)
  | prioritySet (x : TaskHandle) (uxNewPriority : Nat)
  | took (x : TaskHandle) (xMutex : MutexHandle)
  | blocked (x : TaskHandle) (xMutex : MutexHandle)
  | gaveUp (x : TaskHandle) (xMutex : MutexHandle)
  | gave (x : TaskHandle) (xMutex : MutexHandle)
  | moved (x : TaskHandle)
deriving DecidableEq, Repr

/-- The other calls leave the priorities alone. -/
def Call.setsPriority : Call → Bool
  | .prioritySet .. => true
  | _ => false

namespace MutexKernel

/-- The event item of the task is in an event list. -/
def onEventList (st : State) (x : TaskHandle) : Bool :=
  (st.tcb x).inEventList ∧ x ∉ st.items .pendingReady

/-- The fields of a new task. -/
def newFields (b : TCB) : MutexFields where
  uxBasePriority := b.uxPriority
  uxMutexesHeld := 0
  xEventItemValue := configMaxPriorities - b.uxPriority

/-- After a call that turned the state into `st`: who was taken off an event
list is off the list of the mutex. -/
def afterCall (created created' : List TaskHandle) (st : State)
    (k : MutexKernel) : MutexKernel where
  st := st
  fields x :=
    if x ∈ created' ∧ x ∉ created then newFields (st.tcb x) else k.fields x
  mutex xMutex :=
    let mutex := k.mutex xMutex
    { mutex with queue := { mutex.queue with
        xTasksWaitingToReceive :=
          mutex.queue.xTasksWaitingToReceive.filter (onEventList st) } }

end MutexKernel

namespace MutexSystem

def system (s : MutexSystem) : System := ⟨s.kernel.st, s.created⟩

def setPhase (x : TaskHandle) (p : MutexPhase) (s : MutexSystem) : MutexSystem :=
  { s with phase := Function.update s.phase x p }

def holder (s : MutexSystem) (xMutex : MutexHandle) : Option TaskHandle :=
  (s.kernel.mutex xMutex).xMutexHolder

/-- `xTaskGetSchedulerState` returns `taskSCHEDULER_SUSPENDED`. -/
def schedulerSuspended (s : MutexSystem) : Bool :=
  s.kernel.st.xSchedulerRunning && s.kernel.st.uxSchedulerSuspended != 0

/-- `x` is the running task. -/
def Runs (s : MutexSystem) (x : TaskHandle) : Prop :=
  s.kernel.st.pxCurrentTCB = some x

/-- The mutexes are those in `mutexes`, the recursive ones among them those
that `recursive` says. -/
inductive Step (alg : Algorithm) (mutexes : Finset MutexHandle)
    (recursive : MutexHandle → Bool) (s : MutexSystem) :
    MutexEvent → MutexSystem → Prop
  | call {c : Call} {st : State} (hc : c.setsPriority = false)
      (hallowed : c.Allowed s.system)
      (hok : c.exec alg s.kernel.st = .ok st) :
      Step alg mutexes recursive s (.call c)
        { s with
          kernel := s.kernel.afterCall s.created (c.createdAfter s.system) st
          created := c.createdAfter s.system }
  | prioritySet {x : TaskHandle} {uxNewPriority : Nat} {k : MutexKernel}
      (hx : x ∈ s.created)
      (hok : s.kernel.vTaskPrioritySet alg x uxNewPriority = .ok k) :
      Step alg mutexes recursive s (.prioritySet x uxNewPriority)
        { s with kernel := k }
  | take {x : TaskHandle} {m : MutexHandle} {mayBlock : Bool}
      (hm : m ∈ mutexes) (hrun : s.Runs x) (hphase : s.phase x = .outside)
      (hother : recursive m = true → s.holder m ≠ some x)
      (hblock : (mayBlock && s.schedulerSuspended) = false) :
      Step alg mutexes recursive s (.moved x)
        (s.setPhase x (.attempt m mayBlock false))
  | takeAgain {x : TaskHandle} {m : MutexHandle}
      (hm : m ∈ mutexes) (hrun : s.Runs x) (hphase : s.phase x = .outside)
      (hrec : recursive m = true) (hholder : s.holder m = some x) :
      Step alg mutexes recursive s (.moved x)
        { s with kernel := s.kernel.countCalls m (· + 1) }
  | succeed {x : TaskHandle} {m : MutexHandle} {mayBlock inherited : Bool}
      {k : MutexKernel}
      (hrun : s.Runs x) (hphase : s.phase x = .attempt m mayBlock inherited)
      (hsection : s.kernel.takeSection m = some k) :
      Step alg mutexes recursive s (.took x m)
        { s.setPhase x (if recursive m then .taken m else .outside) with
          kernel := k }
  | count {x : TaskHandle} {m : MutexHandle}
      (hrun : s.Runs x) (hphase : s.phase x = .taken m) :
      Step alg mutexes recursive s (.moved x)
        { s.setPhase x .outside with kernel := s.kernel.countCalls m (· + 1) }
  | fail {x : TaskHandle} {m : MutexHandle} {inherited : Bool}
      (hrun : s.Runs x) (hphase : s.phase x = .attempt m true inherited)
      (hsection : s.kernel.takeSection m = none) :
      Step alg mutexes recursive s (.moved x) (s.setPhase x (.failed m inherited))
  | leave {x : TaskHandle} {m : MutexHandle}
      (hrun : s.Runs x) (hphase : s.phase x = .attempt m false false)
      (hsection : s.kernel.takeSection m = none) :
      Step alg mutexes recursive s (.moved x) (s.setPhase x .outside)
  | wait {x : TaskHandle} {m : MutexHandle} {inherited : Bool}
      {xTicksToWait : Nat}
      (hrun : s.Runs x) (hphase : s.phase x = .failed m inherited)
      (hsuspended : s.kernel.st.uxSchedulerSuspended ≠ 0)
      (hempty : (s.kernel.mutex m).queue.prvIsQueueEmpty = true) :
      Step alg mutexes recursive s (.blocked x m)
        { s.setPhase x
            (.waiting m (s.kernel.waitSection alg xTicksToWait m).1) with
          kernel := (s.kernel.waitSection alg xTicksToWait m).2 }
  | again {x : TaskHandle} {m : MutexHandle} {inherited : Bool}
      (hrun : s.Runs x) (hphase : s.phase x = .failed m inherited)
      (hsuspended : s.kernel.st.uxSchedulerSuspended ≠ 0)
      (hempty : (s.kernel.mutex m).queue.prvIsQueueEmpty = false) :
      Step alg mutexes recursive s (.moved x)
        (s.setPhase x (.attempt m true inherited))
  | timeUp {x : TaskHandle} {m : MutexHandle} {inherited : Bool}
      (hrun : s.Runs x) (hphase : s.phase x = .failed m inherited)
      (hsuspended : s.kernel.st.uxSchedulerSuspended ≠ 0) :
      Step alg mutexes recursive s (.moved x)
        (s.setPhase x (.lastLook m inherited))
  | goOn {x : TaskHandle} {m : MutexHandle} {inherited : Bool}
      (hrun : s.Runs x) (hphase : s.phase x = .waiting m inherited) :
      Step alg mutexes recursive s (.moved x)
        (s.setPhase x (.attempt m true inherited))
  | lookAgain {x : TaskHandle} {m : MutexHandle} {inherited : Bool}
      (hrun : s.Runs x) (hphase : s.phase x = .lastLook m inherited) :
      Step alg mutexes recursive s (.moved x)
        (s.setPhase x
          (if (s.kernel.mutex m).queue.prvIsQueueEmpty then
            if inherited then .disinherit m else .outside
          else .attempt m false inherited))
  | giveUp {x : TaskHandle} {m : MutexHandle} {k : MutexKernel}
      (hrun : s.Runs x) (hphase : s.phase x = .disinherit m)
      (hsection : s.kernel.timeoutSection alg m = some k) :
      Step alg mutexes recursive s (.gaveUp x m)
        { s.setPhase x .outside with kernel := k }
  | give {x : TaskHandle} {m : MutexHandle}
      (hm : m ∈ mutexes) (hrun : s.Runs x) (hphase : s.phase x = .outside)
      (hrec : recursive m = false) :
      Step alg mutexes recursive s (.moved x) (s.setPhase x (.giving m))
  | giveRecursive {x : TaskHandle} {m : MutexHandle}
      (hm : m ∈ mutexes) (hrun : s.Runs x) (hphase : s.phase x = .outside)
      (hrec : recursive m = true) (hholder : s.holder m = some x) :
      Step alg mutexes recursive s (.moved x)
        { s.setPhase x
            (if (s.kernel.mutex m).uxRecursiveCallCount - 1 = 0 then .giving m
            else .outside) with
          kernel := s.kernel.countCalls m (· - 1) }
  | send {x : TaskHandle} {m : MutexHandle} {k : MutexKernel} {sent : Bool}
      (hrun : s.Runs x) (hphase : s.phase x = .giving m)
      (hsection : s.kernel.xQueueGenericSend alg m = some (sent, k)) :
      Step alg mutexes recursive s
        (if sent then .gave x m else .moved x)
        { s.setPhase x .outside with kernel := k }

/-- The assertion that `x` comes to next, if it comes to one: that it caused no
inheritance when it leaves without the mutex, and those about the holder in
`tasks.c`: that the running task is it, when a mutex is given back, and that it
is not, when a task has timed out. -/
def Asserts (alg : Algorithm) (s : MutexSystem) (x : TaskHandle) : Prop :=
  match s.phase x with
  | .attempt m false xInheritanceOccurred =>
      s.kernel.takeSection m = none → xInheritanceOccurred = false
  | .disinherit m => (s.kernel.timeoutSection alg m).isSome
  | .giving m => (s.kernel.xQueueGenericSend alg m).isSome
  | _ => True

/-- The system before the first call: no tasks, and the mutexes just made. -/
def start (heap : TaskHandle → TCB) (sim : Simulator)
    (mutex : MutexHandle → Mutex) : MutexSystem where
  kernel :=
    { st := (System.boot heap sim).kernel
      fields := fun _ => ⟨0, 0, configMaxPriorities⟩
      mutex := mutex }
  created := []
  phase := fun _ => .outside

/-- A run with its history, the newest step first. -/
inductive Reached (alg : Algorithm) (mutexes : Finset MutexHandle)
    (recursive : MutexHandle → Bool) (s₀ : MutexSystem) :
    List (MutexSystem × MutexEvent) → MutexSystem → Prop
  | refl : Reached alg mutexes recursive s₀ [] s₀
  | step {hist : List (MutexSystem × MutexEvent)} {s s' : MutexSystem}
      {e : MutexEvent} :
      Reached alg mutexes recursive s₀ hist s →
      Step alg mutexes recursive s e s' →
      Reached alg mutexes recursive s₀ ((s, e) :: hist) s'

/-! ## Runs that compute -/

end MutexSystem

/-- The step to take next, as far as there is a choice; in `go` the phase of the
task decides. -/
inductive MutexChoice where
  | call (c : Call)
  | prioritySet (x : TaskHandle) (uxNewPriority : Nat)
  | take (x : TaskHandle) (xMutex : MutexHandle) (mayBlock : Bool)
  | wait (x : TaskHandle) (xTicksToWait : Nat)
  | again (x : TaskHandle)
  | timeUp (x : TaskHandle)
  | give (x : TaskHandle) (xMutex : MutexHandle)
  | go (x : TaskHandle)
deriving DecidableEq, Repr

namespace MutexSystem

variable (alg : Algorithm) (mutexes : Finset MutexHandle)
  (recursive : MutexHandle → Bool) (s : MutexSystem)

instance (x : TaskHandle) : Decidable (s.Runs x) :=
  inferInstanceAs (Decidable (_ = _))

/-- The step of a running task that has no choice. -/
def goStep (x : TaskHandle) : Option (MutexEvent × MutexSystem) :=
  match s.phase x with
  | .attempt m mayBlock inherited =>
      match s.kernel.takeSection m with
      | some k =>
          some (.took x m,
            { s.setPhase x (if recursive m then .taken m else .outside) with
              kernel := k })
      | none =>
          if mayBlock then some (.moved x, s.setPhase x (.failed m inherited))
          else if inherited then none
          else some (.moved x, s.setPhase x .outside)
  | .taken m =>
      some (.moved x, { s.setPhase x .outside with
        kernel := s.kernel.countCalls m (· + 1) })
  | .waiting m inherited =>
      some (.moved x, s.setPhase x (.attempt m true inherited))
  | .lastLook m inherited =>
      some (.moved x, s.setPhase x
        (if (s.kernel.mutex m).queue.prvIsQueueEmpty then
          if inherited then .disinherit m else .outside
        else .attempt m false inherited))
  | .disinherit m => (s.kernel.timeoutSection alg m).map fun k =>
      (.gaveUp x m, { s.setPhase x .outside with kernel := k })
  | .giving m => (s.kernel.xQueueGenericSend alg m).map fun r =>
      (if r.1 then .gave x m else .moved x,
        { s.setPhase x .outside with kernel := r.2 })
  | .outside | .failed .. => none

def takeStep (x : TaskHandle) (m : MutexHandle) (mayBlock : Bool) :
    Option (MutexEvent × MutexSystem) :=
  if recursive m = true ∧ s.holder m = some x then
    some (.moved x, { s with kernel := s.kernel.countCalls m (· + 1) })
  else if mayBlock && s.schedulerSuspended then none
  else some (.moved x, s.setPhase x (.attempt m mayBlock false))

def giveStep (x : TaskHandle) (m : MutexHandle) :
    Option (MutexEvent × MutexSystem) :=
  if recursive m = true then
    if s.holder m = some x then
      some (.moved x, { s.setPhase x
        (if (s.kernel.mutex m).uxRecursiveCallCount - 1 = 0 then .giving m
        else .outside) with
        kernel := s.kernel.countCalls m (· - 1) })
    else none
  else some (.moved x, s.setPhase x (.giving m))

/-- The mutex that the running task has found held, the scheduler being
suspended by now, and `xInheritanceOccurred`. -/
def failedAt (x : TaskHandle) : Option (MutexHandle × Bool) :=
  if s.Runs x ∧ s.kernel.st.uxSchedulerSuspended ≠ 0 then
    match s.phase x with
    | .failed m inherited => some (m, inherited)
    | _ => none
  else none

def waitStep (x : TaskHandle) (xTicksToWait : Nat) (m : MutexHandle) :
    Option (MutexEvent × MutexSystem) :=
  if (s.kernel.mutex m).queue.prvIsQueueEmpty = true then
    some (.blocked x m, { s.setPhase x
        (.waiting m (s.kernel.waitSection alg xTicksToWait m).1) with
      kernel := (s.kernel.waitSection alg xTicksToWait m).2 })
  else none

def choose : MutexChoice → Option (MutexEvent × MutexSystem)
  | .call c =>
      if c.setsPriority = false ∧ c.Allowed s.system then
        match c.exec alg s.kernel.st with
        | .ok st => some (.call c, { s with
            kernel := s.kernel.afterCall s.created (c.createdAfter s.system) st
            created := c.createdAfter s.system })
        | .error _ => none
      else none
  | .prioritySet x uxNewPriority =>
      if x ∈ s.created then
        match s.kernel.vTaskPrioritySet alg x uxNewPriority with
        | .ok k => some (.prioritySet x uxNewPriority, { s with kernel := k })
        | .error _ => none
      else none
  | .take x m mayBlock =>
      if m ∈ mutexes ∧ s.Runs x ∧ s.phase x = .outside then
        s.takeStep recursive x m mayBlock
      else none
  | .give x m =>
      if m ∈ mutexes ∧ s.Runs x ∧ s.phase x = .outside then
        s.giveStep recursive x m
      else none
  | .wait x xTicksToWait =>
      (s.failedAt x).bind fun r => s.waitStep alg x xTicksToWait r.1
  | .again x => (s.failedAt x).bind fun r =>
      if (s.kernel.mutex r.1).queue.prvIsQueueEmpty = false then
        some (.moved x, s.setPhase x (.attempt r.1 true r.2))
      else none
  | .timeUp x => (s.failedAt x).map fun r =>
      (.moved x, s.setPhase x (.lastLook r.1 r.2))
  | .go x => if s.Runs x then s.goStep alg recursive x else none

/-- The steps one after the other; `none` when one is not possible. -/
def chooseAll : List MutexChoice → List (MutexSystem × MutexEvent) → MutexSystem →
    Option (List (MutexSystem × MutexEvent) × MutexSystem)
  | [], hist, s => some (hist, s)
  | c :: cs, hist, s =>
      match s.choose alg mutexes recursive c with
      | some (e, s') => chooseAll cs ((s, e) :: hist) s'
      | none => none

variable {alg mutexes recursive s}

theorem goStep_sound {x : TaskHandle} {e : MutexEvent} {s' : MutexSystem}
    (hrun : s.Runs x) (hok : s.goStep alg recursive x = some (e, s')) :
    Step alg mutexes recursive s e s' := by
  rw [goStep] at hok
  cases hphase : s.phase x with
  | attempt m mayBlock inherited =>
      simp only [hphase] at hok
      cases hsection : s.kernel.takeSection m with
      | some k =>
          simp only [hsection] at hok
          cases hok
          exact .succeed hrun hphase hsection
      | none =>
          simp only [hsection] at hok
          cases mayBlock <;> cases inherited <;> cases hok
          · exact .leave hrun hphase hsection
          · exact .fail hrun hphase hsection
          · exact .fail hrun hphase hsection
  | taken m =>
      simp only [hphase] at hok
      cases hok
      exact .count hrun hphase
  | waiting m inherited =>
      simp only [hphase] at hok
      cases hok
      exact .goOn hrun hphase
  | lastLook m inherited =>
      simp only [hphase] at hok
      cases hok
      exact .lookAgain hrun hphase
  | disinherit m =>
      simp only [hphase, Option.map_eq_some_iff] at hok
      obtain ⟨k, hsection, heq⟩ := hok
      cases heq
      exact .giveUp hrun hphase hsection
  | giving m =>
      simp only [hphase, Option.map_eq_some_iff] at hok
      obtain ⟨r, hsection, heq⟩ := hok
      cases heq
      exact .send hrun hphase hsection
  | _ => simp [hphase] at hok

theorem takeStep_sound {x : TaskHandle} {m : MutexHandle} {mayBlock : Bool}
    {e : MutexEvent} {s' : MutexSystem} (hm : m ∈ mutexes) (hrun : s.Runs x)
    (hphase : s.phase x = .outside)
    (hok : s.takeStep recursive x m mayBlock = some (e, s')) :
    Step alg mutexes recursive s e s' := by
  rw [takeStep] at hok
  split at hok
  · next hagain =>
      cases hok
      exact .takeAgain hm hrun hphase hagain.1 hagain.2
  · next hfirst =>
      split at hok
      · cases hok
      · next hblock =>
          cases hok
          exact .take hm hrun hphase (fun hrec hholder => hfirst ⟨hrec, hholder⟩)
            (Bool.eq_false_of_not_eq_true hblock)

theorem giveStep_sound {x : TaskHandle} {m : MutexHandle} {e : MutexEvent}
    {s' : MutexSystem} (hm : m ∈ mutexes) (hrun : s.Runs x)
    (hphase : s.phase x = .outside)
    (hok : s.giveStep recursive x m = some (e, s')) :
    Step alg mutexes recursive s e s' := by
  rw [giveStep] at hok
  split at hok
  · next hrec =>
      split at hok
      · next hholder =>
          cases hok
          exact .giveRecursive hm hrun hphase hrec hholder
      · cases hok
  · next hrec =>
      cases hok
      exact .give hm hrun hphase (Bool.eq_false_of_not_eq_true hrec)

theorem failedAt_eq {x : TaskHandle} {m : MutexHandle} {inherited : Bool}
    (hok : s.failedAt x = some (m, inherited)) :
    s.Runs x ∧ s.phase x = .failed m inherited ∧
      s.kernel.st.uxSchedulerSuspended ≠ 0 := by
  rw [failedAt] at hok
  split at hok
  · next hin =>
      cases hphase : s.phase x with
      | failed n i =>
          simp only [hphase] at hok
          cases hok
          exact ⟨hin.1, rfl, hin.2⟩
      | _ => simp [hphase] at hok
  · cases hok

theorem choose_sound {c : MutexChoice} {e : MutexEvent} {s' : MutexSystem}
    (hok : s.choose alg mutexes recursive c = some (e, s')) :
    Step alg mutexes recursive s e s' := by
  cases c with
  | call c =>
      simp only [choose, Option.ite_none_right_eq_some] at hok
      obtain ⟨⟨hc, hallowed⟩, hok⟩ := hok
      cases hexec : c.exec alg s.kernel.st with
      | error r => simp [hexec] at hok
      | ok st =>
          simp only [hexec] at hok
          cases hok
          exact .call hc hallowed hexec
  | prioritySet x p =>
      simp only [choose, Option.ite_none_right_eq_some] at hok
      obtain ⟨hx, hok⟩ := hok
      cases hset : s.kernel.vTaskPrioritySet alg x p with
      | error r => simp [hset] at hok
      | ok k =>
          simp only [hset] at hok
          cases hok
          exact .prioritySet hx hset
  | take x m mayBlock =>
      simp only [choose, Option.ite_none_right_eq_some] at hok
      obtain ⟨⟨hm, hrun, hphase⟩, hok⟩ := hok
      exact takeStep_sound hm hrun hphase hok
  | give x m =>
      simp only [choose, Option.ite_none_right_eq_some] at hok
      obtain ⟨⟨hm, hrun, hphase⟩, hok⟩ := hok
      exact giveStep_sound hm hrun hphase hok
  | wait x n =>
      simp only [choose, Option.bind_eq_some_iff, waitStep,
        Option.ite_none_right_eq_some] at hok
      obtain ⟨r, hfailed, hempty, heq⟩ := hok
      obtain ⟨hrun, hphase, hsuspended⟩ := failedAt_eq hfailed
      cases heq
      exact .wait hrun hphase hsuspended hempty
  | again x =>
      simp only [choose, Option.bind_eq_some_iff, Option.ite_none_right_eq_some] at hok
      obtain ⟨r, hfailed, hempty, heq⟩ := hok
      obtain ⟨hrun, hphase, hsuspended⟩ := failedAt_eq hfailed
      cases heq
      exact .again hrun hphase hsuspended hempty
  | timeUp x =>
      simp only [choose, Option.map_eq_some_iff] at hok
      obtain ⟨r, hfailed, heq⟩ := hok
      obtain ⟨hrun, hphase, hsuspended⟩ := failedAt_eq hfailed
      cases heq
      exact .timeUp hrun hphase hsuspended
  | go x =>
      simp only [choose, Option.ite_none_right_eq_some] at hok
      exact goStep_sound hok.1 hok.2

theorem chooseAll_reached {s₀ s' : MutexSystem} {cs : List MutexChoice}
    {hist hist' : List (MutexSystem × MutexEvent)}
    (hr : Reached alg mutexes recursive s₀ hist s)
    (hok : chooseAll alg mutexes recursive cs hist s = some (hist', s')) :
    Reached alg mutexes recursive s₀ hist' s' := by
  induction cs generalizing hist s with
  | nil =>
      cases hok
      exact hr
  | cons c cs ih =>
      rw [chooseAll] at hok
      cases hc : s.choose alg mutexes recursive c with
      | none => simp [hc] at hok
      | some r =>
          simp only [hc] at hok
          exact ih (hr.step (choose_sound hc)) hok

/-- What `xQueueCreateMutex` makes of zeroed memory. -/
def sampleMutex : Mutex where
  queue :=
    { pcHead := fun _ => ()
      pcWriteTo := 0
      pcReadFrom := 0
      xTasksWaitingToSend := []
      xTasksWaitingToReceive := []
      uxMessagesWaiting := 1
      uxLength := 1
      uxItemSize := 0
      cRxLock := queueUnlocked
      cTxLock := queueUnlocked }
  xMutexHolder := none
  uxRecursiveCallCount := 0

/-- The mutex 0 in zeroed memory, before the first call. -/
def sampleStart : MutexSystem :=
  start (fun _ => zeroTcb) hardTask.simulator fun _ => sampleMutex

/-- Task 1 takes the mutex, and task 2 of a higher priority has to wait. -/
def sampleWait : List MutexChoice :=
  [.call (.createPeriodic 1 1 1 50 20 1), .call (.createPeriodic 2 2 2 100 20 1),
    .call (.createPeriodic 3 3 3 100 20 1), .call (.startScheduler 4 5),
    .call (.suspend 5), .call (.suspend 3), .call (.suspend 2), .take 1 0 true,
    .go 1, .call (.resume 2), .take 2 0 true, .go 2, .call .suspendAll]

/-- The time of task 2 is up. Before it looks once more, task 1, which has the
earlier deadline and the lent priority, gives the mutex back; and before it
tries once more, task 3 takes it. -/
def sampleRace : List MutexChoice :=
  sampleWait ++
    [.wait 2 1, .call .resumeAll, .call .yield, .call .tick, .call (.delay 1),
      .go 2, .go 2, .call .suspendAll, .timeUp 2, .call .tick, .call .resumeAll,
      .give 1 0, .go 1, .call .yield, .go 2, .call (.resumeFromISR 3),
      .call .yield, .take 3 0 true, .go 3, .call (.delay 5)]

/-- Task 2 gives the mutex that task 1 holds. -/
def sampleForeign : List MutexChoice := sampleWait.take 10 ++ [.give 2 0]

/-- Task 1 has the priority of task 2 and takes the mutex that it holds. The time
of task 2 is up, and then that of task 1. -/
def sampleOwn : List MutexChoice :=
  sampleWait ++
    [.wait 2 1, .call .resumeAll, .call .yield, .take 1 0 true, .go 1,
      .call .suspendAll, .wait 1 2, .call .resumeAll, .call .yield, .call .tick,
      .go 2, .go 2, .call .suspendAll, .timeUp 2, .call .resumeAll, .go 2, .go 2,
      .call (.delay 5), .call .tick, .go 1, .go 1, .call .suspendAll, .timeUp 1,
      .call .resumeAll, .go 1]

end MutexSystem

end FreeRtosSim
