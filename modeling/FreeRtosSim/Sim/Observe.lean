import FreeRtosSim.Sim.System

/-!
# What can be seen of a tick

The two list passes and the accounting with a note of what they do: the tasks
killed, the tasks released, the calls of `setReport`, and every value something
is divided by. A note is taken where the source has the call or the operator,
under the same tests, in a walk that is otherwise the one of `Kernel.Tick`.
-/

namespace FreeRtosSim

/-- The notes of a pass over a list of tasks. -/
def walkListLog {β : Type} (id : ListId) (body : TaskHandle → State → State)
    (log : TaskHandle → State → List β) (st : State) : List β :=
  walkLog (fun st => st.lists id) (fun st l => st.setList id l) body log st

/-- The tasks that `killTasks` counts in `times_killed`, passes to
`check_weakly_hard` and moves to `xWaitTaskList`, in this order. -/
def killLog (st : State) : List TaskHandle :=
  walkListLog (.ready 1) killBody
    (fun x st => if (st.tcb x).uxPriority > 0 then
      if hopeless st x then [x] else [] else []) st

/-- The tasks that `wakeTasks` puts into a ready list. -/
def wakeLog (alg : Algorithm) (st : State) : List TaskHandle :=
  walkListLog .wait (wakeBody alg)
    (fun x st => if (st.tcb x).uxPriority > 0 then
      if st.xTickCount % (st.tcb x).xTaskPeriod = 0 then
        if alg = .rto ∧ (st.tcb x).weaklyHardConstraint ≠ 0 ∧
            ((st.tcb x).previousDeadlineMet : Int) ≥
              ((st.tcb x).weaklyHardConstraint : Int) - 1 then []
        else [x]
      else []
    else []) st

/-- The calls `setReport( id, start_time / xTaskPeriod )` of a tick. -/
def reportLog (st : State) : List (Nat × Nat) :=
  match st.pxCurrentTCB with
  | none => []
  | some c =>
      let t := st.tcb c
      if t.xTaskPeriod ≠ 0 ∧ t.xRemainingTicks - 1 = 0 ∧
          tickSub st.xTickCount t.startTime ≤ t.xTaskPeriod then
        [(t.xTaskId, t.startTime / t.xTaskPeriod)]
      else []

/-! ## Divisors -/

/-- What `prvAddTaskToReadyList` divides by: the period, in the branches that
compute a deadline. -/
def macroDivisors (alg : Algorithm) (t : TCB) : List Nat :=
  match alg with
  | .edf | .bwp => if t.xTaskPeriod ≠ 0 then [t.xTaskPeriod] else []
  | .rto =>
      if t.weaklyHardConstraint = 0 ∧ t.xTaskPeriod ≠ 0 then [t.xTaskPeriod]
      else if mustMeet t ∧ t.xTaskPeriod ≠ 0 then [t.xTaskPeriod]
      else []

/-- What the accounting divides by when the job is done: for `setReport` in
time, for the message when late. -/
def chargeDivisors (st : State) : List Nat :=
  match st.pxCurrentTCB with
  | none => []
  | some c =>
      let t := st.tcb c
      if t.xTaskPeriod ≠ 0 ∧ t.xRemainingTicks - 1 = 0 then [t.xTaskPeriod]
      else []

/-- What `wakeTasks` divides by. -/
def wakeDivisors (alg : Algorithm) (st : State) : List Nat :=
  walkListLog .wait (wakeBody alg)
    (fun x st => if (st.tcb x).uxPriority > 0 then
      (st.tcb x).xTaskPeriod ::
        if st.xTickCount % (st.tcb x).xTaskPeriod = 0 then
          if alg = .rto ∧ (st.tcb x).weaklyHardConstraint ≠ 0 ∧
              ((st.tcb x).previousDeadlineMet : Int) ≥
                ((st.tcb x).weaklyHardConstraint : Int) - 1 then []
          else macroDivisors alg (st.tcb x)
        else []
    else []) st

/-! ## The tick as a whole -/

/-- The states after the prologue, the accounting, `killTasks` and `wakeTasks`
in the tick that begins in `st`, as far as it gets. -/
def tickStages (alg : Algorithm) (st : State) : List State :=
  match tickPrologue alg st with
  | .error _ => []
  | .ok (_, st) =>
      let st' := chargeCurrent st
      if atHiperPeriod st' then [st, st']
      else [st, st', killTasks st', wakeTasks alg (killTasks st')]

/-- Every value that something is divided by in the tick. -/
def tickDivisors (alg : Algorithm) (st : State) : List Nat :=
  (dueTasks st).flatMap (fun x => macroDivisors alg (st.tcb x)) ++
    match tickPrologue alg st with
    | .error _ => []
    | .ok (_, st) =>
        let st' := chargeCurrent st
        chargeDivisors st ++
          if atHiperPeriod st' then [] else wakeDivisors alg (killTasks st')

/-- The tasks killed in the tick. -/
def tickKills (alg : Algorithm) (st : State) : List TaskHandle :=
  match tickPrologue alg st with
  | .error _ => []
  | .ok (_, st) =>
      let st' := chargeCurrent st
      if atHiperPeriod st' then [] else killLog st'

/-- A tick processed in the run, or by a call that is possible now. -/
def RunTick (alg : Algorithm) (hist : List (System × Call)) (s : System)
    (st : State) : Prop :=
  (∃ e ∈ hist, st ∈ e.2.ticks alg e.1.kernel) ∨
    ∃ c : Call, c.Allowed s ∧ st ∈ c.ticks alg s.kernel

end FreeRtosSim
