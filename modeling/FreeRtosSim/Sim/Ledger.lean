import FreeRtosSim.Sim.System

/-!
# The jobs of a task and its credits

`previous_deadline_met` is a bare counter; a ledger next to the run says which
job each increment was for. A job begins when the task is created and when
`wakeTasks` gives it its ticks, whether RTO then leaves the job out or not.
Jobs are numbered in the order they begin. What the accounting did to a task
is read off its block before and after.
-/

namespace FreeRtosSim

/-- The jobs begun, those for which the counter went up, newest first, and
what happened since the counter was last reset: the jobs it went up for, and
the jobs that ran out of ticks. -/
structure Account where
  jobs : Nat
  credited : List Nat
  since : List Nat
  finished : List Nat
  deriving DecidableEq, Repr

namespace Account

/-- The account of a task that does not exist. -/
def none : Account := ⟨0, [], [], []⟩

/-- The account of a new task, which has its first job. -/
def opened : Account := ⟨1, [], [], []⟩

def begin (a : Account) : Account := { a with jobs := a.jobs + 1 }

def reset (a : Account) : Account := { a with since := [], finished := [] }

def credit (a : Account) : Account :=
  { a with credited := a.jobs :: a.credited, since := a.jobs :: a.since }

def finish (a : Account) : Account := { a with finished := a.jobs :: a.finished }

/-- What the accounting of a tick made of the block `b`. -/
def charge (b b' : TCB) (a : Account) : Account :=
  let a :=
    if b.xRemainingTicks > 0 ∧ b'.xRemainingTicks = 0 then a.finish else a
  if b'.previousDeadlineMet ≠ b.previousDeadlineMet then a.credit else a

/-- `killTasks` resets the counter of a task it kills. -/
def kill (x : TaskHandle) (st : State) (a : Account) : Account :=
  if x ∈ st.items (.ready 1) ∧ (st.tcb x).uxPriority > 0 ∧ hopeless st x then
    a.reset
  else a

/-- `wakeTasks` begins a job; under RTO it resets the counter instead of
releasing a job that may be missed. -/
def wake (alg : Algorithm) (x : TaskHandle) (st : State) (a : Account) : Account :=
  let t := st.tcb x
  if x ∈ st.items .wait ∧ t.uxPriority > 0 ∧
      st.xTickCount % t.xTaskPeriod = 0 then
    if alg = .rto ∧ t.weaklyHardConstraint ≠ 0 ∧
        (t.previousDeadlineMet : Int) ≥ (t.weaklyHardConstraint : Int) - 1 then
      a.begin.reset
    else a.begin
  else a

/-- The tick that begins in `st`. -/
def tick (alg : Algorithm) (x : TaskHandle) (a : Account) (st : State) : Account :=
  match tickPrologue alg st with
  | .error _ => a
  | .ok (_, st) =>
      let st' := chargeCurrent st
      let a := a.charge (st.tcb x) (st'.tcb x)
      if atHiperPeriod st' then a
      else (a.kill x st').wake alg x (killTasks st')

/-- The ticks that begin in the listed states. -/
def ticks (alg : Algorithm) (x : TaskHandle) (l : List State) (a : Account) :
    Account :=
  l.foldl (Account.tick alg x) a

/-- A call. -/
def call (alg : Algorithm) (x : TaskHandle) (s : System) (c : Call)
    (a : Account) : Account :=
  if x ∈ c.newPeriodic then opened else a.ticks alg x (c.ticks alg s.kernel)

end Account

/-- The account of `x` after a run. -/
def account (alg : Algorithm) (x : TaskHandle) : List (System × Call) → Account
  | [] => .none
  | (s, c) :: hist => (account alg x hist).call alg x s c

end FreeRtosSim
