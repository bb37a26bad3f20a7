import FreeRtosSim.Kernel.State

/-!
# One periodic task as a machine of its own

What a run does to one task depends on the rest of the system through a
single bit a tick: whether the task was the one charged. This file states
that machine on its own. Time is a plain natural number, deadlines are sums,
and the only trace of the representation is the eight-bit counter `met`.

The machine is the purpose of the periodic code said once: job `k` of a task
is released at `k * period` with `duration` ticks to do, is charged ticks
while it is ready, completes when none are left, is dropped as soon as it
could no longer finish by `(k + 1) * period`, and RTO leaves out a job whose
`skip - 1` predecessors were met.
-/

namespace FreeRtosSim

/-- A periodic task as the kernel sees it: `skip` is the constraint as the
`uint8_t` field of the control block holds it. -/
structure JobParams where
  period : Nat
  duration : Nat
  skip : Nat
  duration_pos : 1 ≤ duration
  duration_le : duration ≤ period
  skip_lt : skip < 2 ^ 8

theorem JobParams.period_pos (p : JobParams) : 0 < p.period :=
  Nat.lt_of_lt_of_le p.duration_pos p.duration_le

/-- The task's current job and its history: `met` is the credit counter,
`report k` whether job `k` is reported as met, `killed` how many jobs were
dropped. -/
structure Job where
  ready : Bool
  remaining : Nat
  start : Nat
  met : Nat
  report : Nat → Bool
  killed : Nat

namespace Job

/-- The next misses of this task would break its constraint. -/
def owes (p : JobParams) (j : Job) : Prop := j.met + 1 < p.skip

instance (p : JobParams) (j : Job) : Decidable (j.owes p) :=
  inferInstanceAs (Decidable (_ < _))

/-- The job is required: its task is hard or still owes a met deadline. -/
def red (p : JobParams) (j : Job) : Prop := p.skip = 0 ∨ j.owes p

instance (p : JobParams) (j : Job) : Decidable (j.red p) :=
  inferInstanceAs (Decidable (_ ∨ _))

/-- One tick of processor time. -/
def charge (p : JobParams) (j : Job) : Job :=
  if j.remaining - 1 = 0 then
    { j with
      ready := false
      remaining := 0
      report := Function.update j.report (j.start / p.period) true
      met := if p.skip ≠ 0 then (j.met + 1) % 2 ^ 8 else j.met }
  else { j with remaining := j.remaining - 1 }

/-- At time `t` the job cannot finish by the end of its period. -/
def late (p : JobParams) (t : Nat) (j : Job) : Prop :=
  j.start + p.period < t + j.remaining

instance (p : JobParams) (t : Nat) (j : Job) : Decidable (j.late p t) :=
  inferInstanceAs (Decidable (_ < _))

def drop (j : Job) : Job :=
  { j with ready := false, met := 0, killed := j.killed + 1 }

/-- Drop the job if it is ready and late. -/
def cull (p : JobParams) (t : Nat) (j : Job) : Job :=
  if j.ready = true ∧ j.late p t then j.drop else j

/-- Start the next job at `t`, or under RTO leave it out. -/
def release (alg : Algorithm) (p : JobParams) (t : Nat) (j : Job) : Job :=
  if alg = .rto ∧ ¬ j.red p then
    { j with remaining := p.duration, start := t, met := 0 }
  else { j with ready := true, remaining := p.duration, start := t }

/-- Release the next job if the task is waiting and a period starts. -/
def wake (alg : Algorithm) (p : JobParams) (t : Nat) (j : Job) : Job :=
  if j.ready = false ∧ t % p.period = 0 then j.release alg p t else j

/-- The accounting of a tick; only a ready job can be charged. -/
def account (p : JobParams) (charged : Bool) (j : Job) : Job :=
  if charged = true ∧ j.ready = true then j.charge p else j

/-- Everything tick `t` does to the task. -/
def tick (alg : Algorithm) (p : JobParams) (t : Nat) (charged : Bool)
    (j : Job) : Job :=
  ((j.account p charged).cull p t).wake alg p t

/-- A task that has never run. -/
def blank : Job where
  ready := false
  remaining := 0
  start := 0
  met := 0
  report := fun _ => false
  killed := 0

/-- The task right after it was created. -/
def initial (alg : Algorithm) (p : JobParams) : Job := blank.release alg p 0

end Job

/-- Under RTO the next job of a task that owes nothing is left out. -/
abbrev skips (alg : Algorithm) (p : JobParams) (j : Job) : Prop :=
  alg = .rto ∧ ¬ j.red p

/-- The task at the end of tick `t`, when `charged u` tells whether tick
`u + 1` is charged to it. -/
def jobAt (alg : Algorithm) (p : JobParams) (charged : Nat → Bool) :
    Nat → Job
  | 0 => Job.initial alg p
  | t + 1 => (jobAt alg p charged t).tick alg p (t + 1) (charged t)

end FreeRtosSim
