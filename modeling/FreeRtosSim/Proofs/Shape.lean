import FreeRtosSim.Sim.Run
import FreeRtosSim.Job.Invariant

/-!
# The shape of the kernel state in a closed run

Inside a tick the only things that move are the state items of the periodic
tasks, between ready list 1 and the wait list. `Shape` is what stays true of
the kernel state around that, at every point of a tick, not only at its end:
every task is on exactly one of the two lists and says so, the parameters in
its control block are those of the task set, the idle task is alone in ready
list 0, and nothing is delayed.

The two moves are given as explicit states, `toWait` and `toReady`, with the
writes the caller makes on the way; the passes of the tick are then rewritten
into them, and each has one preservation lemma.
-/

namespace FreeRtosSim

/-- The task's skip factor after it has passed through a `uint8_t`. -/
def TaskParams.toJob (p : TaskParams) : JobParams where
  period := p.period
  duration := p.duration
  skip := p.weaklyHardConstraint % 2 ^ 8
  duration_pos := p.duration_pos
  duration_le := p.duration_le
  skip_lt := Nat.mod_lt _ (by decide)

/-- The machine parameters of task `i`. -/
def ClosedSystem.params (sys : ClosedSystem) (i : Nat) : JobParams :=
  (sys.task i).toJob

/-- What the state says about task `i`. -/
def State.job (st : State) (i : Nat) : Job where
  ready := decide (i ∈ st.items (.ready 1))
  remaining := (st.tcb i).xRemainingTicks
  start := (st.tcb i).startTime
  met := (st.tcb i).previousDeadlineMet
  report := (st.sim.taskSet i).report
  killed := (st.sim.taskSet i).timesKilled

/-- The item value of a job in the ready list. -/
def readyKey (alg : Algorithm) (p : JobParams) (j : Job) : Nat :=
  match alg with
  | .edf => j.start + p.period
  | .rto => j.start + p.period
  | .bwp =>
      if j.red p then (j.start + p.period) ||| bit31
      else (j.start + p.period) ||| bit31 ||| bit30

/-- The control block holds the parameters of task `i`. -/
structure Static (p : JobParams) (i : Nat) (t : TCB) : Prop where
  priority : t.uxPriority = 1
  id : t.xTaskId = i
  period : t.xTaskPeriod = p.period
  duration : t.xTaskDuration = p.duration
  skip : t.weaklyHardConstraint = p.skip

/-- The fields that count ticks are in range at time `t`. -/
structure Bounds (p : JobParams) (t : Nat) (b : TCB) : Prop where
  start_le : b.startTime ≤ t
  remaining_le : b.xRemainingTicks ≤ p.period

/-- The entry of `Task_Set` holds the parameters of the task. -/
structure Entry (p : TaskParams) (H : Nat) (e : PeriodicTask) : Prop where
  period : e.period = p.period
  duration : e.duration = p.duration
  constraint : e.weaklyHardConstraint = p.weaklyHardConstraint
  numOfPeriods : e.numOfPeriods = H / p.period

structure Shape (sys : ClosedSystem) (t : Nat) (st : State) : Prop where
  tick : st.xTickCount = t
  notSuspended : st.uxSchedulerSuspended = 0
  nextUnblock : st.xNextTaskUnblockTime = portMaxDelay
  nodup : (st.items (.ready 1) ++ st.items .wait).Nodup
  mem : ∀ i, i ∈ st.items (.ready 1) ++ st.items .wait ↔ i < sys.taskCnt
  inReady : ∀ i ∈ st.items (.ready 1), (st.tcb i).pxContainer = some (.ready 1)
  inWait : ∀ i ∈ st.items .wait, (st.tcb i).pxContainer = some .wait
  static : ∀ i < sys.taskCnt, Static (sys.params i) i (st.tcb i)
  bounds : ∀ i < sys.taskCnt, Bounds (sys.params i) t (st.tcb i)
  key : ∀ i ∈ st.items (.ready 1),
    (st.tcb i).xItemValue = readyKey sys.alg (sys.params i) (st.job i)
  idle : (st.tcb sys.taskCnt).xTaskPeriod = 0
  idleList : st.items (.ready 0) = [sys.taskCnt]
  upper : ∀ p, 2 ≤ p → st.items (.ready p) = []
  top : st.items (.ready 1) ≠ [] → 1 ≤ st.uxTopReadyPriority
  simCnt : st.sim.taskCnt = sys.taskCnt
  simHiper : st.sim.hiperperiod = sys.hiperperiod
  entry : ∀ i < sys.taskCnt,
    Entry (sys.task i) sys.hiperperiod (st.sim.taskSet i)
  flag : st.sim.weaklyHard ≤ 1

/-! ## The two moves -/

/-- `x` leaves ready list 1 for the wait list; `f` is what the caller writes
to its control block, `g` what it writes to the simulator's globals. -/
def toWait (x : TaskHandle) (f : TCB → TCB) (g : Simulator → Simulator)
    (st : State) : State :=
  { st with
    lists := Function.update
      (Function.update st.lists (.ready 1) ((st.lists (.ready 1)).remove x))
      .wait ((st.lists .wait).insertEnd x)
    tcb := Function.update st.tcb x
      { f (st.tcb x) with pxContainer := some .wait }
    sim := g st.sim }

/-- `x` leaves the wait list for ready list 1 with key `v`. -/
def toReady (x : TaskHandle) (f : TCB → TCB) (v : Nat) (st : State) : State :=
  let l := st.lists (.ready 1)
  { st with
    uxTopReadyPriority :=
      if 1 > st.uxTopReadyPriority then 1 else st.uxTopReadyPriority
    lists := Function.update
      (Function.update st.lists .wait ((st.lists .wait).remove x))
      (.ready 1)
      (if v = portMaxDelay then l.append x
        else l.insertSorted
          (fun y => if y = x then v else (st.tcb y).xItemValue) x)
    tcb := Function.update st.tcb x
      { f (st.tcb x) with xItemValue := v, pxContainer := some (.ready 1) } }

theorem addTaskToWaitList_eq {x : TaskHandle} {st : State} {f : TCB → TCB}
    {g : Simulator → Simulator}
    (hc : (f (st.tcb x)).pxContainer = some (.ready 1)) :
    addTaskToWaitList x { st.modifyTcb x f with sim := g st.sim } =
      toWait x f g st := by
  simp only [addTaskToWaitList, uxListRemove, State.modifyTcb,
    Function.update_self, hc]
  simp [listInsertEnd, State.setList, State.modifyTcb, toWait]

theorem deadlineValue_eq {P t : Nat} (ht : t % P = 0) (hlt : P + t < 2 ^ 64) :
    deadlineValue P t = t + P := by
  rw [deadlineValue, tickAdd_of_lt hlt, ht, tickSub_of_le hlt (Nat.zero_le _)]
  omega

theorem mustMeet_iff {t : TCB} :
    mustMeet t = true ↔ t.previousDeadlineMet + 1 < t.weaklyHardConstraint := by
  simp only [mustMeet, decide_eq_true_eq]
  omega

/-- What the three macros have in common on a release: the job is inserted
into ready list 1 under its key. -/
theorem prvAddTaskToReadyList_eq {alg : Algorithm} {x : TaskHandle} {st : State}
    {p : JobParams} {j : Job} (hs : Static p x (st.tcb x))
    (hstart : j.start = st.xTickCount)
    (hmet : j.met = (st.tcb x).previousDeadlineMet)
    (ht : st.xTickCount % p.period = 0)
    (hlt : p.period + st.xTickCount < 2 ^ 64)
    (hred : alg = .rto → j.red p) :
    prvAddTaskToReadyList alg x st =
      vListInsert (.ready 1) x
        (setItemValue x (readyKey alg p j) (taskRecordReadyPriority 1 st)) := by
  have hp0 : ¬ p.period = 0 := Nat.ne_of_gt p.period_pos
  have hmust : mustMeet (st.tcb x) = true ↔ j.owes p := by
    rw [mustMeet_iff, Job.owes, hmet, hs.skip]
  have hv : deadlineValue p.period (taskRecordReadyPriority 1 st).xTickCount =
      j.start + p.period := by
    rw [hstart]
    exact deadlineValue_eq ht hlt
  cases alg with
  | edf =>
      simp only [prvAddTaskToReadyList, prvAddTaskToReadyListEdf, hs.priority,
        hs.period, hv, readyKey]
      rw [if_pos hp0]
  | bwp =>
      simp only [prvAddTaskToReadyList, prvAddTaskToReadyListBwp, hs.priority,
        hs.period, hs.skip, hv, hmust, readyKey]
      by_cases h0 : p.skip = 0
      · rw [if_pos ⟨h0, hp0⟩, if_pos (show j.red p from Or.inl h0)]
      · by_cases hm : j.owes p
        · rw [if_neg fun h => h0 h.1, if_pos ⟨hm, hp0⟩,
            if_pos (show j.red p from Or.inr hm)]
        · rw [if_neg fun h => h0 h.1, if_neg fun h => hm h.1, if_pos hp0,
            if_neg (show ¬ j.red p from fun h => h.elim h0 hm)]
  | rto =>
      simp only [prvAddTaskToReadyList, prvAddTaskToReadyListRto, hs.priority,
        hs.period, hs.skip, hv, hmust, readyKey]
      rcases hred rfl with h0 | hm
      · rw [if_pos ⟨h0, hp0⟩]
      · by_cases h0 : p.skip = 0
        · rw [if_pos ⟨h0, hp0⟩]
        · rw [if_neg fun h => h0 h.1, if_pos ⟨hm, hp0⟩]

theorem addTaskToReadyList_eq {alg : Algorithm} {x : TaskHandle} {st : State}
    {f : TCB → TCB} {p : JobParams} {j : Job} (hs : Static p x (f (st.tcb x)))
    (hc : (f (st.tcb x)).pxContainer = some .wait)
    (hstart : j.start = st.xTickCount)
    (hmet : j.met = (f (st.tcb x)).previousDeadlineMet)
    (ht : st.xTickCount % p.period = 0)
    (hlt : p.period + st.xTickCount < 2 ^ 64)
    (hred : alg = .rto → j.red p) :
    addTaskToReadyList alg x (st.modifyTcb x f) =
      toReady x f (readyKey alg p j) st := by
  have hremoved : uxListRemove x (st.modifyTcb x f) =
      (st.setList .wait ((st.lists .wait).remove x)).modifyTcb x
        fun t => { f t with pxContainer := none } := by
    simp [uxListRemove, State.modifyTcb, State.setList, hc]
  rw [addTaskToReadyList, hremoved, prvAddTaskToReadyList_eq (p := p) (j := j)]
  · generalize readyKey alg p j = v
    have hkey : (fun y => (Function.update st.tcb x
          { f (st.tcb x) with pxContainer := none, xItemValue := v } y).xItemValue)
        = fun y => if y = x then v else (st.tcb y).xItemValue := by
      funext y
      by_cases hy : y = x
      · subst hy
        simp
      · simp [hy]
    simp [vListInsert, setItemValue, taskRecordReadyPriority, State.modifyTcb,
      State.setList, toReady, hkey]
  · simpa using
      { priority := hs.priority, id := hs.id, period := hs.period
        duration := hs.duration, skip := hs.skip : Static p x
          { f (st.tcb x) with pxContainer := none } }
  · exact hstart
  · simpa using hmet
  · exact ht
  · exact hlt
  · exact hred

end FreeRtosSim
