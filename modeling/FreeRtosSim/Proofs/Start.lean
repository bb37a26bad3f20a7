import FreeRtosSim.Proofs.Tick

/-!
# The state the run starts in

Task creation keeps an invariant of its own, `Created`: after `k` rounds of
the creation loop the first `k` tasks are on the two lists as jobs released
at time 0 and nothing else has been linked anywhere. The scheduler start adds
the idle task and the timer task, the timer task blocks, and what is left has
the shape of the closed run at time 0.
-/

namespace FreeRtosSim

variable {sys : ClosedSystem} {k : Nat} {st : State} {x i : TaskHandle}

/-- The order among equal keys at time 0: the order of creation. -/
def createdFirst (i j : TaskHandle) : Prop := i < j

structure Created (sys : ClosedSystem) (k : Nat) (st : State) : Prop where
  tick : st.xTickCount = 0
  notSuspended : st.uxSchedulerSuspended = 0
  notRunning : st.xSchedulerRunning = false
  count : st.uxCurrentNumberOfTasks = k
  current : st.pxCurrentTCB = if k = 0 then none else some (k - 1)
  blank : k = 0 → st.lists = fun _ => CursorList.empty
  cursors : ∀ id, (st.lists id).index = none
  counted : ∀ id, (st.lists id).Counted
  empty : ∀ id, id ≠ .ready 1 → id ≠ .wait → st.items id = []
  perm : (st.items (.ready 1) ++ st.items .wait).Perm (List.range k)
  inReady : ∀ i ∈ st.items (.ready 1), (st.tcb i).pxContainer = some (.ready 1)
  inWait : ∀ i ∈ st.items .wait, (st.tcb i).pxContainer = some .wait
  static : ∀ i < k, Static (sys.params i) i (st.tcb i)
  fresh : ∀ i, k ≤ i → st.tcb i = sys.heap i
  key : ∀ i ∈ st.items (.ready 1),
    (st.tcb i).xItemValue = readyKey sys.alg (sys.params i) (st.job i)
  job : ∀ i < k, st.job i = Job.initial sys.alg (sys.params i)
  sorted : CursorList.StableSorted (fun i => (st.tcb i).xItemValue) createdFirst
    (st.items (.ready 1))
  top : st.items (.ready 1) ≠ [] → 1 ≤ st.uxTopReadyPriority
  sim : st.sim = sys.simulator.setWeaklyHard
  console : st.console = []

theorem Created.mem (h : Created sys k st) :
    i ∈ st.items (.ready 1) ++ st.items .wait ↔ i < k :=
  h.perm.mem_iff.trans List.mem_range

theorem Created.ready_lt (h : Created sys k st) (hi : i ∈ st.items (.ready 1)) :
    i < k := h.mem.mp (List.mem_append_left _ hi)

/-! ## The table -/

theorem simulator_entry (hi : i < sys.taskCnt) :
    sys.simulator.taskSet i =
      { period := (sys.task i).period
        duration := (sys.task i).duration
        weaklyHardConstraint := (sys.task i).weaklyHardConstraint
        numOfPeriods := sys.hiperperiod / (sys.task i).period
        report := fun _ => false
        missedDeadlines := 0
        timesKilled := 0
        weaklyHardBroken := 0 } := by
  have hdiv : ((sys.hiperperiod : Int) / ((sys.task i).period : Int)).toNat =
      sys.hiperperiod / (sys.task i).period := by
    rw [← Int.natCast_ediv]
    rfl
  simp only [ClosedSystem.simulator, generatedSimulator, Simulator.resetReports,
    Simulator.resetTimesKilled, Simulator.calculateNumOfPeriods,
    Simulator.forEachTask_eq, if_pos hi]
  rw [← hdiv]
  rfl

theorem simulator_taskCnt : sys.simulator.taskCnt = sys.taskCnt := by
  simp only [ClosedSystem.simulator, generatedSimulator, Simulator.resetReports,
    Simulator.resetTimesKilled, Simulator.calculateNumOfPeriods,
    Simulator.forEachTask_eq]

theorem simulator_hiperperiod : sys.simulator.hiperperiod = sys.hiperperiod :=
  generatedSimulator_hiperperiod _ _

/-! ## One round of the creation loop -/

/-- Everything creation writes to the block of task `i`. -/
def creationWrite (p : TaskParams) (i : Nat) (b : TCB) : TCB :=
  { b with
    xTaskId := i % 2 ^ 8
    xTaskPeriod := p.period
    xTaskDuration := p.duration
    xRemainingTicks := p.duration
    weaklyHardConstraint := p.weaklyHardConstraint % 2 ^ 8
    previousDeadlineMet := 0
    uxPriority := 1
    pxContainer := none
    inEventList := false }

/-- The state in which a new task is put on a list. -/
def allocated (sys : ClosedSystem) (k : Nat) (d o : ListId) (st : State) :
    State :=
  { st.modifyTcb k (creationWrite (sys.task k) k) with
    uxCurrentNumberOfTasks := k + 1
    pxCurrentTCB := some k
    pxDelayedTaskList := d
    pxOverflowDelayedTaskList := o }

theorem chooseCurrent_eq (h : Created sys k st) :
    ∃ d o, chooseCurrent k
      { st.modifyTcb k (creationWrite (sys.task k) k) with
        uxCurrentNumberOfTasks := k + 1 } = allocated sys k d o st := by
  by_cases hk : k = 0
  · have hcur : st.pxCurrentTCB = none := by rw [h.current, if_pos hk]
    refine ⟨.delayed1, .delayed2, ?_⟩
    simp only [chooseCurrent, State.modifyTcb, hcur, hk, if_true,
      prvInitialiseTaskLists, allocated, h.blank hk]
  · have hcur : st.pxCurrentTCB = some (k - 1) := by rw [h.current, if_neg hk]
    have hprev := (h.static (k - 1) (by omega)).priority
    refine ⟨st.pxDelayedTaskList, st.pxOverflowDelayedTaskList, ?_⟩
    simp [chooseCurrent, State.modifyTcb, hcur, h.notRunning, allocated,
      show k - 1 ≠ k by omega, hprev, creationWrite]

theorem allocated_static (st : State) (d o : ListId) (hk : k < sys.taskCnt) :
    Static (sys.params k) k ((allocated sys k d o st).tcb k) := by
  have hlt : k < 2 ^ 8 := by
    have := sys.tasks_le
    have hcnt : sys.taskCnt ≤ 100 := this
    omega
  simp only [allocated, State.modifyTcb_tcb, Function.update_self]
  exact ⟨rfl, Nat.mod_eq_of_lt hlt, rfl, rfl, rfl⟩

theorem Created.not_ready (h : Created sys k st) : k ∉ st.items (.ready 1) :=
  fun hm => Nat.lt_irrefl k (h.ready_lt hm)

theorem Created.not_wait (h : Created sys k st) : k ∉ st.items .wait :=
  fun hm => Nat.lt_irrefl k (h.mem.mp (List.mem_append_right _ hm))

/-- A task that is still to be created is on no list. -/
theorem Created.not_linked (h : Created sys k st) (id : ListId) :
    k ∉ st.items id := by
  by_cases hr : id = .ready 1
  · subst hr
    exact h.not_ready
  · by_cases hw : id = .wait
    · subst hw
      exact h.not_wait
    · rw [h.empty id hr hw]
      exact List.not_mem_nil

/-- A new task goes to the ready list with its first job, or under RTO to the
wait list when that job may be left out. -/
theorem prvAddTaskToReadyList_created (h : Created sys k st)
    (hk : k < sys.taskCnt) {d o : ListId} :
    prvAddTaskToReadyList sys.alg k (allocated sys k d o st) =
      if skips sys.alg (sys.params k) Job.blank then
        toWait k (fun b => b) (fun s => s)
          (taskRecordReadyPriority 1 (allocated sys k d o st))
      else toReady k (fun b => b) (readyKey sys.alg (sys.params k)
        (Job.initial sys.alg (sys.params k))) (allocated sys k d o st) := by
  have hs := allocated_static st d o hk
  have hp0 := Nat.ne_of_gt (sys.params k).period_pos
  have hper := sys.params_period_le hk
  have hH := sys.hiperperiod_lt
  have htick : (allocated sys k d o st).xTickCount = 0 := h.tick
  have hremove : ∀ id, ((allocated sys k d o st).lists id).remove k =
      (allocated sys k d o st).lists id := fun id =>
    CursorList.remove_of_notMem (h.not_linked id) (h.cursors id)
  by_cases hskip : skips sys.alg (sys.params k) Job.blank
  · rw [if_pos hskip]
    obtain ⟨halg, hred⟩ := hskip
    have h0 : ¬ (sys.params k).skip = 0 := fun h0 => hred (Or.inl h0)
    have hm : ¬ mustMeet ((allocated sys k d o st).tcb k) = true := by
      rw [mustMeet_iff, hs.skip]
      have : ((allocated sys k d o st).tcb k).previousDeadlineMet = 0 := by
        simp [allocated, creationWrite]
      rw [this]
      exact fun hlt => hred (Or.inr hlt)
    simp only [prvAddTaskToReadyList, halg, prvAddTaskToReadyListRto, hs.skip,
      hs.period]
    rw [if_neg fun hc => h0 hc.1, if_neg fun hc => hm hc.1,
      if_pos ⟨h.tick, hp0⟩]
    simp only [hs.priority, listInsertEnd, taskRecordReadyPriority,
      State.setList, State.modifyTcb, toWait, hremove]
    simp only [Function.update_eq_self]
  · rw [if_neg hskip]
    have hinit : Job.initial sys.alg (sys.params k) =
        { Job.blank with
          ready := true, remaining := (sys.params k).duration, start := 0 } :=
      if_neg hskip
    rw [prvAddTaskToReadyList_eq (p := sys.params k)
      (j := Job.initial sys.alg (sys.params k)) hs]
    · generalize readyKey sys.alg _ _ = v
      simp only [vListInsert, setItemValue, taskRecordReadyPriority,
        State.modifyTcb, State.setList, toReady, hremove]
      simp only [Function.update_eq_self, Function.update_self,
        Function.update_idem]
      congr 1
      congr 2
      congr 1
      funext y
      by_cases hy : y = k
      · subst hy
        simp
      · simp [hy]
    · rw [hinit, htick]
    · rw [hinit]
      simp [allocated, creationWrite, Job.blank]
    · rw [htick]
      exact Nat.zero_mod _
    · rw [htick]
      omega
    · intro halg
      rw [hinit]
      by_contra hred
      exact hskip ⟨halg, hred⟩

theorem prvInitialiseNewTask_eq {p : Nat} (hp : p < configMaxPriorities) :
    prvInitialiseNewTask x p st = .ok (st.modifyTcb x fun t =>
      { t with uxPriority := p, pxContainer := none, inEventList := false }) := by
  have hge : ¬ p ≥ configMaxPriorities := Nat.not_le.mpr hp
  simp only [prvInitialiseNewTask, configAssert, decide_eq_true hp, if_true,
    if_neg hge]
  rfl

theorem createTask_eq (h : Created sys k st) (hk : k < sys.taskCnt) :
    ∃ d o, createTask sys.alg st k =
      .ok (prvAddTaskToReadyList sys.alg k (allocated sys k d o st)) := by
  obtain ⟨d, o, hchoose⟩ := chooseCurrent_eq h
  refine ⟨d, o, ?_⟩
  have hadd := prvAddTaskToReadyList_created h hk (d := d) (o := o)
  have hyield : yieldIfOutranked k
      (prvAddTaskToReadyList sys.alg k (allocated sys k d o st)) =
      .ok (prvAddTaskToReadyList sys.alg k (allocated sys k d o st)) := by
    have hrun : (allocated sys k d o st).xSchedulerRunning = false := h.notRunning
    have hcur : (allocated sys k d o st).pxCurrentTCB = some k := rfl
    rw [hadd]
    split
    · simp [yieldIfOutranked, toWait, taskRecordReadyPriority, hcur, hrun]
    · simp [yieldIfOutranked, toReady, hcur, hrun]
  have hblock : ((st.modifyTcb k fun t =>
      { t with
        xTaskId := k % 2 ^ 8
        xTaskPeriod := (sys.task k).period
        xTaskDuration := (sys.task k).duration
        xRemainingTicks := (sys.task k).duration
        weaklyHardConstraint := (sys.task k).weaklyHardConstraint % 2 ^ 8
        previousDeadlineMet := 0 }).modifyTcb k fun t =>
      { t with
        uxPriority := 1, pxContainer := none, inEventList := false }) =
      st.modifyTcb k (creationWrite (sys.task k) k) := by
    simp [State.modifyTcb, creationWrite]
  simp only [createTask, h.sim, Simulator.setWeaklyHard, simulator_entry hk,
    xTaskCreatePeriodic, mainTaskPriority,
    prvInitialiseNewTask_eq (show 1 < configMaxPriorities by decide), bind,
    Except.bind, hblock, prvAddNewTaskToReadyList]
  rw [show (st.modifyTcb k (creationWrite (sys.task k) k)).uxCurrentNumberOfTasks
    = k from h.count]
  exact (congrArg (fun s => yieldIfOutranked k
    (prvAddTaskToReadyList sys.alg k s)) hchoose).trans hyield

section Round

variable {d o : ListId}

theorem perm_range_succ {l : List Nat} (hl : l.Perm (k :: List.range k)) :
    l.Perm (List.range (k + 1)) := by
  rw [List.range_succ]
  exact hl.trans (List.perm_append_singleton k _).symm

/-- What linking task `k` into one of the two lists has to provide for the
next round. -/
structure Linked (sys : ClosedSystem) (k : Nat) (st st' : State) : Prop where
  frame : ∃ d o L T u, st' =
    { allocated sys k d o st with
      lists := L, tcb := T, uxTopReadyPriority := u }
  cursors : ∀ id, (st'.lists id).index = none
  counted : ∀ id, (st'.lists id).Counted
  empty : ∀ id, id ≠ .ready 1 → id ≠ .wait → st'.items id = []
  perm : (st'.items (.ready 1) ++ st'.items .wait).Perm
    (k :: (st.items (.ready 1) ++ st.items .wait))
  ready : ∀ i ∈ st'.items (.ready 1), i ≠ k → i ∈ st.items (.ready 1)
  wait : ∀ i ∈ st'.items .wait, i ≠ k → i ∈ st.items .wait
  tcb : ∀ i, i ≠ k → st'.tcb i = st.tcb i
  others : ∀ i, i ≠ k → st'.job i = st.job i
  static : Static (sys.params k) k (st'.tcb k)
  inReady : k ∈ st'.items (.ready 1) →
    (st'.tcb k).pxContainer = some (.ready 1) ∧
    (st'.tcb k).xItemValue = readyKey sys.alg (sys.params k) (st'.job k)
  inWait : k ∈ st'.items .wait → (st'.tcb k).pxContainer = some .wait
  job : st'.job k = Job.initial sys.alg (sys.params k)
  sorted : CursorList.StableSorted (fun i => (st'.tcb i).xItemValue)
    createdFirst (st'.items (.ready 1))
  top : 1 ≤ st'.uxTopReadyPriority

theorem Created.linked {st' : State} (h : Created sys k st)
    (hl : Linked sys k st st') : Created sys (k + 1) st' := by
  obtain ⟨d, o, L, T, u, hframe⟩ := hl.frame
  refine
    { tick := by rw [hframe]; exact h.tick
      notSuspended := by rw [hframe]; exact h.notSuspended
      notRunning := by rw [hframe]; exact h.notRunning
      count := by rw [hframe]; rfl
      current := by rw [hframe]; rfl
      blank := fun hc => absurd hc (Nat.succ_ne_zero k)
      cursors := hl.cursors
      counted := hl.counted
      empty := hl.empty
      perm := perm_range_succ (hl.perm.trans (h.perm.cons k))
      inReady := ?_, inWait := ?_, static := ?_, fresh := ?_, key := ?_
      job := ?_
      sorted := hl.sorted
      top := fun _ => hl.top
      sim := by rw [hframe]; exact h.sim
      console := by rw [hframe]; exact h.console }
  · intro i hi
    by_cases hik : i = k
    · subst hik
      exact (hl.inReady hi).1
    · rw [hl.tcb i hik]
      exact h.inReady i (hl.ready i hi hik)
  · intro i hi
    by_cases hik : i = k
    · subst hik
      exact hl.inWait hi
    · rw [hl.tcb i hik]
      exact h.inWait i (hl.wait i hi hik)
  · intro i hi
    by_cases hik : i = k
    · subst hik
      exact hl.static
    · rw [hl.tcb i hik]
      exact h.static i (by omega)
  · intro i hi
    rw [hl.tcb i (by omega)]
    exact h.fresh i (by omega)
  · intro i hi
    by_cases hik : i = k
    · subst hik
      exact (hl.inReady hi).2
    · rw [hl.tcb i hik, hl.others i hik]
      exact h.key i (hl.ready i hi hik)
  · intro i hi
    by_cases hik : i = k
    · subst hik
      exact hl.job
    · rw [hl.others i hik]
      exact h.job i (by omega)

theorem toWait_cursors {f : TCB → TCB} {g : Simulator → Simulator}
    (hc : ∀ id, (st.lists id).index = none) (hx : x ∉ st.items (.ready 1))
    (id : ListId) : ((toWait x f g st).lists id).index = none := by
  have hrem := CursorList.remove_of_notMem hx (hc (.ready 1))
  by_cases hid : id = .wait
  · subst hid
    simp only [toWait, Function.update_self, CursorList.index_insertEnd]
    exact hc .wait
  · by_cases hid' : id = .ready 1
    · subst hid'
      simp only [toWait, Function.update_self, Function.update_of_ne hid]
      rw [hrem]
      exact hc (.ready 1)
    · simp only [toWait, Function.update_of_ne hid, Function.update_of_ne hid']
      exact hc id

theorem toReady_cursors {f : TCB → TCB} {v : Nat}
    (hc : ∀ id, (st.lists id).index = none) (hx : x ∉ st.items .wait)
    (id : ListId) : ((toReady x f v st).lists id).index = none := by
  have hrem := CursorList.remove_of_notMem hx (hc .wait)
  by_cases hid : id = .ready 1
  · subst hid
    simp only [toReady, Function.update_self]
    split
    · exact hc (.ready 1)
    · exact hc (.ready 1)
  · by_cases hid' : id = .wait
    · subst hid'
      simp only [toReady, Function.update_self, Function.update_of_ne hid]
      rw [hrem]
      exact hc .wait
    · simp only [toReady, Function.update_of_ne hid, Function.update_of_ne hid']
      exact hc id

theorem toWait_counted {f : TCB → TCB} {g : Simulator → Simulator}
    (hc : ∀ id, (st.lists id).Counted) (id : ListId) :
    ((toWait x f g st).lists id).Counted := by
  by_cases hid : id = .wait
  · subst hid
    simp only [toWait, Function.update_self]
    exact (hc .wait).insertEnd x
  · by_cases hid' : id = .ready 1
    · subst hid'
      simp only [toWait, Function.update_self, Function.update_of_ne hid]
      exact (hc (.ready 1)).remove x
    · simp only [toWait, Function.update_of_ne hid, Function.update_of_ne hid']
      exact hc id

theorem toReady_counted {f : TCB → TCB} {v : Nat}
    (hc : ∀ id, (st.lists id).Counted) (id : ListId) :
    ((toReady x f v st).lists id).Counted := by
  by_cases hid : id = .ready 1
  · subst hid
    simp only [toReady, Function.update_self]
    split
    · exact (hc (.ready 1)).append x
    · exact (hc (.ready 1)).insertSorted _ x
  · by_cases hid' : id = .wait
    · subst hid'
      simp only [toReady, Function.update_self, Function.update_of_ne hid]
      exact (hc .wait).remove x
    · simp only [toReady, Function.update_of_ne hid, Function.update_of_ne hid']
      exact hc id

theorem allocated_start_zero (h : Created sys k st) (hk : k < sys.taskCnt) :
    (st.tcb k).startTime = 0 := by
  rw [h.fresh k (Nat.le_refl k)]
  exact sys.start_zero k hk

/-- The round of a task whose first job is left out. -/
theorem Created.waitRound (h : Created sys k st) (hk : k < sys.taskCnt)
    (hskip : skips sys.alg (sys.params k) Job.blank) :
    Created sys (k + 1) (toWait k (fun b => b) (fun s => s)
      (taskRecordReadyPriority 1 (allocated sys k d o st))) := by
  have hready : (toWait k (fun b => b) (fun s => s)
      (taskRecordReadyPriority 1 (allocated sys k d o st))).items (.ready 1) =
      st.items (.ready 1) := by
    rw [toWait_items_ready]
    exact List.erase_of_not_mem h.not_ready
  have hwait : ((toWait k (fun b => b) (fun s => s)
      (taskRecordReadyPriority 1 (allocated sys k d o st))).items .wait).Perm
      (k :: st.items .wait) := by
    rw [toWait_items_wait]
    exact CursorList.perm_insertEnd _ k
  have htcb : ∀ i, i ≠ k → (toWait k (fun b => b) (fun s => s)
      (taskRecordReadyPriority 1 (allocated sys k d o st))).tcb i =
      st.tcb i := fun i hi => by
    rw [toWait_tcb_other hi]
    exact modifyTcb_tcb_other hi
  have hself : (toWait k (fun b => b) (fun s => s)
      (taskRecordReadyPriority 1 (allocated sys k d o st))).tcb k =
      { creationWrite (sys.task k) k (st.tcb k) with
        pxContainer := some .wait } := by
    simp [toWait, taskRecordReadyPriority, allocated]
  refine h.linked
    { frame := ⟨d, o, _, _, _, rfl⟩
      cursors := toWait_cursors h.cursors h.not_ready
      counted := toWait_counted h.counted
      empty := fun id hr hw => ?_, perm := ?_
      ready := fun i hi _ => by rwa [hready] at hi
      wait := fun i hi hik => ?_
      tcb := htcb
      others := fun i hi => ?_
      static := ?_, inReady := fun hm => ?_
      inWait := fun _ => by rw [hself]
      job := ?_, sorted := ?_, top := ?_ }
  · rw [toWait_items_other hr hw]
    exact h.empty id hr hw
  · rw [hready]
    exact (hwait.append_left _).trans List.perm_middle
  · rw [hwait.mem_iff, List.mem_cons] at hi
    exact hi.resolve_left hik
  · rw [toWait_job_other hi rfl]
    exact job_congr rfl (modifyTcb_tcb_other hi) rfl
  · obtain ⟨h1, h2, h3, h4, h5⟩ := allocated_static st d o hk
    simp only [toWait, Function.update_self]
    exact ⟨h1, h2, h3, h4, h5⟩
  · rw [hready] at hm
    exact absurd hm h.not_ready
  · rw [Job.initial, Job.release, if_pos hskip]
    have hsim : (toWait k (fun b => b) (fun s => s)
        (taskRecordReadyPriority 1 (allocated sys k d o st))).sim.taskSet k =
        sys.simulator.taskSet k := congrFun (congrArg Simulator.taskSet h.sim) k
    simp only [State.job, hready, decide_eq_false h.not_ready, hself, hsim,
      simulator_entry hk, creationWrite, allocated_start_zero h hk]
    rfl
  · rw [hready]
    refine h.sorted.congr (fun i hi => ?_) fun _ _ _ _ hb => hb
    rw [htcb i (Nat.ne_of_lt (h.ready_lt hi))]
  · simp only [toWait, taskRecordReadyPriority]
    split <;> omega

/-- The tasks created before the new one have keys that are no greater than
the largest one. -/
theorem Created.key_le (h : Created sys k st) (hk : k < sys.taskCnt) {v : Nat} :
    ∀ y ∈ (allocated sys k d o st).items (.ready 1),
      v = portMaxDelay → ((allocated sys k d o st).tcb y).xItemValue ≤ v := by
  intro y hy hmax
  have hyk := h.ready_lt hy
  have hper := sys.params_period_le (Nat.lt_trans hyk hk)
  have hH := sys.hiperperiod_lt
  have hstart := (Job.fits_initial sys.alg (sys.params y)).start_eq
  show ((st.modifyTcb k (creationWrite (sys.task k) k)).tcb y).xItemValue ≤ v
  rw [modifyTcb_tcb_other (Nat.ne_of_lt hyk), h.key y hy, h.job y hyk, hmax]
  exact readyKey_le (by omega)

theorem toReady_allocated_tcb {v : Nat} :
    (toReady k (fun b => b) v (allocated sys k d o st)).tcb k =
      { creationWrite (sys.task k) k (st.tcb k) with
        xItemValue := v, pxContainer := some (.ready 1) } := by
  simp [toReady, allocated]

theorem toReady_allocated_tcb_other {v : Nat} (hi : i ≠ k) :
    (toReady k (fun b => b) v (allocated sys k d o st)).tcb i = st.tcb i := by
  rw [toReady_tcb_other hi]
  exact modifyTcb_tcb_other hi

/-- A released first job is the one the machine starts with. -/
theorem Created.job_released (h : Created sys k st) (hk : k < sys.taskCnt)
    (hskip : ¬ skips sys.alg (sys.params k) Job.blank) {v : Nat} :
    (toReady k (fun b => b) v (allocated sys k d o st)).job k =
      Job.initial sys.alg (sys.params k) := by
  have hm : k ∈ linkReady (allocated sys k d o st) k v :=
    perm_linkReady.mem_iff.mpr (by simp)
  have hsim : (toReady k (fun b => b) v
      (allocated sys k d o st)).sim.taskSet k = sys.simulator.taskSet k :=
    congrFun (congrArg Simulator.taskSet h.sim) k
  rw [Job.initial, Job.release, if_neg hskip]
  simp only [State.job, toReady_items_ready (h.key_le hk), decide_eq_true hm,
    toReady_allocated_tcb, hsim, simulator_entry hk, creationWrite,
    allocated_start_zero h hk]
  rfl

/-- The new task stands behind the ones created before it with the same
key. -/
theorem Created.sorted_released (h : Created sys k st) {v : Nat} :
    CursorList.StableSorted (fun i => ((toReady k (fun b => b) v
      (allocated sys k d o st)).tcb i).xItemValue) createdFirst
      (linkReady (allocated sys k d o st) k v) := by
  have hold : CursorList.StableSorted (fun i => if i = k then v else
      ((allocated sys k d o st).tcb i).xItemValue) createdFirst
      (st.items (.ready 1)) := by
    refine h.sorted.congr (fun i hi => ?_) fun _ _ _ _ hb => hb
    have hne := Nat.ne_of_lt (h.ready_lt hi)
    rw [if_neg hne]
    exact congrArg TCB.xItemValue (modifyTcb_tcb_other hne)
  refine (hold.orderedInsert (x := k) fun i hi => h.ready_lt hi).congr
    (fun i hi => ?_) fun _ _ _ _ hb => hb
  by_cases hik : i = k
  · subst hik
    rw [toReady_allocated_tcb, if_pos rfl]
  · rw [toReady_allocated_tcb_other hik, if_neg hik]
    exact congrArg TCB.xItemValue (modifyTcb_tcb_other hik).symm

/-- The round of a task whose first job is released. -/
theorem Created.readyRound (h : Created sys k st) (hk : k < sys.taskCnt)
    (hskip : ¬ skips sys.alg (sys.params k) Job.blank) :
    Created sys (k + 1) (toReady k (fun b => b) (readyKey sys.alg (sys.params k)
      (Job.initial sys.alg (sys.params k))) (allocated sys k d o st)) := by
  have hjob := h.job_released hk hskip (d := d) (o := o)
    (v := readyKey sys.alg (sys.params k) (Job.initial sys.alg (sys.params k)))
  generalize hv : readyKey sys.alg (sys.params k)
    (Job.initial sys.alg (sys.params k)) = v at hjob ⊢
  have hready : (toReady k (fun b => b) v
      (allocated sys k d o st)).items (.ready 1) =
      linkReady (allocated sys k d o st) k v :=
    toReady_items_ready (h.key_le hk)
  have hwait : (toReady k (fun b => b) v (allocated sys k d o st)).items .wait =
      st.items .wait := by
    rw [toReady_items_wait]
    exact List.erase_of_not_mem h.not_wait
  refine h.linked
    { frame := ⟨d, o, _, _, _, rfl⟩
      cursors := toReady_cursors h.cursors h.not_wait
      counted := toReady_counted h.counted
      empty := fun id hr hw => ?_, perm := ?_
      ready := fun i hi hik => ?_
      wait := fun i hi _ => by rwa [hwait] at hi
      tcb := fun i hi => toReady_allocated_tcb_other hi
      others := fun i hi => ?_
      static := ?_, inReady := fun _ => ?_
      inWait := fun hm => by rw [hwait] at hm; exact absurd hm h.not_wait
      job := hjob
      sorted := by rw [hready]; exact h.sorted_released
      top := ?_ }
  · rw [toReady_items_other hr hw]
    exact h.empty id hr hw
  · rw [hready, hwait]
    exact perm_linkReady.append_right _
  · rw [hready, perm_linkReady.mem_iff, List.mem_cons] at hi
    exact hi.resolve_left hik
  · rw [toReady_job_other (h.key_le hk) hi]
    exact job_congr rfl (modifyTcb_tcb_other hi) rfl
  · obtain ⟨h1, h2, h3, h4, h5⟩ := allocated_static st d o hk
    simp only [toReady, Function.update_self]
    exact ⟨h1, h2, h3, h4, h5⟩
  · rw [toReady_allocated_tcb, hjob, hv]
    exact ⟨rfl, rfl⟩
  · simp only [toReady]
    split <;> omega

end Round

theorem created_zero (sys : ClosedSystem) :
    Created sys 0 (bootState sys.heap sys.simulator.setWeaklyHard) where
  tick := rfl
  notSuspended := rfl
  notRunning := rfl
  count := rfl
  current := rfl
  blank _ := rfl
  cursors _ := rfl
  counted _ := rfl
  empty _ _ _ := rfl
  perm := List.Perm.refl _
  inReady _ hi := absurd hi List.not_mem_nil
  inWait _ hi := absurd hi List.not_mem_nil
  static i hi := absurd hi (Nat.not_lt_zero i)
  fresh _ _ := rfl
  key _ hi := absurd hi List.not_mem_nil
  job i hi := absurd hi (Nat.not_lt_zero i)
  sorted := List.Pairwise.nil
  top h := absurd rfl h
  sim := rfl
  console := rfl

theorem createTasks_ok (sys : ClosedSystem) :
    ∃ st, (List.range sys.taskCnt).foldlM (createTask sys.alg)
        (bootState sys.heap sys.simulator.setWeaklyHard) = .ok st ∧
      Created sys sys.taskCnt st := by
  refine foldlM_range (I := Created sys) (fun k hk st h => ?_) (created_zero sys)
  obtain ⟨d, o, heq⟩ := createTask_eq h hk
  refine ⟨_, heq, ?_⟩
  rw [prvAddTaskToReadyList_created h hk]
  split
  · next hskip => exact h.waitRound hk hskip
  · next hskip => exact h.readyRound hk hskip

/-! ## The scheduler start -/

/-- A task without a period goes to the ready list of its priority as it
would in an unmodified kernel. -/
theorem prvAddTaskToReadyList_plain {alg : Algorithm}
    (h : (st.tcb x).xTaskPeriod = 0) :
    prvAddTaskToReadyList alg x st =
      vListInsert (.ready (st.tcb x).uxPriority) x
        (taskRecordReadyPriority (st.tcb x).uxPriority st) := by
  cases alg <;> simp [prvAddTaskToReadyList, prvAddTaskToReadyListEdf,
    prvAddTaskToReadyListBwp, prvAddTaskToReadyListRto, h]

/-- The new task alone in the ready list of priority `p`. -/
def linkPlain (x : TaskHandle) (p : Nat) (st : State) : State :=
  { st with
    uxCurrentNumberOfTasks := st.uxCurrentNumberOfTasks + 1
    uxTopReadyPriority :=
      if p > st.uxTopReadyPriority then p else st.uxTopReadyPriority
    lists := Function.update st.lists (.ready p) ⟨[x], none, 1⟩
    tcb := Function.update st.tcb x
      { st.tcb x with
        uxPriority := p, pxContainer := some (.ready p), inEventList := false } }

theorem vListInsert_nil {id : ListId} (hl : st.lists id = ⟨[], none, 0⟩) :
    vListInsert id x st = (st.setList id ⟨[x], none, 1⟩).modifyTcb x
      fun t => { t with pxContainer := some id } := by
  unfold vListInsert
  dsimp only
  rw [hl]
  split <;> rfl

theorem xTaskCreateStatic_eq {alg : Algorithm} {p : Nat} {c : TaskHandle}
    (hp : p < configMaxPriorities) (hper : (st.tcb x).xTaskPeriod = 0)
    (hl : st.lists (.ready p) = ⟨[], none, 0⟩) (hrun : st.xSchedulerRunning = false)
    (hcur : st.pxCurrentTCB = some c) (hc : c ≠ x) :
    xTaskCreateStatic alg x p st = .ok { linkPlain x p st with
      pxCurrentTCB := if (st.tcb c).uxPriority ≤ p then some x else some c } := by
  have hchoose : chooseCurrent x
      { st.modifyTcb x (fun t =>
          { t with uxPriority := p, pxContainer := none, inEventList := false })
        with uxCurrentNumberOfTasks := st.uxCurrentNumberOfTasks + 1 } =
      { st.modifyTcb x (fun t =>
          { t with uxPriority := p, pxContainer := none, inEventList := false })
        with
        uxCurrentNumberOfTasks := st.uxCurrentNumberOfTasks + 1
        pxCurrentTCB := if (st.tcb c).uxPriority ≤ p then some x else some c } := by
    by_cases hle : (st.tcb c).uxPriority ≤ p
    · simp [chooseCurrent, State.modifyTcb, hcur, hrun, hc, hle]
    · simp [chooseCurrent, State.modifyTcb, hcur, hrun, hc, hle]
  have hset : ∀ u, prvAddTaskToReadyList alg x
      { st.modifyTcb x (fun t =>
          { t with uxPriority := p, pxContainer := none, inEventList := false })
        with
        uxCurrentNumberOfTasks := st.uxCurrentNumberOfTasks + 1
        pxCurrentTCB := u } = { linkPlain x p st with pxCurrentTCB := u } := by
    intro u
    rw [prvAddTaskToReadyList_plain (by simp [hper])]
    simp only [State.modifyTcb_tcb, Function.update_self]
    rw [vListInsert_nil (by exact hl)]
    simp [linkPlain, State.setList, State.modifyTcb, taskRecordReadyPriority]
  simp only [xTaskCreateStatic, prvInitialiseNewTask_eq hp, bind, Except.bind,
    prvAddNewTaskToReadyList]
  have hadd := (congrArg (prvAddTaskToReadyList alg x) hchoose).trans (hset _)
  refine (congrArg (yieldIfOutranked x) hadd).trans ?_
  unfold yieldIfOutranked
  split
  · rfl
  · rw [if_neg]
    intro hc
    exact absurd hc.1 (by simp [linkPlain, hrun])

/-- The two lists and the blocks of the tasks are as creation left them. -/
structure Booted (sys : ClosedSystem) (st st' : State) : Prop where
  tick : st'.xTickCount = 0
  notSuspended : st'.uxSchedulerSuspended = 0
  nextUnblock : st'.xNextTaskUnblockTime = portMaxDelay
  ready : st'.items (.ready 1) = st.items (.ready 1)
  wait : st'.items .wait = st.items .wait
  tcb : ∀ i < sys.taskCnt, st'.tcb i = st.tcb i
  idle : (st'.tcb sys.taskCnt).xTaskPeriod = 0
  idleList : st'.items (.ready 0) = [sys.taskCnt]
  upper : ∀ p, 2 ≤ p → st'.items (.ready p) = []
  top : 1 ≤ st'.uxTopReadyPriority
  sim : st'.sim = st.sim
  console : st'.console = st.console

theorem Booted.job {st' : State} (h : Booted sys st st') (hi : i < sys.taskCnt) :
    st'.job i = st.job i := job_congr h.ready (h.tcb i hi) (by rw [h.sim])

theorem Booted.shape {st' : State} (hc : Created sys sys.taskCnt st)
    (h : Booted sys st st') : Shape sys 0 st' := by
  have hsim : st'.sim = sys.simulator.setWeaklyHard := h.sim.trans hc.sim
  have hlt : ∀ i ∈ st.items (.ready 1), i < sys.taskCnt := fun i => hc.ready_lt
  refine
    { tick := h.tick
      notSuspended := h.notSuspended
      nextUnblock := h.nextUnblock
      nodup := by
        rw [h.ready, h.wait]
        exact hc.perm.nodup_iff.mpr List.nodup_range
      mem := fun i => by
        rw [h.ready, h.wait]
        exact hc.mem
      inReady := fun i hi => ?_, inWait := fun i hi => ?_
      static := fun i hi => ?_, bounds := fun i hi => ?_
      key := fun i hi => ?_
      idle := h.idle
      idleList := h.idleList
      upper := h.upper
      top := fun _ => h.top
      simCnt := by rw [hsim]; exact simulator_taskCnt
      simHiper := by rw [hsim]; exact simulator_hiperperiod
      entry := fun i hi => ?_
      flag := by rw [hsim]; exact Nat.le_refl 1 }
  · rw [h.ready] at hi
    rw [h.tcb i (hlt i hi)]
    exact hc.inReady i hi
  · rw [h.wait] at hi
    rw [h.tcb i (hc.mem.mp (List.mem_append_right _ hi))]
    exact hc.inWait i hi
  · rw [h.tcb i hi]
    exact hc.static i hi
  · have hfit := Job.fits_initial sys.alg (sys.params i)
    have hstart := hfit.start_eq
    have hrem := Nat.le_trans hfit.remaining_le (sys.params i).duration_le
    rw [← hc.job i hi] at hstart hrem
    rw [h.tcb i hi]
    exact ⟨Nat.le_of_eq (hstart.trans (Nat.zero_mul _)), hrem⟩
  · rw [h.ready] at hi
    rw [h.tcb i (hlt i hi), h.job (hlt i hi)]
    exact hc.key i hi
  · rw [hsim]
    show Entry _ _ (sys.simulator.taskSet i)
    rw [simulator_entry hi]
    exact ⟨rfl, rfl, rfl, rfl⟩

/-- The state after the idle task was created. -/
def idleCreated (sys : ClosedSystem) (st : State) : State :=
  { linkPlain sys.taskCnt 0 st with pxCurrentTCB := some (sys.taskCnt - 1) }

/-- The state when the timer task runs for the first time. -/
def started (sys : ClosedSystem) (st : State) : State :=
  { linkPlain (sys.taskCnt + 1) 6 (idleCreated sys st) with
    pxCurrentTCB := some (sys.taskCnt + 1)
    xNextTaskUnblockTime := portMaxDelay
    xSchedulerRunning := true
    xTickCount := 0 }

theorem Created.list_empty (h : Created sys k st) {id : ListId}
    (hr : id ≠ .ready 1) (hw : id ≠ .wait) : st.lists id = ⟨[], none, 0⟩ := by
  have hitems : (st.lists id).items = [] := h.empty id hr hw
  have hindex := h.cursors id
  have hcount : (st.lists id).count = (st.lists id).items.length := h.counted id
  generalize st.lists id = l at hitems hindex hcount
  rcases l with ⟨items, index, count⟩
  simp only at hitems hindex hcount
  subst hitems
  rw [hindex, hcount]
  rfl

theorem vTaskStartScheduler_eq (h : Created sys sys.taskCnt st) :
    vTaskStartScheduler sys.alg sys.taskCnt (sys.taskCnt + 1) st =
      .ok (started sys st) := by
  have hn : 0 < sys.taskCnt := sys.tasks_pos
  have hlast : sys.taskCnt - 1 ≠ sys.taskCnt := by omega
  have hlast' : sys.taskCnt - 1 ≠ sys.taskCnt + 1 := by omega
  have hcur : st.pxCurrentTCB = some (sys.taskCnt - 1) := by
    rw [h.current, if_neg (by omega)]
  have hprio := (h.static (sys.taskCnt - 1) (by omega)).priority
  have hidle : (st.tcb sys.taskCnt).xTaskPeriod = 0 := by
    rw [h.fresh _ (Nat.le_refl _)]
    exact sys.idle_zero
  have htimer : (st.tcb (sys.taskCnt + 1)).xTaskPeriod = 0 := by
    rw [h.fresh _ (Nat.le_succ _)]
    exact sys.timer_zero
  have h1 : xTaskCreateStatic sys.alg sys.taskCnt 0 st =
      .ok (idleCreated sys st) := by
    rw [xTaskCreateStatic_eq (p := 0) (by decide) hidle
      (h.list_empty (by simp) (by simp)) h.notRunning hcur hlast, hprio,
      if_neg (by decide)]
    rfl
  have hprio' : ((idleCreated sys st).tcb (sys.taskCnt - 1)).uxPriority = 1 := by
    simp [idleCreated, linkPlain, hlast, hprio]
  have h2 : xTaskCreateStatic sys.alg (sys.taskCnt + 1) (configMaxPriorities - 1)
      (idleCreated sys st) =
      .ok { linkPlain (sys.taskCnt + 1) 6 (idleCreated sys st) with
        pxCurrentTCB := some (sys.taskCnt + 1) } := by
    have hper : ((idleCreated sys st).tcb (sys.taskCnt + 1)).xTaskPeriod = 0 := by
      simp [idleCreated, linkPlain, htimer]
    have hlist : (idleCreated sys st).lists (.ready (configMaxPriorities - 1)) =
        ⟨[], none, 0⟩ := by
      simp [idleCreated, linkPlain, configMaxPriorities, h.list_empty]
    have hrun : (idleCreated sys st).xSchedulerRunning = false := h.notRunning
    have hcur' : (idleCreated sys st).pxCurrentTCB = some (sys.taskCnt - 1) := rfl
    rw [xTaskCreateStatic_eq (by decide) hper hlist hrun hcur' hlast', hprio',
      if_pos (by decide)]
    rfl
  simp only [vTaskStartScheduler, h1, h2, bind, Except.bind]
  rfl

/-- The timer task has moved from ready list 6 to the suspended list. -/
theorem timerBlocked_eq (h : Created sys sys.taskCnt st) :
    vTaskPlaceOnEventListRestricted 0 true (started sys st) =
      { started sys st with
        lists := Function.update (Function.update (started sys st).lists
          (.ready 6) ⟨[], none, 0⟩) .suspended ⟨[sys.taskCnt + 1], none, 1⟩
        tcb := Function.update (started sys st).tcb (sys.taskCnt + 1)
          { (started sys st).tcb (sys.taskCnt + 1) with
            inEventList := true, pxContainer := some .suspended } } := by
  have hsus : st.lists .suspended = ⟨[], none, 0⟩ :=
    h.list_empty (by simp) (by simp)
  simp [vTaskPlaceOnEventListRestricted, prvAddCurrentTaskToDelayedList,
    started, uxListRemove, listInsertEnd, linkPlain, State.modifyTcb,
    State.setList, CursorList.remove, CursorList.insertEnd, idleCreated, hsus]

theorem booted (h : Created sys sys.taskCnt st) :
    Booted sys st
      (vTaskPlaceOnEventListRestricted 0 true (started sys st)) := by
  have hlists : ∀ id, id ≠ .ready 6 → id ≠ .ready 0 → id ≠ .suspended →
      (vTaskPlaceOnEventListRestricted 0 true (started sys st)).items id =
      st.items id := by
    intro id h6 h0 hs
    rw [timerBlocked_eq h]
    simp [State.items, started, idleCreated, linkPlain, h6, h0, hs]
  have htcb : ∀ i, i ≤ sys.taskCnt → i ≠ sys.taskCnt →
      (vTaskPlaceOnEventListRestricted 0 true (started sys st)).tcb i =
      st.tcb i := by
    intro i hi hne
    have hne' : i ≠ sys.taskCnt + 1 := by omega
    rw [timerBlocked_eq h]
    simp [started, idleCreated, linkPlain, hne, hne']
  have hidle : (st.tcb sys.taskCnt).xTaskPeriod = 0 := by
    rw [h.fresh _ (Nat.le_refl _)]
    exact sys.idle_zero
  refine
    { tick := by rw [timerBlocked_eq h]; rfl
      notSuspended := by rw [timerBlocked_eq h]; exact h.notSuspended
      nextUnblock := by rw [timerBlocked_eq h]; rfl
      ready := hlists _ (by simp) (by simp) (by simp)
      wait := hlists _ (by simp) (by simp) (by simp)
      tcb := fun i hi => htcb i (Nat.le_of_lt hi) (Nat.ne_of_lt hi)
      idle := ?_, idleList := ?_, upper := ?_, top := ?_
      sim := by rw [timerBlocked_eq h]; rfl
      console := by rw [timerBlocked_eq h]; rfl }
  · rw [timerBlocked_eq h]
    simp [started, idleCreated, linkPlain, hidle]
  · rw [timerBlocked_eq h]
    simp [State.items, started, idleCreated, linkPlain]
  · intro p hp
    by_cases h6 : p = 6
    · rw [timerBlocked_eq h]
      simp [State.items, h6]
    · rw [hlists _ (by simp [h6]) (by simp; omega) (by simp)]
      exact h.empty _ (by simp; omega) (by simp)
  · rw [timerBlocked_eq h]
    simp only [started, linkPlain]
    split <;> omega

/-- The run begins with the context switch to the first periodic task. -/
theorem run_zero_eq (sys : ClosedSystem) :
    ∃ st, Created sys sys.taskCnt st ∧ sys.run 0 = vTaskSwitchContext
      (vTaskPlaceOnEventListRestricted 0 true (started sys st)) := by
  obtain ⟨st, hst, hc⟩ := createTasks_ok sys
  have hcnt : sys.simulator.taskCnt = sys.taskCnt := simulator_taskCnt
  refine ⟨st, hc, ?_⟩
  simp only [ClosedSystem.run, mainDemoPeriodic, hcnt, hst, bind, Except.bind,
    vTaskStartScheduler_eq hc, timerDaemonBlocks]

/-- The state when the timer task is about to yield. -/
theorem boot_ok (sys : ClosedSystem) :
    ∃ st st', Created sys sys.taskCnt st ∧ Booted sys st st' ∧
      sys.run 0 = vTaskSwitchContext st' := by
  obtain ⟨st, hc, hrun⟩ := run_zero_eq sys
  exact ⟨st, _, hc, booted hc, hrun⟩

/-- The wait list's cursor has not moved yet. -/
theorem booted_cursor (h : Created sys sys.taskCnt st) :
    ((vTaskPlaceOnEventListRestricted 0 true (started sys st)).lists
      .wait).index = none := by
  rw [timerBlocked_eq h]
  simp [started, idleCreated, linkPlain, h.cursors]

end FreeRtosSim
