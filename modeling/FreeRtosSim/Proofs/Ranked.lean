import FreeRtosSim.Proofs.Charged
import FreeRtosSim.Proofs.Slack
import FreeRtosSim.Proofs.TwinBoot

/-!
# A run with tasks at any priority

The part of the run that does not depend on how the tasks are doing: creation
and the start of the scheduler do not stop, the timer task goes to sleep for
good, and from then on a tick before the hyperperiod returns and does to every
block what the accounting and the two passes do to it. `Ongoing` is what is
true between two ticks.
-/

namespace FreeRtosSim

variable {created : List TaskHandle} {alg : Algorithm} {st st₁ : State}
  {x y : TaskHandle} {sys : PrioritySystem} {t : Nat}

/-! ## The hyperperiod is not written -/

theorem prvAddTaskToReadyList_sim : (prvAddTaskToReadyList alg x st).sim = st.sim := by
  cases alg with
  | edf =>
      rw [prvAddTaskToReadyList, prvAddTaskToReadyListEdf]
      split <;> rfl
  | bwp =>
      rw [prvAddTaskToReadyList, prvAddTaskToReadyListBwp]
      split
      · rfl
      · split
        · rfl
        · split <;> rfl
  | rto =>
      rw [prvAddTaskToReadyList, prvAddTaskToReadyListRto]
      split
      · rfl
      · split
        · rfl
        · split
          · rfl
          · split <;> rfl

theorem checkWeaklyHard_hiperperiod :
    (checkWeaklyHard x st).sim.hiperperiod = st.sim.hiperperiod := by
  rw [checkWeaklyHard]
  split
  · rfl
  · split <;> rfl

theorem walkList_keeps {β : Type*} {g : State → β} {id : ListId}
    {body : TaskHandle → State → State} (hset : ∀ s l, g (s.setList id l) = g s)
    (hbody : ∀ x s, g (body x s) = g s) : g (walkList id body st) = g st :=
  walk_keeps hset hbody st

theorem killTasks_hiperperiod : (killTasks st).sim.hiperperiod = st.sim.hiperperiod := by
  refine walkList_keeps (g := fun s => s.sim.hiperperiod) (fun _ _ => rfl) fun x s => ?_
  rw [killBody]
  split
  · split
    · rw [addTaskToWaitList_sim]
      exact checkWeaklyHard_hiperperiod
    · rfl
  · rfl

theorem wakeTasks_sim : (wakeTasks alg st).sim = st.sim := by
  refine walkList_keeps (g := fun s => s.sim) (fun _ _ => rfl) fun x s => ?_
  rw [wakeBody_eq_cases]
  split
  · split
    · rfl
    · rw [addTaskToReadyList, prvAddTaskToReadyList_sim, uxListRemove_sim]
      rfl
  · rfl

/-! ## The context switch -/

/-- While there is an idle task the search for a task finds one. -/
theorem selectTopPriority_some (h : st.items (.ready 0) ≠ []) (n : Nat) :
    ∃ p, selectTopPriority st n = .ok p := by
  induction n with
  | zero =>
      refine ⟨0, ?_⟩
      rw [selectTopPriority, if_neg (by simpa using h)]
  | succ n ih =>
      rw [selectTopPriority]
      split
      · exact ih
      · exact ⟨n + 1, rfl⟩

theorem vTaskSwitchContext_some (h : WellLinked created st)
    (hs : st.uxSchedulerSuspended = 0) (hidle : x ∈ st.items (.ready 0)) :
    ∃ c u b, vTaskSwitchContext st = .ok { st with
        pxCurrentTCB := c, uxTopReadyPriority := u, xYieldPending := b } ∧
      ∀ y, c = some y → y ∈ created ∧ (st.tcb y).IsReady := by
  obtain ⟨p, hp⟩ := @selectTopPriority_some { st with xYieldPending := false }
    (List.ne_nil_of_mem hidle) st.uxTopReadyPriority
  refine ⟨(st.items (.ready p)).head?, p, false, ?_, fun y hy => ?_⟩
  · rw [vTaskSwitchContext, if_neg (not_not.mpr hs), taskSelectHighestPriorityTask]
    simp only [hp, bind, Except.bind, pure, Except.pure]
  · obtain ⟨hyc, hc⟩ := (h.linked _ (by simp) y).mp (List.mem_of_head? hy)
    exact ⟨hyc, p, hc⟩

/-! ## A tick -/

/-- All tasks, newest first. -/
abbrev PrioritySystem.allTasks (sys : PrioritySystem) : List TaskHandle :=
  (sys.taskCnt + 1) :: sys.taskCnt :: createdTasks sys.taskCnt

/-- Between two ticks. The idle task is in its list, and the timer task
sleeps. -/
structure Ongoing (sys : PrioritySystem) (t : Nat) (st : State) : Prop where
  linked : WellLinked sys.allTasks st
  undelayed : Undelayed sys.allTasks st
  running : ∀ c, st.pxCurrentTCB = some c → (st.tcb c).IsReady
  tick : st.xTickCount = t
  hiperperiod : st.sim.hiperperiod = sys.sim.hiperperiod
  idle : (st.block sys.taskCnt).pxContainer = some (.ready 0)
  idle_period : (st.block sys.taskCnt).xTaskPeriod = 0
  timer : (st.block (sys.taskCnt + 1)).pxContainer = some .suspended

/-- What a tick makes of the block of a task. -/
def tickBlock (alg : Algorithm) (t : Nat) (runs : Prop) [Decidable runs] (b : TCB) : TCB :=
  rouseBlock alg t (reapBlock t (if runs then chargeBlock t b else b))

/-- The passes reach exactly the blocks that are in their lists. -/
theorem WellLinked.reap (h : WellLinked created st) (hx : x ∈ created) :
    (killTasks st).block x = reapBlock st.xTickCount (st.block x) := by
  obtain ⟨-, -, hb⟩ := killTasks_pass h
  rw [hb, reapBlock]
  refine if_congr ?_ rfl rfl
  rw [h.linked _ (by simp)]
  exact and_iff_right hx

theorem WellLinked.rouse (h : WellLinked created st) (hx : x ∈ created) :
    (wakeTasks alg st).block x = rouseBlock alg st.xTickCount (st.block x) := by
  obtain ⟨-, -, hb⟩ := wakeTasks_pass h alg
  rw [hb, rouseBlock]
  refine if_congr ?_ rfl rfl
  rw [h.linked _ (by simp)]
  exact and_iff_right hx

/-- A tick before the end of the run. -/
theorem Ongoing.next (h : Ongoing sys t st) (ht : (t : Int) + 1 < sys.sim.hiperperiod) :
    ∃ st', vPortSystemTickHandler sys.alg st = .ok st' ∧ Ongoing sys (t + 1) st' ∧
      ∀ x ∈ sys.allTasks, st'.block x =
        tickBlock sys.alg (t + 1) (st.pxCurrentTCB = some x) (st.block x) := by
  have hlt := sys.hiperperiod_lt
  have hpos := sys.hiperperiod_pos
  obtain ⟨hd, ho⟩ := h.undelayed.delayed_empty h.linked
  have hpro : tickPrologue sys.alg st = .ok (st.xYieldPending, quietTick st) :=
    tickPrologue_quiet hd ho
  have hspec := countTick_spec st
  have hl₀ : WellLinked sys.allTasks (quietTick st) := h.linked.countTick.congr
    ⟨rfl, fun _ => rfl, fun _ => rfl, fun _ => rfl, rfl, rfl, rfl⟩
  have ht₀ : (quietTick st).xTickCount = t + 1 := by
    rw [show (quietTick st).xTickCount = tickAdd st.xTickCount 1 from hspec.tick, h.tick,
      tickAdd_of_lt (by omega)]
  have hc₀ : (quietTick st).pxCurrentTCB = st.pxCurrentTCB := hspec.current
  have hsim₀ : (quietTick st).sim = st.sim := hspec.sim
  have hb₀ : ∀ x, (quietTick st).block x = st.block x := fun x =>
    block_congr (congrFun quietTick_tcb x)
  obtain ⟨hl₁, hg₁, hb₁⟩ := chargeCurrent_pass hl₀
  obtain ⟨hl₂, hg₂, -⟩ := killTasks_pass hl₁
  obtain ⟨hl₃, hg₃, -⟩ := wakeTasks_pass hl₂ sys.alg
  have hu₃ : Undelayed sys.allTasks
      (wakeTasks sys.alg (killTasks (chargeCurrent (quietTick st)))) :=
    ((h.undelayed.quietTick.chargeCurrent hl₀).killTasks hl₁).wakeTasks hl₂
  have ht₁ : (chargeCurrent (quietTick st)).xTickCount = t + 1 := hg₁.tick.trans ht₀
  have ht₂ := hg₂.tick.trans ht₁
  have hh₁ : (chargeCurrent (quietTick st)).sim.hiperperiod = sys.sim.hiperperiod := by
    rw [chargeCurrent_hiperperiod, hsim₀, h.hiperperiod]
  have hh₃ : (wakeTasks sys.alg (killTasks (chargeCurrent (quietTick st)))).sim.hiperperiod =
      sys.sim.hiperperiod := by
    rw [wakeTasks_sim, killTasks_hiperperiod, hh₁]
  have hblock : ∀ x ∈ sys.allTasks,
      (wakeTasks sys.alg (killTasks (chargeCurrent (quietTick st)))).block x =
        tickBlock sys.alg (t + 1) (st.pxCurrentTCB = some x) (st.block x) := by
    intro x hx
    rw [hl₂.rouse hx, hl₁.reap hx, ht₂, ht₁, hb₁, hb₀, ht₀, hc₀, tickBlock]
  have hat : atHiperPeriod (chargeCurrent (quietTick st)) = false := by
    rw [atHiperPeriod, ht₁, hh₁, decide_eq_false_iff_not]
    omega
  -- the idle task and the timer task
  have hidle : (wakeTasks sys.alg (killTasks (chargeCurrent (quietTick st)))).block
      sys.taskCnt = st.block sys.taskCnt := by
    have hsame : (if st.pxCurrentTCB = some sys.taskCnt then
        chargeBlock (t + 1) (st.block sys.taskCnt) else st.block sys.taskCnt) =
        st.block sys.taskCnt := by
      rw [chargeBlock_of_ordinary h.idle_period, ite_self]
    rw [hblock _ (by simp), tickBlock, hsame, reapBlock, if_neg (by rw [h.idle]; simp),
      rouseBlock, if_neg (by rw [h.idle]; simp)]
  have htimer : (wakeTasks sys.alg (killTasks (chargeCurrent (quietTick st)))).block
      (sys.taskCnt + 1) = st.block (sys.taskCnt + 1) := by
    have hrun : st.pxCurrentTCB ≠ some (sys.taskCnt + 1) := by
      intro hc
      obtain ⟨p, hp⟩ := h.running _ hc
      have htimer := h.timer
      rw [show (st.block (sys.taskCnt + 1)).pxContainer = some (.ready p) from hp] at htimer
      exact absurd htimer (by simp)
    rw [hblock _ (by simp), tickBlock, if_neg hrun, reapBlock,
      if_neg (by rw [h.timer]; simp), rouseBlock, if_neg (by rw [h.timer]; simp)]
  generalize hs₃ : wakeTasks sys.alg (killTasks (chargeCurrent (quietTick st))) = s at *
  have hready : sys.taskCnt ∈ s.items (.ready 0) :=
    (hl₃.linked _ (by simp) _).mpr ⟨by simp, (congrArg TCB.pxContainer hidle).trans h.idle⟩
  obtain ⟨c, u, b, hsw, hcur⟩ := vTaskSwitchContext_some hl₃ hu₃.suspended hready
  refine ⟨{ s with pxCurrentTCB := c, uxTopReadyPriority := u, xYieldPending := b },
    ?_, ?_, hblock⟩
  · have hs : st.uxSchedulerSuspended = 0 := h.undelayed.suspended
    simp only [vPortSystemTickHandler, xTaskIncrementTick, if_pos hs, hpro, bind,
      Except.bind, pure, Except.pure, hat, hs₃]
    exact hsw
  · exact
      { linked := ⟨hl₃.wellFormed, hl₃.linked, hl₃.container, hl₃.pending, hl₃.priority,
          fun y hy => (hcur y hy).1, hl₃.delayed⟩
        undelayed := ⟨hu₃.nonePending, hu₃.nowhere, hu₃.suspended⟩
        running := fun y hy => (hcur y hy).2
        tick := hg₃.tick.trans ht₂
        hiperperiod := hh₃
        idle := (congrArg TCB.pxContainer hidle).trans h.idle
        idle_period := (congrArg TCB.xTaskPeriod hidle).trans h.idle_period
        timer := (congrArg TCB.pxContainer htimer).trans h.timer }

/-! ## Creation -/

/-- Before the scheduler runs, `created` being the tasks there are. -/
structure Preparing (sys : PrioritySystem) (created : List TaskHandle) (st : State) :
    Prop where
  linked : WellLinked created st
  undelayed : Undelayed created st
  number : st.uxCurrentNumberOfTasks = created.length
  notRunning : st.xSchedulerRunning = false
  tick : st.xTickCount = 0
  sim : st.sim = sys.sim
  fresh : ∀ y, y ∉ created → st.tcb y = sys.heap y

/-- The newest of the tasks that nobody outranks is the first to run. -/
theorem chooseCurrent_current (hrun : st.xSchedulerRunning = false)
    (htop : ∀ c, st.pxCurrentTCB = some c → (st.tcb c).uxPriority ≤ (st.tcb x).uxPriority) :
    (chooseCurrent x st).pxCurrentTCB = some x := by
  rw [chooseCurrent]
  cases hc : st.pxCurrentTCB with
  | none =>
      dsimp only
      split <;> rfl
  | some c =>
      dsimp only
      rw [if_pos hrun, if_pos (htop c hc)]

/-- A new task is put into the list of its priority, and nothing else happens. -/
structure Joined (x : TaskHandle) (b : TCB) (st st' : State) : Prop where
  self : st'.block x =
    { b with xItemValue := 0, pxContainer := some (.ready b.uxPriority) }
  others : ∀ y, y ≠ x → st'.block y = st.block y
  first : (∀ c, st.pxCurrentTCB = some c → c ≠ x ∧ (st.tcb c).uxPriority ≤ b.uxPriority) →
    st'.pxCurrentTCB = some x

theorem Preparing.newTask (h : Preparing sys created st) (hx : x ∉ created)
    {f : TCB → TCB} (hnone : (f (sys.heap x)).pxContainer = none)
    (hp : (f (sys.heap x)).uxPriority < configMaxPriorities) :
    ∃ st', prvAddNewTaskToReadyList sys.alg x (st.modifyTcb x f) = .ok st' ∧
      Preparing sys (x :: created) st' ∧ Joined x (f (sys.heap x)) st st' := by
  have hself : (st.modifyTcb x f).tcb x = f (sys.heap x) := by simp [h.fresh x hx]
  have hother : ∀ y, y ≠ x → (st.modifyTcb x f).tcb y = st.tcb y := fun y hy => by simp [hy]
  have hl := h.linked.writeFresh hx f
  have hcount : WellLinked (x :: created) { st.modifyTcb x f with
      uxCurrentNumberOfTasks := st.uxCurrentNumberOfTasks + 1 } :=
    (hl.enroll hx (hself ▸ hnone) (hself ▸ hp)).congr
      ⟨rfl, fun _ => rfl, fun _ => rfl, fun _ => rfl, rfl, rfl, rfl⟩
  obtain ⟨hl₁, htcb, hg, hsim, hpend, -⟩ := chooseCurrent_linked hcount
    (by rw [hself]; exact hnone) (by rw [← h.number])
  have hfirst := @chooseCurrent_current { st.modifyTcb x f with
    uxCurrentNumberOfTasks := st.uxCurrentNumberOfTasks + 1 } x h.notRunning
  rw [prvAddNewTaskToReadyList]
  rw [show (st.modifyTcb x f).uxCurrentNumberOfTasks = st.uxCurrentNumberOfTasks from rfl]
  generalize chooseCurrent x { st.modifyTcb x f with
    uxCurrentNumberOfTasks := st.uxCurrentNumberOfTasks + 1 } = s at *
  have hnone₁ : (s.tcb x).pxContainer = none := by
    rw [htcb]
    exact (congrArg TCB.pxContainer hself).trans hnone
  have hr := prvAddTaskToReadyList_readied sys.alg hl₁.wellFormed hnone₁
  have hblock : ∀ y, s.block y = (st.modifyTcb x f).block y := fun y =>
    block_congr (congrFun htcb y)
  have htarget : readyTarget sys.alg s.xTickCount (s.tcb x) =
      some (.ready (f (sys.heap x)).uxPriority) := by
    rw [readyTarget, if_pos (Or.inl sys.not_rto), htcb]
    exact congrArg (fun b => some (ListId.ready (TCB.uxPriority b))) hself
  have hplace : ((FreeRtosSim.prvAddTaskToReadyList sys.alg x s).tcb x).pxContainer =
      some (.ready (f (sys.heap x)).uxPriority) := hr.container.trans htarget
  have hsame : ∀ y, y ≠ x →
      (FreeRtosSim.prvAddTaskToReadyList sys.alg x s).tcb y = st.tcb y := fun y hy => by
    rw [hr.others y hy, htcb]
    exact hother y hy
  refine ⟨_, yieldIfOutranked_notRunning
      (hr.jobs.running.trans (hg.running.trans h.notRunning)),
    { linked := hl₁.prvAddTaskToReadyList (List.mem_cons_self ..) hnone₁
      undelayed := ⟨?_, fun y hy => ?_, ?_⟩
      number := hr.jobs.number.trans (hg.number.trans (congrArg (· + 1) h.number))
      notRunning := hr.jobs.running.trans (hg.running.trans h.notRunning)
      tick := hr.jobs.tick.trans (hg.tick.trans h.tick)
      sim := hr.jobs.sim.trans (hsim.trans h.sim)
      fresh := fun y hy => ?_ },
    { self := ?_, others := fun y hy => block_congr (hsame y hy), first := fun htop => ?_ }⟩
  · rw [NonePending, State.items, hr.pendingReady]
    exact hpend h.undelayed.nonePending
  · rcases List.mem_cons.mp hy with rfl | hyc
    · rw [hplace]
      simp
    · rw [hsame y fun he => hx (he ▸ hyc)]
      exact h.undelayed.nowhere y hyc
  · exact hr.jobs.suspended.trans (hg.suspended.trans h.undelayed.suspended)
  · rw [List.mem_cons, not_or] at hy
    rw [hsame y hy.1]
    exact h.fresh y hy.2
  · rw [hr.block, htarget, hblock, State.block, hself]
  · refine hr.current.trans (hfirst fun c hc => ?_)
    obtain ⟨hne, hle⟩ := htop c hc
    show ((st.modifyTcb x f).tcb c).uxPriority ≤ ((st.modifyTcb x f).tcb x).uxPriority
    rw [hother c hne, hself]
    exact hle

/-! ## The creation loop -/

/-- What `xTaskCreatePeriodic` writes to the block. -/
def periodicBlock (p : PriorityTask) (b : TCB) : TCB :=
  { b with
    xTaskId := p.xTaskId % 2 ^ 8
    xTaskPeriod := p.period
    xTaskDuration := p.duration
    xRemainingTicks := p.duration
    weaklyHardConstraint := p.weaklyHardConstraint % 2 ^ 8
    previousDeadlineMet := 0
    uxPriority := p.uxPriority
    pxContainer := none
    inEventList := false }

/-- What creation without a period writes to it. -/
def plainBlock (uxPriority : Nat) (b : TCB) : TCB :=
  { b with uxPriority := uxPriority, pxContainer := none, inEventList := false }

theorem createTask_periodic (st : State) (i : Nat) :
    sys.createTask st i = prvAddNewTaskToReadyList sys.alg i
      (st.modifyTcb i (periodicBlock (sys.task i))) := by
  have hblock : ((st.modifyTcb i fun t =>
      { t with
        xTaskId := (sys.task i).xTaskId % 2 ^ 8
        xTaskPeriod := (sys.task i).period
        xTaskDuration := (sys.task i).duration
        xRemainingTicks := (sys.task i).duration
        weaklyHardConstraint := (sys.task i).weaklyHardConstraint % 2 ^ 8
        previousDeadlineMet := 0 }).modifyTcb i (plainBlock (sys.task i).uxPriority)) =
      st.modifyTcb i (periodicBlock (sys.task i)) := by
    simp [State.modifyTcb, periodicBlock, plainBlock]
  rw [← hblock]
  simp only [PrioritySystem.createTask, xTaskCreatePeriodic,
    prvInitialiseNewTask_eq (sys.task i).priority_lt, bind, Except.bind]
  rfl

/-- A task that has just been created is where the first tick expects it. -/
theorem standing_created {p : PriorityTask} {b : TCB} (hz : b.startTime = 0) :
    Standing p 0 { periodicBlock p b with
      xItemValue := 0, pxContainer := some (.ready p.uxPriority) } := by
  refine ⟨⟨rfl, rfl, rfl⟩, Or.inr ⟨?_, fun _ => rfl⟩⟩
  exact
    { ready := rfl
      aligned := (show b.startTime = 0 from hz) ▸ Nat.dvd_zero p.period
      begun := Nat.le_of_eq hz
      some_left := p.duration_pos
      bounded := Nat.le_refl _
      inTime := fun _ => by
        have hle := p.duration_le
        show 0 + p.duration ≤ b.startTime + p.period + 0
        omega }

/-- After `k` rounds of the loop. -/
structure Made (sys : PrioritySystem) (k : Nat) (st : State) : Prop extends
    Preparing sys (createdTasks k) st where
  tasks : ∀ i < k, Standing (sys.task i) 0 (st.block i)

theorem made_zero (sys : PrioritySystem) : Made sys 0 (bootState sys.heap sys.sim) where
  linked := (boot_settled sys.heap sys.sim).linked
  undelayed := ⟨rfl, fun _ hx => absurd hx List.not_mem_nil, rfl⟩
  number := rfl
  notRunning := rfl
  tick := rfl
  sim := rfl
  fresh _ _ := rfl
  tasks _ hi := absurd hi (Nat.not_lt_zero _)

theorem Made.round {k : Nat} (h : Made sys k st) (hk : k < sys.taskCnt) :
    ∃ st', sys.createTask st k = .ok st' ∧ Made sys (k + 1) st' := by
  obtain ⟨st', hok, hnew, hj⟩ := h.newTask (x := k) (f := periodicBlock (sys.task k))
    (fun hm => Nat.lt_irrefl k (mem_createdTasks.mp hm)) rfl (sys.task k).priority_lt
  refine ⟨st', (createTask_periodic st k).trans hok, { hnew with tasks := fun i hi => ?_ }⟩
  rcases Nat.lt_succ_iff_lt_or_eq.mp hi with hlt | rfl
  · rw [hj.others i (Nat.ne_of_lt hlt)]
    exact h.tasks i hlt
  · rw [hj.self]
    exact standing_created (sys.start_zero i hk)

theorem createTasks_made (sys : PrioritySystem) :
    ∃ st, (List.range sys.taskCnt).foldlM sys.createTask (bootState sys.heap sys.sim) =
      .ok st ∧ Made sys sys.taskCnt st :=
  foldlM_range (I := Made sys) (fun _ hk _ h => h.round hk) (made_zero sys)

/-! ## The start of the scheduler -/

/-- When the timer task is about to run. -/
structure Started (sys : PrioritySystem) (st : State) : Prop where
  linked : WellLinked sys.allTasks st
  undelayed : Undelayed sys.allTasks st
  tick : st.xTickCount = 0
  sim : st.sim = sys.sim
  current : st.pxCurrentTCB = some (sys.taskCnt + 1)
  idle : (st.block sys.taskCnt).pxContainer = some (.ready 0)
  idle_period : (st.block sys.taskCnt).xTaskPeriod = 0
  tasks : ∀ i < sys.taskCnt, Standing (sys.task i) 0 (st.block i)

theorem start_ok (sys : PrioritySystem) : ∃ st, sys.start = .ok st ∧ Started sys st := by
  obtain ⟨st, hst, hm⟩ := createTasks_made sys
  have hidle : sys.taskCnt ∉ createdTasks sys.taskCnt := fun hx =>
    Nat.lt_irrefl _ (mem_createdTasks.mp hx)
  have htimer : sys.taskCnt + 1 ∉ sys.taskCnt :: createdTasks sys.taskCnt := by
    intro hx
    rcases List.mem_cons.mp hx with he | hx
    · exact Nat.succ_ne_self _ he
    · exact Nat.not_succ_lt_self (mem_createdTasks.mp hx)
  obtain ⟨st₁, hok₁, hp₁, hj₁⟩ := hm.newTask (f := plainBlock 0) hidle rfl
    (show 0 < configMaxPriorities by decide)
  obtain ⟨st₂, hok₂, hp₂, hj₂⟩ := hp₁.newTask (f := plainBlock 6) htimer rfl
    (show 6 < configMaxPriorities by decide)
  have hother : sys.taskCnt ≠ sys.taskCnt + 1 := (Nat.succ_ne_self _).symm
  refine ⟨{ st₂ with
      xNextTaskUnblockTime := portMaxDelay, xSchedulerRunning := true, xTickCount := 0 }, ?_,
    { linked := hp₂.linked.congr
        ⟨rfl, fun _ => rfl, fun _ => rfl, fun _ => rfl, rfl, rfl, rfl⟩
      undelayed := ⟨hp₂.undelayed.nonePending, hp₂.undelayed.nowhere,
        hp₂.undelayed.suspended⟩
      tick := rfl
      sim := hp₂.sim
      current := hj₂.first fun c hc => ?_
      idle := ?_
      idle_period := ?_
      tasks := fun i hi => ?_ }⟩
  · rw [PrioritySystem.start, hst]
    exact vTaskStartScheduler_ok
      ((xTaskCreateStatic_new (show 0 < configMaxPriorities by decide)).trans hok₁)
      ((xTaskCreateStatic_new (show 6 < configMaxPriorities by decide)).trans hok₂)
  · have hmem := hp₁.linked.current c hc
    have hlt := hp₁.linked.priority c hmem
    exact ⟨fun he => htimer (he ▸ hmem), Nat.le_of_lt_succ hlt⟩
  · exact (congrArg TCB.pxContainer ((hj₂.others _ hother).trans hj₁.self)).trans rfl
  · exact (congrArg TCB.xTaskPeriod ((hj₂.others _ hother).trans hj₁.self)).trans
      sys.idle_zero
  · have hblock : st₂.block i = st.block i :=
      (hj₂.others i (Nat.ne_of_lt (Nat.lt_succ_of_lt hi))).trans
        (hj₁.others i (Nat.ne_of_lt hi))
    show Standing (sys.task i) 0 (st₂.block i)
    rw [hblock]
    exact hm.tasks i hi

/-- The timer task has gone to sleep, and a task has been chosen. -/
theorem run_zero_ongoing (sys : PrioritySystem) :
    ∃ st, sys.run 0 = .ok st ∧ Ongoing sys 0 st ∧
      ∀ i < sys.taskCnt, Standing (sys.task i) 0 (st.block i) := by
  obtain ⟨st, hst, h⟩ := start_ok sys
  have heq := placeOnEventList_eq h.current
  have hmoved : Moved sys.allTasks True st (vTaskPlaceOnEventListRestricted 0 true st) := by
    have hev := blockOnEvent_moved h.linked (c := sys.taskCnt + 1)
    rw [vTaskPlaceOnEventListRestricted, h.current]
    exact hev.andThen (delayedList_moved hev.linked portMaxDelay true)
  have hother : ∀ y, y ≠ sys.taskCnt + 1 →
      (vTaskPlaceOnEventListRestricted 0 true st).block y = st.block y := by
    intro y hy
    refine block_congr ?_
    rw [heq]
    simp [listInsertEnd, hy, uxListRemove_tcb_other hy]
  have hsleep : ((vTaskPlaceOnEventListRestricted 0 true st).block
      (sys.taskCnt + 1)).pxContainer = some .suspended := by
    rw [heq]
    simp [State.block, listInsertEnd]
  have hwhere : ∀ y ∈ sys.allTasks,
      ((vTaskPlaceOnEventListRestricted 0 true st).tcb y).pxContainer ≠ some .delayed1 ∧
      ((vTaskPlaceOnEventListRestricted 0 true st).tcb y).pxContainer ≠ some .delayed2 := by
    intro y hy
    by_cases hyt : y = sys.taskCnt + 1
    · subst hyt
      rw [show ((vTaskPlaceOnEventListRestricted 0 true st).tcb
        (sys.taskCnt + 1)).pxContainer = some .suspended from hsleep]
      simp
    · have hsame : ((vTaskPlaceOnEventListRestricted 0 true st).block y).pxContainer =
          (st.block y).pxContainer := congrArg TCB.pxContainer (hother y hyt)
      rw [show ((vTaskPlaceOnEventListRestricted 0 true st).tcb y).pxContainer =
        (st.tcb y).pxContainer from hsame]
      exact h.undelayed.nowhere y hy
  have hne : sys.taskCnt ≠ sys.taskCnt + 1 := (Nat.succ_ne_self _).symm
  have hidle := (congrArg TCB.pxContainer (hother _ hne)).trans h.idle
  have hperiod := (congrArg TCB.xTaskPeriod (hother _ hne)).trans h.idle_period
  have hsus := hmoved.jobs.suspended.trans h.undelayed.suspended
  have hpend := hmoved.pending h.undelayed.suspended h.undelayed.nonePending
  have hl := hmoved.linked
  have hready : sys.taskCnt ∈
      (vTaskPlaceOnEventListRestricted 0 true st).items (.ready 0) :=
    (hl.linked _ (by simp) _).mpr ⟨by simp, hidle⟩
  obtain ⟨c, u, b, hsw, hcur⟩ := vTaskSwitchContext_some hl hsus hready
  have hrun : sys.run 0 = vTaskSwitchContext (vTaskPlaceOnEventListRestricted 0 true st) := by
    rw [PrioritySystem.run, hst]
    rfl
  refine ⟨_, hrun.trans hsw,
    { linked := ⟨hl.wellFormed, hl.linked, hl.container, hl.pending, hl.priority,
        fun y hy => (hcur y hy).1, hl.delayed⟩
      undelayed := ⟨hpend, hwhere, hsus⟩
      running := fun y hy => (hcur y hy).2
      tick := hmoved.jobs.tick.trans h.tick
      hiperperiod := congrArg Simulator.hiperperiod (hmoved.jobs.sim.trans h.sim)
      idle := hidle
      idle_period := hperiod
      timer := hsleep }, fun i hi => ?_⟩
  have hblock := hother i (Nat.ne_of_lt (Nat.lt_succ_of_lt hi))
  show Standing (sys.task i) 0 ((vTaskPlaceOnEventListRestricted 0 true st).block i)
  rw [hblock]
  exact h.tasks i hi

end FreeRtosSim
