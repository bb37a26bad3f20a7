import FreeRtosSim.Proofs.TwinRun
import FreeRtosSim.Proofs.Start

/-!
# The start in two memories

Creation writes every field of a block that is read later, but for
`start_time`, and never reads what the block held before; that of the idle and
the timer task reads `xTaskPeriod`, which is 0 here. So from any two memories
the simulator gets to its first tick with the same lists, and the `start_time`
of a task is still what the memory held.
-/

namespace FreeRtosSim

variable {created : List TaskHandle} {known : TaskHandle → Prop} {alg : Algorithm}
  {st st₁ st' st₁' : State} {x y : TaskHandle} {id : ListId}
  {heap heap' : TaskHandle → TCB} {free : Nat → Prop} {sim : Simulator}

theorem Twin.linked' (h : Twin created known st st') : WellLinked created st' where
  wellFormed id := by
    rw [h.lists]
    exact h.linked.wellFormed id
  linked id hid x := by
    rw [h.items, h.linked.linked id hid x]
    exact and_congr_right fun hx => by rw [(h.blocks x hx).container]
  container x hx id hc := h.linked.container x hx id ((h.blocks x hx).container ▸ hc)
  pending x hx := by
    obtain ⟨hxc, he⟩ := h.linked.pending x (h.items _ ▸ hx)
    exact ⟨hxc, (h.blocks x hxc).event.trans he⟩
  priority x hx := by
    rw [(h.blocks x hx).priority]
    exact h.linked.priority x hx
  current c hc := h.linked.current c (h.current ▸ hc)
  delayed := by
    rw [h.same]
    exact h.linked.delayed

/-! ## A new task -/

/-- What a block holds when it becomes that of a task. -/
structure NewBlock (known : Prop) (free : Nat → Prop) (b b' : TCB) : Prop where
  alike : b.Alike known b'
  container : b.pxContainer = none
  periodic : b.xTaskPeriod ≠ 0 → b.uxPriority = 1
  plain : b.xTaskPeriod = 0 → free b.uxPriority
  priority : b.uxPriority < configMaxPriorities
  start : known → b'.startTime = b.startTime

theorem Twin.enroll (h : Twin created known st st') (hx : x ∉ created) {f f' : TCB → TCB}
    (hb : NewBlock (known x) free (f (st.tcb x)) (f' (st'.tcb x))) :
    Twin (x :: created) known (st.modifyTcb x f) (st'.modifyTcb x f') := by
  have hother : ∀ y ∈ created, (st.modifyTcb x f).tcb y = st.tcb y ∧
      (st'.modifyTcb x f').tcb y = st'.tcb y := fun y hy => by
    have hne : y ≠ x := fun he => hx (he ▸ hy)
    simp [hne]
  have hself : (st.modifyTcb x f).tcb x = f (st.tcb x) ∧
      (st'.modifyTcb x f').tcb x = f' (st'.tcb x) := by simp
  refine
    { same := ?_, blocks := fun y hy => ?_
      linked := (h.linked.writeFresh hx f).enroll hx ?_ ?_
      priority := fun y hy hp => ?_, plain := fun y hy hp => ?_ }
  · rw [h.same]
    rfl
  · rcases List.mem_cons.mp hy with rfl | hy
    · rw [hself.1, hself.2]
      exact hb.alike
    · rw [(hother y hy).1, (hother y hy).2]
      exact h.blocks y hy
  · rw [hself.1]
    exact hb.container
  · rw [hself.1]
    exact hb.priority
  · rcases List.mem_cons.mp hy with rfl | hy
    · rw [hself.1] at hp ⊢
      exact hb.periodic hp
    · rw [(hother y hy).1] at hp ⊢
      exact h.priority y hy hp
  · rcases List.mem_cons.mp hy with rfl | hy
    · rw [hself.1, hb.container]
      simp
    · rw [(hother y hy).1] at hp ⊢
      exact h.plain y hy hp

theorem Twin.chooseCurrent (h : Twin (x :: created) known st st')
    (hnone : (st.tcb x).pxContainer = none)
    (hnum : st.uxCurrentNumberOfTasks = created.length + 1) :
    Twin (x :: created) known (chooseCurrent x st) (chooseCurrent x st') := by
  obtain ⟨hl, htcb, -⟩ := chooseCurrent_linked h.linked hnone hnum
  refine h.rebase hl htcb ?_
  have hprio : ∀ c ∈ x :: created, (st'.tcb c).uxPriority = (st.tcb c).uxPriority :=
    fun c hc => (h.blocks c hc).priority
  have hx := hprio x (List.mem_cons_self ..)
  have hcur := h.linked.current
  obtain ⟨m, rfl⟩ : ∃ m, st' = { st with tcb := m } := ⟨_, h.same⟩
  rw [FreeRtosSim.chooseCurrent, FreeRtosSim.chooseCurrent]
  cases hc : st.pxCurrentTCB with
  | none =>
      dsimp only
      split <;> rfl
  | some c =>
      have hcp := hprio c (hcur c hc)
      dsimp only at hcp hx ⊢
      rw [hcp, hx]
      split
      · split
        · rfl
        · rw [hc]
      · rw [hc]

/-- The macro, for a task without a period whose ready list is empty. -/
theorem Twin.addPlain (h : Twin created known st st') (hx : x ∈ created)
    (hnone : (st.tcb x).pxContainer = none) (hp : (st.tcb x).xTaskPeriod = 0)
    (hone : (st.tcb x).uxPriority ≠ 1)
    (hempty : st.items (.ready (st.tcb x).uxPriority) = []) :
    Twin created known (FreeRtosSim.prvAddTaskToReadyList alg x st)
      (FreeRtosSim.prvAddTaskToReadyList alg x st') := by
  have ha := h.blocks x hx
  rw [prvAddTaskToReadyList_plain hp, prvAddTaskToReadyList_plain (ha.period.trans hp),
    ha.priority]
  refine (h.record (st.tcb x).uxPriority).vListInsert hx hnone
    (h.linked.priority x hx) (fun _ => ⟨by simpa using hone, by simp⟩)
    (fun hne => absurd hempty hne) fun p _ hne => absurd hp hne

theorem yieldIfOutranked_notRunning (h : st.xSchedulerRunning = false) :
    yieldIfOutranked x st = .ok st := by
  rw [yieldIfOutranked]
  split
  · rfl
  · rw [if_neg]
    intro hc
    rw [h] at hc
    exact absurd hc.1 (by simp)

/-- The step both sides take for a new task, once its block is written. -/
theorem Twin.addNew (h : Twin (x :: created) known st st') (alg : Algorithm)
    (hnone : (st.tcb x).pxContainer = none)
    (hnum : st.uxCurrentNumberOfTasks = created.length)
    (hrun : st.xSchedulerRunning = false)
    (hstart : known x → (st'.tcb x).startTime = (st.tcb x).startTime)
    (hplain : (st.tcb x).xTaskPeriod = 0 → (st.tcb x).uxPriority ≠ 1 ∧
      ∀ y ∈ created, (st.tcb y).pxContainer ≠ some (.ready (st.tcb x).uxPriority)) :
    ∃ s s', prvAddNewTaskToReadyList alg x st = .ok s ∧
      prvAddNewTaskToReadyList alg x st' = .ok s' ∧
      Twin (x :: created) known s s' ∧ s.xSchedulerRunning = false := by
  have hxc : x ∈ x :: created := List.mem_cons_self ..
  have hcount : Twin (x :: created) known
      { st with uxCurrentNumberOfTasks := st.uxCurrentNumberOfTasks + 1 }
      { st' with uxCurrentNumberOfTasks := st'.uxCurrentNumberOfTasks + 1 } := by
    refine h.globals ⟨rfl, fun _ => rfl, fun _ => rfl, fun _ => rfl, rfl, rfl, rfl⟩ rfl ?_
    rw [h.same]
  have hnum' : st.uxCurrentNumberOfTasks + 1 = created.length + 1 := congrArg (· + 1) hnum
  obtain ⟨hl, htcb, hg, -⟩ := chooseCurrent_linked hcount.linked hnone hnum'
  have hchoose := hcount.chooseCurrent hnone hnum'
  have htcb' : (FreeRtosSim.chooseCurrent x { st' with
      uxCurrentNumberOfTasks := st'.uxCurrentNumberOfTasks + 1 }).tcb = st'.tcb :=
    (chooseCurrent_linked hcount.linked' ((h.blocks x hxc).container.trans hnone)
      (by rw [h.same]; exact hnum')).2.1
  rw [prvAddNewTaskToReadyList, prvAddNewTaskToReadyList]
  generalize FreeRtosSim.chooseCurrent x
    { st with uxCurrentNumberOfTasks := st.uxCurrentNumberOfTasks + 1 } = t at *
  generalize FreeRtosSim.chooseCurrent x
    { st' with uxCurrentNumberOfTasks := st'.uxCurrentNumberOfTasks + 1 } = t' at *
  have hnone' : (t.tcb x).pxContainer = none := by rw [htcb]; exact hnone
  have hadd : Twin (x :: created) known (FreeRtosSim.prvAddTaskToReadyList alg x t)
      (FreeRtosSim.prvAddTaskToReadyList alg x t') := by
    by_cases hp : (t.tcb x).xTaskPeriod = 0
    · obtain ⟨hone, hempty⟩ := hplain (by rw [← congrFun htcb x]; exact hp)
      refine hchoose.addPlain hxc hnone' hp (by rw [htcb]; exact hone) ?_
      refine List.eq_nil_iff_forall_not_mem.mpr fun y hy => ?_
      obtain ⟨hyc, hc⟩ := (hl.linked _ (by simp) y).mp hy
      rcases List.mem_cons.mp hyc with rfl | hyc
      · rw [hnone'] at hc
        exact absurd hc (by simp)
      · rw [htcb] at hc
        exact hempty y hyc hc
    · refine hchoose.prvAddTaskToReadyList hxc hnone' hp fun hk => ?_
      rw [htcb, htcb']
      exact hstart hk
  have hjobs := (prvAddTaskToReadyList_readied alg hl.wellFormed hnone').jobs
  have hstop : (FreeRtosSim.prvAddTaskToReadyList alg x t).xSchedulerRunning = false :=
    hjobs.running.trans (hg.running.trans hrun)
  have hstop' : (FreeRtosSim.prvAddTaskToReadyList alg x t').xSchedulerRunning = false := by
    rw [hadd.same]
    exact hstop
  exact ⟨_, _, yieldIfOutranked_notRunning hstop, yieldIfOutranked_notRunning hstop', hadd,
    hstop⟩

/-- During creation: every existing task has the `start_time` its memory held,
the other blocks are untouched, and the ready lists in `free` are empty. -/
structure Making (created : List TaskHandle) (known : TaskHandle → Prop)
    (heap heap' : TaskHandle → TCB) (sim : Simulator) (free : Nat → Prop)
    (st st' : State) : Prop where
  twin : Twin created known st st'
  undelayed : Undelayed created st
  number : st.uxCurrentNumberOfTasks = created.length
  notRunning : st.xSchedulerRunning = false
  sim : st.sim = sim
  fresh : ∀ x, x ∉ created → st.tcb x = heap x ∧ st'.tcb x = heap' x
  start : ∀ x ∈ created, (st.tcb x).startTime = (heap x).startTime ∧
    (st'.tcb x).startTime = (heap' x).startTime
  free : ∀ x ∈ created, ∀ p, free p → (st.tcb x).pxContainer ≠ some (.ready p)

theorem Making.newTask (h : Making created known heap heap' sim free st st')
    (alg : Algorithm) (hx : x ∉ created) (hone : ¬ free 1) {f f' : TCB → TCB}
    (hb : NewBlock (known x) free (f (heap x)) (f' (heap' x)))
    (hstart : (f (heap x)).startTime = (heap x).startTime ∧
      (f' (heap' x)).startTime = (heap' x).startTime) :
    ∃ s s', prvAddNewTaskToReadyList alg x (st.modifyTcb x f) = .ok s ∧
      prvAddNewTaskToReadyList alg x (st'.modifyTcb x f') = .ok s' ∧
      Making (x :: created) known heap heap' sim
        (fun p => free p ∧ p ≠ (f (heap x)).uxPriority) s s' := by
  obtain ⟨hfx, hfx'⟩ := h.fresh x hx
  have hself : (st.modifyTcb x f).tcb x = f (heap x) ∧
      (st'.modifyTcb x f').tcb x = f' (heap' x) := by simp [hfx, hfx']
  have hother : ∀ y, y ≠ x → (st.modifyTcb x f).tcb y = st.tcb y ∧
      (st'.modifyTcb x f').tcb y = st'.tcb y := fun y hy => by simp [hy]
  have htwin := h.twin.enroll hx (hfx ▸ hfx' ▸ hb)
  have hnone : ((st.modifyTcb x f).tcb x).pxContainer = none := by
    rw [hself.1]
    exact hb.container
  have hnone' : ((st'.modifyTcb x f').tcb x).pxContainer = none := by
    rw [hself.2, hb.alike.container]
    exact hb.container
  obtain ⟨s, s', hok, hok', hnew, hstop⟩ := htwin.addNew alg hnone h.number
    h.notRunning (by rw [hself.1, hself.2]; exact hb.start) fun hp => by
      rw [hself.1] at hp ⊢
      have hfree := hb.plain hp
      refine ⟨fun he => hone (he ▸ hfree), fun y hy => ?_⟩
      rw [(hother y fun he => hx (he ▸ hy)).1]
      exact h.free y hy _ hfree
  have hnum' : st'.uxCurrentNumberOfTasks = created.length := by
    rw [h.twin.same]
    exact h.number
  have e := prvAddNewTaskToReadyList_enrolled (h.twin.linked.writeFresh hx f) h.number hx
    hnone (by rw [hself.1]; exact hb.priority) hok
  have e' := prvAddNewTaskToReadyList_enrolled (h.twin.linked'.writeFresh hx f') hnum' hx
    hnone' (by rw [hself.2, hb.alike.priority]; exact hb.priority) hok'
  -- the new task is in the ready list of its priority, in the wait list or nowhere
  have hcont : (s.tcb x).pxContainer = none ∨ (s.tcb x).pxContainer = some .wait ∨
      (s.tcb x).pxContainer = some (.ready (f (heap x)).uxPriority) := by
    rw [e.container, hself.1]
    cases htarget : readyTarget alg (st.modifyTcb x f).xTickCount (f (heap x)) with
    | none => exact Or.inl rfl
    | some id =>
        rcases readyTarget_cases htarget with rfl | rfl
        · exact Or.inr (Or.inr rfl)
        · exact Or.inr (Or.inl rfl)
  refine ⟨s, s', hok, hok',
    { twin := hnew
      undelayed := ⟨e.pending h.undelayed.nonePending, fun y hy => ?_,
        e.suspended.trans h.undelayed.suspended⟩
      number := ?_
      notRunning := hstop
      sim := e.sim.trans h.sim
      fresh := fun y hy => ?_, start := fun y hy => ?_, free := fun y hy p hp => ?_ }⟩
  · rcases List.mem_cons.mp hy with rfl | hyc
    · rcases hcont with hc | hc | hc <;> rw [hc] <;> simp
    · have hne : y ≠ x := fun he => hx (he ▸ hyc)
      rw [e.others y hne, (hother y hne).1]
      exact h.undelayed.nowhere y hyc
  · rw [e.number, List.length_cons]
    exact congrArg (· + 1) h.number
  · simp only [List.mem_cons, not_or] at hy
    obtain ⟨hne, hyc⟩ := hy
    rw [e.others y hne, e'.others y hne, (hother y hne).1, (hother y hne).2]
    exact h.fresh y hyc
  · have hs : ∀ {a b : TCB}, a.core = b.core → a.startTime = b.startTime :=
      fun {a b} hc => (congrArg TCB.startTime hc : a.core.startTime = b.core.startTime)
    rw [hs (e.core y), hs (e'.core y)]
    rcases List.mem_cons.mp hy with rfl | hyc
    · rw [hself.1, hself.2]
      exact hstart
    · have hne : y ≠ x := fun he => hx (he ▸ hyc)
      rw [(hother y hne).1, (hother y hne).2]
      exact h.start y hyc
  · rcases List.mem_cons.mp hy with rfl | hyc
    · rcases hcont with hc | hc | hc <;> rw [hc] <;> simp
      exact fun he => hp.2 he.symm
    · have hne : y ≠ x := fun he => hx (he ▸ hyc)
      rw [e.others y hne, (hother y hne).1]
      exact h.free y hyc p hp.1

theorem Making.mono {free' : Nat → Prop}
    (h : Making created known heap heap' sim free st st') (hf : ∀ p, free' p → free p) :
    Making created known heap heap' sim free' st st' :=
  { h with free := fun x hx p hp => h.free x hx p (hf p hp) }

/-! ## The creation loop -/

variable {set : TaskSet} {i : Nat}

/-- Task `i` of the set. -/
abbrev TaskSet.task (set : TaskSet) (i : Nat) : TaskParams := set.tasks.getD i default

theorem createTask_new (hsim : st.sim = set.simulator.setWeaklyHard) (hi : i < set.taskCnt) :
    createTask alg st i = prvAddNewTaskToReadyList alg i
      (st.modifyTcb i (creationWrite (set.task i) i)) := by
  have hentry := @simulator_entry (set.zeroed alg) i hi
  rw [show (set.zeroed alg).simulator = set.simulator from rfl] at hentry
  have hblock : ((st.modifyTcb i fun t =>
      { t with
        xTaskId := i % 2 ^ 8
        xTaskPeriod := (set.task i).period
        xTaskDuration := (set.task i).duration
        xRemainingTicks := (set.task i).duration
        weaklyHardConstraint := (set.task i).weaklyHardConstraint % 2 ^ 8
        previousDeadlineMet := 0 }).modifyTcb i fun t =>
      { t with uxPriority := 1, pxContainer := none, inEventList := false }) =
      st.modifyTcb i (creationWrite (set.task i) i) := by
    simp [State.modifyTcb, creationWrite]
  rw [← hblock]
  simp only [createTask, hsim, Simulator.setWeaklyHard, hentry, xTaskCreatePeriodic,
    mainTaskPriority, prvInitialiseNewTask_eq (show 1 < configMaxPriorities by decide),
    bind, Except.bind]
  rfl

theorem creationWrite_new (p : TaskParams) (i : Nat) (b b' : TCB) {k : Prop}
    (hk : k → b'.startTime = b.startTime) :
    NewBlock k free (creationWrite p i b) (creationWrite p i b') where
  alike :=
    { container := rfl
      event := rfl
      priority := rfl
      period := rfl
      job := fun _ => ⟨rfl, rfl, rfl, rfl, rfl⟩
      value := fun _ hr => absurd hr (by simp [creationWrite, TCB.IsReady])
      start := fun hk' _ _ => hk hk' }
  container := rfl
  periodic _ := rfl
  plain hp :=
    have hpos := Nat.le_trans p.duration_pos p.duration_le
    absurd hp (Nat.ne_of_gt hpos)
  priority := show 1 < configMaxPriorities by decide
  start := hk

/-- The tasks created in the first `k` rounds, newest first. -/
def createdTasks : Nat → List TaskHandle
  | 0 => []
  | k + 1 => k :: createdTasks k

theorem mem_createdTasks {k : Nat} : x ∈ createdTasks k ↔ x < k := by
  induction k with
  | zero => simp [createdTasks]
  | succ k ih =>
      rw [createdTasks, List.mem_cons, ih]
      exact (Nat.lt_succ_iff_lt_or_eq.trans or_comm).symm

theorem making_boot (heap heap' : TaskHandle → TCB) (sim : Simulator) :
    Making [] known heap heap' sim (· ≠ 1) (bootState heap sim) (bootState heap' sim) where
  twin :=
    { same := rfl
      blocks := fun _ hx => absurd hx List.not_mem_nil
      linked := (boot_settled heap sim).linked
      priority := fun _ hx => absurd hx List.not_mem_nil
      plain := fun _ hx => absurd hx List.not_mem_nil }
  undelayed := ⟨rfl, fun _ hx => absurd hx List.not_mem_nil, rfl⟩
  number := rfl
  notRunning := rfl
  sim := rfl
  fresh _ _ := ⟨rfl, rfl⟩
  start _ hx := absurd hx List.not_mem_nil
  free _ hx := absurd hx List.not_mem_nil

/-- One round of the loop on both sides. -/
theorem Making.createTask
    (h : Making (createdTasks i) known heap heap' set.simulator.setWeaklyHard (· ≠ 1) st st')
    (alg : Algorithm) (hi : i < set.taskCnt)
    (hk : known i → (heap' i).startTime = (heap i).startTime) :
    ∃ s s', createTask alg st i = .ok s ∧ createTask alg st' i = .ok s' ∧
      Making (createdTasks (i + 1)) known heap heap' set.simulator.setWeaklyHard (· ≠ 1)
        s s' := by
  rw [createTask_new h.sim hi, createTask_new (h.twin.sim.trans h.sim) hi]
  obtain ⟨s, s', hok, hok', hnew⟩ := h.newTask alg (x := i)
    (fun hm => Nat.lt_irrefl i (mem_createdTasks.mp hm)) (by simp)
    (creationWrite_new (set.task i) i (heap i) (heap' i) hk) ⟨rfl, rfl⟩
  exact ⟨s, s', hok, hok', hnew.mono fun p hp => ⟨hp, hp⟩⟩

theorem createTasks_making (set : TaskSet) (alg : Algorithm) (hk : ∀ i < set.taskCnt, known i →
      (heap' i).startTime = (heap i).startTime) :
    ∃ s s', (List.range set.taskCnt).foldlM (FreeRtosSim.createTask alg)
        (bootState heap set.simulator.setWeaklyHard) = .ok s ∧
      (List.range set.taskCnt).foldlM (FreeRtosSim.createTask alg)
        (bootState heap' set.simulator.setWeaklyHard) = .ok s' ∧
      Making (createdTasks set.taskCnt) known heap heap' set.simulator.setWeaklyHard (· ≠ 1)
        s s' := by
  obtain ⟨s, hs, s', hs', hm⟩ := foldlM_range (n := set.taskCnt)
    (I := fun k s => ∃ s', (List.range k).foldlM (FreeRtosSim.createTask alg)
        (bootState heap' set.simulator.setWeaklyHard) = .ok s' ∧
      Making (createdTasks k) known heap heap' set.simulator.setWeaklyHard (· ≠ 1) s s')
    (by
      rintro k hlt s ⟨s', hs', hm⟩
      obtain ⟨t, t', hok, hok', hnew⟩ := hm.createTask alg hlt (hk k hlt)
      refine ⟨t, hok, t', ?_, hnew⟩
      rw [List.range_succ, List.foldlM_append, hs']
      simp only [List.foldlM_cons, List.foldlM_nil, bind, Except.bind, hok']
      rfl)
    ⟨_, rfl, making_boot heap heap' _⟩
  exact ⟨s, s', hs, hs', hm⟩


/-! ## The scheduler start -/

/-- All tasks, newest first. -/
abbrev TaskSet.allTasks (set : TaskSet) : List TaskHandle :=
  (set.taskCnt + 1) :: set.taskCnt :: createdTasks set.taskCnt

/-- Both sides at the start of the run. -/
structure Launched (set : TaskSet) (known : TaskHandle → Prop)
    (heap heap' : TaskHandle → TCB) (st st' : State) : Prop where
  twin : Twin set.allTasks known st st'
  undelayed : Undelayed set.allTasks st
  tick : st.xTickCount = 0
  sim : st.sim = set.simulator.setWeaklyHard
  start : ∀ x ∈ set.allTasks, (st.tcb x).startTime = (heap x).startTime ∧
    (st'.tcb x).startTime = (heap' x).startTime

theorem xTaskCreateStatic_new {p : Nat} (hp : p < configMaxPriorities) :
    xTaskCreateStatic alg x p st = prvAddNewTaskToReadyList alg x
      (st.modifyTcb x fun t =>
        { t with uxPriority := p, pxContainer := none, inEventList := false }) := by
  simp only [xTaskCreateStatic, prvInitialiseNewTask_eq hp, bind, Except.bind]

/-- The idle and the timer task. -/
theorem Making.createStatic (h : Making created known heap heap' sim free st st')
    (alg : Algorithm) (hx : x ∉ created) (hone : ¬ free 1) {p : Nat} (hfree : free p)
    (hp : p < configMaxPriorities) (hz : (heap x).xTaskPeriod = 0)
    (hz' : (heap' x).xTaskPeriod = 0)
    (hk : known x → (heap' x).startTime = (heap x).startTime) :
    ∃ s s', xTaskCreateStatic alg x p st = .ok s ∧ xTaskCreateStatic alg x p st' = .ok s' ∧
      Making (x :: created) known heap heap' sim (fun q => free q ∧ q ≠ p) s s' := by
  rw [xTaskCreateStatic_new hp, xTaskCreateStatic_new hp]
  exact h.newTask alg hx hone
    { alike :=
        { container := rfl
          event := rfl
          priority := rfl
          period := hz'.trans hz.symm
          job := fun hne => absurd hz hne
          value := fun hne => absurd hz hne
          start := fun _ hne => absurd hz hne }
      container := rfl
      periodic := fun hne => absurd hz hne
      plain := fun _ => hfree
      priority := hp
      start := hk } ⟨rfl, rfl⟩

theorem vTaskStartScheduler_ok (hidle : xTaskCreateStatic alg x 0 st = .ok st₁)
    (htimer : xTaskCreateStatic alg y 6 st₁ = .ok st') :
    vTaskStartScheduler alg x y st = .ok { st' with
      xNextTaskUnblockTime := portMaxDelay, xSchedulerRunning := true, xTickCount := 0 } := by
  rw [vTaskStartScheduler, hidle]
  change (xTaskCreateStatic alg y 6 st₁ >>= _) = _
  rw [htimer]
  rfl

/-- The buffers of the idle and the timer task hold no period. -/
theorem startScheduler_launched (alg : Algorithm)
    (h : Making (createdTasks set.taskCnt) known heap heap' set.simulator.setWeaklyHard
      (· ≠ 1) st st')
    (hz : set.StaticZero heap) (hz' : set.StaticZero heap')
    (hk : ∀ x, known x → (heap' x).startTime = (heap x).startTime) :
    ∃ s s', vTaskStartScheduler alg set.taskCnt (set.taskCnt + 1) st = .ok s ∧
      vTaskStartScheduler alg set.taskCnt (set.taskCnt + 1) st' = .ok s' ∧
      Launched set known heap heap' s s' := by
  have hidle : set.taskCnt ∉ createdTasks set.taskCnt := fun hm =>
    Nat.lt_irrefl _ (mem_createdTasks.mp hm)
  have htimer : set.taskCnt + 1 ∉ set.taskCnt :: createdTasks set.taskCnt := fun hm => by
    rcases List.mem_cons.mp hm with he | hm
    · exact Nat.succ_ne_self _ he
    · exact Nat.not_succ_lt_self (mem_createdTasks.mp hm)
  obtain ⟨s, s', hs, hs', hm⟩ := h.createStatic alg hidle (by simp) (p := 0)
    (by simp) (by decide) hz.1 hz'.1 (hk _)
  obtain ⟨t, t', ht, ht', hn⟩ := hm.createStatic alg htimer (by simp) (p := 6)
    (by simp) (by decide) hz.2 hz'.2 (hk _)
  refine ⟨_, _, vTaskStartScheduler_ok hs ht, vTaskStartScheduler_ok hs' ht',
    { twin := hn.twin.globals
        ⟨rfl, fun _ => rfl, fun _ => rfl, fun _ => rfl, rfl, rfl, rfl⟩ rfl ?_
      undelayed := ⟨hn.undelayed.nonePending, hn.undelayed.nowhere, hn.undelayed.suspended⟩
      tick := rfl
      sim := hn.sim
      start := hn.start }⟩
  rw [hn.twin.same]

/-! ## The timer task blocks -/

theorem Twin.blockOnEvent (h : Twin created known st st') {c : TaskHandle} :
    Twin created known (st.modifyTcb c fun b => { b with inEventList := true })
      (st'.modifyTcb c fun b => { b with inEventList := true }) := by
  have htcb : ∀ (s : State) (y : TaskHandle),
      (s.modifyTcb c fun b => { b with inEventList := true }).tcb y =
      { s.tcb y with
        inEventList := if y = c then true else (s.tcb y).inEventList } := fun s y => by
    by_cases hy : y = c
    · subst hy
      simp
    · simp [hy]
  refine
    { same := ?_, blocks := fun y hy => ?_
      linked := (blockOnEvent_moved h.linked).linked
      priority := fun y hy hp => ?_, plain := fun y hy hp => ?_ }
  · rw [h.same]
    rfl
  · have ha := h.blocks y hy
    rw [htcb, htcb, ha.event]
    exact { ha with
      event := rfl
      job := fun hp =>
        have hj := ha.job hp
        ⟨hj.id, hj.duration, hj.remaining, hj.constraint, hj.met⟩ }
  · rw [htcb] at hp ⊢
    exact h.priority y hy hp
  · rw [htcb] at hp ⊢
    exact h.plain y hy hp

/-- What the timer task does to the state before it yields. -/
theorem placeOnEventList_eq {c : TaskHandle} (hc : st.pxCurrentTCB = some c) :
    vTaskPlaceOnEventListRestricted 0 true st =
      listInsertEnd .suspended c (uxListRemove c
        (st.modifyTcb c fun b => { b with inEventList := true })) := by
  have hc' : (st.modifyTcb c fun b => { b with inEventList := true }).pxCurrentTCB =
      some c := hc
  rw [vTaskPlaceOnEventListRestricted, hc]
  dsimp only
  rw [prvAddCurrentTaskToDelayedList, hc']
  dsimp only
  rw [if_pos (by simp)]

theorem Launched.place (h : Launched set known heap heap' st st') :
    Launched set known heap heap' (vTaskPlaceOnEventListRestricted 0 true st)
      (vTaskPlaceOnEventListRestricted 0 true st') := by
  cases hc : st.pxCurrentTCB with
  | none =>
      have hc' : st'.pxCurrentTCB = none := h.twin.current.trans hc
      simpa only [vTaskPlaceOnEventListRestricted, prvAddCurrentTaskToDelayedList, hc, hc']
        using h
  | some c =>
      have hmem := h.twin.linked.current c hc
      have hev := h.twin.blockOnEvent (c := c)
      have hrem := hev.uxListRemove hmem
      have hput : Twin set.allTasks known (listInsertEnd .suspended c _)
          (listInsertEnd .suspended c _) :=
        hrem.listInsertEnd hmem uxListRemove_container trivial (by simp) (by simp)
      have hmoved : Moved set.allTasks True st
          (vTaskPlaceOnEventListRestricted 0 true st) := by
        rw [vTaskPlaceOnEventListRestricted, hc]
        exact (blockOnEvent_moved h.twin.linked).andThen
          (delayedList_moved hev.linked portMaxDelay true)
      have hmoved' : SameJobs st' (vTaskPlaceOnEventListRestricted 0 true st') := by
        rw [vTaskPlaceOnEventListRestricted, h.twin.current, hc]
        exact ((blockOnEvent_moved h.twin.linked').andThen
          (delayedList_moved hev.linked' portMaxDelay true)).jobs
      have heq := placeOnEventList_eq hc
      refine
        { twin := ?_, undelayed := ⟨hmoved.pending h.undelayed.suspended
              h.undelayed.nonePending, fun y hy => ?_,
            hmoved.jobs.suspended.trans h.undelayed.suspended⟩
          tick := hmoved.jobs.tick.trans h.tick
          sim := hmoved.jobs.sim.trans h.sim
          start := fun x hx => ⟨(hmoved.jobs.start x).trans (h.start x hx).1,
            (hmoved'.start x).trans (h.start x hx).2⟩ }
      · rw [heq, placeOnEventList_eq (h.twin.current.trans hc)]
        exact hput
      · rw [heq]
        by_cases hyc : y = c
        · subst hyc
          simp [listInsertEnd]
        · have hother : (listInsertEnd .suspended c (uxListRemove c
              (st.modifyTcb c fun b => { b with inEventList := true }))).tcb y =
              st.tcb y := by
            simp [listInsertEnd, hyc, uxListRemove_tcb_other hyc]
          rw [hother]
          exact h.undelayed.nowhere y hy

/-- The end of the start, on both sides. -/
structure Underway (set : TaskSet) (known : TaskHandle → Prop)
    (heap heap' : TaskHandle → TCB) (st st' : State) : Prop extends
    Launched set known heap heap' st st' where
  running : ∀ c, st.pxCurrentTCB = some c → (st.tcb c).IsReady

theorem Underway.between (h : Underway set known heap heap' st st') :
    Between set.allTasks known st st' :=
  ⟨h.twin, h.undelayed, h.running⟩

theorem Launched.switchContext (h : Launched set known heap heap' st st') :
    Paired (Underway set known heap heap') (vTaskSwitchContext st)
      (vTaskSwitchContext st') := by
  have hpair := h.twin.switchContext h.undelayed
  generalize hs : vTaskSwitchContext st = r at hpair ⊢
  generalize hs' : vTaskSwitchContext st' = r' at hpair ⊢
  cases hpair with
  | stop e e' => exact .stop e e'
  | ok hb =>
      obtain ⟨c, u, b, rfl, -⟩ := vTaskSwitchContext_ok hs
      obtain ⟨c', u', b', rfl, -⟩ := vTaskSwitchContext_ok hs'
      exact .ok
        { twin := hb.twin
          undelayed := hb.undelayed
          tick := h.tick
          sim := h.sim
          start := h.start
          running := hb.running }

/-- Up to the first choice of a task the contents are not told apart. -/
theorem run_zero_underway (alg : Algorithm) (hz : set.StaticZero heap)
    (hz' : set.StaticZero heap')
    (hk : ∀ x, known x → (heap' x).startTime = (heap x).startTime) :
    Paired (Underway set known heap heap') (set.run alg heap 0) (set.run alg heap' 0) := by
  obtain ⟨s, s', hs, hs', hm⟩ := createTasks_making set alg fun i _ => hk i
  obtain ⟨t, t', ht, ht', hl⟩ := startScheduler_launched alg hm hz hz' hk
  have hcnt : set.simulator.taskCnt = set.taskCnt :=
    @simulator_taskCnt (set.zeroed alg)
  have hrun : ∀ {h : TaskHandle → TCB} {a b : State},
      (List.range set.taskCnt).foldlM (FreeRtosSim.createTask alg)
        (bootState h set.simulator.setWeaklyHard) = .ok a →
      vTaskStartScheduler alg set.taskCnt (set.taskCnt + 1) a = .ok b →
      set.run alg h 0 = timerDaemonBlocks b := fun ha hb => by
    simp only [TaskSet.run, mainDemoPeriodic, hcnt, ha, bind, Except.bind, hb]
  rw [hrun hs ht, hrun hs' ht']
  exact hl.place.switchContext

end FreeRtosSim
