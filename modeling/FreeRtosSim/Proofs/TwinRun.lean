import FreeRtosSim.Proofs.Twin

/-!
# Runs in two memories

From creation to the last tick the two runs stay twins, so they make the same
decisions, provided the contents agree on the `start_time` of every task that
is created ready. Nothing else that creation leaves unwritten is read.
-/

namespace FreeRtosSim

variable {created : List TaskHandle} {known : TaskHandle → Prop} {alg : Algorithm}
  {st st₁ st' st₁' : State} {x y : TaskHandle} {id : ListId}

/-- Two computations that end in related states or both stop. -/
inductive Paired (R : State → State → Prop) : Exec State → Exec State → Prop
  | ok {st st' : State} : R st st' → Paired R (.ok st) (.ok st')
  | stop (e e' : Stop) : Paired R (.error e) (.error e')

theorem Paired.bind {R S : State → State → Prop} {r r' : Exec State}
    {f f' : State → Exec State} (h : Paired R r r')
    (hf : ∀ st st', R st st' → Paired S (f st) (f' st')) :
    Paired S (r >>= f) (r' >>= f') := by
  cases h with
  | ok hR => exact hf _ _ hR
  | stop e e' => exact .stop e e'

/-! ## A tick -/

/-- Between two ticks of the closed run nobody is delayed or pending. -/
structure Undelayed (created : List TaskHandle) (st : State) : Prop where
  nonePending : NonePending st
  nowhere : ∀ x ∈ created, (st.tcb x).pxContainer ≠ some .delayed1 ∧
    (st.tcb x).pxContainer ≠ some .delayed2
  suspended : st.uxSchedulerSuspended = 0

theorem Undelayed.delayed_empty (h : Undelayed created st) (hl : WellLinked created st) :
    st.items st.pxDelayedTaskList = [] ∧ st.items st.pxOverflowDelayedTaskList = [] := by
  have hnone : ∀ id : ListId, id = .delayed1 ∨ id = .delayed2 → st.items id = [] := by
    intro id hid
    refine List.eq_nil_iff_forall_not_mem.mpr fun x hx => ?_
    have hnp : id ≠ .pendingReady := by rcases hid with rfl | rfl <;> simp
    obtain ⟨hxc, hc⟩ := (hl.linked id hnp x).mp hx
    rcases hid with rfl | rfl
    · exact (h.nowhere x hxc).1 hc
    · exact (h.nowhere x hxc).2 hc
  rcases hl.delayed with ⟨hd, ho⟩ | ⟨hd, ho⟩ <;> rw [hd, ho]
  · exact ⟨hnone _ (Or.inl rfl), hnone _ (Or.inr rfl)⟩
  · exact ⟨hnone _ (Or.inr rfl), hnone _ (Or.inl rfl)⟩

/-- The prologue when nobody is delayed. -/
def quietTick (st : State) : State :=
  let s := countTick st
  { s with xNextTaskUnblockTime :=
      if s.xTickCount ≥ s.xNextTaskUnblockTime then portMaxDelay
      else s.xNextTaskUnblockTime }

theorem tickPrologue_quiet (hd : st.items st.pxDelayedTaskList = [])
    (ho : st.items st.pxOverflowDelayedTaskList = []) :
    tickPrologue alg st = .ok (st.xYieldPending, quietTick st) := by
  have hunblock : ∀ s : State, s.items s.pxDelayedTaskList = [] →
      unblockDue alg s = (s.xYieldPending, { s with xNextTaskUnblockTime :=
        if s.xTickCount ≥ s.xNextTaskUnblockTime then portMaxDelay
        else s.xNextTaskUnblockTime }) := by
    intro s hs
    rw [unblockDue]
    split
    · simp [hs, unblockLoop]
    · simp
  have hd' : (st.lists st.pxDelayedTaskList).items = [] := hd
  by_cases hw : tickAdd st.xTickCount 1 = 0
  · have hempty : (countTick st).items (countTick st).pxDelayedTaskList = [] := by
      rw [countTick_of_wrap hw]
      exact ho
    have hcases : tickPrologue alg st = .ok (unblockDue alg (countTick st)) := by
      refine (tickPrologue_cases alg st).resolve_left fun herr => ?_
      simp [tickPrologue, hw, taskSwitchDelayedLists, configAssert, State.items, hd',
        bind, Except.bind, pure, Except.pure] at herr
    rw [hcases, hunblock _ hempty]
    exact congrArg (fun b => Except.ok (b, quietTick st)) countTick_yieldPending
  · have hempty : (countTick st).items (countTick st).pxDelayedTaskList = [] := by
      rw [countTick_of_ne hw]
      exact hd
    have hcases : tickPrologue alg st = .ok (unblockDue alg (countTick st)) := by
      refine (tickPrologue_cases alg st).resolve_left fun herr => ?_
      simp [tickPrologue, hw, bind, Except.bind, pure, Except.pure] at herr
    rw [hcases, hunblock _ hempty]
    exact congrArg (fun b => Except.ok (b, quietTick st)) countTick_yieldPending

theorem quietTick_tcb : (quietTick st).tcb = st.tcb := (countTick_spec st).tcb

theorem Twin.quietTick (h : Twin created known st st')
    (ho : st.items st.pxOverflowDelayedTaskList = []) :
    Twin created known (quietTick st) (quietTick st') := by
  refine h.rebase (h.linked.countTick.congr
    ⟨rfl, fun _ => rfl, fun _ => rfl, fun _ => rfl, rfl, rfl, rfl⟩) quietTick_tcb ?_
  obtain ⟨m, rfl⟩ : ∃ m, st' = { st with tcb := m } := ⟨_, h.same⟩
  rw [FreeRtosSim.quietTick, FreeRtosSim.quietTick]
  by_cases hw : tickAdd st.xTickCount 1 = 0
  · rw [countTick_of_wrap hw, @countTick_of_wrap { st with tcb := m } hw]
    simp only [prvResetNextTaskUnblockTime]
    rw [State.items] at ho
    simp only [State.items, ho]
  · rw [countTick_of_ne hw, @countTick_of_ne { st with tcb := m } hw]

/-! ## The context switch -/

theorem selectTopPriority_congr (h : st'.lists = st.lists) (p : Nat) :
    selectTopPriority st' p = selectTopPriority st p := by
  induction p with
  | zero => rw [selectTopPriority, selectTopPriority, State.items, h]
  | succ p ih => rw [selectTopPriority, selectTopPriority, State.items, h, ih]

/-- What the run looks like between two ticks, on both sides. -/
structure Between (created : List TaskHandle) (known : TaskHandle → Prop)
    (st st' : State) : Prop where
  twin : Twin created known st st'
  undelayed : Undelayed created st
  running : ∀ c, st.pxCurrentTCB = some c → (st.tcb c).IsReady

theorem Twin.switchContext (h : Twin created known st st')
    (hu : Undelayed created st) :
    Paired (Between created known) (vTaskSwitchContext st) (vTaskSwitchContext st') := by
  have hs : ¬ st.uxSchedulerSuspended ≠ 0 := not_not.mpr hu.suspended
  obtain ⟨m, rfl⟩ : ∃ m, st' = { st with tcb := m } := ⟨_, h.same⟩
  rw [vTaskSwitchContext, vTaskSwitchContext, if_neg hs, if_neg hs,
    taskSelectHighestPriorityTask, taskSelectHighestPriorityTask]
  have hselect : selectTopPriority { st with tcb := m, xYieldPending := false }
      st.uxTopReadyPriority =
        selectTopPriority { st with xYieldPending := false } st.uxTopReadyPriority := by
    apply selectTopPriority_congr
    rfl
  rw [hselect]
  cases selectTopPriority { st with xYieldPending := false } st.uxTopReadyPriority with
  | error e => exact .stop e e
  | ok p =>
      have hhead : ∀ c ∈ (st.items (.ready p)).head?, c ∈ created ∧
          (st.tcb c).pxContainer = some (.ready p) := fun c hc =>
        (h.linked.linked (.ready p) (by simp) c).mp (List.mem_of_head? hc)
      have hl := h.linked
      refine .ok
        { twin := h.rebase ⟨hl.wellFormed, hl.linked, hl.container, hl.pending,
            hl.priority, fun c hc => (hhead c hc).1, hl.delayed⟩ rfl rfl
          undelayed := ⟨hu.nonePending, hu.nowhere, hu.suspended⟩
          running := fun c hc => ⟨p, (hhead c hc).2⟩ }

/-! ## A tick -/

theorem Undelayed.of_block (h : Undelayed created st) (hg : SameTick st st₁)
    (hc : ∀ x, (st₁.block x).pxContainer = (st.block x).pxContainer ∨
      (st₁.block x).pxContainer = some .wait ∨
      ∃ p, (st₁.block x).pxContainer = some (.ready p)) :
    Undelayed created st₁ where
  nonePending := by
    rw [NonePending, State.items, hg.pendingReady]
    exact h.nonePending
  nowhere x hx := by
    rcases hc x with he | he | ⟨p, he⟩
    · rw [show (st₁.tcb x).pxContainer = (st.tcb x).pxContainer from he]
      exact h.nowhere x hx
    · rw [show (st₁.tcb x).pxContainer = some .wait from he]
      simp
    · rw [show (st₁.tcb x).pxContainer = some (.ready p) from he]
      simp
  suspended := hg.suspended.trans h.suspended

theorem Undelayed.chargeCurrent (h : Undelayed created st) (hl : WellLinked created st) :
    Undelayed created (chargeCurrent st) := by
  obtain ⟨-, hg, hb⟩ := chargeCurrent_pass hl
  refine h.of_block hg fun x => ?_
  rw [hb]
  split
  · rw [chargeBlock_list]
    split
    · exact Or.inr (Or.inl rfl)
    · exact Or.inl rfl
  · exact Or.inl rfl

theorem Undelayed.killTasks (h : Undelayed created st) (hl : WellLinked created st) :
    Undelayed created (killTasks st) := by
  obtain ⟨-, hg, hb⟩ := killTasks_pass hl
  refine h.of_block hg fun x => ?_
  rw [hb]
  split
  · rw [killBlock_list]
    split
    · exact Or.inr (Or.inl rfl)
    · exact Or.inl rfl
  · exact Or.inl rfl

theorem Undelayed.wakeTasks (h : Undelayed created st) (hl : WellLinked created st) :
    Undelayed created (wakeTasks alg st) := by
  obtain ⟨-, hg, hb⟩ := wakeTasks_pass hl alg
  refine h.of_block hg fun x => ?_
  rw [hb]
  split
  · rw [wakeBlock_list]
    split
    · exact Or.inr (Or.inr ⟨_, rfl⟩)
    · exact Or.inl rfl
  · exact Or.inl rfl

theorem Undelayed.quietTick (h : Undelayed created st) : Undelayed created (quietTick st) where
  nonePending := by
    rw [NonePending, State.items]
    exact (congrArg (fun l : ListId → CursorList TaskHandle => (l .pendingReady).items)
      (countTick_spec st).lists).trans h.nonePending
  nowhere x hx := by
    rw [quietTick_tcb]
    exact h.nowhere x hx
  suspended := (countTick_spec st).suspended.trans h.suspended

/-- The `start_time` of the task that runs is known. -/
def KnowsRunning (known : TaskHandle → Prop) (st : State) : Prop :=
  ∀ c, st.pxCurrentTCB = some c → (st.tcb c).xTaskPeriod ≠ 0 → known c

section Tick

variable (h : Between created known st st')

include h

theorem Between.prologue (alg : Algorithm) :
    tickPrologue alg st = .ok (st.xYieldPending, quietTick st) ∧
    tickPrologue alg st' = .ok (st'.xYieldPending, quietTick st') ∧
    Twin created known (quietTick st) (quietTick st') := by
  obtain ⟨hd, ho⟩ := h.undelayed.delayed_empty h.twin.linked
  have hd' : st'.items st'.pxDelayedTaskList = [] := by rw [h.twin.same]; exact hd
  have ho' : st'.items st'.pxOverflowDelayedTaskList = [] := by
    rw [h.twin.same]
    exact ho
  exact ⟨tickPrologue_quiet hd ho, tickPrologue_quiet hd' ho', h.twin.quietTick ho⟩

theorem Between.runsReady (hk : KnowsRunning known st) :
    RunsReady known (quietTick st) := by
  intro c hc hp
  have hcur : st.pxCurrentTCB = some c := (countTick_spec st).current.symm.trans hc
  rw [quietTick_tcb] at hp ⊢
  exact ⟨h.running c hcur, hk c hcur hp⟩

/-- The accounting and the test for the end of the run see no difference as
long as the `start_time` of the running task is known. -/
theorem Between.charged (alg : Algorithm) (hk : KnowsRunning known st) :
    Twin created known (chargeCurrent (quietTick st)) (chargeCurrent (quietTick st')) ∧
    tickReports alg st' = tickReports alg st ∧
    atHiperPeriod (chargeCurrent (quietTick st')) =
      atHiperPeriod (chargeCurrent (quietTick st)) := by
  obtain ⟨hp, hp', hq⟩ := h.prologue alg
  have hrun := h.runsReady hk
  have hc := hq.chargeCurrent hrun
  refine ⟨hc, ?_, ?_⟩
  · rw [tickReports, tickReports, hp, hp']
    exact hq.reportLog hrun
  · rw [atHiperPeriod, atHiperPeriod, hc.tick, hc.sim]

/-- The run ends in this tick, on both sides. -/
theorem Between.last (hk : KnowsRunning known st)
    (hat : atHiperPeriod (chargeCurrent (quietTick st)) = true) :
    decisions alg (.ok st') = decisions alg (.ok st) ∧
    ∃ e e', vPortSystemTickHandler alg st = .error e ∧
      vPortSystemTickHandler alg st' = .error e' := by
  obtain ⟨hp, hp', -⟩ := h.prologue alg
  obtain ⟨-, hreports, hexit⟩ := h.charged alg hk
  have hs : st.uxSchedulerSuspended = 0 := h.undelayed.suspended
  have hs' : st'.uxSchedulerSuspended = 0 := by rw [h.twin.same]; exact hs
  rw [hat] at hexit
  constructor
  · simp only [decisions, h.twin.current, hreports, tickKills, tickWakeUps, hp, hp', hat,
      hexit, if_true]
  · simp only [vPortSystemTickHandler, xTaskIncrementTick, if_pos hs, if_pos hs', hp, hp',
      bind, Except.bind, hat, hexit, if_true, exitFunction]
    exact ⟨_, _, rfl, rfl⟩

end Tick

/-- A tick on both sides, once every readable `start_time` is known. -/
theorem Between.tick (h : Between created allKnown st st') :
    Paired (Between created allKnown) (vPortSystemTickHandler alg st)
      (vPortSystemTickHandler alg st') := by
  obtain ⟨hp, hp', hq⟩ := h.prologue alg
  obtain ⟨hc, -, hexit⟩ := h.charged alg fun _ _ _ => trivial
  have hs : st.uxSchedulerSuspended = 0 := h.undelayed.suspended
  have hs' : st'.uxSchedulerSuspended = 0 := by rw [h.twin.same]; exact hs
  have hk := hc.killTasks
  have hw : Twin created allKnown (wakeTasks alg _) (wakeTasks alg _) := hk.wakeTasks
  have hwu : Undelayed created (wakeTasks alg _) :=
    ((h.undelayed.quietTick.chargeCurrent hq.linked).killTasks hc.linked).wakeTasks
      hk.linked
  simp only [vPortSystemTickHandler, xTaskIncrementTick, if_pos hs, if_pos hs', hp, hp',
    bind, Except.bind, pure, Except.pure, hexit]
  by_cases hat : atHiperPeriod (chargeCurrent (quietTick st)) = true
  · simp only [hat, if_true, exitFunction]
    exact .stop _ _
  · simp only [hat]
    exact hw.switchContext hwu

/-- The decisions of a tick are the same on both sides. -/
theorem Between.decisions (h : Between created allKnown st st') :
    decisions alg (.ok st') = decisions alg (.ok st) := by
  obtain ⟨hp, hp', -⟩ := h.prologue alg
  obtain ⟨hc, hreports, hexit⟩ := h.charged alg fun _ _ _ => trivial
  simp only [FreeRtosSim.decisions, h.twin.current, hreports, tickKills, tickWakeUps, hp,
    hp', hexit, hc.killLog, hc.killTasks.wakeLog]

end FreeRtosSim
