import FreeRtosSim.Proofs.Moved

/-!
# Runs keep the lists linked

`Sound` is the invariant of a run in which tasks and interrupts call the
kernel in any order: the lists agree with the tasks, no task waits in
`xPendingReadyList` while the scheduler runs, and the number of tasks is the
kernel's count. Every call keeps it, the replay of pended ticks by an
induction over the ticks.
-/

namespace FreeRtosSim

variable {created : List TaskHandle} {alg : Algorithm} {st st₁ st₂ : State}
  {x y : TaskHandle} {keep : Prop} {heap : TaskHandle → TCB} {sim : Simulator}
  {hist : List (System × Call)} {s : System} {c : Call}

/-! ## Pended ticks -/

/-- A state in which a tick can be processed. -/
structure Ticking (created : List TaskHandle) (st : State) : Prop where
  linked : WellLinked created st
  nonePending : NonePending st
  suspended : st.uxSchedulerSuspended = 0

/-- `if( xSwitchRequired ) xYieldPending = pdTRUE`. -/
def noteSwitch (xSwitchRequired : Bool) (st : State) : State :=
  if xSwitchRequired then { st with xYieldPending := true } else st

theorem noteSwitch_same (b : Bool) (st : State) :
    SameLinks st (noteSwitch b st) ∧ SameJobs st (noteSwitch b st) := by
  cases b with
  | true =>
      exact ⟨⟨rfl, fun _ => rfl, fun _ => rfl, fun _ => rfl, rfl, rfl, rfl⟩,
        ⟨⟨rfl, rfl, rfl, rfl, rfl⟩, fun _ => rfl, rfl⟩⟩
  | false => exact ⟨SameLinks.refl st, SameJobs.refl st⟩

theorem Ticking.noteSwitch (h : Ticking created st) (b : Bool) :
    Ticking created (noteSwitch b st) := by
  obtain ⟨hl, hj⟩ := noteSwitch_same b st
  refine ⟨h.linked.congr hl, ?_, hj.suspended.trans h.suspended⟩
  rw [NonePending, State.items, hl.lists]
  exact h.nonePending

theorem Processed.ticking (h : Processed created st st₁)
    (hs : st.uxSchedulerSuspended = 0) : Ticking created st₁ :=
  ⟨h.linked, h.nonePending, h.suspended.trans hs⟩

theorem Ticking.next {sw : Bool} (h : Ticking created st)
    (hok : xTaskIncrementTick alg st = .ok (sw, st₁)) :
    Ticking created (FreeRtosSim.noteSwitch sw st₁) :=
  ((xTaskIncrementTick_processed h.linked h.nonePending h.suspended hok).ticking
    h.suspended).noteSwitch sw

/-- An invariant of the replay: `I l e` holds where a tick begins in `e` after
those that began in `l`. -/
theorem pendedTicks_induct (alg : Algorithm) {I : List State → State → Prop} {P : State → Prop}
    (hstep : ∀ l st sw st', I l st → P st →
      xTaskIncrementTick alg st = .ok (sw, st') →
      I (l ++ [st]) (noteSwitch sw st')) :
    ∀ (n : Nat) (l : List State) (st : State), I l st →
      (∀ e ∈ pendedTicks alg n st, P e) →
      (∀ l₁ e l₂, pendedTicks alg n st = l₁ ++ e :: l₂ → I (l ++ l₁) e) ∧
      ∀ st', pendedTicksLoop alg n st = .ok st' →
        I (l ++ pendedTicks alg n st) st' := by
  intro n
  induction n with
  | zero =>
      intro l st h _
      refine ⟨fun l₁ e l₂ hs => absurd hs (by simp [pendedTicks]), fun st' hok => ?_⟩
      rw [pendedTicksLoop, Except.ok.injEq] at hok
      rw [pendedTicks, List.append_nil, ← hok]
      exact h
  | succ n ih =>
      intro l st h hP
      rw [pendedTicks] at hP ⊢
      have hPst := hP st (List.mem_cons_self ..)
      cases htick : xTaskIncrementTick alg st with
      | error e =>
          refine ⟨fun l₁ e l₂ hs => ?_, fun st' hok => ?_⟩
          · cases l₁ with
            | nil =>
                rw [List.nil_append, List.cons.injEq] at hs
                rw [List.append_nil, ← hs.1]
                exact h
            | cons a l₁ => exact absurd hs (by simp)
          · simp only [pendedTicksLoop, htick, bind, Except.bind] at hok
            exact absurd hok (by simp)
      | ok r =>
          obtain ⟨sw, st'⟩ := r
          rw [htick] at hP
          obtain ⟨hall, hend⟩ := ih (l ++ [st]) (noteSwitch sw st')
            (hstep l st sw st' h hPst htick)
            fun s hs => hP s (List.mem_cons_of_mem _ hs)
          refine ⟨fun l₁ e l₂ hs => ?_, fun st'' hok => ?_⟩
          · cases l₁ with
            | nil =>
                rw [List.nil_append, List.cons.injEq] at hs
                rw [List.append_nil, ← hs.1]
                exact h
            | cons a l₁ =>
                rw [List.cons_append, List.cons.injEq] at hs
                rw [← hs.1, List.append_cons]
                exact hall l₁ e l₂ hs.2
          · simp only [pendedTicksLoop, htick, bind, Except.bind] at hok
            rw [← List.singleton_append, ← List.append_assoc]
            exact hend st'' hok

/-- The same for what is not about the past. -/
theorem pendedTicks_invariant (alg : Algorithm) {I P : State → Prop}
    (hstep : ∀ st sw st', I st → P st → xTaskIncrementTick alg st = .ok (sw, st') →
      I (noteSwitch sw st')) {n : Nat} {st : State} (h : I st)
    (hP : ∀ s ∈ pendedTicks alg n st, P s) :
    (∀ s ∈ pendedTicks alg n st, I s) ∧
      ∀ st', pendedTicksLoop alg n st = .ok st' → I st' := by
  obtain ⟨hall, hend⟩ := pendedTicks_induct alg (I := fun _ s => I s)
    (fun _ st sw st' hi hp hok => hstep st sw st' hi hp hok) n [] st h hP
  refine ⟨fun s hs => ?_, hend⟩
  obtain ⟨l₁, l₂, heq⟩ := List.append_of_mem hs
  exact hall l₁ s l₂ heq

theorem pendedTicks_ticking (h : Ticking created st) (n : Nat) :
    (∀ s ∈ pendedTicks alg n st, Ticking created s) ∧
      ∀ st', pendedTicksLoop alg n st = .ok st' → Ticking created st' :=
  pendedTicks_invariant alg (P := fun _ => True)
    (fun _ _ _ hi _ hok => hi.next hok) h fun _ _ => trivial

/-! ## `xTaskResumeAll` -/

/-- The scheduler is resumed for good. -/
def Resumes (st : State) : Prop :=
  st.uxSchedulerSuspended = 1 ∧ st.uxCurrentNumberOfTasks > 0

/-- The state in which the replay begins. -/
def resumed (alg : Algorithm) (st : State) : State :=
  resumePending alg { st with uxSchedulerSuspended := 0 }

theorem resumeAllTicks_eq (h : Resumes st) :
    resumeAllTicks alg st =
      pendedTicks alg (resumed alg st).xPendedTicks (resumed alg st) := if_pos h

theorem resumeAllTicks_nil (h : ¬ Resumes st) : resumeAllTicks alg st = [] :=
  if_neg h

/-- What is left to do after the replay. -/
theorem xTaskResumeAll_ok {b : Bool} (hok : xTaskResumeAll alg st = .ok (b, st₁)) :
    st.uxSchedulerSuspended ≠ 0 ∧
    (Resumes st ∧ (∃ st₂, pendedTicksLoop alg (resumed alg st).xPendedTicks
        (resumed alg st) = .ok st₂ ∧
        (vTaskSwitchContext { st₂ with xPendedTicks := 0 } = .ok st₁ ∨
          st₁ = { st₂ with xPendedTicks := 0 })) ∨
      ¬ Resumes st ∧
        st₁ = { st with uxSchedulerSuspended := st.uxSchedulerSuspended - 1 }) := by
  by_cases h0 : st.uxSchedulerSuspended = 0
  · simp only [xTaskResumeAll, configAssert, h0, ne_eq, not_true_eq_false,
      decide_false, bind, Except.bind] at hok
    exact absurd hok (by simp)
  refine ⟨h0, ?_⟩
  simp only [xTaskResumeAll, configAssert, h0, ne_eq, not_false_eq_true,
    decide_true, if_true, bind, Except.bind] at hok
  by_cases hr : Resumes st
  · refine Or.inl ⟨hr, ?_⟩
    have hone : st.uxSchedulerSuspended - 1 = 0 := by rw [hr.1]
    rw [hone, if_pos ⟨rfl, hr.2⟩] at hok
    cases hloop : pendedTicksLoop alg (resumed alg st).xPendedTicks
        (resumed alg st) with
    | error e =>
        rw [resumed] at hloop
        rw [hloop] at hok
        exact absurd hok (by simp)
    | ok st₂ =>
        refine ⟨st₂, rfl, ?_⟩
        rw [resumed] at hloop
        rw [hloop] at hok
        dsimp only at hok
        split at hok
        · cases hsw : vTaskSwitchContext { st₂ with xPendedTicks := 0 } with
          | error e =>
              rw [hsw] at hok
              exact absurd hok (by simp)
          | ok st₃ =>
              rw [hsw] at hok
              simp only [pure, Except.pure, Except.ok.injEq, Prod.mk.injEq] at hok
              exact Or.inl (by rw [hok.2])
        · simp only [pure, Except.pure, Except.ok.injEq, Prod.mk.injEq] at hok
          exact Or.inr hok.2.symm
  · refine Or.inr ⟨hr, ?_⟩
    rw [if_neg] at hok
    · simp only [pure, Except.pure, Except.ok.injEq, Prod.mk.injEq] at hok
      exact hok.2.symm
    · rintro ⟨hz, hn⟩
      exact hr ⟨by omega, hn⟩

/-! ## Creation -/

/-- A block that is no task's may hold anything. -/
theorem WellLinked.writeFresh (h : WellLinked created st) (hx : x ∉ created)
    (f : TCB → TCB) : WellLinked created (st.modifyTcb x f) := by
  have htcb : ∀ y ∈ created, (st.modifyTcb x f).tcb y = st.tcb y := fun y hy => by
    have hne : y ≠ x := fun he => hx (he ▸ hy)
    simp [hne]
  refine
    { wellFormed := h.wellFormed
      linked := fun id hid y => ?_
      container := fun y hy id hc => h.container y hy id (htcb y hy ▸ hc)
      pending := fun y hy => ?_
      priority := fun y hy => by rw [htcb y hy]; exact h.priority y hy
      current := h.current
      delayed := h.delayed }
  · refine (h.linked id hid y).trans (and_congr_right fun hy => ?_)
    rw [htcb y hy]
  · obtain ⟨hyc, hev⟩ := h.pending y hy
    exact ⟨hyc, by rw [htcb y hyc]; exact hev⟩

/-- A block that is on no list becomes a task's. -/
theorem WellLinked.enroll (h : WellLinked created st) (hx : x ∉ created)
    (hnone : (st.tcb x).pxContainer = none)
    (hp : (st.tcb x).uxPriority < configMaxPriorities) :
    WellLinked (x :: created) st where
  wellFormed := h.wellFormed
  linked id hid y := by
    rw [h.linked id hid y, List.mem_cons]
    refine ⟨fun hy => ⟨Or.inr hy.1, hy.2⟩, fun hy => ?_⟩
    rcases hy.1 with rfl | hyc
    · rw [hnone] at hy
      exact absurd hy.2 (by simp)
    · exact ⟨hyc, hy.2⟩
  container y hy id hc := by
    rcases List.mem_cons.mp hy with rfl | hy
    · rw [hnone] at hc
      exact absurd hc (by simp)
    · exact h.container y hy id hc
  pending y hy := ⟨List.mem_cons_of_mem x (h.pending y hy).1, (h.pending y hy).2⟩
  priority y hy := by
    rcases List.mem_cons.mp hy with rfl | hy
    · exact hp
    · exact h.priority y hy
  current c hc := List.mem_cons_of_mem x (h.current c hc)
  delayed := h.delayed

/-- What creation does once the block is written. -/
structure Enrolled (alg : Algorithm) (created : List TaskHandle) (x : TaskHandle)
    (st st' : State) : Prop where
  linked : WellLinked (x :: created) st'
  number : st'.uxCurrentNumberOfTasks = st.uxCurrentNumberOfTasks + 1
  core : ∀ y, (st'.tcb y).core = (st.tcb y).core
  sim : st'.sim = st.sim
  tick : st'.xTickCount = st.xTickCount
  suspended : st'.uxSchedulerSuspended = st.uxSchedulerSuspended
  container : (st'.tcb x).pxContainer = readyTarget alg st.xTickCount (st.tcb x)
  others : ∀ y, y ≠ x → st'.tcb y = st.tcb y
  event : (st'.tcb x).inEventList = (st.tcb x).inEventList
  pending : NonePending st → NonePending st'
  awaiting : ∀ y ∈ created, y ∈ st.items .pendingReady → y ∈ st'.items .pendingReady

/-- The lists are set up by the first creation, when there is nothing on
them. -/
theorem chooseCurrent_linked (h : WellLinked (x :: created) st)
    (hnone : (st.tcb x).pxContainer = none)
    (hnum : st.uxCurrentNumberOfTasks = created.length + 1) :
    WellLinked (x :: created) (chooseCurrent x st) ∧
    (chooseCurrent x st).tcb = st.tcb ∧
    SameGlobals st (chooseCurrent x st) ∧ (chooseCurrent x st).sim = st.sim ∧
    (NonePending st → NonePending (chooseCurrent x st)) ∧
    ∀ y ∈ created, y ∈ st.items .pendingReady →
      y ∈ (chooseCurrent x st).items .pendingReady := by
  have hself : ∀ c ∈ some x, c ∈ x :: created := by
    intro c hc
    rw [Option.mem_some_iff] at hc
    exact hc ▸ List.mem_cons_self ..
  rw [chooseCurrent]
  cases hc : st.pxCurrentTCB with
  | none =>
      dsimp only
      split
      · next hone =>
          have hnil : created = [] :=
            List.length_eq_zero_iff.mp (by omega)
          subst hnil
          refine ⟨?_, rfl, ⟨rfl, rfl, rfl, rfl, rfl⟩, rfl, fun _ => rfl,
            fun y hy => absurd hy List.not_mem_nil⟩
          refine
            { wellFormed := fun _ => CursorList.WellFormed.empty
              linked := fun id _ y => ?_
              container := h.container
              pending := fun y hy => absurd hy List.not_mem_nil
              priority := h.priority
              current := hself
              delayed := Or.inl ⟨rfl, rfl⟩ }
          refine iff_of_false List.not_mem_nil ?_
          rintro ⟨hy, hcont⟩
          rw [List.mem_singleton] at hy
          subst hy
          exact absurd (hnone.symm.trans hcont) (by simp)
      · exact ⟨⟨h.wellFormed, h.linked, h.container, h.pending, h.priority, hself,
          h.delayed⟩, rfl, ⟨rfl, rfl, rfl, rfl, rfl⟩, rfl, fun hn => hn,
          fun _ _ hm => hm⟩
  | some d =>
      dsimp only
      split
      · split
        · exact ⟨⟨h.wellFormed, h.linked, h.container, h.pending, h.priority, hself,
            h.delayed⟩, rfl, ⟨rfl, rfl, rfl, rfl, rfl⟩, rfl, fun hn => hn,
            fun _ _ hm => hm⟩
        · exact ⟨h, rfl, SameGlobals.refl st, rfl, fun hn => hn, fun _ _ hm => hm⟩
      · exact ⟨h, rfl, SameGlobals.refl st, rfl, fun hn => hn, fun _ _ hm => hm⟩

theorem yieldIfOutranked_moved (h : WellLinked created st)
    (hok : yieldIfOutranked x st = .ok st₁) :
    Moved created True st st₁ ∧ st₁.tcb = st.tcb ∧ st₁.lists = st.lists := by
  rw [yieldIfOutranked] at hok
  split at hok
  · cases hok
    exact ⟨Moved.refl h, rfl, rfl⟩
  · split at hok
    · refine ⟨switchContext_moved h hok, ?_⟩
      obtain ⟨_, _, _, heq, -⟩ := vTaskSwitchContext_ok hok
      rw [heq]
      exact ⟨rfl, rfl⟩
    · cases hok
      exact ⟨Moved.refl h, rfl, rfl⟩

theorem prvAddNewTaskToReadyList_enrolled (h : WellLinked created st)
    (hnum : st.uxCurrentNumberOfTasks = created.length) (hx : x ∉ created)
    (hnone : (st.tcb x).pxContainer = none)
    (hp : (st.tcb x).uxPriority < configMaxPriorities)
    (hok : prvAddNewTaskToReadyList alg x st = .ok st₁) :
    Enrolled alg created x st st₁ := by
  have hcount : WellLinked (x :: created)
      { st with uxCurrentNumberOfTasks := st.uxCurrentNumberOfTasks + 1 } :=
    (h.enroll hx hnone hp).congr
      ⟨rfl, fun _ => rfl, fun _ => rfl, fun _ => rfl, rfl, rfl, rfl⟩
  obtain ⟨hl, htcb, hg, hsim, hpend, hkept⟩ := chooseCurrent_linked hcount hnone
    (by rw [← hnum])
  rw [prvAddNewTaskToReadyList] at hok
  generalize chooseCurrent x
    { st with uxCurrentNumberOfTasks := st.uxCurrentNumberOfTasks + 1 } = s at *
  have hnone' : (s.tcb x).pxContainer = none := by rw [htcb]; exact hnone
  have hr := prvAddTaskToReadyList_readied alg hl.wellFormed hnone'
  have hl' : WellLinked (x :: created) (prvAddTaskToReadyList alg x s) :=
    hl.prvAddTaskToReadyList (List.mem_cons_self ..) hnone'
  obtain ⟨hm, hsame, hlists⟩ := yieldIfOutranked_moved hl' hok
  have hgl := hr.jobs.toSameGlobals.trans hm.jobs.toSameGlobals
  exact
    { linked := hm.linked
      number := hgl.number.trans hg.number
      core := fun y => by
        rw [hsame, hr.jobs.core, htcb]
      sim := hm.jobs.sim.trans (hr.jobs.sim.trans hsim)
      tick := hgl.tick.trans hg.tick
      suspended := hgl.suspended.trans hg.suspended
      container := by rw [hsame, hr.container, htcb, hg.tick]
      others := fun y hy => by rw [hsame, hr.others y hy, htcb]
      event := by rw [hsame, hr.event, htcb]
      pending := fun hn => by
        rw [NonePending, State.items, hlists, hr.pendingReady]
        exact hpend hn
      awaiting := fun y hy hm => by
        rw [State.items, hlists, hr.pendingReady]
        exact hkept y hy hm }

/-- `prvInitialiseNewTask` writes the block and asserts the priority. -/
theorem prvInitialiseNewTask_ok {p : Nat}
    (hok : prvInitialiseNewTask x p st = .ok st₁) :
    p < configMaxPriorities ∧ st₁ = st.modifyTcb x fun b =>
      { b with uxPriority := p, pxContainer := none, inEventList := false } := by
  by_cases hp : p < configMaxPriorities
  · have hge : ¬ p ≥ configMaxPriorities := Nat.not_le.mpr hp
    simp only [prvInitialiseNewTask, configAssert, decide_eq_true hp, if_true,
      bind, Except.bind, if_neg hge, pure, Except.pure, Except.ok.injEq] at hok
    exact ⟨hp, hok.symm⟩
  · simp only [prvInitialiseNewTask, configAssert, decide_eq_false hp, bind,
      Except.bind] at hok
    exact absurd hok (by simp)

/-- A task created in the block `x`, after `f` was written to it. -/
theorem create_enrolled (h : WellLinked created st)
    (hnum : st.uxCurrentNumberOfTasks = created.length) (hx : x ∉ created)
    {f : TCB → TCB} {p : Nat}
    (hok : (do
      let st ← prvInitialiseNewTask x p (st.modifyTcb x f)
      prvAddNewTaskToReadyList alg x st) = .ok st₁) :
    Enrolled alg created x (st.modifyTcb x fun b =>
      { f b with uxPriority := p, pxContainer := none, inEventList := false }) st₁ := by
  cases hinit : prvInitialiseNewTask x p (st.modifyTcb x f) with
  | error e =>
      rw [hinit] at hok
      exact absurd hok (by simp [bind, Except.bind])
  | ok st₂ =>
      rw [hinit] at hok
      obtain ⟨hp, heq⟩ := prvInitialiseNewTask_ok hinit
      have hblock : st₂ = st.modifyTcb x fun b =>
          { f b with uxPriority := p, pxContainer := none, inEventList := false } := by
        rw [heq]
        simp [State.modifyTcb]
      rw [hblock] at hok
      exact prvAddNewTaskToReadyList_enrolled (h.writeFresh hx _) hnum hx (by simp)
        (by simpa using hp) hok

/-! ## Nobody gets lost in a tick -/

/-- Every task the next tick unblocks has a list to go to. -/
def DueHaveLists (alg : Algorithm) (st : State) : Prop :=
  ∀ x ∈ dueTasks st, HasBranch alg (tickAdd st.xTickCount 1) (st.tcb x)

theorem chargeBlock_container {tick : Nat} {b : TCB}
    (h : (chargeBlock tick b).pxContainer = none) : b.pxContainer = none := by
  rw [chargeBlock_list] at h
  split at h
  · exact absurd h (by simp)
  · exact h

theorem killBlock_container {tick : Nat} {b : TCB}
    (h : (killBlock tick b).pxContainer = none) : b.pxContainer = none := by
  rw [killBlock_list] at h
  split at h
  · exact absurd h (by simp)
  · exact h

theorem wakeBlock_container {tick : Nat} {b : TCB}
    (h : (wakeBlock alg tick b).pxContainer = none) : b.pxContainer = none := by
  rw [wakeBlock_list] at h
  split at h
  · exact absurd h (by simp)
  · exact h

theorem xTaskIncrementTick_unlost {sw : Bool} (h : Ticking created st)
    (hdue : DueHaveLists alg st) (hok : xTaskIncrementTick alg st = .ok (sw, st₁)) :
    Unlost st st₁ := by
  obtain ⟨st₂, hk, heq⟩ := xTaskIncrementTick_ok h.suspended hok
  obtain ⟨st₀, hpro, rfl⟩ := killEntry_cases hk h.linked h.nonePending
  obtain ⟨hw₁, -, hb₁⟩ := chargeCurrent_pass hpro.linked
  obtain ⟨hw₂, -, hb₂⟩ := killTasks_pass hw₁
  obtain ⟨-, -, hb₃⟩ := wakeTasks_pass hw₂ alg
  intro y hy
  have hy₃ : ((killTasks (chargeCurrent st₀)).block y).pxContainer = none := by
    have hy' : (st₁.block y).pxContainer = none := hy
    rw [heq, hb₃] at hy'
    split at hy'
    · exact wakeBlock_container hy'
    · exact hy'
  have hy₂ : ((chargeCurrent st₀).block y).pxContainer = none := by
    rw [hb₂] at hy₃
    split at hy₃
    · exact killBlock_container hy₃
    · exact hy₃
  have hy₁ : (st₀.block y).pxContainer = none := by
    rw [hb₁] at hy₂
    split at hy₂
    · exact chargeBlock_container hy₂
    · exact hy₂
  rw [hpro.block] at hy₁
  split at hy₁
  · next hmem =>
      rw [hpro.tick] at hy₁
      exact absurd hy₁ (readyTarget_isSome (hdue y hmem))
  · exact hy₁

/-! ## The replay -/

/-- `st'` can be a state between two calls again. -/
structure Settled (created : List TaskHandle) (st : State) : Prop where
  linked : WellLinked created st
  pending : st.uxSchedulerSuspended = 0 → NonePending st
  number : st.uxCurrentNumberOfTasks = created.length

theorem Moved.settled (h : Moved created keep st st₁) (hs : Settled created st) :
    Settled created st₁ where
  linked := h.linked
  pending hz :=
    have hz' := h.jobs.suspended.symm.trans hz
    h.pending hz' (hs.pending hz')
  number := h.jobs.number.trans hs.number

theorem Settled.ticking (h : Settled created st)
    (hz : st.uxSchedulerSuspended = 0) : Ticking created st :=
  ⟨h.linked, h.pending hz, hz⟩

/-- The scheduler counts as running again while the ticks are replayed. -/
theorem resumed_moved (alg : Algorithm) (h : WellLinked created st) :
    Moved created (PendingHaveLists alg st)
      { st with uxSchedulerSuspended := 0 } (resumed alg st) ∧
    Ticking created (resumed alg st) := by
  have h₀ : WellLinked created { st with uxSchedulerSuspended := 0 } :=
    h.congr ⟨rfl, fun _ => rfl, fun _ => rfl, fun _ => rfl, rfl, rfl, rfl⟩
  obtain ⟨hm, hn⟩ := resumePending_moved alg h₀
  exact ⟨hm, hm.linked, hn, hm.jobs.suspended⟩

theorem pendedTicksLoop_number {n : Nat} (h : Ticking created st)
    (hok : pendedTicksLoop alg n st = .ok st₁) :
    st₁.uxCurrentNumberOfTasks = st.uxCurrentNumberOfTasks := by
  have hend := (pendedTicks_invariant alg (n := n)
    (I := fun s => Ticking created s ∧
      s.uxCurrentNumberOfTasks = st.uxCurrentNumberOfTasks)
    (P := fun _ => True)
    (fun s sw s' hi _ htick => by
      have hp := xTaskIncrementTick_processed hi.1.linked hi.1.nonePending
        hi.1.suspended htick
      exact ⟨hi.1.next htick,
        ((noteSwitch_same sw s').2.number.trans hp.number).trans hi.2⟩)
    (show Ticking created st ∧ _ from ⟨h, rfl⟩) fun _ _ => trivial).2 st₁ hok
  exact hend.2

theorem pendedTicksLoop_unlost {n : Nat} (h : Ticking created st)
    (hdue : ∀ e ∈ pendedTicks alg n st, DueHaveLists alg e)
    (hok : pendedTicksLoop alg n st = .ok st₁) : Unlost st st₁ := by
  have hend := (pendedTicks_invariant alg (n := n)
    (I := fun s => Ticking created s ∧ Unlost st s)
    (P := DueHaveLists alg)
    (fun s sw s' hi hd htick => ⟨hi.1.next htick,
      (hi.2.trans (xTaskIncrementTick_unlost hi.1 hd htick)).trans
        (noteSwitch_same sw s').1.unlost⟩)
    ⟨h, Unlost.refl st⟩ hdue).2 st₁ hok
  exact hend.2

theorem xTaskResumeAll_settled {b : Bool} (h : Settled created st)
    (hok : xTaskResumeAll alg st = .ok (b, st₁)) :
    Settled created st₁ ∧
    ((Resumes st → PendingHaveLists alg st) →
      (∀ e ∈ resumeAllTicks alg st, DueHaveLists alg e) → Unlost st st₁) := by
  obtain ⟨hz, hcase⟩ := xTaskResumeAll_ok hok
  rcases hcase with ⟨hr, st₂, hloop, hend⟩ | ⟨hr, heq⟩
  · obtain ⟨hm, htick⟩ := resumed_moved alg h.linked
    have ht₂ := (pendedTicks_ticking htick _).2 st₂ hloop
    have hlast : Moved created True { st₂ with xPendedTicks := 0 } st₁ := by
      have hl : WellLinked created { st₂ with xPendedTicks := 0 } :=
        ht₂.linked.congr ⟨rfl, fun _ => rfl, fun _ => rfl, fun _ => rfl, rfl, rfl, rfl⟩
      rcases hend with hsw | heq
      · exact switchContext_moved hl hsw
      · rw [heq]
        exact Moved.refl hl
    have hs₂ : Settled created { st₂ with xPendedTicks := 0 } :=
      ⟨ht₂.linked.congr ⟨rfl, fun _ => rfl, fun _ => rfl, fun _ => rfl, rfl, rfl, rfl⟩,
        fun _ => ht₂.nonePending,
        ((pendedTicksLoop_number htick hloop).trans hm.jobs.number).trans h.number⟩
    refine ⟨hlast.settled hs₂, fun hpend hdue => ?_⟩
    rw [resumeAllTicks_eq hr] at hdue
    exact ((hm.unlost (hpend hr)).trans (pendedTicksLoop_unlost htick hdue hloop)).trans
      (hlast.unlost trivial)
  · subst heq
    refine ⟨⟨h.linked.congr ⟨rfl, fun _ => rfl, fun _ => rfl, fun _ => rfl, rfl, rfl,
      rfl⟩, fun hz' => ?_, h.number⟩, fun _ _ => Unlost.refl _⟩
    -- the count reaches zero without a resumption only when there are no tasks
    have hone : st.uxSchedulerSuspended = 1 := by
      dsimp only at hz'
      omega
    have hnil : created = [] := by
      rw [← List.length_eq_zero_iff, ← h.number]
      by_contra hne
      exact hr ⟨hone, Nat.pos_of_ne_zero hne⟩
    rw [NonePending, List.eq_nil_iff_forall_not_mem]
    intro y hy
    have hyc := (h.linked.pending y hy).1
    rw [hnil] at hyc
    exact absurd hyc List.not_mem_nil

/-! ## The calls -/

/-- Every task is on some list. -/
def Kept (created : List TaskHandle) (st : State) : Prop :=
  ∀ x ∈ created, (st.tcb x).pxContainer ≠ none

theorem Kept.unlost (h : Kept created st) (hu : Unlost st st₁) :
    Kept created st₁ := fun x hx hnone => h x hx (hu x hnone)

/-- The macro has a branch for every task the call hands to it: for the new
tasks, for those it moves itself, and for those its ticks unblock. -/
def Call.Keeps (alg : Algorithm) (st : State) (c : Call) : Prop :=
  (∀ p ∈ c.newBlocks st, HasBranch alg st.xTickCount p.2) ∧
  (∀ x ∈ c.readied st, HasBranch alg st.xTickCount (st.tcb x)) ∧
  ∀ e ∈ c.ticks alg st, ∀ x ∈ dueTasks e,
    HasBranch alg (tickAdd e.xTickCount 1) (e.tcb x)

instance (alg : Algorithm) (st : State) (c : Call) : Decidable (c.Keeps alg st) := by
  unfold Call.Keeps HasBranch
  infer_instance

theorem readied_resuming (h : Resumes st) :
    Call.readied st .resumeAll = st.items .pendingReady := if_pos h

theorem suspendAll_settled (h : Settled created st) :
    Settled created (vTaskSuspendAll st) where
  linked := h.linked.congr
    ⟨rfl, fun _ => rfl, fun _ => rfl, fun _ => rfl, rfl, rfl, rfl⟩
  pending hz := absurd hz (Nat.succ_ne_zero _)
  number := h.number

theorem pendTicks_settled (h : Settled created st) (n : Nat) :
    Settled created (pendTicks n st) where
  linked := h.linked.congr
    ⟨rfl, fun _ => rfl, fun _ => rfl, fun _ => rfl, rfl, rfl, rfl⟩
  pending hz := absurd hz (Nat.succ_ne_zero _)
  number := h.number

theorem tickHandler_settled (h : Settled created st)
    (hok : vPortSystemTickHandler alg st = .ok st₁) :
    Settled created st₁ ∧
    ((st.uxSchedulerSuspended = 0 → DueHaveLists alg st) → Unlost st st₁) := by
  rw [vPortSystemTickHandler] at hok
  cases htick : xTaskIncrementTick alg st with
  | error e =>
      rw [htick] at hok
      exact absurd hok (by simp [bind, Except.bind])
  | ok r =>
      obtain ⟨sw, st₂⟩ := r
      rw [htick] at hok
      simp only [bind, Except.bind] at hok
      by_cases hz : st.uxSchedulerSuspended = 0
      · have ht := h.ticking hz
        have hp := xTaskIncrementTick_processed ht.linked ht.nonePending hz htick
        have hm := switchContext_moved hp.linked hok
        have hs₂ : Settled created st₂ :=
          ⟨hp.linked, fun _ => hp.nonePending, hp.number.trans h.number⟩
        exact ⟨hm.settled hs₂, fun hd =>
          (xTaskIncrementTick_unlost ht (hd hz) htick).trans (hm.unlost trivial)⟩
      · rw [xTaskIncrementTick, if_neg hz] at htick
        cases htick
        have hs₂ : Settled created
            { st with xPendedTicks := tickAdd st.xPendedTicks 1 } :=
          ⟨h.linked.congr
            ⟨rfl, fun _ => rfl, fun _ => rfl, fun _ => rfl, rfl, rfl, rfl⟩,
            h.pending, h.number⟩
        have hm := switchContext_moved hs₂.linked hok
        exact ⟨hm.settled hs₂, fun _ => hm.unlost trivial⟩

theorem delayBlock_settled {n : Nat} (h : Settled created st)
    (hok : vTaskDelayBlock n st = .ok st₁) :
    Settled created st₁ ∧ Unlost st st₁ ∧ st.uxSchedulerSuspended = 0 ∧
      NonePending st₁ := by
  by_cases hz : st.uxSchedulerSuspended = 0
  · simp only [vTaskDelayBlock, configAssert, hz, decide_true, if_true, bind,
      Except.bind, pure, Except.pure, Except.ok.injEq] at hok
    have hs := suspendAll_settled h
    have hm := delayedList_moved hs.linked n false
    subst hok
    refine ⟨hm.settled hs, hm.unlost trivial, hz, ?_⟩
    rw [NonePending, delayedList_pendingReady hs.linked]
    exact h.pending hz
  · simp only [vTaskDelayBlock, configAssert, hz, decide_false, bind,
      Except.bind] at hok
    exact absurd hok (by simp)

/-- What a call makes of a state between two calls; `keep` is what has to be
true for nobody to get lost. -/
structure Survived (created created' : List TaskHandle) (keep : Prop)
    (st st' : State) : Prop where
  settled : Settled created' st'
  kept : keep → Kept created st → Kept created' st'

theorem Moved.survived {keep' : Prop} (h : Moved created keep' st st₁)
    (hs : Settled created st) (hk : keep → keep') :
    Survived created created keep st st₁ where
  settled := h.settled hs
  kept hkeep hall := hall.unlost (h.unlost (hk hkeep))

theorem delayYield_settled (h : Settled created st)
    (hok : vTaskDelayYield alg st = .ok st₁) :
    Settled created st₁ ∧
    ((Resumes st → PendingHaveLists alg st) →
      (∀ e ∈ resumeAllTicks alg st, DueHaveLists alg e) → Unlost st st₁) := by
  rw [vTaskDelayYield] at hok
  cases hres : xTaskResumeAll alg st with
  | error e =>
      rw [hres] at hok
      exact absurd hok (by simp [bind, Except.bind])
  | ok r =>
      obtain ⟨b, st₂⟩ := r
      rw [hres] at hok
      obtain ⟨hs, hu⟩ := xTaskResumeAll_settled h hres
      cases b with
      | true =>
          cases hok
          exact ⟨hs, hu⟩
      | false =>
          have hm := switchContext_moved hs.linked hok
          exact ⟨hm.settled hs, fun hp hd => (hu hp hd).trans (hm.unlost trivial)⟩

theorem delay_settled {n : Nat} (h : Settled created st)
    (hok : vTaskDelay alg n st = .ok st₁) :
    Settled created st₁ ∧
    ((∀ e ∈ (Call.delay n).ticks alg st, DueHaveLists alg e) → Unlost st st₁) := by
  rw [vTaskDelay] at hok
  by_cases hn : n > 0
  · rw [if_pos hn] at hok
    cases hblock : vTaskDelayBlock n st with
    | error e =>
        rw [hblock] at hok
        exact absurd hok (by simp [bind, Except.bind])
    | ok st₂ =>
        rw [hblock] at hok
        obtain ⟨hs, hu, -, hnone⟩ := delayBlock_settled h hblock
        obtain ⟨hs', hu'⟩ := delayYield_settled hs hok
        refine ⟨hs', fun hd => hu.trans (hu' (fun _ x hx => ?_) fun e he => hd e ?_)⟩
        · rw [hnone] at hx
          exact absurd hx List.not_mem_nil
        · rw [Call.ticks, hblock]
          simpa [hn] using he
  · rw [if_neg hn] at hok
    have hm := switchContext_moved h.linked hok
    exact ⟨hm.settled h, fun _ => hm.unlost trivial⟩

theorem catchUpTicks_ok {n : Nat} {r : Bool × State}
    (hok : xTaskCatchUpTicks alg n st = .ok r) :
    st.uxSchedulerSuspended = 0 ∧ xTaskResumeAll alg (pendTicks n st) = .ok r := by
  by_cases hz : st.uxSchedulerSuspended = 0
  · simp only [xTaskCatchUpTicks, configAssert, hz, decide_true, if_true, bind,
      Except.bind] at hok
    exact ⟨hz, hok⟩
  · simp only [xTaskCatchUpTicks, configAssert, hz, decide_false, bind,
      Except.bind] at hok
    exact absurd hok (by simp)

theorem catchUpTicks_settled {n : Nat} {b : Bool} (h : Settled created st)
    (hok : xTaskCatchUpTicks alg n st = .ok (b, st₁)) :
    Settled created st₁ ∧
    ((∀ e ∈ (Call.catchUpTicks n).ticks alg st, DueHaveLists alg e) →
      Unlost st st₁) := by
  obtain ⟨hz, hres⟩ := catchUpTicks_ok hok
  obtain ⟨hs, hu⟩ := xTaskResumeAll_settled (pendTicks_settled h n) hres
  refine ⟨hs, fun hd => hu (fun _ x hx => ?_) hd⟩
  have hnone : (pendTicks n st).items .pendingReady = [] := h.pending hz
  rw [hnone] at hx
  exact absurd hx List.not_mem_nil

theorem Enrolled.settled (h : Enrolled alg created x st st₁)
    (hpend : st.uxSchedulerSuspended = 0 → NonePending st)
    (hnum : st.uxCurrentNumberOfTasks = created.length) :
    Settled (x :: created) st₁ where
  linked := h.linked
  pending hz := h.pending (hpend (h.suspended.symm.trans hz))
  number := by rw [h.number, hnum, List.length_cons]

theorem Enrolled.kept (h : Enrolled alg created x st st₁)
    (hx : HasBranch alg st.xTickCount (st.tcb x)) (hall : Kept created st) :
    Kept (x :: created) st₁ := by
  intro y hy
  by_cases hyx : y = x
  · subst hyx
    rw [h.container]
    exact readyTarget_isSome hx
  · rw [h.others y hyx]
    exact hall y ((List.mem_cons.mp hy).resolve_left hyx)

/-- A creation function, given what it writes to the block. -/
theorem create_survived {f : TCB → TCB} {p : Nat} (h : Settled created st)
    (hx : x ∉ created)
    (hok : (do
      let st ← prvInitialiseNewTask x p (st.modifyTcb x f)
      prvAddNewTaskToReadyList alg x st) = .ok st₁) :
    Survived created (x :: created) (HasBranch alg st.xTickCount (f (st.tcb x)))
      st st₁ := by
  have he := create_enrolled h.linked h.number hx hok
  refine ⟨he.settled h.pending h.number, fun hb hall => he.kept ?_ fun y hy => ?_⟩
  · simpa [HasBranch, mustMeet] using hb
  · have hne : y ≠ x := fun hyx => hx (hyx ▸ hy)
    simpa [hne] using hall y hy

theorem modifyTcb_id (st : State) (x : TaskHandle) : st.modifyTcb x id = st := by
  simp [State.modifyTcb]

theorem createStatic_survived {p : Nat} (h : Settled created st) (hx : x ∉ created)
    (hok : xTaskCreateStatic alg x p st = .ok st₁) :
    Survived created (x :: created) (HasBranch alg st.xTickCount (st.tcb x)) st st₁ ∧
      st₁.xTickCount = st.xTickCount ∧ ∀ y, y ≠ x → st₁.tcb y = st.tcb y := by
  rw [xTaskCreateStatic, ← modifyTcb_id st x] at hok
  have he := create_enrolled h.linked h.number hx hok
  refine ⟨create_survived (f := id) h hx hok, he.tick, fun y hy => ?_⟩
  rw [he.others y hy]
  simp [hy]

theorem startScheduler_ok {idle timer : TaskHandle}
    (hok : vTaskStartScheduler alg idle timer st = .ok st₁) :
    ∃ st₂ st₃, xTaskCreateStatic alg idle 0 st = .ok st₂ ∧
      xTaskCreateStatic alg timer (configMaxPriorities - 1) st₂ = .ok st₃ ∧
      st₁ = { st₃ with
        xNextTaskUnblockTime := portMaxDelay
        xSchedulerRunning := true
        xTickCount := 0 } := by
  rw [vTaskStartScheduler] at hok
  cases hidle : xTaskCreateStatic alg idle 0 st with
  | error e =>
      rw [hidle] at hok
      exact absurd hok (by simp [bind, Except.bind])
  | ok st₂ =>
      rw [hidle] at hok
      simp only [bind, Except.bind] at hok
      cases htimer : xTaskCreateStatic alg timer (configMaxPriorities - 1) st₂ with
      | error e =>
          rw [htimer] at hok
          exact absurd hok (by simp)
      | ok st₃ =>
          rw [htimer] at hok
          cases hok
          exact ⟨st₂, st₃, rfl, htimer, rfl⟩

theorem not_mem_cons_of_ne (hx : x ∉ created) (hne : y ≠ x) : x ∉ y :: created :=
  fun hmem => (List.mem_cons.mp hmem).elim (fun he => hne he.symm) hx

theorem startScheduler_survived {idle timer : TaskHandle} (h : Settled created st)
    (hi : idle ∉ created) (ht : timer ∉ created) (hne : idle ≠ timer)
    (hok : vTaskStartScheduler alg idle timer st = .ok st₁) :
    Survived created (timer :: idle :: created)
      (HasBranch alg st.xTickCount (st.tcb idle) ∧
        HasBranch alg st.xTickCount (st.tcb timer)) st st₁ := by
  obtain ⟨st₂, st₃, hidle, htimer, rfl⟩ := startScheduler_ok hok
  obtain ⟨h₂, htick, hother⟩ := createStatic_survived h hi hidle
  obtain ⟨h₃, -, -⟩ :=
    createStatic_survived h₂.settled (not_mem_cons_of_ne ht hne) htimer
  refine ⟨⟨h₃.settled.linked.congr ⟨rfl, fun _ => rfl, fun _ => rfl,
    fun _ => rfl, rfl, rfl, rfl⟩, h₃.settled.pending, h₃.settled.number⟩, ?_⟩
  rintro ⟨hbi, hbt⟩ hall
  refine h₃.kept ?_ (h₂.kept hbi hall)
  rw [htick, hother timer hne.symm]
  exact hbt

/-- Every call keeps the lists linked, and loses nobody for whom the macro has
a branch. -/
theorem exec_survived (h : Settled s.created s.kernel) (hal : c.Allowed s)
    (hok : c.exec alg s.kernel = .ok st) :
    Survived s.created (c.createdAfter s) (c.Keeps alg s.kernel) s.kernel st := by
  have hl := h.linked
  cases c with
  | create x p =>
      obtain ⟨hs, -, -⟩ := createStatic_survived h hal hok
      exact ⟨hs.settled, fun hk => hs.kept (hk.1 _ (List.mem_singleton_self _))⟩
  | createPeriodic x id p period duration constraint =>
      have hs := create_survived h hal.1 hok
      exact ⟨hs.settled, fun hk => hs.kept (hk.1 _ (List.mem_singleton_self _))⟩
  | startScheduler idle timer =>
      obtain ⟨hi, ht, hne, -⟩ := hal
      have hs := startScheduler_survived h hi ht hne hok
      refine ⟨hs.settled, fun hk => hs.kept ⟨hk.1 (idle, _) ?_, hk.1 (timer, _) ?_⟩⟩ <;>
        simp [Call.newBlocks]
  | tick =>
      obtain ⟨hs, hu⟩ := tickHandler_settled h hok
      refine ⟨hs, fun hk hall => hall.unlost (hu fun hz => hk.2.2 _ ?_)⟩
      simp [Call.ticks, hz]
  | yield => exact (switchContext_moved hl hok).survived h fun _ => trivial
  | suspend x =>
      have hm := vTaskSuspendLists_moved hl hal
      exact (hm.andThen (vTaskSuspendYield_moved hm.linked hok)).survived h
        fun _ => trivial
  | suspendLists x =>
      cases hok
      exact (vTaskSuspendLists_moved hl hal).survived h fun _ => trivial
  | suspendYield x =>
      exact (vTaskSuspendYield_moved hl hok).survived h fun _ => trivial
  | resume x =>
      refine (vTaskResume_moved hl hal hok).survived h fun hk hsus => hk.2.1 x ?_
      simp [Call.readied, hsus]
  | resumeFromISR x =>
      cases hok
      refine (xTaskResumeFromISR_moved hl hal).survived h fun hk hsus hz =>
        hk.2.1 x ?_
      simp [Call.readied, hsus, hz]
  | prioritySet x p =>
      refine (vTaskPrioritySet_moved hl hal hok).survived h fun hk hne hc =>
        hk.2.1 x ?_
      simp [Call.readied, hne, hc]
  | delay n =>
      obtain ⟨hs, hu⟩ := delay_settled h hok
      exact ⟨hs, fun hk hall => hall.unlost (hu hk.2.2)⟩
  | delayBlock n =>
      obtain ⟨hs, hu, -⟩ := delayBlock_settled h hok
      exact ⟨hs, fun _ hall => hall.unlost hu⟩
  | delayYield =>
      obtain ⟨hs, hu⟩ := delayYield_settled h hok
      refine ⟨hs, fun hk hall => hall.unlost (hu (fun hr x hx => hk.2.1 x ?_) hk.2.2)⟩
      exact (readied_resuming hr).symm ▸ hx
  | suspendAll =>
      cases hok
      exact ⟨suspendAll_settled h, fun _ hall => hall⟩
  | resumeAll =>
      rw [Call.exec] at hok
      cases hres : xTaskResumeAll alg s.kernel with
      | error e =>
          rw [hres] at hok
          exact absurd hok (by simp [bind, Except.bind])
      | ok r =>
          obtain ⟨b, st₂⟩ := r
          rw [hres] at hok
          cases hok
          obtain ⟨hs, hu⟩ := xTaskResumeAll_settled h hres
          refine ⟨hs, fun hk hall => hall.unlost
            (hu (fun hr x hx => hk.2.1 x ?_) hk.2.2)⟩
          exact (readied_resuming hr).symm ▸ hx
  | catchUpTicks n =>
      rw [Call.exec] at hok
      cases hres : xTaskCatchUpTicks alg n s.kernel with
      | error e =>
          rw [hres] at hok
          exact absurd hok (by simp [bind, Except.bind])
      | ok r =>
          obtain ⟨b, st₂⟩ := r
          rw [hres] at hok
          cases hok
          obtain ⟨hs, hu⟩ := catchUpTicks_settled h hres
          exact ⟨hs, fun hk hall => hall.unlost (hu hk.2.2)⟩
  | placeOnEventList n =>
      cases hok
      exact (vTaskPlaceOnEventList_moved hl n).survived h fun _ => trivial
  | removeFromEventList x =>
      cases hok
      refine (xTaskRemoveFromEventList_moved hl hal.1).survived h fun hk hz =>
        hk.2.1 x ?_
      simp [Call.readied, hz]
  | nextEntry id =>
      cases hok
      exact (nextEntry_moved hl id).survived h fun _ => trivial

/-! ## Runs -/

theorem boot_settled (heap : TaskHandle → TCB) (sim : Simulator) :
    Settled (System.boot heap sim).created (System.boot heap sim).kernel where
  linked :=
    { wellFormed := fun _ => CursorList.WellFormed.empty
      linked := fun _ _ _ => iff_of_false List.not_mem_nil
        fun hx => absurd hx.1 List.not_mem_nil
      container := fun _ hx => absurd hx List.not_mem_nil
      pending := fun _ hx => absurd hx List.not_mem_nil
      priority := fun _ hx => absurd hx List.not_mem_nil
      current := fun _ hc => absurd hc (by simp [System.boot, bootState])
      delayed := Or.inl ⟨rfl, rfl⟩ }
  pending _ := rfl
  number := rfl

/-- Between any two calls of a run the lists agree with the tasks. -/
theorem Run.settled (h : Run alg heap sim hist s) : Settled s.created s.kernel := by
  induction h with
  | boot => exact boot_settled heap sim
  | call _ hal hok ih => exact (exec_survived ih hal hok).settled

theorem Run.created_nodup (h : Run alg heap sim hist s) : s.created.Nodup := by
  induction h with
  | boot => exact List.nodup_nil
  | @call _ _ c _ _ hal _ ih =>
      cases c with
      | create x p => exact List.nodup_cons.mpr ⟨hal, ih⟩
      | createPeriodic x id p period duration constraint =>
          exact List.nodup_cons.mpr ⟨hal.1, ih⟩
      | startScheduler idle timer =>
          obtain ⟨hi, ht, hne, -⟩ := hal
          refine List.nodup_cons.mpr ⟨fun hmem => ?_, List.nodup_cons.mpr ⟨hi, ih⟩⟩
          exact (List.mem_cons.mp hmem).elim (fun he => hne he.symm) ht
      | _ => exact ih

end FreeRtosSim
