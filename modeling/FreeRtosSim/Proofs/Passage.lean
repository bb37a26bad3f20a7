import FreeRtosSim.Proofs.Advance
import FreeRtosSim.Proofs.Countdown

/-!
# What a call is to the sleepers

Seen from the delayed lists a call is a number of ticks, and between them
tasks that are woken up and tasks that fall asleep. `Passage` lists the ticks
on the way; `T` are the tasks the call may take off a delayed list itself, and
`B` the ones it may put there.

A call is timely when it blocks for a wait the port can represent, and not
before the scheduler runs. Then the delayed lists are in order after the
call, and a sleeper that the call does not name has slept as many ticks as
the call has processed.
-/

namespace FreeRtosSim

variable {created : List TaskHandle} {alg : Algorithm} {st st₀ st₁ st₂ : State}
  {x y : TaskHandle} {T B : TaskHandle → Prop} {n r : Nat} {s : System} {c : Call}
  {l : List State}

namespace Call

/-- The task that the call may take off a delayed list. -/
def Rouses (x : TaskHandle) : Call → Prop
  | .suspend y | .suspendLists y | .removeFromEventList y => x = y
  | _ => False

instance (x : TaskHandle) (c : Call) : Decidable (c.Rouses x) :=
  match c with
  | .suspend y | .suspendLists y | .removeFromEventList y => Nat.decEq x y
  | .create .. | .createPeriodic .. | .startScheduler .. | .tick | .yield
  | .suspendYield _ | .resume _ | .resumeFromISR _ | .prioritySet .. | .delay _
  | .delayBlock _ | .delayYield | .suspendAll | .resumeAll | .catchUpTicks _
  | .placeOnEventList _ | .nextEntry _ => instDecidableFalse

/-- The ticks the call blocks the running task for. -/
def blocksFor : Call → Option Nat
  | .delay n => if n > 0 then some n else none
  | .delayBlock n | .placeOnEventList n => some n
  | _ => none

/-- The task that the call puts to sleep. -/
def Blocks (s : System) (c : Call) (x : TaskHandle) : Prop :=
  c.blocksFor ≠ none ∧ s.kernel.pxCurrentTCB = some x

instance (s : System) (c : Call) (x : TaskHandle) : Decidable (c.Blocks s x) := by
  unfold Blocks
  infer_instance

/-- A task blocks while the scheduler runs, and for a `TickType_t` that is not
zero. -/
def Timely (s : System) (c : Call) : Prop :=
  ∀ n ∈ c.blocksFor, s.kernel.xSchedulerRunning = true ∧ 1 ≤ n ∧ n ≤ portMaxDelay

instance (s : System) (c : Call) : Decidable (c.Timely s) := by
  unfold Timely
  infer_instance

end Call

inductive Passage (alg : Algorithm) (T B : TaskHandle → Prop) (st : State) :
    List State → State → Prop
  | refl : Passage alg T B st [] st
  | wake {created : List TaskHandle} {l : List State} {a b : State} :
      Passage alg T B st l a → WellLinked created a →
      OnlyWakes (fun x => T x ∨ x ∈ a.items .pendingReady) a b →
      Passage alg T B st l b
  | vacant {created : List TaskHandle} {l : List State} {a b : State} :
      Passage alg T B st l a → WellLinked created b →
      (∀ id : ListId, id.IsDelayed → a.items id = []) →
      (∀ id : ListId, id.IsDelayed → b.items id = []) → b.xTickCount < 2 ^ 64 →
      (a.xSchedulerRunning = true →
        b.xSchedulerRunning = true ∧ b.xTickCount = a.xTickCount) →
      Passage alg T B st l b
  | tick {created : List TaskHandle} {l : List State} {sw : Bool} {a b : State} :
      Passage alg T B st l a → Ticking created a →
      xTaskIncrementTick alg a = .ok (sw, b) →
      Passage alg T B st (l ++ [a]) b
  | block {created : List TaskHandle} {l : List State} {a : State} {x : TaskHandle}
      {n : Nat} {b : Bool} :
      Passage alg T B st l a → WellLinked created a → a.pxCurrentTCB = some x →
      B x → a.xSchedulerRunning = true → 1 ≤ n → n ≤ portMaxDelay →
      Passage alg T B st l (prvAddCurrentTaskToDelayedList n b a)

/-! ## What holds along the way -/

theorem Clocked.of_vacant (hw : WellLinked created st)
    (hnil : ∀ id : ListId, id.IsDelayed → st.items id = [])
    (ht : st.xTickCount < 2 ^ 64) : Clocked st where
  tick_lt := ht
  sorted id hid := by
    rw [hnil id hid]
    exact List.Pairwise.nil
  ahead x hx := by
    rw [hnil _ hw.isDelayed.1] at hx
    exact absurd hx List.not_mem_nil
  behind x hx := by
    rw [hnil _ hw.isDelayed.2] at hx
    exact absurd hx List.not_mem_nil
  next x hx := by
    rw [hnil _ hw.isDelayed.1] at hx
    exact absurd hx List.not_mem_nil
  started _ id hid := hnil id hid

theorem Passage.clocked (h : Passage alg T B st l st₁) (hc : Clocked st) :
    Clocked st₁ := by
  induction h with
  | refl => exact hc
  | wake _ hw ho ih => exact ho.clocked hw ih
  | vacant _ hw _ hnil ht _ _ => exact .of_vacant hw hnil ht
  | tick _ ht hok ih => exact ih.increment ht hok
  | block _ hw hcur _ hrun hn hmax ih => exact ih.delayedList hw hcur hrun hn hmax

/-- The ticks of a call take their number off what a sleeper has left. -/
theorem Passage.countdown (h : Passage alg T B st l st₁) (hc : Clocked st)
    (hx : Countdown x r st) (hT : ¬ T x) (hB : ¬ B x)
    (hord : ∀ e ∈ l, (e.tcb x).xTaskPeriod = 0) : Countdown x (r - l.length) st₁ := by
  induction h with
  | refl => exact hx
  | wake _ _ ho ih => exact (ih hord).wakes ho fun ht => absurd ht hT
  | @vacant _ l a b hp hw hnil hnil' _ _ ih =>
      have ha := ih hord
      cases hr : r - l.length with
      | zero =>
          intro id hid hm
          rw [hnil' id hid] at hm
          exact absurd hm List.not_mem_nil
      | succ m =>
          rw [hr] at ha
          have hs : Sleeps x (m + 1) a := ha
          obtain ⟨id, hid, hm⟩ := hs.asleep
          rw [hnil id hid] at hm
          exact absurd hm List.not_mem_nil
  | @tick _ l _ a _ hp ht hok ih =>
      have ha := ih fun e he => hord e (List.mem_append_left _ he)
      have hnext := ha.increment (hp.clocked hc) ht
        (fun _ => hord a (List.mem_append_right _ (List.mem_singleton.mpr rfl))) hok
      rwa [List.length_append, List.length_singleton, ← Nat.sub_sub]
  | block hp hw hcur hb _ _ _ ih =>
      refine (ih hord).fallsAsleep (delayedList_fallsAsleep (hp.clocked hc) hw hcur) ?_
      intro he
      exact hB (he ▸ hb)

/-- While the scheduler runs the tick count tells the ticks. -/
theorem Passage.clock (h : Passage alg T B st l st₁) (hrun : st.xSchedulerRunning = true)
    (ht : st.xTickCount < 2 ^ 64) :
    st₁.xSchedulerRunning = true ∧
      st₁.xTickCount = Clock.add (2 ^ 64) st.xTickCount l.length := by
  induction h with
  | refl => exact ⟨hrun, (Nat.mod_eq_of_lt ht).symm⟩
  | wake _ _ ho ih => exact ⟨ho.running.trans ih.1, ho.tick.trans ih.2⟩
  | vacant _ _ _ _ _ hsame ih =>
      obtain ⟨hr, heq⟩ := hsame ih.1
      exact ⟨hr, heq.trans ih.2⟩
  | tick _ hti hok ih =>
      have hproc := xTaskIncrementTick_processed hti.linked hti.nonePending hti.suspended hok
      refine ⟨hproc.running.trans ih.1, ?_⟩
      rw [hproc.tick, ih.2, List.length_append, List.length_singleton, tickAdd_eq,
        Clock.add_add]
  | @block _ _ _ _ n b _ hw _ _ _ _ _ ih =>
      have hm := delayedList_moved hw n b
      exact ⟨hm.jobs.running.trans ih.1, hm.jobs.tick.trans ih.2⟩

/-! ## Steps that nobody asleep sees -/

theorem OnlyWakes.of_globals (hw : WellLinked created st) (hl : st₁.lists = st.lists)
    (ht : st₁.tcb = st.tcb)
    (hg : st₁.xTickCount = st.xTickCount ∧ st₁.xSchedulerRunning = st.xSchedulerRunning ∧
      st₁.pxDelayedTaskList = st.pxDelayedTaskList ∧
      st₁.pxOverflowDelayedTaskList = st.pxOverflowDelayedTaskList ∧
      st₁.xNextTaskUnblockTime = st.xNextTaskUnblockTime) : OnlyWakes T st st₁ :=
  .of_same hw (fun id _ => by rw [State.items, hl]) (fun _ _ _ _ => by rw [ht])
    (fun x hx => Or.inl (by rwa [State.items, hl] at hx)) hg

theorem Passage.globals (h : Passage alg T B st₀ l st) (hw : WellLinked created st)
    (hl : st₁.lists = st.lists) (ht : st₁.tcb = st.tcb)
    (hg : st₁.xTickCount = st.xTickCount ∧ st₁.xSchedulerRunning = st.xSchedulerRunning ∧
      st₁.pxDelayedTaskList = st.pxDelayedTaskList ∧
      st₁.pxOverflowDelayedTaskList = st.pxOverflowDelayedTaskList ∧
      st₁.xNextTaskUnblockTime = st.xNextTaskUnblockTime) : Passage alg T B st₀ l st₁ :=
  h.wake hw (.of_globals hw hl ht hg)

theorem Passage.switchContext (h : Passage alg T B st₀ l st) (hw : WellLinked created st)
    (hok : vTaskSwitchContext st = .ok st₁) : Passage alg T B st₀ l st₁ :=
  h.wake hw (switchContext_onlyWakes hw hok)

theorem Passage.noteSwitch (h : Passage alg T B st₀ l st) (hw : WellLinked created st)
    (b : Bool) : Passage alg T B st₀ l (noteSwitch b st) := by
  rw [FreeRtosSim.noteSwitch]
  split
  · exact h.wake hw (yieldPending_onlyWakes hw true)
  · exact h

/-! ## Resuming the scheduler -/

theorem pendedTicks_passage (h : Ticking created st) (hp : Passage alg T B st₀ l st)
    (n : Nat) :
    (∀ l₁ e l₂, pendedTicks alg n st = l₁ ++ e :: l₂ →
      Passage alg T B st₀ (l ++ l₁) e ∧ Ticking created e) ∧
    ∀ st', pendedTicksLoop alg n st = .ok st' →
      Passage alg T B st₀ (l ++ pendedTicks alg n st) st' ∧ Ticking created st' := by
  exact pendedTicks_induct alg
    (I := fun l e => Passage alg T B st₀ l e ∧ Ticking created e)
    (P := fun _ => True)
    (fun l st sw st' hi _ hok => by
      have hproc := xTaskIncrementTick_processed hi.2.linked hi.2.nonePending
        hi.2.suspended hok
      exact ⟨(hi.1.tick hi.2 hok).noteSwitch hproc.linked sw, hi.2.next hok⟩)
    n l st ⟨hp, h⟩ fun _ _ => trivial

theorem resumeAll_passage (h : Settled created st) (hp : Passage alg T B st₀ [] st) :
    (∀ l₁ e l₂, resumeAllTicks alg st = l₁ ++ e :: l₂ →
      Passage alg T B st₀ l₁ e ∧ Ticking created e) ∧
    ∀ b st', xTaskResumeAll alg st = .ok (b, st') →
      Passage alg T B st₀ (resumeAllTicks alg st) st' := by
  by_cases hr : Resumes st
  · obtain ⟨-, htick⟩ := resumed_moved alg h.linked
    have hl₀ : WellLinked created { st with uxSchedulerSuspended := 0 } :=
      h.linked.congr ⟨rfl, fun _ => rfl, fun _ => rfl, fun _ => rfl, rfl, rfl, rfl⟩
    have hopen : Passage alg T B st₀ [] { st with uxSchedulerSuspended := 0 } :=
      hp.globals h.linked rfl rfl ⟨rfl, rfl, rfl, rfl, rfl⟩
    have hstart : Passage alg T B st₀ [] (resumed alg st) :=
      hopen.wake hl₀ ((resumePending_onlyWakes hl₀).mono fun _ hx => Or.inr hx)
    obtain ⟨hall, hend⟩ := pendedTicks_passage htick hstart (resumed alg st).xPendedTicks
    rw [resumeAllTicks_eq hr]
    refine ⟨hall, fun b st' hok => ?_⟩
    obtain ⟨-, ⟨-, st₂, hloop, hlast⟩ | ⟨hno, -⟩⟩ := xTaskResumeAll_ok hok
    · obtain ⟨hreplay, ht₂⟩ := hend st₂ hloop
      have hl₂ : WellLinked created { st₂ with xPendedTicks := 0 } :=
        ht₂.linked.congr ⟨rfl, fun _ => rfl, fun _ => rfl, fun _ => rfl, rfl, rfl, rfl⟩
      have hcleared : Passage alg T B st₀ ([] ++ pendedTicks alg (resumed alg st).xPendedTicks
          (resumed alg st)) { st₂ with xPendedTicks := 0 } :=
        hreplay.globals ht₂.linked rfl rfl ⟨rfl, rfl, rfl, rfl, rfl⟩
      rcases hlast with hsw | heq
      · exact hcleared.switchContext hl₂ hsw
      · exact heq ▸ hcleared
    · exact absurd hr hno
  · rw [resumeAllTicks_nil hr]
    refine ⟨fun l₁ e l₂ hs => absurd hs (by simp), fun b st' hok => ?_⟩
    obtain ⟨-, ⟨hr', -⟩ | ⟨-, heq⟩⟩ := xTaskResumeAll_ok hok
    · exact absurd hr' hr
    · exact heq ▸ hp.globals h.linked rfl rfl ⟨rfl, rfl, rfl, rfl, rfl⟩

theorem delayYield_passage (h : Settled created st) (hp : Passage alg T B st₀ [] st)
    (hok : vTaskDelayYield alg st = .ok st₁) :
    Passage alg T B st₀ (resumeAllTicks alg st) st₁ := by
  rw [vTaskDelayYield] at hok
  cases hres : xTaskResumeAll alg st with
  | error e =>
      rw [hres] at hok
      exact absurd hok (by simp [bind, Except.bind])
  | ok r =>
      obtain ⟨b, st₂⟩ := r
      rw [hres] at hok
      have hp₂ := (resumeAll_passage h hp).2 b st₂ hres
      have hs₂ := (xTaskResumeAll_settled h hres).1
      cases b with
      | true =>
          cases hok
          exact hp₂
      | false => exact hp₂.switchContext hs₂.linked hok

/-! ## Blocking -/

theorem Passage.delayedList {b : Bool} (h : Passage alg T B st₀ l st)
    (hw : WellLinked created st) (hB : ∀ x, st.pxCurrentTCB = some x → B x)
    (hrun : st.xSchedulerRunning = true) (hn : 1 ≤ n) (hmax : n ≤ portMaxDelay) :
    Passage alg T B st₀ l (prvAddCurrentTaskToDelayedList n b st) := by
  cases hc : st.pxCurrentTCB with
  | none =>
      have heq : prvAddCurrentTaskToDelayedList n b st = st := by
        rw [prvAddCurrentTaskToDelayedList, hc]
      rw [heq]
      exact h
  | some x => exact h.block hw hc (hB x hc) hrun hn hmax

theorem delayBlock_passage (h : Settled created st)
    (hB : ∀ x, st.pxCurrentTCB = some x → B x) (hrun : st.xSchedulerRunning = true)
    (hn : 1 ≤ n) (hmax : n ≤ portMaxDelay) (hok : vTaskDelayBlock n st = .ok st₁) :
    Passage alg T B st [] st₁ := by
  obtain ⟨-, -, hz, -⟩ := delayBlock_settled h hok
  simp only [vTaskDelayBlock, configAssert, hz, decide_true, if_true, bind,
    Except.bind, pure, Except.pure, Except.ok.injEq] at hok
  have hsuspend : Passage alg T B st [] (vTaskSuspendAll st) :=
    Passage.refl.globals h.linked rfl rfl ⟨rfl, rfl, rfl, rfl, rfl⟩
  exact hok ▸ hsuspend.delayedList (suspendAll_settled h).linked hB hrun hn hmax

theorem placeOnEventList_passage (hw : WellLinked created st)
    (hB : ∀ x, st.pxCurrentTCB = some x → B x) (hrun : st.xSchedulerRunning = true)
    (hn : 1 ≤ n) (hmax : n ≤ portMaxDelay) :
    Passage alg T B st [] (vTaskPlaceOnEventList n st) := by
  rw [vTaskPlaceOnEventList]
  cases hc : st.pxCurrentTCB with
  | none => exact Passage.refl.delayedList hw hB hrun hn hmax
  | some x =>
      have hev := blockOnEvent_moved hw (c := x)
      refine Passage.delayedList ?_ hev.linked (fun y hy => hB y hy) hrun hn hmax
      exact Passage.refl.wake hw (modifyTcb_onlyWakes hw rfl)

/-! ## Creation -/

/-- The first task finds the lists empty and leaves the delayed ones so. -/
theorem chooseCurrent_passage (h : Passage alg T B st₀ l st)
    (ht : st.xTickCount < 2 ^ 64) (hw : WellLinked (x :: created) st)
    (hnone : (st.tcb x).pxContainer = none)
    (hnum : st.uxCurrentNumberOfTasks = created.length + 1) :
    Passage alg T B st₀ l (chooseCurrent x st) := by
  obtain ⟨hw₁, -⟩ := chooseCurrent_linked hw hnone hnum
  have hsame : Passage alg T B st₀ l { st with pxCurrentTCB := some x } :=
    h.globals hw rfl rfl ⟨rfl, rfl, rfl, rfl, rfl⟩
  rw [chooseCurrent] at hw₁ ⊢
  cases hc : st.pxCurrentTCB with
  | none =>
      rw [hc] at hw₁
      dsimp only at hw₁ ⊢
      split
      · next hone =>
          rw [if_pos hone] at hw₁
          have hnil : created = [] := List.length_eq_zero_iff.mp (by omega)
          refine h.vacant hw₁ (fun id hid => ?_) (fun _ _ => rfl) ht fun hr => ⟨hr, rfl⟩
          refine List.eq_nil_iff_forall_not_mem.mpr fun y hy => ?_
          obtain ⟨hyc, hcont⟩ := (hw.linked id hid.ne_pendingReady y).mp hy
          rw [hnil, List.mem_singleton] at hyc
          rw [hyc, hnone] at hcont
          exact absurd hcont (by simp)
      · exact hsame
  | some c =>
      dsimp only
      split
      · split
        · exact hsame
        · exact h
      · exact h

theorem yieldIfOutranked_passage (h : Passage alg T B st₀ l st)
    (hw : WellLinked created st) (hok : yieldIfOutranked x st = .ok st₁) :
    Passage alg T B st₀ l st₁ := by
  rw [yieldIfOutranked] at hok
  split at hok
  · cases hok
    exact h
  · split at hok
    · exact h.switchContext hw hok
    · cases hok
      exact h

/-- Writing a block that is no task's. -/
theorem Passage.writeFresh (h : Passage alg T B st₀ l st) (hw : WellLinked created st)
    (hx : x ∉ created) (f : TCB → TCB) : Passage alg T B st₀ l (st.modifyTcb x f) := by
  refine h.wake hw (.of_same hw (fun _ _ => rfl) (fun id hid y hy => ?_)
    (fun _ hp => Or.inl hp) ⟨rfl, rfl, rfl, rfl, rfl⟩)
  have hne : y ≠ x := fun he =>
    hx (he ▸ ((hw.linked id hid.ne_pendingReady y).mp hy).1)
  simp [hne]

theorem create_passage {f : TCB → TCB} {p : Nat} (h : Passage alg T B st₀ l st)
    (hs : Settled created st) (ht : st.xTickCount < 2 ^ 64) (hx : x ∉ created)
    (hok : (do
      let st ← prvInitialiseNewTask x p (st.modifyTcb x f)
      prvAddNewTaskToReadyList alg x st) = .ok st₁) :
    Passage alg T B st₀ l st₁ ∧ st₁.xSchedulerRunning = st.xSchedulerRunning := by
  cases hinit : prvInitialiseNewTask x p (st.modifyTcb x f) with
  | error e =>
      rw [hinit] at hok
      exact absurd hok (by simp [bind, Except.bind])
  | ok st₂ =>
      rw [hinit] at hok
      obtain ⟨hp, heq⟩ := prvInitialiseNewTask_ok hinit
      have hw₁ := hs.linked.writeFresh hx f
      have hw₂ := hw₁.writeFresh hx fun b =>
        { b with uxPriority := p, pxContainer := none, inEventList := false }
      have h₂ : Passage alg T B st₀ l st₂ := by
        rw [heq]
        exact (h.writeFresh hs.linked hx f).writeFresh hw₁ hx _
      rw [← heq] at hw₂
      have hnone : (st₂.tcb x).pxContainer = none := by simp [heq]
      have hprio : (st₂.tcb x).uxPriority < configMaxPriorities := by simpa [heq] using hp
      have hnum : st₂.uxCurrentNumberOfTasks = created.length := by
        rw [heq]
        exact hs.number
      have htick : st₂.xTickCount < 2 ^ 64 := by
        rw [heq]
        exact ht
      have hcount : WellLinked (x :: created)
          { st₂ with uxCurrentNumberOfTasks := st₂.uxCurrentNumberOfTasks + 1 } :=
        (hw₂.enroll hx hnone hprio).congr
          ⟨rfl, fun _ => rfl, fun _ => rfl, fun _ => rfl, rfl, rfl, rfl⟩
      have hcounted : Passage alg T B st₀ l
          { st₂ with uxCurrentNumberOfTasks := st₂.uxCurrentNumberOfTasks + 1 } :=
        h₂.globals hw₂ rfl rfl ⟨rfl, rfl, rfl, rfl, rfl⟩
      have hchosen := chooseCurrent_passage hcounted htick hcount hnone (by rw [← hnum])
      have hrun₂ : st₂.xSchedulerRunning = st.xSchedulerRunning := by rw [heq]; rfl
      obtain ⟨hw₃, htcb, hglob, -⟩ := chooseCurrent_linked hcount hnone (by rw [← hnum])
      have hrun₃ := hglob.running.trans hrun₂
      simp only [bind, Except.bind, prvAddNewTaskToReadyList] at hok
      generalize chooseCurrent x
        { st₂ with uxCurrentNumberOfTasks := st₂.uxCurrentNumberOfTasks + 1 } = s at *
      have hnone₃ : (s.tcb x).pxContainer = none := by
        rw [htcb]
        exact hnone
      have hw₄ : WellLinked (x :: created) (prvAddTaskToReadyList alg x s) :=
        hw₃.prvAddTaskToReadyList (List.mem_cons_self ..) hnone₃
      have hput := prvAddTaskToReadyList_readied alg hw₃.wellFormed hnone₃
      exact ⟨yieldIfOutranked_passage
          (hchosen.wake hw₃ (prvAddTaskToReadyList_onlyWakes hw₃ hnone₃)) hw₄ hok,
        (yieldIfOutranked_moved hw₄ hok).1.jobs.running.trans
          (hput.jobs.running.trans hrun₃)⟩

theorem createStatic_passage {p : Nat} (h : Passage alg T B st₀ l st)
    (hs : Settled created st) (ht : st.xTickCount < 2 ^ 64) (hx : x ∉ created)
    (hok : xTaskCreateStatic alg x p st = .ok st₁) :
    Passage alg T B st₀ l st₁ ∧ st₁.xSchedulerRunning = st.xSchedulerRunning := by
  rw [xTaskCreateStatic, ← modifyTcb_id st x] at hok
  exact create_passage h hs ht hx hok

/-- Before the start nobody is asleep, so the tick count may be set. -/
theorem startScheduler_passage {idle timer : TaskHandle} (h : Clocked st)
    (hs : Settled created st) (hi : idle ∉ created) (ht : timer ∉ created)
    (hne : idle ≠ timer) (hrun : st.xSchedulerRunning = false)
    (hok : vTaskStartScheduler alg idle timer st = .ok st₁) :
    Passage alg T B st [] st₁ := by
  obtain ⟨st₂, st₃, hidle, htimer, rfl⟩ := startScheduler_ok hok
  obtain ⟨hs₂, htick₂, -⟩ := createStatic_survived hs hi hidle
  have ht' := not_mem_cons_of_ne ht hne
  obtain ⟨hs₃, -, -⟩ := createStatic_survived hs₂.settled ht' htimer
  have hfirst : Passage alg T B st [] st := .refl
  obtain ⟨h₂, hrun₂⟩ := createStatic_passage hfirst hs h.tick_lt hi hidle
  obtain ⟨h₃, hrun₃⟩ := createStatic_passage h₂ hs₂.settled
    (by rw [htick₂]; exact h.tick_lt) ht' htimer
  have hnil := (h₃.clocked h).started (hrun₃.trans (hrun₂.trans hrun))
  have hstopped := hrun₃.trans (hrun₂.trans hrun)
  refine h₃.vacant (hs₃.settled.linked.congr ?_) hnil hnil (Nat.two_pow_pos 64)
    fun hr => absurd (hr.symm.trans hstopped) (by simp)
  exact ⟨rfl, fun _ => rfl, fun _ => rfl, fun _ => rfl, rfl, rfl, rfl⟩

/-! ## The calls -/

theorem delay_passage (h : Settled created st)
    (hB : 0 < n → ∀ x, st.pxCurrentTCB = some x → B x)
    (ht : 0 < n → st.xSchedulerRunning = true ∧ n ≤ portMaxDelay) :
    (∀ l₁ e l₂, (Call.delay n).ticks alg st = l₁ ++ e :: l₂ →
      Passage alg T B st l₁ e ∧ Ticking created e) ∧
    ∀ st', vTaskDelay alg n st = .ok st' →
      Passage alg T B st ((Call.delay n).ticks alg st) st' := by
  by_cases hn : n > 0
  · rw [Call.ticks, vTaskDelay, if_pos hn]
    cases hblock : vTaskDelayBlock n st with
    | error e =>
        refine ⟨fun l₁ e l₂ hs => absurd hs (by simp), fun st' hok => ?_⟩
        exact absurd hok (by simp [bind, Except.bind])
    | ok st₂ =>
        have hp : Passage alg T B st [] st₂ :=
          delayBlock_passage h (hB hn) (ht hn).1 hn (ht hn).2 hblock
        obtain ⟨hs, -⟩ := delayBlock_settled h hblock
        dsimp only
        rw [if_pos hn]
        exact ⟨(resumeAll_passage hs hp).1, fun st' hok => delayYield_passage hs hp hok⟩
  · have hnil : (Call.delay n).ticks alg st = [] := by
      rw [Call.ticks]
      split
      · rfl
      · exact if_neg hn
    rw [hnil, vTaskDelay, if_neg hn]
    exact ⟨fun l₁ e l₂ hs => absurd hs (by simp),
      fun st' hok => Passage.refl.switchContext h.linked hok⟩

theorem tick_passage (h : Settled created st) :
    (∀ l₁ e l₂, Call.tick.ticks alg st = l₁ ++ e :: l₂ →
      Passage alg T B st l₁ e ∧ Ticking created e) ∧
    ∀ st', vPortSystemTickHandler alg st = .ok st' →
      Passage alg T B st (Call.tick.ticks alg st) st' := by
  by_cases hz : st.uxSchedulerSuspended = 0
  · have ht := h.ticking hz
    rw [show Call.tick.ticks alg st = [st] from if_pos hz]
    refine ⟨fun l₁ e l₂ hs => ?_, fun st' hok => ?_⟩
    · obtain ⟨rfl, rfl, -⟩ : l₁ = [] ∧ e = st ∧ l₂ = [] := by
        cases l₁ with
        | nil =>
            rw [List.nil_append, List.cons.injEq] at hs
            exact ⟨rfl, hs.1.symm, hs.2.symm⟩
        | cons a l₁ => exact absurd hs (by simp)
      exact ⟨.refl, ht⟩
    · rw [vPortSystemTickHandler] at hok
      cases htick : xTaskIncrementTick alg st with
      | error e =>
          rw [htick] at hok
          exact absurd hok (by simp [bind, Except.bind])
      | ok r =>
          obtain ⟨sw, st₂⟩ := r
          rw [htick] at hok
          have hproc := xTaskIncrementTick_processed ht.linked ht.nonePending
            ht.suspended htick
          exact (Passage.refl.tick ht htick).switchContext hproc.linked hok
  · rw [show Call.tick.ticks alg st = [] from if_neg hz]
    refine ⟨fun l₁ e l₂ hs => absurd hs (by simp), fun st' hok => ?_⟩
    rw [vPortSystemTickHandler, xTaskIncrementTick, if_neg hz] at hok
    have hcount : Passage alg T B st []
        { st with xPendedTicks := tickAdd st.xPendedTicks 1 } :=
      Passage.refl.globals h.linked rfl rfl ⟨rfl, rfl, rfl, rfl, rfl⟩
    exact hcount.switchContext (h.linked.congr
      ⟨rfl, fun _ => rfl, fun _ => rfl, fun _ => rfl, rfl, rfl, rfl⟩) hok

theorem exec_passage (alg : Algorithm) (h : Settled s.created s.kernel) (hc : Clocked s.kernel)
    (hal : c.Allowed s) (ht : c.Timely s) :
    (∀ l₁ e l₂, c.ticks alg s.kernel = l₁ ++ e :: l₂ →
      Passage alg (c.Rouses ·) (c.Blocks s) s.kernel l₁ e ∧ Ticking s.created e) ∧
    ∀ st, c.exec alg s.kernel = .ok st →
      Passage alg (c.Rouses ·) (c.Blocks s) s.kernel (c.ticks alg s.kernel) st := by
  have hl := h.linked
  have hnil : ∀ {P : List State → State → Prop},
      ∀ l₁ e l₂, ([] : List State) = l₁ ++ e :: l₂ → P l₁ e :=
    fun l₁ e l₂ hs => absurd hs (by simp)
  -- One wake-up by the task the call names.
  have hnamed : ∀ {a : State} {y : TaskHandle}, (∀ x, x = y → c.Rouses x) →
      OnlyWakes (· = y) s.kernel a →
      Passage alg (c.Rouses ·) (c.Blocks s) s.kernel [] a := fun hy ho =>
    Passage.refl.wake hl (ho.mono fun x hx => Or.inl (hy x hx))
  cases c with
  | create x p =>
      exact ⟨hnil, fun st hok => (createStatic_passage .refl h hc.tick_lt hal hok).1⟩
  | createPeriodic x id p period duration constraint =>
      exact ⟨hnil, fun st hok => (create_passage .refl h hc.tick_lt hal.1 hok).1⟩
  | startScheduler idle timer =>
      obtain ⟨hi, hti, hne, hrun⟩ := hal
      exact ⟨hnil, fun st hok => startScheduler_passage hc h hi hti hne hrun hok⟩
  | tick => exact tick_passage h
  | yield => exact ⟨hnil, fun st hok => Passage.refl.switchContext hl hok⟩
  | suspend x =>
      refine ⟨hnil, fun st hok => ?_⟩
      have hm := vTaskSuspendLists_moved hl hal
      exact (hnamed (fun _ hx => hx) (suspendLists_onlyWakes hl hal)).wake hm.linked
        (suspendYield_onlyWakes hm.linked hok)
  | suspendLists x =>
      refine ⟨hnil, fun st hok => ?_⟩
      cases hok
      exact hnamed (fun _ hx => hx) (suspendLists_onlyWakes hl hal)
  | suspendYield x =>
      exact ⟨hnil, fun st hok => Passage.refl.wake hl (suspendYield_onlyWakes hl hok)⟩
  | resume x =>
      exact ⟨hnil, fun st hok => Passage.refl.wake hl (resume_onlyWakes hl hal hok)⟩
  | resumeFromISR x =>
      refine ⟨hnil, fun st hok => ?_⟩
      cases hok
      exact Passage.refl.wake hl (resumeFromISR_onlyWakes hl hal)
  | prioritySet x p =>
      exact ⟨hnil, fun st hok => Passage.refl.wake hl (prioritySet_onlyWakes hl hal hok)⟩
  | delay n =>
      refine delay_passage h (fun hn x hx => ⟨?_, hx⟩) fun hn => ?_
      · simp [Call.blocksFor, hn]
      · obtain ⟨hrun, -, hmax⟩ := ht n (by simp [Call.blocksFor, hn])
        exact ⟨hrun, hmax⟩
  | delayBlock n =>
      obtain ⟨hrun, hn, hmax⟩ := ht n rfl
      exact ⟨hnil, fun st hok => delayBlock_passage h
        (fun x hx => ⟨by simp [Call.blocksFor], hx⟩) hrun hn hmax hok⟩
  | delayYield =>
      exact ⟨(resumeAll_passage h .refl).1, fun st hok => delayYield_passage h .refl hok⟩
  | suspendAll =>
      refine ⟨hnil, fun st hok => ?_⟩
      cases hok
      exact Passage.refl.globals hl rfl rfl ⟨rfl, rfl, rfl, rfl, rfl⟩
  | resumeAll =>
      obtain ⟨hall, hend⟩ := resumeAll_passage h .refl
      refine ⟨hall, fun st hok => ?_⟩
      obtain ⟨b, hres⟩ := exec_resumeAll hok
      exact hend b st hres
  | catchUpTicks n =>
      have hpend : Passage alg ((Call.catchUpTicks n).Rouses ·)
          ((Call.catchUpTicks n).Blocks s) s.kernel [] (pendTicks n s.kernel) :=
        Passage.refl.globals hl rfl rfl ⟨rfl, rfl, rfl, rfl, rfl⟩
      obtain ⟨hall, hend⟩ := resumeAll_passage (pendTicks_settled h n) hpend
      refine ⟨hall, fun st hok => ?_⟩
      obtain ⟨b, hres⟩ := exec_resumeAll hok
      exact hend b st (catchUpTicks_ok hres).2
  | placeOnEventList n =>
      obtain ⟨hrun, hn, hmax⟩ := ht n rfl
      refine ⟨hnil, fun st hok => ?_⟩
      cases hok
      exact placeOnEventList_passage hl (fun x hx => ⟨by simp [Call.blocksFor], hx⟩)
        hrun hn hmax
  | removeFromEventList x =>
      refine ⟨hnil, fun st hok => ?_⟩
      cases hok
      exact hnamed (fun _ hx => hx) (removeFromEventList_onlyWakes hl hal.1)
  | nextEntry id =>
      refine ⟨hnil, fun st hok => ?_⟩
      cases hok
      exact Passage.refl.wake hl (setIndex_onlyWakes hl id _)

end FreeRtosSim
