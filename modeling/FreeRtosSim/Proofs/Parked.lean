import FreeRtosSim.Proofs.Sound

/-!
# A blocked task is not run

A task that waits on an event list has left the ready lists, and for a task
without a period only two things bring it back: the wake-up, which takes its
event item off the event list first, and the end of its time-out, where the
tick does the same. So as long as such a task is on an event list the scheduler
does not choose it. With a period it is otherwise: `wakeTasks` releases the
next job without a look at the event list, once the accounting has moved the
task to `xWaitTaskList` in a tick that was held back.
-/

namespace FreeRtosSim

variable {created : List TaskHandle} {alg : Algorithm} {st st₁ st₂ : State}
  {x y : TaskHandle} {id : ListId} {heap : TaskHandle → TCB} {sim : Simulator}
  {hist : List (System × Call)} {s : System} {c : Call}

/-- The task has no period and is on an event list, and yet ready or on its way
there. -/
def TCB.Astray (b : TCB) : Prop :=
  b.xTaskPeriod = 0 ∧ b.inEventList = true ∧
    (b.pxContainer = some .wait ∨ ∃ p, b.pxContainer = some (.ready p))

/-- The event list is not `xPendingReadyList`, which is emptied when the
scheduler is resumed. -/
def Astray (x : TaskHandle) (st : State) : Prop :=
  (st.tcb x).Astray ∧ x ∉ st.items .pendingReady

/-- No task goes astray. -/
def Guides (created : List TaskHandle) (st st' : State) : Prop :=
  ∀ x ∈ created, Astray x st' → Astray x st

theorem Guides.refl (st : State) : Guides created st st := fun _ _ h => h

theorem Guides.trans (h : Guides created st st₁) (h' : Guides created st₁ st₂) :
    Guides created st st₂ := fun x hx ha => h x hx (h' x hx ha)

/-- One task is moved. -/
theorem Guides.place (hother : ∀ y, y ≠ x → st₁.tcb y = st.tcb y)
    (hpend : ∀ y, y ≠ x → y ∈ st.items .pendingReady → y ∈ st₁.items .pendingReady)
    (hx : Astray x st₁ → Astray x st) : Guides created st st₁ := by
  intro y _ ha
  by_cases hyx : y = x
  · subst hyx
    exact hx ha
  · exact ⟨hother y hyx ▸ ha.1, fun hm => ha.2 (hpend y hyx hm)⟩

theorem Guides.of_tcb (h : st₁.tcb = st.tcb)
    (hp : st₁.items .pendingReady = st.items .pendingReady) : Guides created st st₁ :=
  fun _ _ ha => ⟨h ▸ ha.1, hp ▸ ha.2⟩

theorem TCB.Astray.list_ne {b : TCB} (h : b.Astray) (hc : b.pxContainer = some id)
    (hid : id = .suspended ∨ id = .delayed1 ∨ id = .delayed2) : False := by
  rcases h.2.2 with hw | ⟨p, hr⟩
  · have he := Option.some_inj.mp (hc.symm.trans hw)
    rcases hid with rfl | rfl | rfl <;> exact ListId.noConfusion he
  · have he := Option.some_inj.mp (hc.symm.trans hr)
    rcases hid with rfl | rfl | rfl <;> exact ListId.noConfusion he

/-! ## Single operations -/

theorem switchContext_guides (hok : vTaskSwitchContext st = .ok st₁) :
    Guides created st st₁ := by
  obtain ⟨_, _, _, heq, -⟩ := vTaskSwitchContext_ok hok
  subst heq
  exact .of_tcb rfl rfl

/-- The task chosen is the first of a ready list. -/
theorem switchContext_chooses (hz : st.uxSchedulerSuspended = 0)
    (hok : vTaskSwitchContext st = .ok st₁) :
    ∃ p, st₁.pxCurrentTCB = (st.items (.ready p)).head? := by
  rw [vTaskSwitchContext, if_neg (not_not_intro hz), taskSelectHighestPriorityTask] at hok
  cases hp : selectTopPriority { st with xYieldPending := false }
      st.uxTopReadyPriority with
  | error e =>
      simp only [hp, bind, Except.bind] at hok
      exact absurd hok (by simp)
  | ok p =>
      simp only [hp, bind, Except.bind, pure, Except.pure, Except.ok.injEq] at hok
      exact ⟨p, by rw [← hok]⟩

theorem switchIf_guides {b : Prop} [Decidable b]
    (hok : (if b then vTaskSwitchContext st else .ok st) = .ok st₁) :
    Guides created st st₁ := by
  split at hok
  · exact switchContext_guides hok
  · cases hok
    exact .refl st

/-- Into a ready list goes a task that is on no event list or is ready
already. -/
theorem Readied.guides (h : Readied alg x st st₁)
    (hx : (st.tcb x).inEventList = false ∨
      ∃ p, (st.tcb x).pxContainer = some (.ready p)) : Guides created st st₁ := by
  have hitems : st₁.items .pendingReady = st.items .pendingReady :=
    congrArg CursorList.items h.pendingReady
  refine .place h.others (fun y _ hm => hitems ▸ hm) ?_
  rintro ⟨⟨hper, hev, -⟩, hout⟩
  have hev : (st.tcb x).inEventList = true := (h.event x).symm.trans hev
  rcases hx with hno | hready
  · exact absurd (hev.symm.trans hno) (by simp)
  · exact ⟨⟨(h.jobs.period x).symm.trans hper, hev, Or.inr hready⟩, hitems ▸ hout⟩

theorem removeEventItem_guides (x : TaskHandle) :
    Guides created st (removeEventItem x st) := by
  have hitems : (removeEventItem x st).items .pendingReady =
      (st.items .pendingReady).erase x := by
    simp [removeEventItem, State.items]
  refine .place (x := x) (fun y hy => by simp [removeEventItem, hy]) (fun y hy hm => ?_)
    fun ha => ?_
  · rw [hitems]
    exact (List.mem_erase_of_ne hy).mpr hm
  · have hev := ha.1.2.1
    simp [removeEventItem] at hev

theorem insertPendingReady_guides (x : TaskHandle) :
    Guides created st (insertPendingReady x st) := by
  have hitems : (insertPendingReady x st).items .pendingReady =
      ((st.lists .pendingReady).insertEnd x).items := by
    simp [insertPendingReady, State.items]
  have hmem : ∀ y, y ∈ (insertPendingReady x st).items .pendingReady ↔
      y ∈ x :: st.items .pendingReady := fun y => by
    rw [hitems]
    exact (CursorList.perm_insertEnd _ x).mem_iff
  refine .place (x := x) (fun y hy => by simp [insertPendingReady, hy])
    (fun y _ hm => (hmem y).mpr (List.mem_cons_of_mem x hm)) fun ha => ?_
  exact absurd ((hmem x).mpr (List.mem_cons_self ..)) ha.2

theorem uxListRemove_guides (h : WellLinked created st) (hx : x ∈ created) :
    Guides created st (uxListRemove x st) := by
  refine .place (x := x) (fun y hy => uxListRemove_tcb_other hy) (fun y _ hm => ?_)
    fun ha => ?_
  · rwa [State.items, uxListRemove_lists (h.not_pendingReady hx)]
  · have hlist := ha.1.2.2
    rw [uxListRemove_container] at hlist
    rcases hlist with hw | ⟨p, hp⟩
    · exact absurd hw (by simp)
    · exact absurd hp (by simp)

/-- A blocked task's lists take a task. -/
theorem link_guides {l : CursorList TaskHandle}
    (hid : id = .suspended ∨ id = .delayed1 ∨ id = .delayed2) :
    Guides created st (link id l x st) := by
  have hitems : (link id l x st).items .pendingReady = st.items .pendingReady := by
    rcases hid with rfl | rfl | rfl <;> simp [link, State.items]
  exact .place (x := x) (fun y hy => link_tcb_other hy) (fun y _ hm => hitems ▸ hm)
    fun ha => (ha.1.list_ne link_container_self hid).elim

theorem setItemValue_guides (v : Nat) : Guides created st (setItemValue x v st) := by
  refine .place (x := x) (fun y hy => by simp [setItemValue, hy]) (fun y _ hm => hm)
    fun ha => ⟨?_, ha.2⟩
  have hb := ha.1
  simp only [TCB.Astray, setItemValue, State.modifyTcb_tcb, Function.update_self] at hb
  exact hb

/-! ## The calls that only move tasks -/

theorem suspendLists_guides (h : WellLinked created st) (hx : x ∈ created) :
    Guides created st (vTaskSuspendLists x st) := by
  have hout := uxListRemove_guides h hx
  rw [vTaskSuspendLists]
  split
  · exact (hout.trans (removeEventItem_guides x)).trans (link_guides (Or.inl rfl))
  · exact hout.trans (link_guides (Or.inl rfl))

theorem suspendYield_guides (hok : vTaskSuspendYield x st = .ok st₁) :
    Guides created st st₁ := by
  have hreset : Guides created st
      (if st.xSchedulerRunning then prvResetNextTaskUnblockTime st else st) := by
    split
    · exact .of_tcb rfl rfl
    · exact .refl st
  rw [vTaskSuspendYield] at hok
  generalize (if st.xSchedulerRunning then prvResetNextTaskUnblockTime st else st)
    = s at hok hreset
  refine hreset.trans ?_
  split at hok
  · split at hok
    · rw [configAssert] at hok
      split at hok
      · exact switchContext_guides hok
      · exact absurd hok (by simp [bind, Except.bind])
    · split at hok
      · cases hok
        exact .of_tcb rfl rfl
      · exact switchContext_guides hok
  · cases hok
    exact .refl _

theorem resume_guides (h : WellLinked created st) (hx : x ∈ created)
    (hok : vTaskResume alg x st = .ok st₁) : Guides created st st₁ := by
  rw [vTaskResume] at hok
  split at hok
  · next hs =>
      have hfree := (prvTaskIsTaskSuspended_iff.mp hs.2).2.2
      exact ((addTaskToReadyList_readied alg h hx).guides (Or.inl hfree)).trans
        (switchIf_guides hok)
  · cases hok
    exact .refl st

theorem resumeFromISR_guides (h : WellLinked created st) (hx : x ∈ created) :
    Guides created st (xTaskResumeFromISR alg x st) := by
  rw [xTaskResumeFromISR]
  split
  · next hsus =>
      have hfree := (prvTaskIsTaskSuspended_iff.mp hsus).2.2
      split
      · split
        · have hl := (yieldPending_moved h true).linked
          exact Guides.trans (.of_tcb rfl rfl)
            ((addTaskToReadyList_readied alg hl hx).guides (Or.inl hfree))
        · exact (addTaskToReadyList_readied alg h hx).guides (Or.inl hfree)
      · exact insertPendingReady_guides x
  · exact .refl st

theorem removeFromEventList_guides (h : WellLinked created st) (hx : x ∈ created) :
    Guides created st (xTaskRemoveFromEventList alg x st) := by
  have hput : Guides created st
      (if (removeEventItem x st).uxSchedulerSuspended = 0 then
        addTaskToReadyList alg x (removeEventItem x st)
      else insertPendingReady x (removeEventItem x st)) := by
    refine (removeEventItem_guides x).trans ?_
    split
    · refine (addTaskToReadyList_readied alg (h.removeEventItem x) hx).guides (Or.inl ?_)
      simp [removeEventItem]
    · exact insertPendingReady_guides x
  rw [xTaskRemoveFromEventList]
  generalize (if (removeEventItem x st).uxSchedulerSuspended = 0 then
    addTaskToReadyList alg x (removeEventItem x st)
    else insertPendingReady x (removeEventItem x st)) = s at hput ⊢
  split
  · exact hput
  · split
    · exact hput.trans (.of_tcb rfl rfl)
    · exact hput

theorem setPriority_guides (p : Nat) :
    Guides created st (st.modifyTcb x fun b => { b with uxPriority := p }) := by
  refine .place (x := x) (fun y hy => by simp [hy]) (fun y _ hm => hm)
    fun ha => ⟨?_, ha.2⟩
  have hb := ha.1
  simp only [TCB.Astray, State.modifyTcb_tcb, Function.update_self] at hb
  exact hb

/-- Only a task that is ready is moved. -/
theorem prioritySet_guides {p : Nat} (h : WellLinked created st) (hx : x ∈ created)
    (hok : vTaskPrioritySet alg x p st = .ok st₁) : Guides created st st₁ := by
  by_cases hp : p < configMaxPriorities
  · have hset := setPriority_moved (x := x) h hp
    have hput : Guides created st
        (if ((st.modifyTcb x fun b => { b with uxPriority := p }).tcb
            x).pxContainer = some (.ready (st.tcb x).uxPriority) then
          addTaskToReadyList alg x (st.modifyTcb x fun b => { b with uxPriority := p })
        else st.modifyTcb x fun b => { b with uxPriority := p }) := by
      split
      · next hc =>
          exact (setPriority_guides p).trans
            ((addTaskToReadyList_readied alg hset.linked hx).guides (Or.inr ⟨_, hc⟩))
      · exact setPriority_guides p
    have hge : ¬ p ≥ configMaxPriorities := Nat.not_le.mpr hp
    simp only [vTaskPrioritySet, configAssert, decide_eq_true hp, if_true,
      bind, Except.bind, if_neg hge] at hok
    split at hok
    · exact hput.trans (switchIf_guides hok)
    · cases hok
      exact .refl st
  · simp only [vTaskPrioritySet, configAssert, decide_eq_false hp, bind,
      Except.bind] at hok
    exact absurd hok (by simp)

/-- The running task goes to one of the lists of the blocked tasks. -/
theorem delayedList_guides (h : WellLinked created st) (n : Nat) (b : Bool) :
    Guides created st (prvAddCurrentTaskToDelayedList n b st) ∧
    ∀ c, st.pxCurrentTCB = some c →
      ¬ ((prvAddCurrentTaskToDelayedList n b st).tcb c).Astray := by
  rw [prvAddCurrentTaskToDelayedList]
  cases hc : st.pxCurrentTCB with
  | none => exact ⟨.refl st, fun c hn => absurd hn (by simp)⟩
  | some c =>
      have hout := uxListRemove_guides h (h.current c hc)
      have hgone : ∀ {k : ListId} {l : CursorList TaskHandle} {s : State},
          (k = .suspended ∨ k = .delayed1 ∨ k = .delayed2) →
          ∀ d, some c = some d → ¬ ((link k l c s).tcb d).Astray := by
        intro k l s hk d hd ha
        cases hd
        exact ha.list_ne link_container_self hk
      dsimp only
      split
      · exact ⟨hout.trans (link_guides (Or.inl rfl)), hgone (Or.inl rfl)⟩
      · generalize tickAdd _ n = v
        have hput := hout.trans (setItemValue_guides (x := c) v)
        obtain ⟨hd, ho⟩ := (h.uxListRemove (h.current c hc)).delayed_either
        split
        · exact ⟨hput.trans (link_guides (Or.inr ho)), hgone (Or.inr ho)⟩
        · have hin : Guides created st (vListInsert
              (setItemValue c v (uxListRemove c st)).pxDelayedTaskList c
              (setItemValue c v (uxListRemove c st))) :=
            hput.trans (link_guides (Or.inr hd))
          split
          · exact ⟨hin.trans (.of_tcb rfl rfl), hgone (Or.inr hd)⟩
          · exact ⟨hin, hgone (Or.inr hd)⟩

/-- The task is on the event list first and leaves the ready list after. -/
theorem placeOnEventList_guides (h : WellLinked created st) (n : Nat) :
    Guides created st (vTaskPlaceOnEventList n st) := by
  rw [vTaskPlaceOnEventList]
  cases hc : st.pxCurrentTCB with
  | none => exact (delayedList_guides h n true).1
  | some c =>
      have hev := blockOnEvent_moved h (c := c)
      obtain ⟨hg, hgone⟩ := delayedList_guides hev.linked n true
      dsimp only
      intro y hy ha
      have hyc : y ≠ c := fun he => hgone c hc (he ▸ ha.1)
      obtain ⟨hb, hout⟩ := hg y hy ha
      simp only [State.modifyTcb_tcb, Function.update_of_ne hyc] at hb
      exact ⟨hb, hout⟩

theorem pendingReadyLoop_guides (alg : Algorithm) :
    ∀ (n : Nat) (st : State), WellLinked created st →
      Guides created st (pendingReadyLoop alg n st) := by
  intro n
  induction n with
  | zero => intro st _; exact .refl st
  | succ n ih =>
      intro st h
      rw [pendingReadyLoop]
      cases hitems : st.items .pendingReady with
      | nil => exact .refl st
      | cons x l =>
          have hmem : x ∈ st.items .pendingReady := by
            rw [hitems]
            exact List.mem_cons_self ..
          have hx := (h.pending x hmem).1
          have hl₁ := h.removeEventItem x
          have hput : Guides created st
              (addTaskToReadyList alg x (removeEventItem x st)) := by
            refine (removeEventItem_guides x).trans
              ((addTaskToReadyList_readied alg hl₁ hx).guides (Or.inl ?_))
            simp [removeEventItem]
          have hl₂ : WellLinked created
              (addTaskToReadyList alg x (removeEventItem x st)) :=
            hl₁.addTaskToReadyList hx
          dsimp only
          split
          · exact (hput.trans (.of_tcb rfl rfl)).trans
              (ih _ (yieldPending_moved hl₂ true).linked)
          · exact hput.trans (ih _ hl₂)

theorem resumePending_guides (h : WellLinked created st) :
    Guides created st (resumePending alg st) := by
  have hloop := pendingReadyLoop_guides alg (st.items .pendingReady).length st h
  rw [resumePending]
  split
  · exact hloop
  · exact hloop.trans (.of_tcb rfl rfl)

/-! ## The tick -/

/-- A stage of the tick that acts on some of the blocks. -/
theorem Guides.stage {q : TaskHandle → Prop} [DecidablePred q] {f : TCB → TCB}
    (hn : NonePending st)
    (hblock : ∀ y, st₁.block y = if q y then f (st.block y) else st.block y)
    (hf : ∀ y, q y → (f (st.block y)).Astray → (st.block y).Astray) :
    Guides created st st₁ := by
  intro y _ ha
  have hb : (st₁.block y).Astray := ha.1
  have hout : y ∉ st.items .pendingReady := by
    rw [hn]
    exact List.not_mem_nil
  rw [hblock] at hb
  split at hb
  · next hq => exact ⟨hf y hq hb, hout⟩
  · exact ⟨hb, hout⟩

theorem chargeBlock_astray {tick : Nat} {b : TCB} (h : (chargeBlock tick b).Astray) :
    b.Astray := by
  have hper : b.xTaskPeriod = 0 := (chargeBlock_period tick b).symm.trans h.1
  rwa [chargeBlock_of_ordinary hper] at h

/-- The tick frees the event items of the tasks it unblocks, and its passes only
move tasks that were ready or waited for their period before. -/
theorem increment_guides {sw : Bool} (ht : Ticking created st)
    (hok : xTaskIncrementTick alg st = .ok (sw, st₁)) : Guides created st st₁ := by
  obtain ⟨st₂, hk, heq⟩ := xTaskIncrementTick_ok ht.suspended hok
  obtain ⟨st₀, hpro, rfl⟩ := killEntry_cases hk ht.linked ht.nonePending
  obtain ⟨hw₁, hg₁, hb₁⟩ := chargeCurrent_pass hpro.linked
  obtain ⟨hw₂, hg₂, hb₂⟩ := killTasks_pass hw₁
  obtain ⟨-, -, hb₃⟩ := wakeTasks_pass hw₂ alg
  have hn₁ : NonePending (chargeCurrent st₀) :=
    (congrArg CursorList.items hg₁.pendingReady).trans hpro.nonePending
  have hn₂ : NonePending (killTasks (chargeCurrent st₀)) :=
    (congrArg CursorList.items hg₂.pendingReady).trans hn₁
  have h₀ : Guides created st st₀ :=
    .stage ht.nonePending hpro.block fun y _ ha => Bool.noConfusion ha.2.1
  have h₁ : Guides created st₀ (chargeCurrent st₀) :=
    .stage hpro.nonePending hb₁ fun _ _ => chargeBlock_astray
  have h₂ : Guides created (chargeCurrent st₀) (killTasks (chargeCurrent st₀)) := by
    refine .stage hn₁ hb₂ fun y hm ha => ⟨?_, ?_, Or.inr ⟨1, ?_⟩⟩
    · exact (killBlock_period ..).symm.trans ha.1
    · exact (killBlock_event ..).symm.trans ha.2.1
    · exact ((hw₁.linked _ (by simp) y).mp hm).2
  have h₃ : Guides created (killTasks (chargeCurrent st₀))
      (wakeTasks alg (killTasks (chargeCurrent st₀))) := by
    refine .stage hn₂ hb₃ fun y hm ha => ⟨?_, ?_, Or.inl ?_⟩
    · exact (wakeBlock_period ..).symm.trans ha.1
    · exact (wakeBlock_event ..).symm.trans ha.2.1
    · exact ((hw₂.linked _ (by simp) y).mp hm).2
  exact heq ▸ ((h₀.trans h₁).trans h₂).trans h₃

/-! ## Resuming the scheduler -/

theorem noteSwitch_guides (b : Bool) : Guides created st (noteSwitch b st) := by
  cases b with
  | true => exact .of_tcb rfl rfl
  | false => exact .refl st

theorem resumeAll_guides {b : Bool} (h : WellLinked created st)
    (hok : xTaskResumeAll alg st = .ok (b, st₁)) : Guides created st st₁ := by
  obtain ⟨-, ⟨-, st₂, hloop, hlast⟩ | ⟨-, rfl⟩⟩ := xTaskResumeAll_ok hok
  · obtain ⟨-, htick⟩ := resumed_moved alg h
    have h₀ : WellLinked created { st with uxSchedulerSuspended := 0 } :=
      h.congr ⟨rfl, fun _ => rfl, fun _ => rfl, fun _ => rfl, rfl, rfl, rfl⟩
    have hstart : Guides created st (resumed alg st) :=
      Guides.trans (.of_tcb rfl rfl) (resumePending_guides h₀)
    have hreplay := (pendedTicks_invariant alg (n := (resumed alg st).xPendedTicks)
      (I := fun e => Ticking created e ∧ Guides created st e) (P := fun _ => True)
      (fun _ sw _ hi _ hok => ⟨hi.1.next hok,
        (hi.2.trans (increment_guides hi.1 hok)).trans (noteSwitch_guides sw)⟩)
      ⟨htick, hstart⟩ fun _ _ => trivial).2 st₂ hloop
    have hend : Guides created st { st₂ with xPendedTicks := 0 } :=
      hreplay.2.trans (.of_tcb rfl rfl)
    rcases hlast with hsw | rfl
    · exact hend.trans (switchContext_guides hsw)
    · exact hend
  · exact .of_tcb rfl rfl

theorem tickHandler_guides (hs : Settled created st)
    (hok : vPortSystemTickHandler alg st = .ok st₁) : Guides created st st₁ := by
  rw [vPortSystemTickHandler] at hok
  cases htick : xTaskIncrementTick alg st with
  | error e =>
      rw [htick] at hok
      exact absurd hok (by simp [bind, Except.bind])
  | ok r =>
      obtain ⟨sw, st₂⟩ := r
      rw [htick] at hok
      simp only [bind, Except.bind] at hok
      by_cases hz : st.uxSchedulerSuspended = 0
      · exact (increment_guides (hs.ticking hz) htick).trans (switchContext_guides hok)
      · rw [xTaskIncrementTick, if_neg hz] at htick
        cases htick
        have hpend : Guides created st
            { st with xPendedTicks := tickAdd st.xPendedTicks 1 } := .of_tcb rfl rfl
        exact hpend.trans (switchContext_guides hok)

theorem delayBlock_guides {n : Nat} (hs : Settled created st)
    (hok : vTaskDelayBlock n st = .ok st₁) : Guides created st st₁ := by
  by_cases hz : st.uxSchedulerSuspended = 0
  · simp only [vTaskDelayBlock, configAssert, hz, decide_true, if_true, bind,
      Except.bind, pure, Except.pure, Except.ok.injEq] at hok
    exact hok ▸ Guides.trans (.of_tcb rfl rfl)
      (delayedList_guides (suspendAll_settled hs).linked n false).1
  · simp only [vTaskDelayBlock, configAssert, hz, decide_false, bind,
      Except.bind] at hok
    exact absurd hok (by simp)

theorem delayYield_guides (h : WellLinked created st)
    (hok : vTaskDelayYield alg st = .ok st₁) : Guides created st st₁ := by
  rw [vTaskDelayYield] at hok
  cases hres : xTaskResumeAll alg st with
  | error e =>
      rw [hres] at hok
      exact absurd hok (by simp [bind, Except.bind])
  | ok r =>
      obtain ⟨b, st₂⟩ := r
      rw [hres] at hok
      have h₂ := resumeAll_guides h hres
      cases b with
      | true =>
          cases hok
          exact h₂
      | false => exact h₂.trans (switchContext_guides hok)

/-! ## The invariant -/

/-- No task without a period is on an event list and ready. -/
def Parked (created : List TaskHandle) (st : State) : Prop :=
  ∀ x ∈ created, ¬ Astray x st

/-- The scheduler does not choose a task without a period that is still on an
event list. -/
theorem Parked.not_chosen (h : Parked created st) (hl : WellLinked created st)
    (hn : NonePending st) (hz : st.uxSchedulerSuspended = 0)
    (hord : (st.tcb x).xTaskPeriod = 0) (hevent : (st.tcb x).inEventList = true)
    (hok : vTaskSwitchContext st = .ok st₁) : st₁.pxCurrentTCB ≠ some x := by
  intro hcur
  obtain ⟨p, hp⟩ := switchContext_chooses hz hok
  have hm := List.mem_of_head? (hp.symm.trans hcur)
  obtain ⟨hx, hready⟩ := (hl.linked _ (by simp) x).mp hm
  refine h x hx ⟨⟨hord, hevent, Or.inr ⟨p, hready⟩⟩, ?_⟩
  rw [hn]
  exact List.not_mem_nil

theorem Parked.guided (h : Parked created st) (hg : Guides created st st₁) :
    Parked created st₁ := fun x hx ha => h x hx (hg x hx ha)

/-! ## Creation -/

/-- A new task is on no event list. -/
theorem Parked.create {f : TCB → TCB} {p : Nat} (h : Parked created st)
    (hs : Settled created st) (hx : x ∉ created)
    (hok : (do
      let st ← prvInitialiseNewTask x p (st.modifyTcb x f)
      prvAddNewTaskToReadyList alg x st) = .ok st₁) : Parked (x :: created) st₁ := by
  have he := create_enrolled hs.linked hs.number hx hok
  intro y hy ha
  by_cases hyx : y = x
  · subst hyx
    have hev := ha.1.2.1
    rw [he.event] at hev
    simp at hev
  · have hy := (List.mem_cons.mp hy).resolve_left hyx
    have hb := ha.1
    rw [he.others y hyx] at hb
    simp only [State.modifyTcb_tcb, Function.update_of_ne hyx] at hb
    exact h y hy ⟨hb, fun hm => ha.2 (he.awaiting y hy hm)⟩

theorem Parked.createStatic {p : Nat} (h : Parked created st)
    (hs : Settled created st) (hx : x ∉ created)
    (hok : xTaskCreateStatic alg x p st = .ok st₁) : Parked (x :: created) st₁ := by
  rw [xTaskCreateStatic, ← modifyTcb_id st x] at hok
  exact h.create hs hx hok

theorem Parked.startScheduler {idle timer : TaskHandle} (h : Parked created st)
    (hs : Settled created st) (hi : idle ∉ created) (ht : timer ∉ created)
    (hne : idle ≠ timer) (hok : vTaskStartScheduler alg idle timer st = .ok st₁) :
    Parked (timer :: idle :: created) st₁ := by
  obtain ⟨st₂, st₃, hidle, htimer, rfl⟩ := startScheduler_ok hok
  obtain ⟨hs₂, -, -⟩ := createStatic_survived hs hi hidle
  have h₂ := h.createStatic hs hi hidle
  have h₃ := h₂.createStatic hs₂.settled (not_mem_cons_of_ne ht hne) htimer
  exact h₃.guided (.of_tcb rfl rfl)

/-! ## Runs -/

theorem exec_parked (hs : Settled s.created s.kernel) (h : Parked s.created s.kernel)
    (hal : c.Allowed s) (hok : c.exec alg s.kernel = .ok st) :
    Parked (c.createdAfter s) st := by
  have hl := hs.linked
  cases c with
  | create x p => exact h.createStatic hs hal hok
  | createPeriodic x id p period duration constraint => exact h.create hs hal.1 hok
  | startScheduler idle timer =>
      obtain ⟨hi, ht, hne, -⟩ := hal
      exact h.startScheduler hs hi ht hne hok
  | tick => exact h.guided (tickHandler_guides hs hok)
  | yield => exact h.guided (switchContext_guides hok)
  | suspend x =>
      exact (h.guided (suspendLists_guides hl hal)).guided (suspendYield_guides hok)
  | suspendLists x =>
      cases hok
      exact h.guided (suspendLists_guides hl hal)
  | suspendYield x => exact h.guided (suspendYield_guides hok)
  | resume x => exact h.guided (resume_guides hl hal hok)
  | resumeFromISR x =>
      cases hok
      exact h.guided (resumeFromISR_guides hl hal)
  | prioritySet x p => exact h.guided (prioritySet_guides hl hal hok)
  | delay n =>
      rw [Call.exec, vTaskDelay] at hok
      split at hok
      · cases hblock : vTaskDelayBlock n s.kernel with
        | error e =>
            rw [hblock] at hok
            exact absurd hok (by simp [bind, Except.bind])
        | ok st₂ =>
            rw [hblock] at hok
            have hs₂ := (delayBlock_settled hs hblock).1
            exact (h.guided (delayBlock_guides hs hblock)).guided
              (delayYield_guides hs₂.linked hok)
      · exact h.guided (switchContext_guides hok)
  | delayBlock n => exact h.guided (delayBlock_guides hs hok)
  | delayYield => exact h.guided (delayYield_guides hl hok)
  | suspendAll =>
      cases hok
      exact h.guided (.of_tcb rfl rfl)
  | resumeAll =>
      rw [Call.exec] at hok
      cases hres : xTaskResumeAll alg s.kernel with
      | error e =>
          rw [hres] at hok
          exact absurd hok (by simp [bind, Except.bind])
      | ok r =>
          rw [hres] at hok
          cases hok
          exact h.guided (resumeAll_guides hl hres)
  | catchUpTicks n =>
      rw [Call.exec] at hok
      cases hres : xTaskCatchUpTicks alg n s.kernel with
      | error e =>
          rw [hres] at hok
          exact absurd hok (by simp [bind, Except.bind])
      | ok r =>
          rw [hres] at hok
          cases hok
          obtain ⟨-, hres⟩ := catchUpTicks_ok hres
          have hpend : Guides s.created s.kernel (pendTicks n s.kernel) :=
            .of_tcb rfl rfl
          exact h.guided (hpend.trans
            (resumeAll_guides (pendTicks_settled hs n).linked hres))
  | placeOnEventList n =>
      cases hok
      exact h.guided (placeOnEventList_guides hl n)
  | removeFromEventList x =>
      cases hok
      exact h.guided (removeFromEventList_guides hl hal.1)
  | nextEntry id =>
      cases hok
      exact h.guided (.of_tcb rfl (setIndex_items ..))

theorem Run.parked (h : Run alg heap sim hist s) : Parked s.created s.kernel := by
  induction h with
  | boot => exact fun x hx => absurd hx List.not_mem_nil
  | call hrun hal hok ih => exact exec_parked hrun.settled ih hal hok

/-- Whoever a context switch between two calls of a run chooses without a period
is on no event list. -/
theorem Run.blocked_not_chosen (h : Run alg heap sim hist s)
    (hz : s.kernel.uxSchedulerSuspended = 0)
    (hok : vTaskSwitchContext s.kernel = .ok st) (hcur : st.pxCurrentTCB = some x)
    (hord : (s.kernel.tcb x).xTaskPeriod = 0) :
    (s.kernel.tcb x).inEventList = false := by
  have hs := h.settled
  refine Bool.eq_false_of_not_eq_true fun hevent => ?_
  exact h.parked.not_chosen hs.linked (hs.pending hz) hz hord hevent hok hcur

end FreeRtosSim
