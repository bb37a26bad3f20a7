import FreeRtosSim.Proofs.Sound

/-!
# A ready task is in the list of its priority

`pxReadyTasksLists` is indexed by priority, and nothing in the kernel checks
that a task is in the list of its own: it is so because the macro reads the
priority when it inserts, and because a change of priority takes the task out
of the list of the old one. `Homed` is kept by every call, also at every tick
that a call processes.
-/

namespace FreeRtosSim

variable {created : List TaskHandle} {alg : Algorithm} {st st₁ st₂ : State}
  {x y : TaskHandle} {id : ListId} {heap : TaskHandle → TCB} {sim : Simulator}
  {hist : List (System × Call)} {s : System} {c : Call}

def Homed (created : List TaskHandle) (st : State) : Prop :=
  ∀ x ∈ created, ∀ p, (st.tcb x).pxContainer = some (.ready p) →
    (st.tcb x).uxPriority = p

theorem Homed.of_links (h : Homed created st) (hs : SameLinks st st₁) :
    Homed created st₁ := by
  intro x hx p hc
  rw [hs.priority]
  exact h x hx p ((hs.container x).symm.trans hc)

theorem Homed.of_tcb (h : Homed created st) (hs : st₁.tcb = st.tcb) :
    Homed created st₁ := by
  intro x hx p hc
  rw [hs] at hc ⊢
  exact h x hx p hc

/-- One task is put somewhere. -/
theorem Homed.place (h : Homed created st)
    (hother : ∀ y, y ≠ x → st₁.tcb y = st.tcb y)
    (hx : ∀ p, (st₁.tcb x).pxContainer = some (.ready p) →
      (st₁.tcb x).uxPriority = p) : Homed created st₁ := by
  intro y hy p hc
  by_cases hyx : y = x
  · subst hyx
    exact hx p hc
  · rw [hother y hyx] at hc ⊢
    exact h y hy p hc

/-! ## Single operations -/

theorem Homed.switchContext (h : Homed created st)
    (hok : vTaskSwitchContext st = .ok st₁) : Homed created st₁ := by
  obtain ⟨_, _, _, heq, -⟩ := vTaskSwitchContext_ok hok
  exact h.of_tcb (by rw [heq])

theorem Homed.switchIf (h : Homed created st) {b : Prop} [Decidable b]
    (hok : (if b then vTaskSwitchContext st else .ok st) = .ok st₁) :
    Homed created st₁ := by
  split at hok
  · exact h.switchContext hok
  · cases hok
    exact h

theorem Homed.uxListRemove (h : Homed created st) (x : TaskHandle) :
    Homed created (uxListRemove x st) :=
  h.place (fun _ hy => uxListRemove_tcb_other hy) fun p hc => by
    rw [uxListRemove_container] at hc
    exact absurd hc (by simp)

/-- The macro reads the priority. -/
theorem Readied.home (h : Readied alg x st st₁) (p : Nat)
    (hc : (st₁.tcb x).pxContainer = some (.ready p)) :
    (st₁.tcb x).uxPriority = p := by
  rw [h.container] at hc
  rw [h.priority]
  rcases readyTarget_cases hc with hp | hw
  · exact (ListId.ready.inj hp).symm
  · exact absurd hw (by simp)

theorem Homed.addTaskToReadyList (h : Homed created st) (hl : WellLinked created st)
    (hx : x ∈ created) : Homed created (addTaskToReadyList alg x st) := by
  have hr := addTaskToReadyList_readied alg hl hx
  exact h.place hr.others fun p hc => hr.home p hc

theorem Homed.link {l : CursorList TaskHandle} (h : Homed created st)
    (hid : ∀ p, id ≠ .ready p) : Homed created (link id l x st) :=
  h.place (fun _ hy => link_tcb_other hy) fun p hc => by
    rw [link_container_self, Option.some_inj] at hc
    exact absurd hc (hid p)

theorem Homed.eventItem {l : CursorList TaskHandle} {b : Bool} (h : Homed created st) :
    Homed created ((st.setList .pendingReady l).modifyTcb x
      fun t => { t with inEventList := b }) := by
  intro y hy p hc
  by_cases hyx : y = x
  · subst hyx
    simp only [State.modifyTcb_tcb, State.setList_tcb, Function.update_self] at hc ⊢
    exact h y hy p hc
  · simp only [State.modifyTcb_tcb, State.setList_tcb,
      Function.update_of_ne hyx] at hc ⊢
    exact h y hy p hc

theorem Homed.setItemValue (h : Homed created st) (v : Nat) :
    Homed created (setItemValue x v st) := h.of_links (setItemValue_links v)

/-- A list that is no ready list takes the task. -/
theorem Homed.insertEnd (h : Homed created st) (hid : ∀ p, id ≠ .ready p) :
    Homed created (listInsertEnd id x st) := h.link hid

theorem Homed.insert (h : Homed created st) (hid : ∀ p, id ≠ .ready p) :
    Homed created (vListInsert id x st) := h.link hid

/-! ## The calls that only move tasks -/

theorem Homed.suspendLists (h : Homed created st) (x : TaskHandle) :
    Homed created (vTaskSuspendLists x st) := by
  rw [vTaskSuspendLists]
  have hout := h.uxListRemove x
  split
  · have hrem : Homed created (removeEventItem x (FreeRtosSim.uxListRemove x st)) :=
      hout.eventItem
    exact hrem.insertEnd (by simp)
  · exact hout.insertEnd (by simp)

theorem Homed.suspendYield (h : Homed created st)
    (hok : vTaskSuspendYield x st = .ok st₁) : Homed created st₁ := by
  have hreset : Homed created
      (if st.xSchedulerRunning then prvResetNextTaskUnblockTime st else st) := by
    split
    · exact h.of_tcb rfl
    · exact h
  rw [vTaskSuspendYield] at hok
  generalize (if st.xSchedulerRunning then prvResetNextTaskUnblockTime st else st)
    = s at hok hreset
  split at hok
  · split at hok
    · rw [configAssert] at hok
      split at hok
      · exact hreset.switchContext hok
      · exact absurd hok (by simp [bind, Except.bind])
    · split at hok
      · cases hok
        exact hreset.of_tcb rfl
      · exact hreset.switchContext hok
  · cases hok
    exact hreset

theorem Homed.resume (h : Homed created st) (hl : WellLinked created st)
    (hx : x ∈ created) (hok : vTaskResume alg x st = .ok st₁) :
    Homed created st₁ := by
  rw [vTaskResume] at hok
  split at hok
  · exact (h.addTaskToReadyList hl hx).switchIf hok
  · cases hok
    exact h

theorem Homed.resumeFromISR (h : Homed created st) (hl : WellLinked created st)
    (hx : x ∈ created) : Homed created (xTaskResumeFromISR alg x st) := by
  rw [xTaskResumeFromISR]
  split
  · split
    · have hyield : Homed created (if outranksCurrent x st then
          { st with xYieldPending := true } else st) ∧
          WellLinked created (if outranksCurrent x st then
            { st with xYieldPending := true } else st) := by
        split
        · exact ⟨h.of_tcb rfl, (yieldPending_moved hl true).linked⟩
        · exact ⟨h, hl⟩
      exact hyield.1.addTaskToReadyList hyield.2 hx
    · exact h.eventItem
  · exact h

theorem Homed.removeFromEventList (h : Homed created st)
    (hl : WellLinked created st) (hx : x ∈ created) :
    Homed created (xTaskRemoveFromEventList alg x st) := by
  have hrem : Homed created (removeEventItem x st) := h.eventItem
  have hput : Homed created
      (if (removeEventItem x st).uxSchedulerSuspended = 0 then
        FreeRtosSim.addTaskToReadyList alg x (removeEventItem x st)
      else insertPendingReady x (removeEventItem x st)) := by
    split
    · exact hrem.addTaskToReadyList (hl.removeEventItem x) hx
    · exact hrem.eventItem
  rw [xTaskRemoveFromEventList]
  generalize (if (removeEventItem x st).uxSchedulerSuspended = 0 then
    FreeRtosSim.addTaskToReadyList alg x (removeEventItem x st)
    else insertPendingReady x (removeEventItem x st)) = s at hput ⊢
  split
  · exact hput
  · split
    · exact hput.of_tcb rfl
    · exact hput

/-- The task leaves the list of its old priority. -/
theorem Homed.prioritySet {p : Nat} (h : Homed created st)
    (hl : WellLinked created st) (hx : x ∈ created)
    (hok : vTaskPrioritySet alg x p st = .ok st₁) : Homed created st₁ := by
  by_cases hp : p < configMaxPriorities
  · have hset := setPriority_moved (x := x) hl hp
    have hput : Homed created
        (if ((st.modifyTcb x fun b => { b with uxPriority := p }).tcb
            x).pxContainer = some (.ready (st.tcb x).uxPriority) then
          FreeRtosSim.addTaskToReadyList alg x
            (st.modifyTcb x fun b => { b with uxPriority := p })
        else st.modifyTcb x fun b => { b with uxPriority := p }) := by
      split
      · have hr := addTaskToReadyList_readied alg hset.linked hx
        refine h.place (fun y hy => ?_) fun q hc => hr.home q hc
        rw [hr.others y hy]
        simp [hy]
      · next hno =>
          refine h.place (x := x) (fun y hy => by simp [hy]) fun q hc => ?_
          have hc' : (st.tcb x).pxContainer = some (.ready q) := by simpa using hc
          refine absurd ?_ hno
          rw [h x hx q hc']
          simpa using hc'
    have hge : ¬ p ≥ configMaxPriorities := Nat.not_le.mpr hp
    simp only [vTaskPrioritySet, configAssert, decide_eq_true hp, if_true,
      bind, Except.bind, if_neg hge] at hok
    split at hok
    · exact hput.switchIf hok
    · cases hok
      exact h
  · simp only [vTaskPrioritySet, configAssert, decide_eq_false hp, bind,
      Except.bind] at hok
    exact absurd hok (by simp)

theorem Homed.delayedList (h : Homed created st) (hl : WellLinked created st)
    (n : Nat) (b : Bool) :
    Homed created (prvAddCurrentTaskToDelayedList n b st) := by
  rw [prvAddCurrentTaskToDelayedList]
  cases hc : st.pxCurrentTCB with
  | none => exact h
  | some c =>
      have hout := h.uxListRemove c
      dsimp only
      split
      · exact hout.insertEnd (by simp)
      · generalize tickAdd _ n = v
        have hput := hout.setItemValue (x := c) v
        have hlists : (FreeRtosSim.setItemValue c v
            (FreeRtosSim.uxListRemove c st)).pxDelayedTaskList =
              st.pxDelayedTaskList ∧
            (FreeRtosSim.setItemValue c v
              (FreeRtosSim.uxListRemove c st)).pxOverflowDelayedTaskList =
                st.pxOverflowDelayedTaskList := uxListRemove_delayed
        obtain ⟨hd, ho⟩ := hl.delayed_either
        rw [← hlists.1] at hd
        rw [← hlists.2] at ho
        have hno : ∀ {k : ListId}, k = .delayed1 ∨ k = .delayed2 →
            ∀ p, k ≠ .ready p := by
          intro k hk p
          rcases hk with rfl | rfl <;> simp
        split
        · exact hput.insert (hno ho)
        · have hin := hput.insert (x := c) (hno hd)
          split
          · exact hin.of_tcb rfl
          · exact hin

theorem Homed.placeOnEventList (h : Homed created st) (hl : WellLinked created st)
    (n : Nat) : Homed created (vTaskPlaceOnEventList n st) := by
  rw [vTaskPlaceOnEventList]
  cases hc : st.pxCurrentTCB with
  | none => exact h.delayedList hl n true
  | some c =>
      have hev := blockOnEvent_moved hl (c := c)
      refine Homed.delayedList ?_ hev.linked n true
      refine h.place (x := c) (fun y hy => by simp [hy]) fun p hp => ?_
      have hp' : (st.tcb c).pxContainer = some (.ready p) := by simpa using hp
      simpa using h c (hl.current c hc) p hp'

theorem Homed.pendingReadyLoop (alg : Algorithm) :
    ∀ (n : Nat) (st : State), WellLinked created st → Homed created st →
      Homed created (pendingReadyLoop alg n st) := by
  intro n
  induction n with
  | zero => intro st _ h; exact h
  | succ n ih =>
      intro st hl h
      rw [FreeRtosSim.pendingReadyLoop]
      cases hitems : st.items .pendingReady with
      | nil => exact h
      | cons x l =>
          have hmem : x ∈ st.items .pendingReady := by
            rw [hitems]
            exact List.mem_cons_self ..
          have hx := (hl.pending x hmem).1
          have hrem : Homed created (removeEventItem x st) := h.eventItem
          have hl₁ := hl.removeEventItem x
          have hput : Homed created
              (FreeRtosSim.addTaskToReadyList alg x (removeEventItem x st)) :=
            hrem.addTaskToReadyList hl₁ hx
          have hl₂ : WellLinked created
              (FreeRtosSim.addTaskToReadyList alg x (removeEventItem x st)) :=
            hl₁.addTaskToReadyList hx
          dsimp only
          refine ih _ ?_ ?_
          · split
            · exact (yieldPending_moved hl₂ true).linked
            · exact hl₂
          · split
            · exact hput.of_tcb rfl
            · exact hput

theorem Homed.resumePending (h : Homed created st) (hl : WellLinked created st) :
    Homed created (resumePending alg st) := by
  have hloop := Homed.pendingReadyLoop alg (st.items .pendingReady).length st hl h
  rw [FreeRtosSim.resumePending]
  split
  · exact hloop
  · exact hloop.of_tcb rfl

/-! ## The tick -/

theorem chargeBlock_home {tick p : Nat} {b : TCB}
    (h : ∀ q, b.pxContainer = some (.ready q) → b.uxPriority = q)
    (hc : (chargeBlock tick b).pxContainer = some (.ready p)) :
    (chargeBlock tick b).uxPriority = p := by
  rw [chargeBlock_priority]
  rw [chargeBlock_list] at hc
  split at hc
  · exact absurd hc (by simp)
  · exact h p hc

theorem killBlock_home {tick p : Nat} {b : TCB}
    (h : ∀ q, b.pxContainer = some (.ready q) → b.uxPriority = q)
    (hc : (killBlock tick b).pxContainer = some (.ready p)) :
    (killBlock tick b).uxPriority = p := by
  rw [killBlock_priority]
  rw [killBlock_list] at hc
  split at hc
  · exact absurd hc (by simp)
  · exact h p hc

theorem wakeBlock_home {tick p : Nat} {b : TCB}
    (h : ∀ q, b.pxContainer = some (.ready q) → b.uxPriority = q)
    (hc : (wakeBlock alg tick b).pxContainer = some (.ready p)) :
    (wakeBlock alg tick b).uxPriority = p := by
  rw [wakeBlock_priority]
  rw [wakeBlock_list] at hc
  split at hc
  · exact ListId.ready.inj (Option.some.inj hc)
  · exact h p hc

theorem unblockBlock_home {tick p : Nat} {b : TCB}
    (hc : (unblockBlock alg tick b).pxContainer = some (.ready p)) :
    (unblockBlock alg tick b).uxPriority = p := by
  rcases readyTarget_cases (b := b) hc with hp | hw
  · exact (ListId.ready.inj hp).symm
  · exact absurd hw (by simp)

/-- A stage of the tick that acts on some of the blocks. -/
theorem Homed.stage {q : TaskHandle → Prop} [DecidablePred q] {f : TCB → TCB}
    (h : Homed created st)
    (hblock : ∀ y, st₁.block y = if q y then f (st.block y) else st.block y)
    (hf : ∀ b p, (∀ q, b.pxContainer = some (.ready q) → b.uxPriority = q) →
      (f b).pxContainer = some (.ready p) → (f b).uxPriority = p) :
    Homed created st₁ := by
  intro y hy p hc
  have hb := hblock y
  have hc' : (st₁.block y).pxContainer = some (.ready p) := hc
  show (st₁.block y).uxPriority = p
  rw [hb] at hc' ⊢
  split at hc'
  · next hq =>
      rw [if_pos hq]
      exact hf (st.block y) p (h y hy) hc'
  · next hq =>
      rw [if_neg hq]
      exact h y hy p hc'

theorem Homed.increment {sw : Bool} (h : Homed created st) (ht : Ticking created st)
    (hok : xTaskIncrementTick alg st = .ok (sw, st₁)) : Homed created st₁ := by
  obtain ⟨st₂, hk, heq⟩ := xTaskIncrementTick_ok ht.suspended hok
  obtain ⟨st₀, hpro, rfl⟩ := killEntry_cases hk ht.linked ht.nonePending
  obtain ⟨hw₁, -, hb₁⟩ := chargeCurrent_pass hpro.linked
  obtain ⟨hw₂, -, hb₂⟩ := killTasks_pass hw₁
  obtain ⟨-, -, hb₃⟩ := wakeTasks_pass hw₂ alg
  have h₀ : Homed created st₀ :=
    h.stage hpro.block fun _ _ _ hc => unblockBlock_home hc
  have h₁ : Homed created (chargeCurrent st₀) :=
    h₀.stage hb₁ fun _ _ hb hc => chargeBlock_home hb hc
  have h₂ : Homed created (killTasks (chargeCurrent st₀)) :=
    h₁.stage hb₂ fun _ _ hb hc => killBlock_home hb hc
  rw [heq]
  exact h₂.stage hb₃ fun _ _ hb hc => wakeBlock_home hb hc

/-! ## The calls -/

/-- A tick can begin, and every ready task is in its list. -/
structure Housed (created : List TaskHandle) (st : State) : Prop where
  ticking : Ticking created st
  homed : Homed created st

theorem Homed.noteSwitch (h : Homed created st) (b : Bool) :
    Homed created (noteSwitch b st) := h.of_links (noteSwitch_same b st).1

/-- The replay keeps it, and every tick of the replay begins with it. -/
theorem Housed.pendedTicks (h : Housed created st) (n : Nat) :
    (∀ e ∈ pendedTicks alg n st, Housed created e) ∧
      ∀ st', pendedTicksLoop alg n st = .ok st' → Housed created st' :=
  pendedTicks_invariant alg (P := fun _ => True)
    (fun _ sw _ hi _ hok => ⟨hi.ticking.next hok,
      (hi.homed.increment hi.ticking hok).noteSwitch sw⟩) h fun _ _ => trivial

theorem Homed.resumed (h : Homed created st) (hl : WellLinked created st) :
    Housed created (FreeRtosSim.resumed alg st) := by
  obtain ⟨-, htick⟩ := resumed_moved alg hl
  have h₀ : Homed created { st with uxSchedulerSuspended := 0 } := h.of_tcb rfl
  have hl₀ : WellLinked created { st with uxSchedulerSuspended := 0 } :=
    hl.congr ⟨rfl, fun _ => rfl, fun _ => rfl, fun _ => rfl, rfl, rfl, rfl⟩
  exact ⟨htick, h₀.resumePending hl₀⟩

theorem Homed.resumeAll (h : Homed created st) (hl : WellLinked created st) :
    (∀ e ∈ resumeAllTicks alg st, Housed created e) ∧
    ∀ b st', xTaskResumeAll alg st = .ok (b, st') → Homed created st' := by
  by_cases hr : Resumes st
  · have hstart : Housed created (FreeRtosSim.resumed alg st) := h.resumed hl
    obtain ⟨hall, hend⟩ := hstart.pendedTicks (FreeRtosSim.resumed alg st).xPendedTicks
    rw [resumeAllTicks_eq hr]
    refine ⟨hall, fun b st' hok => ?_⟩
    obtain ⟨-, ⟨-, st₂, hloop, hlast⟩ | ⟨hno, -⟩⟩ := xTaskResumeAll_ok hok
    · have h₂ : Homed created { st₂ with xPendedTicks := 0 } :=
        (hend st₂ hloop).homed.of_tcb rfl
      rcases hlast with hsw | heq
      · exact h₂.switchContext hsw
      · exact heq ▸ h₂
    · exact absurd hr hno
  · rw [resumeAllTicks_nil hr]
    refine ⟨fun e he => absurd he List.not_mem_nil, fun b st' hok => ?_⟩
    obtain ⟨-, ⟨hr', -⟩ | ⟨-, heq⟩⟩ := xTaskResumeAll_ok hok
    · exact absurd hr' hr
    · exact heq ▸ h.of_tcb rfl

theorem Homed.tickHandler (h : Homed created st) (hs : Settled created st)
    (hok : vPortSystemTickHandler alg st = .ok st₁) : Homed created st₁ := by
  rw [vPortSystemTickHandler] at hok
  cases htick : xTaskIncrementTick alg st with
  | error e =>
      rw [htick] at hok
      exact absurd hok (by simp [bind, Except.bind])
  | ok r =>
      obtain ⟨sw, st₂⟩ := r
      rw [htick] at hok
      simp only [bind, Except.bind] at hok
      by_cases hz : st.uxSchedulerSuspended = 0
      · exact (h.increment (hs.ticking hz) htick).switchContext hok
      · rw [xTaskIncrementTick, if_neg hz] at htick
        cases htick
        have h₂ : Homed created
            { st with xPendedTicks := tickAdd st.xPendedTicks 1 } := h.of_tcb rfl
        exact h₂.switchContext hok

theorem Homed.delayBlock {n : Nat} (h : Homed created st) (hs : Settled created st)
    (hok : vTaskDelayBlock n st = .ok st₁) : Homed created st₁ := by
  by_cases hz : st.uxSchedulerSuspended = 0
  · simp only [vTaskDelayBlock, configAssert, hz, decide_true, if_true, bind,
      Except.bind, pure, Except.pure, Except.ok.injEq] at hok
    have h₀ : Homed created (vTaskSuspendAll st) := h.of_tcb rfl
    exact hok ▸ h₀.delayedList (suspendAll_settled hs).linked n false
  · simp only [vTaskDelayBlock, configAssert, hz, decide_false, bind,
      Except.bind] at hok
    exact absurd hok (by simp)

theorem Homed.delayYield (h : Homed created st) (hl : WellLinked created st)
    (hok : vTaskDelayYield alg st = .ok st₁) : Homed created st₁ := by
  rw [vTaskDelayYield] at hok
  cases hres : xTaskResumeAll alg st with
  | error e =>
      rw [hres] at hok
      exact absurd hok (by simp [bind, Except.bind])
  | ok r =>
      obtain ⟨b, st₂⟩ := r
      rw [hres] at hok
      have h₂ := (h.resumeAll hl).2 b st₂ hres
      cases b with
      | true =>
          cases hok
          exact h₂
      | false => exact h₂.switchContext hok

/-! ## Creation -/

/-- A block that is no task's may hold anything. -/
theorem Homed.writeFresh (h : Homed created st) (hx : x ∉ created) (f : TCB → TCB) :
    Homed created (st.modifyTcb x f) := by
  intro y hy p hc
  have hyx : y ≠ x := fun he => hx (he ▸ hy)
  simp only [State.modifyTcb_tcb, Function.update_of_ne hyx] at hc ⊢
  exact h y hy p hc

/-- The new task goes into the list of its priority, or into none. -/
theorem Homed.addNewTask (h : Homed created st) (hl : WellLinked created st)
    (hnum : st.uxCurrentNumberOfTasks = created.length) (hx : x ∉ created)
    (hnone : (st.tcb x).pxContainer = none)
    (hp : (st.tcb x).uxPriority < configMaxPriorities)
    (hok : prvAddNewTaskToReadyList alg x st = .ok st₁) :
    Homed (x :: created) st₁ := by
  have hcount : WellLinked (x :: created)
      { st with uxCurrentNumberOfTasks := st.uxCurrentNumberOfTasks + 1 } :=
    (hl.enroll hx hnone hp).congr
      ⟨rfl, fun _ => rfl, fun _ => rfl, fun _ => rfl, rfl, rfl, rfl⟩
  obtain ⟨hl₁, htcb, -⟩ := chooseCurrent_linked hcount hnone (by rw [← hnum])
  rw [prvAddNewTaskToReadyList] at hok
  generalize chooseCurrent x
    { st with uxCurrentNumberOfTasks := st.uxCurrentNumberOfTasks + 1 } = s at *
  have hnone₁ : (s.tcb x).pxContainer = none := by rw [htcb]; exact hnone
  have hr := prvAddTaskToReadyList_readied alg hl₁.wellFormed hnone₁
  have hl₂ : WellLinked (x :: created) (prvAddTaskToReadyList alg x s) :=
    hl₁.prvAddTaskToReadyList (List.mem_cons_self ..) hnone₁
  obtain ⟨-, hsame, -⟩ := yieldIfOutranked_moved hl₂ hok
  intro y hy p hc
  rw [hsame] at hc ⊢
  by_cases hyx : y = x
  · subst hyx
    exact hr.home p hc
  · rw [hr.others y hyx, htcb] at hc ⊢
    exact h y ((List.mem_cons.mp hy).resolve_left hyx) p hc

theorem Homed.create {f : TCB → TCB} {p : Nat} (h : Homed created st)
    (hs : Settled created st) (hx : x ∉ created)
    (hok : (do
      let st ← prvInitialiseNewTask x p (st.modifyTcb x f)
      prvAddNewTaskToReadyList alg x st) = .ok st₁) : Homed (x :: created) st₁ := by
  cases hinit : prvInitialiseNewTask x p (st.modifyTcb x f) with
  | error e =>
      rw [hinit] at hok
      exact absurd hok (by simp [bind, Except.bind])
  | ok st₂ =>
      rw [hinit] at hok
      obtain ⟨hp, heq⟩ := prvInitialiseNewTask_ok hinit
      rw [heq] at hok
      have h₁ := (h.writeFresh hx f).writeFresh hx fun b =>
        { b with uxPriority := p, pxContainer := none, inEventList := false }
      refine h₁.addNewTask ((hs.linked.writeFresh hx f).writeFresh hx _) ?_ hx
        (by simp) (by simpa using hp) hok
      exact hs.number

theorem Homed.createStatic {p : Nat} (h : Homed created st)
    (hs : Settled created st) (hx : x ∉ created)
    (hok : xTaskCreateStatic alg x p st = .ok st₁) : Homed (x :: created) st₁ := by
  rw [xTaskCreateStatic, ← modifyTcb_id st x] at hok
  exact h.create hs hx hok

theorem Homed.startScheduler {idle timer : TaskHandle} (h : Homed created st)
    (hs : Settled created st) (hi : idle ∉ created) (ht : timer ∉ created)
    (hne : idle ≠ timer) (hok : vTaskStartScheduler alg idle timer st = .ok st₁) :
    Homed (timer :: idle :: created) st₁ := by
  obtain ⟨st₂, st₃, hidle, htimer, rfl⟩ := startScheduler_ok hok
  obtain ⟨hs₂, -, -⟩ := createStatic_survived hs hi hidle
  have h₂ := h.createStatic hs hi hidle
  have h₃ := h₂.createStatic hs₂.settled (not_mem_cons_of_ne ht hne) htimer
  exact h₃.of_tcb rfl

/-! ## Runs -/

theorem exec_homed (hs : Settled s.created s.kernel) (h : Homed s.created s.kernel)
    (hal : c.Allowed s) (hok : c.exec alg s.kernel = .ok st) :
    Homed (c.createdAfter s) st := by
  have hl := hs.linked
  cases c with
  | create x p => exact h.createStatic hs hal hok
  | createPeriodic x id p period duration constraint => exact h.create hs hal.1 hok
  | startScheduler idle timer =>
      obtain ⟨hi, ht, hne, -⟩ := hal
      exact h.startScheduler hs hi ht hne hok
  | tick => exact h.tickHandler hs hok
  | yield => exact h.switchContext hok
  | suspend x => exact (h.suspendLists x).suspendYield hok
  | suspendLists x =>
      cases hok
      exact h.suspendLists x
  | suspendYield x => exact h.suspendYield hok
  | resume x => exact h.resume hl hal hok
  | resumeFromISR x =>
      cases hok
      exact h.resumeFromISR hl hal
  | prioritySet x p => exact h.prioritySet hl hal hok
  | delay n =>
      rw [Call.exec, vTaskDelay] at hok
      split at hok
      · cases hblock : vTaskDelayBlock n s.kernel with
        | error e =>
            rw [hblock] at hok
            exact absurd hok (by simp [bind, Except.bind])
        | ok st₂ =>
            rw [hblock] at hok
            have hs₂ := (delayBlock_settled hs hblock).1
            exact (h.delayBlock hs hblock).delayYield hs₂.linked hok
      · exact h.switchContext hok
  | delayBlock n => exact h.delayBlock hs hok
  | delayYield => exact h.delayYield hl hok
  | suspendAll =>
      cases hok
      exact h.of_tcb rfl
  | resumeAll =>
      rw [Call.exec] at hok
      cases hres : xTaskResumeAll alg s.kernel with
      | error e =>
          rw [hres] at hok
          exact absurd hok (by simp [bind, Except.bind])
      | ok r =>
          rw [hres] at hok
          cases hok
          exact (h.resumeAll hl).2 r.1 r.2 hres
  | catchUpTicks n =>
      rw [Call.exec] at hok
      cases hres : xTaskCatchUpTicks alg n s.kernel with
      | error e =>
          rw [hres] at hok
          exact absurd hok (by simp [bind, Except.bind])
      | ok r =>
          rw [hres] at hok
          cases hok
          obtain ⟨-, hres⟩ := catchUpTicks_ok hres
          have h₀ : Homed s.created (pendTicks n s.kernel) := h.of_tcb rfl
          exact (h₀.resumeAll (pendTicks_settled hs n).linked).2 r.1 r.2 hres
  | placeOnEventList n =>
      cases hok
      exact h.placeOnEventList hl n
  | removeFromEventList x =>
      cases hok
      exact h.removeFromEventList hl hal.1
  | nextEntry id =>
      cases hok
      exact h.of_tcb rfl

/-- Between any two calls of a run every ready task is in the list of its
priority. -/
theorem Run.homed (h : Run alg heap sim hist s) : Homed s.created s.kernel := by
  induction h with
  | boot => exact fun x hx => absurd hx List.not_mem_nil
  | call hrun hal hok ih => exact exec_homed hrun.settled ih hal hok

/-- And so it is where a tick begins. -/
theorem Run.housed (h : Run alg heap sim hist s) (c : Call) :
    ∀ e ∈ c.ticks alg s.kernel, Housed s.created e := by
  have hs := h.settled
  have hh := h.homed
  cases c with
  | tick =>
      intro e he
      rw [Call.ticks] at he
      split at he
      · next hz =>
          rw [List.mem_singleton] at he
          exact he ▸ ⟨hs.ticking hz, hh⟩
      · exact absurd he List.not_mem_nil
  | resumeAll => exact (hh.resumeAll hs.linked).1
  | delayYield => exact (hh.resumeAll hs.linked).1
  | catchUpTicks n =>
      have h₀ : Homed s.created (pendTicks n s.kernel) := hh.of_tcb rfl
      exact (h₀.resumeAll (pendTicks_settled hs n).linked).1
  | delay n =>
      intro e he
      rw [Call.ticks] at he
      cases hblock : vTaskDelayBlock n s.kernel with
      | error r =>
          rw [hblock] at he
          exact absurd he List.not_mem_nil
      | ok st₂ =>
          rw [hblock] at he
          dsimp only at he
          split at he
          · have hs₂ := (delayBlock_settled hs hblock).1
            exact ((hh.delayBlock hs hblock).resumeAll hs₂.linked).1 e he
          · exact absurd he List.not_mem_nil
  | create | createPeriodic | startScheduler | yield | suspend | suspendLists
  | suspendYield | resume | resumeFromISR | prioritySet | delayBlock | suspendAll
  | placeOnEventList | removeFromEventList | nextEntry =>
      exact fun e he => absurd he List.not_mem_nil

end FreeRtosSim
