import FreeRtosSim.Proofs.Homed
import FreeRtosSim.Sim.Locking

/-!
# Only `vTaskPrioritySet` changes a priority

The other calls move tasks between lists, start and end jobs and create tasks.
None of them writes `uxPriority` of a task that exists, at no tick either, so
whoever lends a task a priority finds it as it was left.
-/

namespace FreeRtosSim

variable {created : List TaskHandle} {alg : Algorithm} {st st₁ st₂ : State}
  {x y : TaskHandle} {id : ListId} {s : System} {c : Call}

def SamePriorities (st st' : State) : Prop :=
  ∀ y, (st'.tcb y).uxPriority = (st.tcb y).uxPriority

theorem SamePriorities.refl (st : State) : SamePriorities st st := fun _ => rfl

theorem SamePriorities.trans (h : SamePriorities st st₁)
    (h' : SamePriorities st₁ st₂) : SamePriorities st st₂ :=
  fun y => (h' y).trans (h y)

theorem SamePriorities.of_tcb (hs : st₁.tcb = st.tcb) : SamePriorities st st₁ :=
  fun _ => by rw [hs]

theorem SamePriorities.write {f : TCB → TCB} (hs : st₁.tcb = st.tcb)
    (hf : ∀ b, (f b).uxPriority = b.uxPriority) :
    SamePriorities st (st₁.modifyTcb x f) := by
  intro y
  by_cases hy : y = x
  · subst hy
    simp [hf, hs]
  · simp [hy, hs]

/-! ## Single operations -/

theorem uxListRemove_grade : SamePriorities st (uxListRemove x st) :=
  fun _ => uxListRemove_priority

theorem link_grade {l : CursorList TaskHandle} :
    SamePriorities st (link id l x st) := .write rfl fun _ => rfl

theorem eventItem_grade {l : CursorList TaskHandle} {b : Bool} :
    SamePriorities st ((st.setList .pendingReady l).modifyTcb x
      fun t => { t with inEventList := b }) := .write rfl fun _ => rfl

theorem removeEventItem_grade : SamePriorities st (removeEventItem x st) :=
  eventItem_grade

theorem insertPendingReady_grade : SamePriorities st (insertPendingReady x st) :=
  eventItem_grade

theorem insertEnd_grade : SamePriorities st (listInsertEnd id x st) := link_grade

theorem insert_grade : SamePriorities st (vListInsert id x st) := link_grade

theorem switchContext_grade (hok : vTaskSwitchContext st = .ok st₁) :
    SamePriorities st st₁ := by
  obtain ⟨_, _, _, heq, -⟩ := vTaskSwitchContext_ok hok
  exact .of_tcb (by rw [heq])

theorem switchIf_grade {b : Prop} [Decidable b]
    (hok : (if b then vTaskSwitchContext st else .ok st) = .ok st₁) :
    SamePriorities st st₁ := by
  split at hok
  · exact switchContext_grade hok
  · cases hok
    exact .refl st

theorem readyList_grade (hl : WellLinked created st) (hx : x ∈ created) :
    SamePriorities st (addTaskToReadyList alg x st) :=
  (addTaskToReadyList_readied alg hl hx).priority

/-! ## The calls that only move tasks -/

theorem suspendLists_grade : SamePriorities st (vTaskSuspendLists x st) := by
  rw [vTaskSuspendLists]
  split
  · exact (uxListRemove_grade.trans removeEventItem_grade).trans insertEnd_grade
  · exact uxListRemove_grade.trans insertEnd_grade

theorem suspendYield_grade (hok : vTaskSuspendYield x st = .ok st₁) :
    SamePriorities st st₁ := by
  have hreset : SamePriorities st
      (if st.xSchedulerRunning then prvResetNextTaskUnblockTime st else st) := by
    split
    · exact .of_tcb rfl
    · exact .refl st
  rw [vTaskSuspendYield] at hok
  generalize (if st.xSchedulerRunning then prvResetNextTaskUnblockTime st else st)
    = s at hok hreset
  refine hreset.trans ?_
  split at hok
  · split at hok
    · rw [configAssert] at hok
      split at hok
      · exact switchContext_grade hok
      · exact absurd hok (by simp [bind, Except.bind])
    · split at hok
      · cases hok
        exact .of_tcb rfl
      · exact switchContext_grade hok
  · cases hok
    exact .refl _

theorem resume_grade (hl : WellLinked created st) (hx : x ∈ created)
    (hok : vTaskResume alg x st = .ok st₁) : SamePriorities st st₁ := by
  rw [vTaskResume] at hok
  split at hok
  · exact (readyList_grade hl hx).trans (switchIf_grade hok)
  · cases hok
    exact .refl st

theorem resumeFromISR_grade (hl : WellLinked created st) (hx : x ∈ created) :
    SamePriorities st (xTaskResumeFromISR alg x st) := by
  rw [xTaskResumeFromISR]
  split
  · split
    · have hyield : SamePriorities st (if outranksCurrent x st then
            { st with xYieldPending := true } else st) ∧
          WellLinked created (if outranksCurrent x st then
            { st with xYieldPending := true } else st) := by
        split
        · exact ⟨.of_tcb rfl, (yieldPending_moved hl true).linked⟩
        · exact ⟨.refl st, hl⟩
      exact hyield.1.trans (readyList_grade hyield.2 hx)
    · exact insertPendingReady_grade
  · exact .refl st

theorem removeFromEventList_grade (hl : WellLinked created st) (hx : x ∈ created) :
    SamePriorities st (xTaskRemoveFromEventList alg x st) := by
  have hput : SamePriorities st
      (if (removeEventItem x st).uxSchedulerSuspended = 0 then
        addTaskToReadyList alg x (removeEventItem x st)
      else insertPendingReady x (removeEventItem x st)) := by
    split
    · exact removeEventItem_grade.trans
        (readyList_grade (hl.removeEventItem x) hx)
    · exact removeEventItem_grade.trans insertPendingReady_grade
  rw [xTaskRemoveFromEventList]
  generalize (if (removeEventItem x st).uxSchedulerSuspended = 0 then
    addTaskToReadyList alg x (removeEventItem x st)
    else insertPendingReady x (removeEventItem x st)) = s at hput ⊢
  split
  · exact hput
  · split
    · exact hput.trans (.of_tcb rfl)
    · exact hput

theorem delayedList_grade (n : Nat) (b : Bool) :
    SamePriorities st (prvAddCurrentTaskToDelayedList n b st) := by
  rw [prvAddCurrentTaskToDelayedList]
  cases hc : st.pxCurrentTCB with
  | none => exact .refl st
  | some c =>
      have hout : SamePriorities st (uxListRemove c st) := uxListRemove_grade
      dsimp only
      split
      · exact hout.trans insertEnd_grade
      · have hset : SamePriorities st (setItemValue c
            (tickAdd (uxListRemove c st).xTickCount n) (uxListRemove c st)) :=
          hout.trans (.write rfl fun _ => rfl)
        split
        · exact hset.trans insert_grade
        · split
          · exact (hset.trans insert_grade).trans (.of_tcb rfl)
          · exact hset.trans insert_grade

theorem placeOnEventList_grade (n : Nat) :
    SamePriorities st (vTaskPlaceOnEventList n st) := by
  rw [vTaskPlaceOnEventList]
  cases hc : st.pxCurrentTCB with
  | none => exact delayedList_grade n true
  | some c =>
      have hev : SamePriorities st
          (st.modifyTcb c fun t => { t with inEventList := true }) :=
        .write rfl fun _ => rfl
      exact hev.trans (delayedList_grade n true)

theorem pendingReadyLoop_grade (alg : Algorithm) :
    ∀ (n : Nat) (st : State), WellLinked created st →
      SamePriorities st (pendingReadyLoop alg n st) := by
  intro n
  induction n with
  | zero => intro st _; exact .refl st
  | succ n ih =>
      intro st hl
      rw [pendingReadyLoop]
      cases hitems : st.items .pendingReady with
      | nil => exact .refl st
      | cons x l =>
          have hmem : x ∈ st.items .pendingReady := by
            rw [hitems]
            exact List.mem_cons_self ..
          have hx := (hl.pending x hmem).1
          have hl₁ := hl.removeEventItem x
          have hl₂ : WellLinked created
              (addTaskToReadyList alg x (removeEventItem x st)) :=
            hl₁.addTaskToReadyList hx
          have hput : SamePriorities st
              (addTaskToReadyList alg x (removeEventItem x st)) :=
            removeEventItem_grade.trans (readyList_grade hl₁ hx)
          dsimp only
          split
          · refine hput.trans ?_
            exact (SamePriorities.of_tcb rfl).trans
              (ih _ (yieldPending_moved hl₂ true).linked)
          · exact hput.trans (ih _ hl₂)

theorem resumePending_grade (hl : WellLinked created st) :
    SamePriorities st (resumePending alg st) := by
  have hloop := pendingReadyLoop_grade alg (st.items .pendingReady).length st hl
  rw [resumePending]
  split
  · exact hloop
  · exact hloop.trans (.of_tcb rfl)

/-! ## The tick -/

/-- A stage of the tick that acts on some of the blocks. -/
theorem stage_grade {q : TaskHandle → Prop} [DecidablePred q] {f : TCB → TCB}
    (hblock : ∀ y, st₁.block y = if q y then f (st.block y) else st.block y)
    (hf : ∀ b, (f b).uxPriority = b.uxPriority) : SamePriorities st st₁ := by
  intro y
  show (st₁.block y).uxPriority = (st.block y).uxPriority
  rw [hblock y]
  split
  · exact hf _
  · rfl

theorem increment_grade {sw : Bool} (ht : Ticking created st)
    (hok : xTaskIncrementTick alg st = .ok (sw, st₁)) : SamePriorities st st₁ := by
  obtain ⟨st₂, hk, heq⟩ := xTaskIncrementTick_ok ht.suspended hok
  obtain ⟨st₀, hpro, rfl⟩ := killEntry_cases hk ht.linked ht.nonePending
  obtain ⟨hw₁, -, hb₁⟩ := chargeCurrent_pass hpro.linked
  obtain ⟨hw₂, -, hb₂⟩ := killTasks_pass hw₁
  obtain ⟨-, -, hb₃⟩ := wakeTasks_pass hw₂ alg
  have h₀ : SamePriorities st st₀ := stage_grade hpro.block fun _ => rfl
  have h₁ : SamePriorities st₀ (chargeCurrent st₀) :=
    stage_grade hb₁ fun b => chargeBlock_priority _ b
  have h₂ : SamePriorities (chargeCurrent st₀) (killTasks (chargeCurrent st₀)) :=
    stage_grade hb₂ fun b => killBlock_priority _ b
  have h₃ : SamePriorities (killTasks (chargeCurrent st₀)) st₁ := by
    rw [heq]
    exact stage_grade hb₃ fun b => wakeBlock_priority _ b
  exact ((h₀.trans h₁).trans h₂).trans h₃

theorem noteSwitch_grade (b : Bool) : SamePriorities st (noteSwitch b st) :=
  (noteSwitch_same b st).1.priority

theorem resumeAll_grade {b : Bool} (hl : WellLinked created st)
    (hok : xTaskResumeAll alg st = .ok (b, st₁)) : SamePriorities st st₁ := by
  obtain ⟨-, ⟨-, st₂, hloop, hlast⟩ | ⟨-, heq⟩⟩ := xTaskResumeAll_ok hok
  · obtain ⟨-, htick⟩ := resumed_moved alg hl
    have hl₀ : WellLinked created { st with uxSchedulerSuspended := 0 } :=
      hl.congr ⟨rfl, fun _ => rfl, fun _ => rfl, fun _ => rfl, rfl, rfl, rfl⟩
    have hstart : SamePriorities st (resumed alg st) :=
      (SamePriorities.of_tcb rfl).trans (resumePending_grade hl₀)
    obtain ⟨-, hend⟩ := pendedTicks_invariant alg (P := fun _ => True)
      (I := fun st' => Ticking created st' ∧ SamePriorities st st')
      (fun _ sw _ hi _ hok => ⟨hi.1.next hok,
        (hi.2.trans (increment_grade hi.1 hok)).trans (noteSwitch_grade sw)⟩)
      (n := (resumed alg st).xPendedTicks) ⟨htick, hstart⟩ fun _ _ => trivial
    have hall := (hend st₂ hloop).2
    rcases hlast with hsw | heq
    · have hclear : SamePriorities st₂ { st₂ with xPendedTicks := 0 } := .of_tcb rfl
      exact (hall.trans hclear).trans (switchContext_grade hsw)
    · exact hall.trans (heq ▸ .of_tcb rfl)
  · exact heq ▸ .of_tcb rfl

theorem tickHandler_grade (hs : Settled created st)
    (hok : vPortSystemTickHandler alg st = .ok st₁) : SamePriorities st st₁ := by
  rw [vPortSystemTickHandler] at hok
  cases htick : xTaskIncrementTick alg st with
  | error e =>
      rw [htick] at hok
      exact absurd hok (by simp [bind, Except.bind])
  | ok r =>
      obtain ⟨sw, st₂⟩ := r
      rw [htick] at hok
      simp only [bind, Except.bind] at hok
      by_cases hz : st.uxSchedulerSuspended = 0
      · exact (increment_grade (hs.ticking hz) htick).trans (switchContext_grade hok)
      · rw [xTaskIncrementTick, if_neg hz] at htick
        cases htick
        have hpend : SamePriorities st
            { st with xPendedTicks := tickAdd st.xPendedTicks 1 } := .of_tcb rfl
        exact hpend.trans (switchContext_grade hok)

theorem delayBlock_grade {n : Nat} (hok : vTaskDelayBlock n st = .ok st₁) :
    SamePriorities st st₁ := by
  by_cases hz : st.uxSchedulerSuspended = 0
  · simp only [vTaskDelayBlock, configAssert, hz, decide_true, if_true, bind,
      Except.bind, pure, Except.pure, Except.ok.injEq] at hok
    exact hok ▸ (SamePriorities.of_tcb rfl).trans (delayedList_grade n false)
  · simp only [vTaskDelayBlock, configAssert, hz, decide_false, bind,
      Except.bind] at hok
    exact absurd hok (by simp)

theorem delayYield_grade (hl : WellLinked created st)
    (hok : vTaskDelayYield alg st = .ok st₁) : SamePriorities st st₁ := by
  rw [vTaskDelayYield] at hok
  cases hres : xTaskResumeAll alg st with
  | error e =>
      rw [hres] at hok
      exact absurd hok (by simp [bind, Except.bind])
  | ok r =>
      obtain ⟨b, st₂⟩ := r
      rw [hres] at hok
      have h₂ := resumeAll_grade hl hres
      cases b with
      | true =>
          cases hok
          exact h₂
      | false => exact h₂.trans (switchContext_grade hok)

/-! ## Creation -/

theorem createStatic_grade {p : Nat} (hs : Settled created st) (hx : x ∉ created)
    (hok : xTaskCreateStatic alg x p st = .ok st₁) (hy : y ≠ x) :
    (st₁.tcb y).uxPriority = (st.tcb y).uxPriority := by
  obtain ⟨-, -, hother⟩ := createStatic_survived hs hx hok
  rw [hother y hy]

theorem createPeriodic_grade {id p period duration constraint : Nat}
    (hs : Settled created st) (hx : x ∉ created)
    (hok : xTaskCreatePeriodic alg x id p period duration constraint st = .ok st₁)
    (hy : y ≠ x) : (st₁.tcb y).uxPriority = (st.tcb y).uxPriority := by
  have he := create_enrolled hs.linked hs.number hx hok
  rw [he.others y hy]
  simp [hy]

/-! ## The calls -/

theorem exec_grade (hs : Settled s.created s.kernel) (hal : c.Allowed s)
    (hc : c.setsPriority = false) (hok : c.exec alg s.kernel = .ok st)
    (hy : y ∈ s.created) :
    (st.tcb y).uxPriority = (s.kernel.tcb y).uxPriority := by
  have hl := hs.linked
  cases c with
  | create x p =>
      exact createStatic_grade hs hal hok fun he => hal (he ▸ hy)
  | createPeriodic x id p period duration constraint =>
      exact createPeriodic_grade hs hal.1 hok fun he => hal.1 (he ▸ hy)
  | startScheduler idle timer =>
      obtain ⟨hi, ht, hne, -⟩ := hal
      obtain ⟨st₂, st₃, hidle, htimer, rfl⟩ := startScheduler_ok hok
      obtain ⟨hs₂, -, -⟩ := createStatic_survived hs hi hidle
      have h₂ := createStatic_grade hs hi hidle fun he => hi (he ▸ hy)
      have h₃ := createStatic_grade hs₂.settled (not_mem_cons_of_ne ht hne) htimer
        fun he => ht (he ▸ hy)
      exact h₃.trans h₂
  | tick => exact tickHandler_grade hs hok y
  | yield => exact switchContext_grade hok y
  | suspend x => exact (suspendLists_grade.trans (suspendYield_grade hok)) y
  | suspendLists x =>
      cases hok
      exact suspendLists_grade y
  | suspendYield x => exact suspendYield_grade hok y
  | resume x => exact resume_grade hl hal hok y
  | resumeFromISR x =>
      cases hok
      exact resumeFromISR_grade hl hal y
  | prioritySet x p => exact Bool.noConfusion hc
  | delay n =>
      rw [Call.exec, vTaskDelay] at hok
      split at hok
      · cases hblock : vTaskDelayBlock n s.kernel with
        | error e =>
            rw [hblock] at hok
            exact absurd hok (by simp [bind, Except.bind])
        | ok st₂ =>
            rw [hblock] at hok
            have hs₂ := (delayBlock_settled hs hblock).1
            exact ((delayBlock_grade hblock).trans
              (delayYield_grade hs₂.linked hok)) y
      · exact switchContext_grade hok y
  | delayBlock n => exact delayBlock_grade hok y
  | delayYield => exact delayYield_grade hl hok y
  | suspendAll =>
      cases hok
      rfl
  | resumeAll =>
      rw [Call.exec] at hok
      cases hres : xTaskResumeAll alg s.kernel with
      | error e =>
          rw [hres] at hok
          exact absurd hok (by simp [bind, Except.bind])
      | ok r =>
          rw [hres] at hok
          cases hok
          exact resumeAll_grade hl hres y
  | catchUpTicks n =>
      rw [Call.exec] at hok
      cases hres : xTaskCatchUpTicks alg n s.kernel with
      | error e =>
          rw [hres] at hok
          exact absurd hok (by simp [bind, Except.bind])
      | ok r =>
          rw [hres] at hok
          cases hok
          obtain ⟨-, hres⟩ := catchUpTicks_ok hres
          exact resumeAll_grade (pendTicks_settled hs n).linked hres y
  | placeOnEventList n =>
      cases hok
      exact placeOnEventList_grade n y
  | removeFromEventList x =>
      cases hok
      exact removeFromEventList_grade hl hal.1 y
  | nextEntry id =>
      cases hok
      rfl

end FreeRtosSim
