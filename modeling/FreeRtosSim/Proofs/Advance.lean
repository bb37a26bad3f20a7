import FreeRtosSim.Proofs.Sound

/-!
# A call, tick by tick

What a call does to the tasks is what the ticks it processes do, with moves
between lists before, between and after them. `Advance` splits a call this
way, so that an invariant about jobs is proved for a tick and for a move. It
also covers the ticks of a call that never returns, since a replay can reach
`exit_function` after some of them.
-/

namespace FreeRtosSim

variable {created new : List TaskHandle} {alg : Algorithm} {st st₀ st₁ st₂ : State}
  {x y : TaskHandle} {keep : Prop} {s : System} {c : Call} {l : List State}

/-- What happens outside the ticks to the tasks that are not being created. -/
structure Carried (new : List TaskHandle) (st st' : State) : Prop where
  core : ∀ x, x ∉ new → (st'.tcb x).core = (st.tcb x).core
  waiting : ∀ x, x ∉ new → (st'.tcb x).pxContainer = some .wait →
    (st.tcb x).pxContainer = some .wait ∨ (st.tcb x).xTaskPeriod ≠ 0

theorem Moved.carried (h : Moved created keep st st₁) : Carried new st st₁ :=
  ⟨fun x _ => h.jobs.core x, fun x _ => h.waiting x⟩

theorem Carried.of_others (h : ∀ x, x ∉ new → st₁.tcb x = st.tcb x) :
    Carried new st st₁ :=
  ⟨fun x hx => by rw [h x hx], fun x hx hw => Or.inl (by rwa [h x hx] at hw)⟩

theorem Carried.of_tcb (h : st₁.tcb = st.tcb) : Carried new st st₁ :=
  .of_others fun x _ => congrFun h x

theorem noteSwitch_carried (b : Bool) (st : State) :
    Carried new st (noteSwitch b st) := by
  cases b with
  | true => exact .of_tcb rfl
  | false => exact .of_tcb rfl

/-- From `st`, through the ticks that begin in the listed states. -/
inductive Advance (alg : Algorithm) (created new : List TaskHandle) (st : State) :
    List State → State → Prop
  | refl : Advance alg created new st [] st
  | carry {l : List State} {a b : State} :
      Advance alg created new st l a → Carried new a b →
      Advance alg created new st l b
  | tick {l : List State} {sw : Bool} {a b : State} :
      Advance alg created new st l a → Ticking created a →
      xTaskIncrementTick alg a = .ok (sw, b) →
      Advance alg created new st (l ++ [a]) b

/-! ## The replay -/

theorem pendedTicks_advance (h : Ticking created st)
    (ha : Advance alg created new st₀ l st) (n : Nat) :
    (∀ l₁ e l₂, pendedTicks alg n st = l₁ ++ e :: l₂ →
      Advance alg created new st₀ (l ++ l₁) e ∧ Ticking created e) ∧
    ∀ st', pendedTicksLoop alg n st = .ok st' →
      Advance alg created new st₀ (l ++ pendedTicks alg n st) st' := by
  obtain ⟨hall, hend⟩ := pendedTicks_induct alg
    (I := fun l e => Advance alg created new st₀ l e ∧ Ticking created e)
    (P := fun _ => True)
    (fun l st sw st' hi _ hok =>
      ⟨(hi.1.tick hi.2 hok).carry (noteSwitch_carried sw st'), hi.2.next hok⟩)
    n l st ⟨ha, h⟩ fun _ _ => trivial
  exact ⟨hall, fun st' hok => (hend st' hok).1⟩

/-- The ticks that resuming the scheduler processes. -/
theorem resumeAll_advance (h : Settled created st)
    (ha : Advance alg created new st₀ [] st) :
    (∀ l₁ e l₂, resumeAllTicks alg st = l₁ ++ e :: l₂ →
      Advance alg created new st₀ l₁ e ∧ Ticking created e) ∧
    ∀ b st', xTaskResumeAll alg st = .ok (b, st') →
      Advance alg created new st₀ (resumeAllTicks alg st) st' := by
  by_cases hr : Resumes st
  · obtain ⟨hm, htick⟩ := resumed_moved alg h.linked
    have hstart : Carried new st { st with uxSchedulerSuspended := 0 } := .of_tcb rfl
    obtain ⟨hall, hend⟩ := pendedTicks_advance htick
      ((ha.carry hstart).carry hm.carried) (resumed alg st).xPendedTicks
    rw [resumeAllTicks_eq hr]
    refine ⟨hall, fun b st' hok => ?_⟩
    obtain ⟨-, ⟨-, st₂, hloop, hlast⟩ | ⟨hno, -⟩⟩ := xTaskResumeAll_ok hok
    · have hreplayed := (hend st₂ hloop).carry (b := { st₂ with xPendedTicks := 0 })
        (.of_tcb rfl)
      cases hlast with
      | inl hsw =>
          obtain ⟨_, _, _, heq, -⟩ := vTaskSwitchContext_ok hsw
          exact hreplayed.carry (.of_tcb (by rw [heq]))
      | inr heq => exact heq ▸ hreplayed
    · exact absurd hr hno
  · rw [resumeAllTicks_nil hr]
    refine ⟨fun l₁ e l₂ hs => absurd hs (by simp), fun b st' hok => ?_⟩
    obtain ⟨-, ⟨hr', -⟩ | ⟨-, heq⟩⟩ := xTaskResumeAll_ok hok
    · exact absurd hr' hr
    · exact heq ▸ ha.carry (.of_tcb rfl)

/-! ## The calls -/

theorem Enrolled.carried {f : TCB → TCB}
    (h : Enrolled alg created x (st.modifyTcb x f) st₁) : Carried [x] st st₁ := by
  refine .of_others fun y hy => ?_
  have hne : y ≠ x := fun he => hy (List.mem_singleton.mpr he)
  rw [h.others y hne]
  simp [hne]

/-- A call without ticks is one move. -/
theorem Advance.of_carried (hc : Carried new st st₁) :
    Advance alg created new st [] st₁ := Advance.refl.carry hc

/-- An ordinary task is created with the job the block happens to hold. -/
theorem createStatic_carried {p : Nat} (h : Settled created st) (hx : x ∉ created)
    (hok : xTaskCreateStatic alg x p st = .ok st₁) : Carried new st st₁ := by
  rw [xTaskCreateStatic, ← modifyTcb_id st x] at hok
  have he := create_enrolled h.linked h.number hx hok
  have hcore : ∀ y, (st₁.tcb y).core = (st.tcb y).core := fun y =>
    (he.core y).trans ((SameJobs.modifyTcb rfl).core y)
  refine ⟨fun y _ => hcore y, fun y _ hw => ?_⟩
  by_cases hyx : y = x
  · subst hyx
    rw [he.container] at hw
    refine Or.inr ?_
    simpa using readyTarget_wait hw
  · rw [he.others y hyx] at hw
    exact Or.inl (by simpa [hyx] using hw)

theorem startScheduler_advance {idle timer : TaskHandle} (h : Settled created st)
    (hi : idle ∉ created) (ht : timer ∉ created) (hne : idle ≠ timer)
    (hok : vTaskStartScheduler alg idle timer st = .ok st₁) :
    Advance alg created new st [] st₁ := by
  obtain ⟨st₂, st₃, hidle, htimer, rfl⟩ := startScheduler_ok hok
  obtain ⟨h₂, -, -⟩ := createStatic_survived h hi hidle
  have hidle' : Carried new st st₂ := createStatic_carried h hi hidle
  have htimer' : Carried new st₂ st₃ :=
    createStatic_carried h₂.settled (not_mem_cons_of_ne ht hne) htimer
  exact ((Advance.of_carried hidle').carry htimer').carry (.of_tcb rfl)

theorem delayBlock_advance {n : Nat} (h : Settled created st)
    (hok : vTaskDelayBlock n st = .ok st₁) :
    Advance alg created new st [] st₁ := by
  obtain ⟨-, -, hz, -⟩ := delayBlock_settled h hok
  simp only [vTaskDelayBlock, configAssert, hz, decide_true, if_true, bind,
    Except.bind, pure, Except.pure, Except.ok.injEq] at hok
  have hm := delayedList_moved (suspendAll_settled h).linked n false
  have hsuspend : Advance alg created new st [] (vTaskSuspendAll st) :=
    .of_carried (.of_tcb rfl)
  exact hok ▸ hsuspend.carry hm.carried

theorem delayYield_advance (h : Settled created st)
    (ha : Advance alg created new st₀ [] st)
    (hok : vTaskDelayYield alg st = .ok st₁) :
    Advance alg created new st₀ (resumeAllTicks alg st) st₁ := by
  rw [vTaskDelayYield] at hok
  cases hres : xTaskResumeAll alg st with
  | error e =>
      rw [hres] at hok
      exact absurd hok (by simp [bind, Except.bind])
  | ok r =>
      obtain ⟨b, st₂⟩ := r
      rw [hres] at hok
      have ha₂ := (resumeAll_advance h ha).2 b st₂ hres
      cases b with
      | true =>
          cases hok
          exact ha₂
      | false =>
          obtain ⟨_, _, _, heq, -⟩ := vTaskSwitchContext_ok hok
          exact ha₂.carry (.of_tcb (by rw [heq]))

/-- The ticks of a call that delays the running task. -/
theorem delay_advance {n : Nat} (h : Settled created st) :
    (∀ l₁ e l₂, (Call.delay n).ticks alg st = l₁ ++ e :: l₂ →
      Advance alg created new st l₁ e ∧ Ticking created e) ∧
    ∀ st', vTaskDelay alg n st = .ok st' →
      Advance alg created new st ((Call.delay n).ticks alg st) st' := by
  by_cases hn : n > 0
  · rw [Call.ticks, vTaskDelay, if_pos hn]
    cases hblock : vTaskDelayBlock n st with
    | error e =>
        refine ⟨fun l₁ e l₂ hs => absurd hs (by simp), fun st' hok => ?_⟩
        exact absurd hok (by simp [bind, Except.bind])
    | ok st₂ =>
        have ha : Advance alg created new st [] st₂ := delayBlock_advance h hblock
        obtain ⟨hs, -⟩ := delayBlock_settled h hblock
        dsimp only
        rw [if_pos hn]
        exact ⟨(resumeAll_advance hs ha).1, fun st' hok => delayYield_advance hs ha hok⟩
  · have hnil : (Call.delay n).ticks alg st = [] := by
      rw [Call.ticks]
      split
      · rfl
      · exact if_neg hn
    rw [hnil, vTaskDelay, if_neg hn]
    refine ⟨fun l₁ e l₂ hs => absurd hs (by simp), fun st' hok => ?_⟩
    obtain ⟨_, _, _, heq, -⟩ := vTaskSwitchContext_ok hok
    exact .of_carried (.of_tcb (by rw [heq]))

/-- The ticks of `xTaskResumeAll`, whatever becomes of its result. -/
theorem exec_resumeAll {r : Exec (Bool × State)}
    (hok : (do let (_, st) ← r; return st : Exec State) = .ok st) :
    ∃ b, r = .ok (b, st) := by
  cases r with
  | error e => exact absurd hok (by simp [bind, Except.bind])
  | ok r =>
      obtain ⟨b, st₂⟩ := r
      cases hok
      exact ⟨b, rfl⟩

/-- A new task gets a block that is no task's. -/
theorem newPeriodic_fresh (hal : c.Allowed s) (hx : x ∈ c.newPeriodic) :
    x ∉ s.created := by
  cases c with
  | createPeriodic y id p period duration constraint =>
      rw [List.mem_singleton.mp hx]
      exact hal.1
  | _ => exact absurd hx List.not_mem_nil

theorem newOrdinary_fresh (hal : c.Allowed s) (hx : x ∈ c.newOrdinary) :
    x ∉ s.created := by
  cases c with
  | create y p =>
      rw [List.mem_singleton.mp hx]
      exact hal
  | startScheduler idle timer =>
      obtain ⟨hi, ht, -⟩ := hal
      rcases List.mem_cons.mp hx with rfl | hx
      · exact hi
      · rw [List.mem_singleton.mp hx]
        exact ht
  | _ => exact absurd hx List.not_mem_nil

/-- Only creation makes a task exist. -/
theorem mem_createdAfter : x ∈ c.createdAfter s ↔
    x ∈ c.newPeriodic ∨ x ∈ c.newOrdinary ∨ x ∈ s.created := by
  cases c with
  | create y p => simp [Call.createdAfter, Call.newPeriodic, Call.newOrdinary]
  | createPeriodic y id p period duration constraint =>
      simp [Call.createdAfter, Call.newPeriodic, Call.newOrdinary]
  | startScheduler idle timer =>
      simp [Call.createdAfter, Call.newPeriodic, Call.newOrdinary, or_comm,
        or_assoc, or_left_comm]
  | _ => simp [Call.createdAfter, Call.newPeriodic, Call.newOrdinary]

theorem exec_advance (h : Settled s.created s.kernel) (hal : c.Allowed s) :
    (∀ l₁ e l₂, c.ticks alg s.kernel = l₁ ++ e :: l₂ →
      Advance alg s.created c.newPeriodic s.kernel l₁ e ∧
      Ticking s.created e) ∧
    ∀ st, c.exec alg s.kernel = .ok st →
      Advance alg s.created c.newPeriodic s.kernel
        (c.ticks alg s.kernel) st := by
  have hl := h.linked
  have hnil : ∀ {P : List State → State → Prop},
      ∀ l₁ e l₂, ([] : List State) = l₁ ++ e :: l₂ → P l₁ e :=
    fun l₁ e l₂ hs => absurd hs (by simp)
  cases c with
  | create x p =>
      exact ⟨hnil, fun st hok => .of_carried (createStatic_carried h hal hok)⟩
  | createPeriodic x id p period duration constraint =>
      refine ⟨hnil, fun st hok => ?_⟩
      exact .of_carried (create_enrolled hl h.number hal.1 hok).carried
  | startScheduler idle timer =>
      obtain ⟨hi, ht, hne, -⟩ := hal
      exact ⟨hnil, fun st hok => startScheduler_advance h hi ht hne hok⟩
  | tick =>
      by_cases hz : s.kernel.uxSchedulerSuspended = 0
      · have ht := h.ticking hz
        rw [show Call.tick.ticks alg s.kernel = [s.kernel] from if_pos hz]
        refine ⟨fun l₁ e l₂ hs => ?_, fun st hok => ?_⟩
        · obtain ⟨rfl, rfl, -⟩ : l₁ = [] ∧ e = s.kernel ∧ l₂ = [] := by
            cases l₁ with
            | nil =>
                rw [List.nil_append, List.cons.injEq] at hs
                exact ⟨rfl, hs.1.symm, hs.2.symm⟩
            | cons a l₁ => exact absurd hs (by simp)
          exact ⟨.refl, ht⟩
        · rw [Call.exec, vPortSystemTickHandler] at hok
          cases htick : xTaskIncrementTick alg s.kernel with
          | error e =>
              rw [htick] at hok
              exact absurd hok (by simp [bind, Except.bind])
          | ok r =>
              obtain ⟨sw, st₂⟩ := r
              rw [htick] at hok
              obtain ⟨_, _, _, heq, -⟩ := vTaskSwitchContext_ok hok
              exact (Advance.refl.tick ht htick).carry (.of_tcb (by rw [heq]))
      · rw [show Call.tick.ticks alg s.kernel = [] from if_neg hz]
        refine ⟨hnil, fun st hok => ?_⟩
        rw [Call.exec, vPortSystemTickHandler, xTaskIncrementTick, if_neg hz] at hok
        obtain ⟨_, _, _, heq, -⟩ := vTaskSwitchContext_ok hok
        exact .of_carried (.of_tcb (by rw [heq]))
  | yield => exact ⟨hnil, fun st hok => .of_carried (switchContext_moved hl hok).carried⟩
  | suspend x =>
      refine ⟨hnil, fun st hok => ?_⟩
      have hm := vTaskSuspendLists_moved hl hal
      exact .of_carried (hm.andThen (vTaskSuspendYield_moved hm.linked hok)).carried
  | suspendLists x =>
      refine ⟨hnil, fun st hok => ?_⟩
      cases hok
      exact .of_carried (vTaskSuspendLists_moved hl hal).carried
  | suspendYield x =>
      exact ⟨hnil, fun st hok => .of_carried (vTaskSuspendYield_moved hl hok).carried⟩
  | resume x =>
      exact ⟨hnil, fun st hok => .of_carried (vTaskResume_moved hl hal hok).carried⟩
  | resumeFromISR x =>
      refine ⟨hnil, fun st hok => ?_⟩
      cases hok
      exact .of_carried (xTaskResumeFromISR_moved hl hal).carried
  | prioritySet x p =>
      exact ⟨hnil, fun st hok => .of_carried (vTaskPrioritySet_moved hl hal hok).carried⟩
  | delay n => exact delay_advance h
  | delayBlock n => exact ⟨hnil, fun st hok => delayBlock_advance h hok⟩
  | delayYield =>
      exact ⟨(resumeAll_advance h .refl).1, fun st hok => delayYield_advance h .refl hok⟩
  | suspendAll =>
      refine ⟨hnil, fun st hok => ?_⟩
      cases hok
      exact .of_carried (.of_tcb rfl)
  | resumeAll =>
      obtain ⟨hall, hend⟩ := resumeAll_advance h .refl
      refine ⟨hall, fun st hok => ?_⟩
      obtain ⟨b, hres⟩ := exec_resumeAll hok
      exact hend b st hres
  | catchUpTicks n =>
      have hpend : Advance alg s.created [] s.kernel [] (pendTicks n s.kernel) :=
        .of_carried (.of_tcb rfl)
      obtain ⟨hall, hend⟩ := resumeAll_advance (pendTicks_settled h n) hpend
      refine ⟨hall, fun st hok => ?_⟩
      obtain ⟨b, hres⟩ := exec_resumeAll hok
      exact hend b st (catchUpTicks_ok hres).2
  | placeOnEventList n =>
      refine ⟨hnil, fun st hok => ?_⟩
      cases hok
      exact .of_carried (vTaskPlaceOnEventList_moved hl n).carried
  | removeFromEventList x =>
      refine ⟨hnil, fun st hok => ?_⟩
      cases hok
      exact .of_carried (xTaskRemoveFromEventList_moved hl hal.1).carried
  | nextEntry id =>
      refine ⟨hnil, fun st hok => ?_⟩
      cases hok
      exact .of_carried (nextEntry_moved hl id).carried

end FreeRtosSim
