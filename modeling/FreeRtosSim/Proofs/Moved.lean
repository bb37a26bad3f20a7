import FreeRtosSim.Proofs.Processed

/-!
# The calls that only move tasks

Everything in `Kernel.Api` but the replay of pended ticks moves tasks between
lists, changes a priority or switches the context. `Moved` says what all of
them have in common; its parameter `keep` is what has to be true for nobody
to get lost on the way.
-/

namespace FreeRtosSim

variable {created : List TaskHandle} {alg : Algorithm} {st st₁ st₂ : State}
  {x y : TaskHandle} {keep keep' : Prop}

/-- Only a periodic task gets into `xWaitTaskList`. -/
def WaitsIfPeriodic (st st' : State) : Prop :=
  ∀ x, (st'.tcb x).pxContainer = some .wait →
    (st.tcb x).pxContainer = some .wait ∨ (st.tcb x).xTaskPeriod ≠ 0

theorem WaitsIfPeriodic.of_eq
    (h : ∀ x, (st₁.tcb x).pxContainer = (st.tcb x).pxContainer) :
    WaitsIfPeriodic st st₁ := fun x hx => Or.inl ((h x).symm.trans hx)

/-- One task goes to another list. -/
theorem WaitsIfPeriodic.of_others
    (h : ∀ y, y ≠ x → (st₁.tcb y).pxContainer = (st.tcb y).pxContainer)
    (hx : (st₁.tcb x).pxContainer = some .wait → (st.tcb x).xTaskPeriod ≠ 0) :
    WaitsIfPeriodic st st₁ := by
  intro y hy
  by_cases hyx : y = x
  · subst hyx
    exact Or.inr (hx hy)
  · exact Or.inl ((h y hyx).symm.trans hy)

structure Moved (created : List TaskHandle) (keep : Prop) (st st' : State) :
    Prop where
  linked : WellLinked created st'
  jobs : SameJobs st st'
  pending : st.uxSchedulerSuspended = 0 → NonePending st → NonePending st'
  unlost : keep → Unlost st st'
  waiting : WaitsIfPeriodic st st'

theorem Moved.refl (h : WellLinked created st) : Moved created True st st :=
  ⟨h, SameJobs.refl st, fun _ hn => hn, fun _ => Unlost.refl st, .of_eq fun _ => rfl⟩

theorem Moved.trans (h : Moved created keep st st₁)
    (h' : Moved created keep' st₁ st₂) : Moved created (keep ∧ keep') st st₂ where
  linked := h'.linked
  jobs := h.jobs.trans h'.jobs
  pending hs hn :=
    h'.pending (h.jobs.suspended.trans hs) (h.pending hs hn)
  unlost hk := (h.unlost hk.1).trans (h'.unlost hk.2)
  waiting x hx := by
    cases h'.waiting x hx with
    | inl hw => exact h.waiting x hw
    | inr hp => exact Or.inr (h.jobs.period x ▸ hp)

theorem Moved.mono (h : Moved created keep st st₁) (hk : keep' → keep) :
    Moved created keep' st st₁ :=
  { h with unlost := fun hk' => h.unlost (hk hk') }

/-- Writes to globals that no list depends on. -/
theorem Moved.of_same (h : WellLinked created st) (hl : SameLinks st st₁)
    (hj : SameJobs st st₁) : Moved created keep st st₁ where
  linked := h.congr hl
  jobs := hj
  pending _ hn := by rw [NonePending, State.items, hl.lists]; exact hn
  unlost _ := hl.unlost
  waiting := .of_eq hl.container

theorem yieldPending_moved (h : WellLinked created st) (b : Bool) :
    Moved created True st { st with xYieldPending := b } :=
  .of_same h ⟨rfl, fun _ => rfl, fun _ => rfl, fun _ => rfl, rfl, rfl, rfl⟩
    ⟨⟨rfl, rfl, rfl, rfl, rfl⟩, fun _ => rfl, rfl⟩

theorem resetUnblockTime_moved (h : WellLinked created st) :
    Moved created True st (prvResetNextTaskUnblockTime st) :=
  .of_same h ⟨rfl, fun _ => rfl, fun _ => rfl, fun _ => rfl, rfl, rfl, rfl⟩
    ⟨⟨rfl, rfl, rfl, rfl, rfl⟩, fun _ => rfl, rfl⟩

theorem nextEntry_moved (h : WellLinked created st) (id : ListId) :
    Moved created True st (nextEntry id st) where
  linked := h.setIndex (h.wellFormed id).advance.cursor
  jobs := ⟨⟨rfl, rfl, rfl, rfl, rfl⟩, fun _ => rfl, rfl⟩
  pending _ hn := (setIndex_items st .pendingReady id _).trans hn
  unlost _ := Unlost.refl _
  waiting := .of_eq fun _ => rfl

/-- A chain of moves that lose nobody. -/
theorem Moved.andThen (h : Moved created keep st st₁)
    (h' : Moved created True st₁ st₂) : Moved created keep st st₂ :=
  (h.trans h').mono fun hk => ⟨hk, trivial⟩

/-! ## The context switch -/

theorem vTaskSwitchContext_ok (hok : vTaskSwitchContext st = .ok st₁) :
    ∃ c u b, st₁ = { st with
        pxCurrentTCB := c, uxTopReadyPriority := u, xYieldPending := b } ∧
      (c = st.pxCurrentTCB ∨ ∃ p, c = (st.items (.ready p)).head?) := by
  rw [vTaskSwitchContext] at hok
  split at hok
  · rw [Except.ok.injEq] at hok
    exact ⟨_, _, _, hok.symm, Or.inl rfl⟩
  · rw [taskSelectHighestPriorityTask] at hok
    cases hp : selectTopPriority { st with xYieldPending := false }
        st.uxTopReadyPriority with
    | error e =>
        simp only [hp, bind, Except.bind] at hok
        exact absurd hok (by simp)
    | ok p =>
        simp only [hp, bind, Except.bind, pure, Except.pure, Except.ok.injEq] at hok
        exact ⟨_, _, _, hok.symm, Or.inr ⟨p, rfl⟩⟩

theorem switchContext_moved (h : WellLinked created st)
    (hok : vTaskSwitchContext st = .ok st₁) : Moved created True st st₁ := by
  obtain ⟨c, u, b, rfl, hc⟩ := vTaskSwitchContext_ok hok
  have hcur : ∀ d ∈ c, d ∈ created := by
    intro d hd
    rcases hc with rfl | ⟨p, rfl⟩
    · exact h.current d hd
    · exact ((h.linked (.ready p) (by simp) d).mp (List.mem_of_head? hd)).1
  exact
    { linked := ⟨h.wellFormed, h.linked, h.container, h.pending, h.priority, hcur,
        h.delayed⟩
      jobs := ⟨⟨rfl, rfl, rfl, rfl, rfl⟩, fun _ => rfl, rfl⟩
      pending := fun _ hn => hn
      unlost := fun _ => Unlost.refl _
      waiting := .of_eq fun _ => rfl }

theorem switchIf_moved (h : WellLinked created st) {b : Prop} [Decidable b]
    (hok : (if b then vTaskSwitchContext st else .ok st) = .ok st₁) :
    Moved created True st st₁ := by
  split at hok
  · exact switchContext_moved h hok
  · rw [Except.ok.injEq] at hok
    exact hok ▸ Moved.refl h

/-! ## Into a ready list -/

/-- The macro has a list for the task. -/
def HasList (alg : Algorithm) (x : TaskHandle) (st : State) : Prop :=
  HasBranch alg st.xTickCount (st.tcb x)

/-- Whether it has one depends on the job and the tick only. -/
theorem SameJobs.hasList (h : SameJobs st st₁) :
    HasList alg x st₁ ↔ HasList alg x st := by
  have hread : ∀ b : TCB, HasBranch alg st.xTickCount b ↔
      HasBranch alg st.xTickCount b.core := fun _ => Iff.rfl
  rw [HasList, HasList, h.tick, hread, h.core, ← hread]

theorem readyList_moved (alg : Algorithm) (h : WellLinked created st) (hx : x ∈ created) :
    Moved created (HasList alg x st) st (addTaskToReadyList alg x st) := by
  have hr := addTaskToReadyList_readied alg h hx
  exact
    { linked := h.addTaskToReadyList hx
      jobs := hr.jobs
      pending := fun _ hn => by
        rw [NonePending, State.items, hr.pendingReady]
        exact hn
      unlost := hr.unlost
      waiting := .of_others (fun y hy => by rw [hr.others y hy]) fun hw => by
        rw [hr.container] at hw
        exact readyTarget_wait hw }

theorem vTaskResume_moved (h : WellLinked created st) (hx : x ∈ created)
    (hok : vTaskResume alg x st = .ok st₁) :
    Moved created (prvTaskIsTaskSuspended x st → HasList alg x st) st st₁ := by
  rw [vTaskResume] at hok
  split at hok
  · next hs =>
      have hm := readyList_moved alg h hx
      exact (hm.andThen (switchIf_moved hm.linked hok)).mono fun hk => hk hs.2
  · rw [Except.ok.injEq] at hok
    exact hok ▸ (Moved.refl h).mono fun _ => trivial

theorem insertPendingReady_moved (h : WellLinked created st) (hx : x ∈ created)
    (hn : x ∉ st.items .pendingReady) (hs : st.uxSchedulerSuspended ≠ 0) :
    Moved created True st (insertPendingReady x st) where
  linked := h.insertPendingReady hx hn
  jobs := insertPendingReady_sameJobs
  pending hs' _ := absurd hs' hs
  unlost _ _ hy := insertPendingReady_container ▸ hy
  waiting := .of_eq fun _ => insertPendingReady_container

theorem removeEventItem_moved (h : WellLinked created st) (x : TaskHandle) :
    Moved created True st (removeEventItem x st) where
  linked := h.removeEventItem x
  jobs := removeEventItem_sameJobs
  pending _ hn := by
    rw [NonePending, State.items] at hn ⊢
    simp [removeEventItem, hn]
  unlost _ _ hy := removeEventItem_container ▸ hy
  waiting := .of_eq fun _ => removeEventItem_container

theorem prvTaskIsTaskSuspended_iff : prvTaskIsTaskSuspended x st = true ↔
    (st.tcb x).pxContainer = some .suspended ∧ x ∉ st.items .pendingReady ∧
      (st.tcb x).inEventList = false := decide_eq_true_iff

theorem xTaskResumeFromISR_moved (h : WellLinked created st) (hx : x ∈ created) :
    Moved created (prvTaskIsTaskSuspended x st →
      st.uxSchedulerSuspended = 0 → HasList alg x st) st
      (xTaskResumeFromISR alg x st) := by
  rw [xTaskResumeFromISR]
  split
  · next hsus =>
      split
      · next hs =>
          have hy : Moved created True st (if outranksCurrent x st then
              { st with xYieldPending := true } else st) := by
            split
            · exact yieldPending_moved h true
            · exact Moved.refl h
          exact (hy.trans (readyList_moved alg hy.linked hx)).mono fun hk =>
            ⟨trivial, hy.jobs.hasList.mpr (hk hsus hs)⟩
      · next hs =>
          exact (insertPendingReady_moved h hx
            (prvTaskIsTaskSuspended_iff.mp hsus).2.1 hs).mono fun _ => trivial
  · exact (Moved.refl h).mono fun _ => trivial

theorem xTaskRemoveFromEventList_moved (h : WellLinked created st)
    (hx : x ∈ created) :
    Moved created (st.uxSchedulerSuspended = 0 → HasList alg x st) st
      (xTaskRemoveFromEventList alg x st) := by
  have hrem := removeEventItem_moved h x
  have hnot : x ∉ (removeEventItem x st).items .pendingReady := by
    have hnd := (h.wellFormed .pendingReady).nodup
    simpa [removeEventItem, State.items] using hnd.not_mem_erase
  have hput : Moved created (st.uxSchedulerSuspended = 0 → HasList alg x st) st
      (if (removeEventItem x st).uxSchedulerSuspended = 0 then
        addTaskToReadyList alg x (removeEventItem x st)
      else insertPendingReady x (removeEventItem x st)) := by
    split
    · next hs =>
        exact (hrem.trans (readyList_moved alg hrem.linked hx)).mono fun hk =>
          ⟨trivial, hrem.jobs.hasList.mpr (hk hs)⟩
    · next hs =>
        exact (hrem.andThen (insertPendingReady_moved hrem.linked hx hnot hs)).mono
          fun _ => trivial
  rw [xTaskRemoveFromEventList]
  generalize (if (removeEventItem x st).uxSchedulerSuspended = 0 then
    addTaskToReadyList alg x (removeEventItem x st)
    else insertPendingReady x (removeEventItem x st)) = s at hput ⊢
  split
  · exact hput
  · split
    · exact hput.andThen (yieldPending_moved hput.linked true)
    · exact hput

/-! ## Into another list -/

/-- A state with `x` taken out of its list. -/
structure TakenOut (created : List TaskHandle) (x : TaskHandle) (st s : State) :
    Prop where
  linked : WellLinked created s
  out : (s.tcb x).pxContainer = none
  jobs : SameJobs st s
  pending : NonePending st → NonePending s
  others : ∀ y, y ≠ x → (s.tcb y).pxContainer = (st.tcb y).pxContainer

theorem uxListRemove_takenOut (h : WellLinked created st) (hx : x ∈ created) :
    TakenOut created x st (uxListRemove x st) where
  linked := h.uxListRemove hx
  out := uxListRemove_container
  jobs := uxListRemove_sameJobs
  pending hn := by
    rw [NonePending, State.items, uxListRemove_lists (h.not_pendingReady hx)]
    exact hn
  others y hy := by rw [uxListRemove_tcb_other hy]

/-- The task enters another list. -/
theorem TakenOut.link {s : State} {id : ListId} {l : CursorList TaskHandle}
    (h : TakenOut created x st s) (hx : x ∈ created) (hid : id.IsState)
    (hwait : id ≠ .wait) (hadds : Adds s id x l) :
    Moved created True st (link id l x s) where
  linked := h.linked.link hx h.out hid hadds
  jobs := h.jobs.trans link_sameJobs
  pending _ hn := by
    have hnp : ListId.pendingReady ≠ id := fun he => by
      rw [← he] at hid
      exact hid
    have hkeep : (FreeRtosSim.link id l x s).lists .pendingReady =
        s.lists .pendingReady := by simp [FreeRtosSim.link, hnp]
    rw [NonePending, State.items, hkeep]
    exact h.pending hn
  unlost _ y hy := by
    by_cases hyx : y = x
    · subst hyx
      rw [link_container_self] at hy
      exact absurd hy (by simp)
    · rwa [link_tcb_other hyx, h.others y hyx] at hy
  waiting := .of_others (fun y hy => by rw [link_tcb_other hy, h.others y hy])
    fun hw => by
      rw [link_container_self, Option.some.injEq] at hw
      exact absurd hw hwait

theorem TakenOut.suspend {s : State} (h : TakenOut created x st s)
    (hx : x ∈ created) : Moved created True st (listInsertEnd .suspended x s) := by
  obtain ⟨l, heq, hadds⟩ :=
    listInsertEnd_link (x := x) (h.linked.wellFormed .suspended)
  exact heq ▸ h.link hx trivial (by simp) hadds

theorem TakenOut.delay {s : State} {id : ListId} (h : TakenOut created x st s)
    (hx : x ∈ created) (hid : id = .delayed1 ∨ id = .delayed2) :
    Moved created True st (vListInsert id x s) := by
  obtain ⟨l, heq, hadds⟩ := vListInsert_link (x := x) (h.linked.wellFormed id)
  rw [heq]
  rcases hid with rfl | rfl
  · exact h.link hx trivial (by simp) hadds
  · exact h.link hx trivial (by simp) hadds

theorem vTaskSuspendLists_moved (h : WellLinked created st) (hx : x ∈ created) :
    Moved created True st (vTaskSuspendLists x st) := by
  have hout := uxListRemove_takenOut h hx
  rw [vTaskSuspendLists]
  split
  · have hrem := removeEventItem_moved hout.linked x
    exact TakenOut.suspend
      { linked := hrem.linked
        out := removeEventItem_container.trans hout.out
        jobs := hout.jobs.trans hrem.jobs
        pending := fun hn => by
          have hn' := hout.pending hn
          rw [NonePending, State.items] at hn' ⊢
          simp [removeEventItem, hn']
        others := fun y hy => removeEventItem_container.trans (hout.others y hy) }
      hx
  · exact hout.suspend hx

theorem vTaskSuspendYield_moved (h : WellLinked created st)
    (hok : vTaskSuspendYield x st = .ok st₁) : Moved created True st st₁ := by
  have hreset : Moved created True st
      (if st.xSchedulerRunning then prvResetNextTaskUnblockTime st else st) := by
    split
    · exact resetUnblockTime_moved h
    · exact Moved.refl h
  rw [vTaskSuspendYield] at hok
  generalize (if st.xSchedulerRunning then prvResetNextTaskUnblockTime st else st)
    = s at hok hreset
  refine hreset.andThen ?_
  have hl := hreset.linked
  split at hok
  · split at hok
    · rw [configAssert] at hok
      split at hok
      · exact switchContext_moved hl hok
      · exact absurd hok (by simp [bind, Except.bind])
    · split at hok
      · cases hok
        exact
          { linked := ⟨hl.wellFormed, hl.linked, hl.container, hl.pending,
              hl.priority, fun _ hc => absurd hc (by simp), hl.delayed⟩
            jobs := ⟨⟨rfl, rfl, rfl, rfl, rfl⟩, fun _ => rfl, rfl⟩
            pending := fun _ hn => hn
            unlost := fun _ => Unlost.refl _
            waiting := .of_eq fun _ => rfl }
      · exact switchContext_moved hl hok
  · cases hok
    exact Moved.refl hl

/-! ## Priorities -/

theorem setPriority_moved (h : WellLinked created st) {p : Nat}
    (hp : p < configMaxPriorities) :
    Moved created True st (st.modifyTcb x fun b => { b with uxPriority := p }) := by
  have hsame : ∀ {β : Type} (g : TCB → β)
      (_ : ∀ b q, g { b with uxPriority := q } = g b) (y : TaskHandle),
      g ((st.modifyTcb x fun b => { b with uxPriority := p }).tcb y) =
        g (st.tcb y) := by
    intro β g hg y
    by_cases hy : y = x
    · subst hy
      simp [hg]
    · simp [hy]
  have hcont := hsame TCB.pxContainer fun _ _ => rfl
  have hevent := hsame TCB.inEventList fun _ _ => rfl
  refine
    { linked :=
        { wellFormed := h.wellFormed
          linked := fun id hid y => by rw [hcont]; exact h.linked id hid y
          container := fun y hy id hc => h.container y hy id (hcont y ▸ hc)
          pending := fun y hy => by rw [hevent]; exact h.pending y hy
          priority := fun y hy => ?_
          current := h.current
          delayed := h.delayed }
      jobs := SameJobs.modifyTcb rfl
      pending := fun _ hn => hn
      unlost := fun _ y hy => (hcont y).symm.trans hy
      waiting := .of_eq hcont }
  by_cases hyx : y = x
  · subst hyx
    simpa using hp
  · simpa [hyx] using h.priority y hy

theorem vTaskPrioritySet_moved {p : Nat} (h : WellLinked created st)
    (hx : x ∈ created) (hok : vTaskPrioritySet alg x p st = .ok st₁) :
    Moved created ((st.tcb x).uxPriority ≠ p →
      (st.tcb x).pxContainer = some (.ready (st.tcb x).uxPriority) →
        HasList alg x st) st st₁ := by
  by_cases hp : p < configMaxPriorities
  · have hset := setPriority_moved (x := x) h hp
    have hcont : ((st.modifyTcb x fun b => { b with uxPriority := p }).tcb
        x).pxContainer = (st.tcb x).pxContainer := by simp
    have hput : Moved created ((st.tcb x).pxContainer =
          some (.ready (st.tcb x).uxPriority) → HasList alg x st) st
        (if ((st.modifyTcb x fun b => { b with uxPriority := p }).tcb
            x).pxContainer = some (.ready (st.tcb x).uxPriority) then
          addTaskToReadyList alg x (st.modifyTcb x fun b => { b with uxPriority := p })
        else st.modifyTcb x fun b => { b with uxPriority := p }) := by
      split
      · next hc =>
          exact (hset.trans (readyList_moved alg hset.linked hx)).mono fun hk =>
            ⟨trivial, hset.jobs.hasList.mpr (hk (hcont.symm.trans hc))⟩
      · exact hset.mono fun _ => trivial
    have hge : ¬ p ≥ configMaxPriorities := Nat.not_le.mpr hp
    simp only [vTaskPrioritySet, configAssert, decide_eq_true hp, if_true,
      bind, Except.bind, if_neg hge] at hok
    split at hok
    · next hne =>
        exact (hput.andThen (switchIf_moved hput.linked hok)).mono fun hk =>
          hk hne
    · cases hok
      exact (Moved.refl h).mono fun _ => trivial
  · simp only [vTaskPrioritySet, configAssert, decide_eq_false hp, bind,
      Except.bind] at hok
    exact absurd hok (by simp)

/-! ## Blocking -/

theorem setItemValue_links (v : Nat) : SameLinks st (setItemValue x v st) := by
  refine ⟨rfl, fun y => ?_, fun y => ?_, fun y => ?_, rfl, rfl, rfl⟩ <;>
    by_cases hy : y = x <;> simp [setItemValue, hy]

theorem TakenOut.setItemValue {s : State} (h : TakenOut created x st s) (v : Nat) :
    TakenOut created x st (setItemValue x v s) where
  linked := h.linked.congr (setItemValue_links v)
  out := ((setItemValue_links v).container x).trans h.out
  jobs := h.jobs.trans (SameJobs.modifyTcb rfl)
  pending hn := by
    rw [NonePending, State.items, (setItemValue_links v).lists]
    exact h.pending hn
  others y hy := ((setItemValue_links v).container y).trans (h.others y hy)

theorem WellLinked.delayed_either (h : WellLinked created st) :
    (st.pxDelayedTaskList = .delayed1 ∨ st.pxDelayedTaskList = .delayed2) ∧
    (st.pxOverflowDelayedTaskList = .delayed1 ∨
      st.pxOverflowDelayedTaskList = .delayed2) := by
  rcases h.delayed with ⟨hd, ho⟩ | ⟨hd, ho⟩
  · exact ⟨Or.inl hd, Or.inr ho⟩
  · exact ⟨Or.inr hd, Or.inl ho⟩

theorem delayedList_moved (h : WellLinked created st) (xTicksToWait : Nat)
    (b : Bool) :
    Moved created True st (prvAddCurrentTaskToDelayedList xTicksToWait b st) := by
  rw [prvAddCurrentTaskToDelayedList]
  cases hc : st.pxCurrentTCB with
  | none => exact Moved.refl h
  | some c =>
      have hx := h.current c hc
      have hout := uxListRemove_takenOut h hx
      dsimp only
      split
      · exact hout.suspend hx
      · generalize tickAdd _ xTicksToWait = v
        have hput := hout.setItemValue v
        obtain ⟨hd, ho⟩ := hput.linked.delayed_either
        split
        · exact hput.delay hx ho
        · have hin := hput.delay hx hd
          split
          · exact hin.andThen (.of_same hin.linked
              ⟨rfl, fun _ => rfl, fun _ => rfl, fun _ => rfl, rfl, rfl, rfl⟩
              ⟨⟨rfl, rfl, rfl, rfl, rfl⟩, fun _ => rfl, rfl⟩)
          · exact hin

/-- A task that blocks leaves `xPendingReadyList` alone. -/
theorem delayedList_pendingReady (h : WellLinked created st) (xTicksToWait : Nat)
    (b : Bool) :
    (prvAddCurrentTaskToDelayedList xTicksToWait b st).items .pendingReady =
      st.items .pendingReady := by
  rw [prvAddCurrentTaskToDelayedList]
  cases hc : st.pxCurrentTCB with
  | none => rfl
  | some c =>
      have hx := h.current c hc
      have hrem : (uxListRemove c st).items .pendingReady =
          st.items .pendingReady := by
        rw [State.items, uxListRemove_lists (h.not_pendingReady hx)]
      obtain ⟨hd, ho⟩ := (h.uxListRemove hx).delayed_either
      have hother : ∀ {s : State} {id : ListId}, id = .delayed1 ∨ id = .delayed2 →
          (vListInsert id c s).items .pendingReady = s.items .pendingReady := by
        intro s id hid
        rcases hid with rfl | rfl <;> simp [vListInsert, State.items]
      dsimp only
      split
      · simpa [listInsertEnd, State.items] using hrem
      · split
        · exact (hother ho).trans hrem
        · split
          · exact (hother hd).trans hrem
          · exact (hother hd).trans hrem

/-- The running task's event item goes into an event list. -/
theorem blockOnEvent_moved (h : WellLinked created st) {c : TaskHandle} :
    Moved created True st (st.modifyTcb c fun b => { b with inEventList := true }) := by
  have heq : st.modifyTcb c (fun b => { b with inEventList := true }) =
      (st.setList .pendingReady (st.lists .pendingReady)).modifyTcb c
        fun b => { b with inEventList := true } := by
    simp [State.setList]
  have hlinked : WellLinked created
      (st.modifyTcb c fun b => { b with inEventList := true }) := by
    rw [heq]
    refine h.eventItem (h.wellFormed _) fun y hy => ?_
    obtain ⟨hyc, hev⟩ := h.pending y hy
    refine ⟨hyc, ?_⟩
    split
    · rfl
    · exact hev
  have hcont : ∀ y, ((st.modifyTcb c fun b => { b with inEventList := true }).tcb
      y).pxContainer = (st.tcb y).pxContainer := by
    intro y
    by_cases hyc : y = c
    · subst hyc
      simp
    · simp [hyc]
  exact ⟨hlinked, SameJobs.modifyTcb rfl, fun _ hn => hn,
    fun _ y hy => (hcont y).symm.trans hy, .of_eq hcont⟩

theorem vTaskPlaceOnEventList_moved (h : WellLinked created st) (n : Nat) :
    Moved created True st (vTaskPlaceOnEventList n st) := by
  rw [vTaskPlaceOnEventList]
  cases hc : st.pxCurrentTCB with
  | none => exact delayedList_moved h n true
  | some c =>
      have hev := blockOnEvent_moved h (c := c)
      exact hev.andThen (delayedList_moved hev.linked n true)

/-! ## The pending tasks -/

/-- Every task of `xPendingReadyList` has a list to go to. -/
def PendingHaveLists (alg : Algorithm) (st : State) : Prop :=
  ∀ x ∈ st.items .pendingReady, HasList alg x st

theorem pendingReadyLoop_moved (alg : Algorithm) :
    ∀ (n : Nat) (st : State), WellLinked created st →
      Moved created (PendingHaveLists alg st) st (pendingReadyLoop alg n st) ∧
      ((st.items .pendingReady).length ≤ n →
        NonePending (pendingReadyLoop alg n st)) := by
  intro n
  induction n with
  | zero =>
      intro st h
      refine ⟨(Moved.refl h).mono fun _ => trivial, fun hlen => ?_⟩
      exact List.length_eq_zero_iff.mp (Nat.le_zero.mp hlen)
  | succ n ih =>
      intro st h
      rw [pendingReadyLoop]
      cases hitems : st.items .pendingReady with
      | nil =>
          exact ⟨(Moved.refl h).mono fun _ => trivial, fun _ => hitems⟩
      | cons x l =>
          have hmem : x ∈ st.items .pendingReady := by
            rw [hitems]
            exact List.mem_cons_self ..
          have hx := (h.pending x hmem).1
          have hrem := removeEventItem_moved h x
          have hput := readyList_moved alg hrem.linked hx
          have hyield : Moved created True
              (addTaskToReadyList alg x (removeEventItem x st))
              (if outranksCurrent x (addTaskToReadyList alg x (removeEventItem x st))
              then { addTaskToReadyList alg x (removeEventItem x st) with
                xYieldPending := true }
              else addTaskToReadyList alg x (removeEventItem x st)) := by
            split
            · exact yieldPending_moved hput.linked true
            · exact Moved.refl hput.linked
          have hround := (hrem.trans hput).andThen hyield
          have hlist : ((if outranksCurrent x
              (addTaskToReadyList alg x (removeEventItem x st))
              then { addTaskToReadyList alg x (removeEventItem x st) with
                xYieldPending := true }
              else addTaskToReadyList alg x (removeEventItem x st)) :
              State).items .pendingReady = l := by
            have hr := addTaskToReadyList_readied alg hrem.linked hx
            have hl : (addTaskToReadyList alg x (removeEventItem x st)).items
                .pendingReady = l := by
              rw [State.items, hr.pendingReady]
              rw [State.items] at hitems
              simp [removeEventItem, hitems]
            split <;> exact hl
          dsimp only
          generalize (if outranksCurrent x
              (addTaskToReadyList alg x (removeEventItem x st))
              then { addTaskToReadyList alg x (removeEventItem x st) with
                xYieldPending := true }
              else addTaskToReadyList alg x (removeEventItem x st)) = s at *
          obtain ⟨hrest, hempty⟩ := ih s hround.linked
          refine ⟨(hround.trans hrest).mono fun hk => ⟨⟨trivial, ?_⟩, ?_⟩,
            fun hlen => hempty ?_⟩
          · exact hrem.jobs.hasList.mpr (hk x hmem)
          · intro y hy
            rw [hround.jobs.hasList]
            rw [hlist] at hy
            exact hk y (by rw [hitems]; exact List.mem_cons_of_mem x hy)
          · rw [hlist]
            exact Nat.le_of_succ_le_succ hlen

theorem resumePending_moved (alg : Algorithm) (h : WellLinked created st) :
    Moved created (PendingHaveLists alg st) st (resumePending alg st) ∧
      NonePending (resumePending alg st) := by
  obtain ⟨hm, hn⟩ := pendingReadyLoop_moved alg
    (st.items .pendingReady).length st h
  have hnone := hn (Nat.le_refl _)
  rw [resumePending]
  split
  · exact ⟨hm, hnone⟩
  · exact ⟨hm.andThen (resetUnblockTime_moved hm.linked), hnone⟩

end FreeRtosSim
