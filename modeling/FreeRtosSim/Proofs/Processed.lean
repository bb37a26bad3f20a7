import FreeRtosSim.Proofs.Passes

/-!
# A processed tick in any system

The tasks the loop over the delayed list unblocks are those of `dueTasks`,
each of them once, and the rest of the tick is the accounting and the two
passes. `Processed` puts the four together: what a tick that ends does to
every block.
-/

namespace FreeRtosSim

variable {created : List TaskHandle} {alg : Algorithm} {st st₁ st₂ : State}
  {x y : TaskHandle} {id : ListId} {t : Nat}

/-! ## The loop over the delayed list -/

/-- One round of the loop. -/
def unblock (alg : Algorithm) (st : State) (x : TaskHandle) : State :=
  prvAddTaskToReadyList alg x
    ((uxListRemove x st).modifyTcb x fun b => { b with inEventList := false })

/-- What the round does to the block of the task. -/
def unblockBlock (alg : Algorithm) (tick : Nat) (b : TCB) : TCB :=
  { b with inEventList := false, pxContainer := readyTarget alg tick b }

/-- No task waits to be put into a ready list. -/
def NonePending (st : State) : Prop := st.items .pendingReady = []

/-- The block that leaves the delayed list. -/
def unblocked (x : TaskHandle) (st : State) : State :=
  (uxListRemove x st).modifyTcb x fun b => { b with inEventList := false }

theorem unblocked_tcb : (unblocked x st).tcb x =
    { st.tcb x with pxContainer := none, inEventList := false } := by
  simp [unblocked, uxListRemove_tcb]

theorem unblocked_tcb_other (hy : y ≠ x) : (unblocked x st).tcb y = st.tcb y := by
  simp [unblocked, hy, uxListRemove_tcb_other hy]

theorem unblocked_jobs : SameJobs st (unblocked x st) :=
  uxListRemove_sameJobs.trans (SameJobs.modifyTcb rfl)

theorem WellLinked.unblocked (h : WellLinked created st) (hx : x ∈ created)
    (hn : NonePending st) : WellLinked created (unblocked x st) := by
  have h₁ := h.uxListRemove hx
  have hnone : (FreeRtosSim.uxListRemove x st).items .pendingReady = [] := by
    rw [State.items, uxListRemove_lists (h.not_pendingReady hx)]
    exact hn
  have heq : FreeRtosSim.unblocked x st =
      ((FreeRtosSim.uxListRemove x st).setList .pendingReady
        ((FreeRtosSim.uxListRemove x st).lists .pendingReady)).modifyTcb x
          fun b => { b with inEventList := false } := by
    simp [FreeRtosSim.unblocked, State.setList]
  rw [heq]
  refine h₁.eventItem (h₁.wellFormed _) fun y hy => ?_
  rw [State.items] at hnone
  rw [hnone] at hy
  exact absurd hy List.not_mem_nil

section Unblock

variable (h : WellLinked created st) (hx : x ∈ created) (hn : NonePending st)

include h hx hn

theorem unblock_readied : Readied alg x (unblocked x st) (unblock alg st x) :=
  prvAddTaskToReadyList_readied alg (h.unblocked hx hn).wellFormed
    (by rw [unblocked_tcb])

theorem unblock_linked : WellLinked created (unblock alg st x) :=
  (h.unblocked hx hn).prvAddTaskToReadyList hx (by rw [unblocked_tcb])

theorem unblock_jobs : SameJobs st (unblock alg st x) :=
  unblocked_jobs.trans (unblock_readied h hx hn).jobs

theorem unblock_nonePending : NonePending (unblock alg st x) := by
  rw [NonePending, State.items, (unblock_readied h hx hn).pendingReady]
  have hpend : (unblocked x st).lists .pendingReady = st.lists .pendingReady :=
    uxListRemove_lists (h.not_pendingReady hx)
  rw [hpend]
  exact hn

theorem unblock_tcb_other (hy : y ≠ x) : (unblock alg st x).tcb y = st.tcb y :=
  ((unblock_readied h hx hn).others y hy).trans (unblocked_tcb_other hy)

theorem unblock_priority : ((unblock alg st x).tcb y).uxPriority =
    (st.tcb y).uxPriority := by
  rw [(unblock_readied h hx hn).priority]
  by_cases hy : y = x
  · subst hy
    rw [unblocked_tcb]
  · rw [unblocked_tcb_other hy]

theorem unblock_block : (unblock alg st x).block x =
    unblockBlock alg st.xTickCount (st.block x) := by
  rw [(unblock_readied h hx hn).block, unblocked_jobs.tick, State.block,
    unblocked_tcb]
  rfl

end Unblock

/-- The rounds of the loop are independent of each other. -/
theorem unblock_pointwise (created : List TaskHandle) (alg : Algorithm) (t : Nat) :
    PointwiseStep State.block (unblock alg) (fun _ => unblockBlock alg t)
      (fun s => WellLinked created s ∧ NonePending s ∧ s.xTickCount = t)
      (fun x _ => x ∈ created) where
  inv s x hs hx := ⟨unblock_linked hs.1 hx hs.2.1,
    unblock_nonePending hs.1 hx hs.2.1,
    (unblock_jobs hs.1 hx hs.2.1).tick.trans hs.2.2⟩
  self s x hs hx := by rw [unblock_block hs.1 hx hs.2.1, hs.2.2]
  other s x y hs hx hy := block_congr (unblock_tcb_other hs.1 hx hs.2.1 hy)

/-- The tasks at the front of a delayed list whose time has come. -/
def dueIn (id : ListId) (st : State) : List TaskHandle :=
  (st.items id).takeWhile fun x => decide ((st.tcb x).xItemValue ≤ st.xTickCount)

theorem WellLinked.delayed_ne (h : WellLinked created st) :
    st.pxDelayedTaskList ≠ .pendingReady ∧ st.pxDelayedTaskList ≠ .wait ∧
      ∀ p, st.pxDelayedTaskList ≠ .ready p := by
  rcases h.delayed with ⟨hd, -⟩ | ⟨hd, -⟩ <;> rw [hd] <;> simp

theorem takeWhile_congr {p q : TaskHandle → Bool} {l : List TaskHandle}
    (h : ∀ x ∈ l, p x = q x) : l.takeWhile p = l.takeWhile q := by
  induction l with
  | nil => rfl
  | cons x l ih =>
      rw [List.takeWhile_cons, List.takeWhile_cons, h x (by simp),
        ih fun y hy => h y (List.mem_cons_of_mem x hy)]

theorem outranksCurrent_congr (hcur : st₁.pxCurrentTCB = st.pxCurrentTCB)
    (hprio : ∀ y, (st₁.tcb y).uxPriority = (st.tcb y).uxPriority) (x : TaskHandle) :
    outranksCurrent x st₁ = outranksCurrent x st := by
  rw [outranksCurrent, outranksCurrent, hcur]
  cases st.pxCurrentTCB with
  | none => rfl
  | some c => simp only [hprio]

/-- The loop unblocks the due tasks, first to last, and wants a switch for
those that outrank the running one. -/
theorem unblockLoop_eq (alg : Algorithm) :
    ∀ (n : Nat) (sw : Bool) (st : State), WellLinked created st → NonePending st →
      (st.items st.pxDelayedTaskList).length ≤ n →
      ∃ v, unblockLoop alg n sw st =
        (sw || (dueIn st.pxDelayedTaskList st).any fun x => outranksCurrent x st,
          { (dueIn st.pxDelayedTaskList st).foldl (unblock alg) st with
            xNextTaskUnblockTime := v }) := by
  intro n
  induction n with
  | zero =>
      intro sw st h hn hlen
      have hnil := List.length_eq_zero_iff.mp (Nat.le_zero.mp hlen)
      refine ⟨portMaxDelay, ?_⟩
      rw [dueIn, hnil]
      simp [unblockLoop]
  | succ n ih =>
      intro sw st h hn hlen
      cases hitems : st.items st.pxDelayedTaskList with
      | nil =>
          refine ⟨portMaxDelay, ?_⟩
          rw [dueIn, hitems, unblockLoop, hitems]
          simp
      | cons x l =>
          by_cases hlt : st.xTickCount < (st.tcb x).xItemValue
          · refine ⟨(st.tcb x).xItemValue, ?_⟩
            rw [dueIn, hitems, unblockLoop, hitems,
              List.takeWhile_cons_of_neg (by simpa using hlt)]
            dsimp only
            rw [if_pos hlt]
            simp
          · obtain ⟨hnp, hnw, hnr⟩ := h.delayed_ne
            have hmem : x ∈ st.items st.pxDelayedTaskList := by
              rw [hitems]
              exact List.mem_cons_self ..
            obtain ⟨hx, hc⟩ := (h.linked _ hnp x).mp hmem
            have hnd := (h.wellFormed st.pxDelayedTaskList).nodup
            rw [State.items] at hitems
            rw [hitems] at hnd
            have hxl := (List.nodup_cons.mp hnd).1
            have hr : Readied alg x (unblocked x st) (unblock alg st x) :=
              unblock_readied h hx hn
            have hdelayed : (unblock alg st x).pxDelayedTaskList =
                st.pxDelayedTaskList := hr.delayed.trans uxListRemove_delayed.1
            have hlist : (unblock alg st x).items st.pxDelayedTaskList = l := by
              rw [State.items, unblock, prvAddTaskToReadyList_lists]
              · have hrem : (unblocked x st).lists st.pxDelayedTaskList =
                    (st.lists st.pxDelayedTaskList).remove x :=
                  uxListRemove_lists_self hc
                rw [unblocked] at hrem
                rw [hrem, CursorList.items_remove, hitems, List.erase_cons_head]
              · exact (h.unblocked hx hn).wellFormed
              · intro htarget
                rcases readyTarget_cases htarget with he | he
                · exact hnr _ he
                · exact hnw he
            have hcur : (unblock alg st x).pxCurrentTCB = st.pxCurrentTCB :=
              hr.current.trans uxListRemove_current
            have hrank := outranksCurrent_congr hcur fun y =>
              unblock_priority h hx hn (y := y)
            obtain ⟨v, hloop⟩ := ih (sw || outranksCurrent x (unblock alg st x))
              (unblock alg st x) (unblock_linked h hx hn)
              (unblock_nonePending h hx hn) (by
                rw [hdelayed, hlist]
                rw [State.items, hitems] at hlen
                exact Nat.le_of_succ_le_succ hlen)
            have hrest : dueIn st.pxDelayedTaskList (unblock alg st x) =
                l.takeWhile fun y => decide ((st.tcb y).xItemValue ≤ st.xTickCount) := by
              rw [dueIn, hlist, (unblock_jobs h hx hn).tick]
              refine takeWhile_congr fun y hy => ?_
              rw [unblock_tcb_other h hx hn fun he => hxl (he ▸ hy)]
            refine ⟨v, ?_⟩
            simp only [hrank] at hloop
            rw [dueIn, State.items, hitems,
              List.takeWhile_cons_of_pos (by simpa using hlt), List.foldl_cons,
              List.any_cons, ← Bool.or_assoc, ← hrest, ← hdelayed, ← hloop,
              unblockLoop, State.items, hitems]
            dsimp only
            rw [if_neg hlt, ← hrank]
            rfl

/-! ## The tick count -/

/-- The count goes up; when it wraps, the delayed lists change places. -/
def countTick (st : State) : State :=
  let st := { st with xTickCount := tickAdd st.xTickCount 1 }
  if st.xTickCount = 0 then
    prvResetNextTaskUnblockTime
      { st with
        pxDelayedTaskList := st.pxOverflowDelayedTaskList
        pxOverflowDelayedTaskList := st.pxDelayedTaskList }
  else st

theorem countTick_of_wrap (h : tickAdd st.xTickCount 1 = 0) :
    countTick st = prvResetNextTaskUnblockTime
      { st with
        xTickCount := tickAdd st.xTickCount 1
        pxDelayedTaskList := st.pxOverflowDelayedTaskList
        pxOverflowDelayedTaskList := st.pxDelayedTaskList } := if_pos h

theorem countTick_of_ne (h : tickAdd st.xTickCount 1 ≠ 0) :
    countTick st = { st with xTickCount := tickAdd st.xTickCount 1 } := if_neg h

/-- What counting a tick leaves alone. -/
structure CountTick (st st' : State) : Prop where
  tcb : st'.tcb = st.tcb
  lists : st'.lists = st.lists
  tick : st'.xTickCount = tickAdd st.xTickCount 1
  current : st'.pxCurrentTCB = st.pxCurrentTCB
  suspended : st'.uxSchedulerSuspended = st.uxSchedulerSuspended
  number : st'.uxCurrentNumberOfTasks = st.uxCurrentNumberOfTasks
  running : st'.xSchedulerRunning = st.xSchedulerRunning
  pended : st'.xPendedTicks = st.xPendedTicks
  sim : st'.sim = st.sim

theorem countTick_spec (st : State) : CountTick st (countTick st) := by
  by_cases h : tickAdd st.xTickCount 1 = 0
  · rw [countTick_of_wrap h]
    exact ⟨rfl, rfl, rfl, rfl, rfl, rfl, rfl, rfl, rfl⟩
  · rw [countTick_of_ne h]
    exact ⟨rfl, rfl, rfl, rfl, rfl, rfl, rfl, rfl, rfl⟩

theorem countTick_yieldPending : (countTick st).xYieldPending = st.xYieldPending := by
  by_cases hw : tickAdd st.xTickCount 1 = 0
  · rw [countTick_of_wrap hw]
    rfl
  · rw [countTick_of_ne hw]

theorem WellLinked.countTick (h : WellLinked created st) :
    WellLinked created (countTick st) := by
  by_cases hw : tickAdd st.xTickCount 1 = 0
  · rw [countTick_of_wrap hw]
    refine ⟨h.wellFormed, h.linked, h.container, h.pending, h.priority, h.current, ?_⟩
    rcases h.delayed with ⟨hd, ho⟩ | ⟨hd, ho⟩
    · exact Or.inr ⟨ho, hd⟩
    · exact Or.inl ⟨ho, hd⟩
  · rw [countTick_of_ne hw]
    exact ⟨h.wellFormed, h.linked, h.container, h.pending, h.priority, h.current,
      h.delayed⟩

/-- The tasks of `dueTasks` are those the loop would unblock. -/
theorem dueTasks_eq (h : countTick st = st₁) : dueTasks st =
    if st₁.xTickCount ≥ st₁.xNextTaskUnblockTime then
      dueIn st₁.pxDelayedTaskList st₁
    else [] := by
  subst h
  rw [dueTasks]
  by_cases hw : tickAdd st.xTickCount 1 = 0
  · rw [countTick_of_wrap hw]
    dsimp only
    rw [if_pos hw]
    simp only [prvResetNextTaskUnblockTime, hw, dueIn]
    cases hitems : st.items st.pxOverflowDelayedTaskList with
    | nil => simp
    | cons x l =>
        simp only [List.takeWhile_cons]
        by_cases h0 : (st.tcb x).xItemValue ≤ 0
        · rw [if_pos (by simpa using h0), if_pos h0]
        · rw [if_neg (by simpa using h0), if_neg h0]
  · rw [countTick_of_ne hw]
    dsimp only
    rw [if_neg hw]
    rfl

/-- The prologue once the tick is counted. -/
def unblockDue (alg : Algorithm) (st : State) : Bool × State :=
  let r :=
    if st.xTickCount ≥ st.xNextTaskUnblockTime then
      unblockLoop alg (st.items st.pxDelayedTaskList).length false st
    else (false, st)
  (r.1 || r.2.xYieldPending, r.2)

theorem tickPrologue_cases (alg : Algorithm) (st : State) :
    tickPrologue alg st = .error .assertFailed ∨
      tickPrologue alg st = .ok (unblockDue alg (countTick st)) := by
  by_cases hw : tickAdd st.xTickCount 1 = 0
  · rw [countTick_of_wrap hw]
    cases hempty : (st.items st.pxDelayedTaskList).isEmpty with
    | false =>
        refine Or.inl ?_
        simp [tickPrologue, hw, taskSwitchDelayedLists, configAssert, hempty,
          bind, Except.bind]
    | true =>
        refine Or.inr ?_
        simp only [tickPrologue, hw, taskSwitchDelayedLists, configAssert, hempty,
          bind, Except.bind, pure, Except.pure, if_true]
        rfl
  · rw [countTick_of_ne hw]
    refine Or.inr ?_
    rw [tickPrologue]
    dsimp only
    rw [if_neg hw]
    rfl

theorem unblockDue_eq (alg : Algorithm) (h : WellLinked created st)
    (hn : NonePending st) :
    ∃ v, unblockDue alg (countTick st) =
      (((dueTasks st).any fun x => outranksCurrent x (countTick st)) ||
          ((dueTasks st).foldl (unblock alg) (countTick st)).xYieldPending,
        { (dueTasks st).foldl (unblock alg) (countTick st) with
          xNextTaskUnblockTime := v }) := by
  have hn' : NonePending (countTick st) := by
    rw [NonePending, State.items, (countTick_spec st).lists]
    exact hn
  rw [dueTasks_eq rfl, unblockDue]
  dsimp only
  split
  · obtain ⟨v, hloop⟩ := unblockLoop_eq alg _ false (countTick st)
      h.countTick hn' (Nat.le_refl _)
    exact ⟨v, by rw [hloop, Bool.false_or]⟩
  · exact ⟨(countTick st).xNextTaskUnblockTime, rfl⟩

/-- The prologue moves the due tasks and changes nothing else of a block. -/
structure Prologue (created : List TaskHandle) (alg : Algorithm)
    (st st' : State) : Prop where
  linked : WellLinked created st'
  nonePending : NonePending st'
  tick : st'.xTickCount = tickAdd st.xTickCount 1
  jobs : SameJobs (countTick st) st'
  current : st'.pxCurrentTCB = st.pxCurrentTCB
  block : ∀ y, st'.block y =
    if y ∈ dueTasks st then unblockBlock alg st'.xTickCount (st.block y)
    else st.block y

/-- The prologue leaves the jobs alone. -/
theorem Prologue.core (h : Prologue created alg st st₁) (x : TaskHandle) :
    (st₁.tcb x).core = (st.tcb x).core := by
  rw [h.jobs.core, (countTick_spec st).tcb]

theorem dueTasks_sublist (st : State) : ∃ id, (id = st.pxDelayedTaskList ∨
    id = st.pxOverflowDelayedTaskList) ∧ (dueTasks st).Sublist (st.items id) := by
  rw [dueTasks]
  dsimp only
  split
  · exact ⟨_, Or.inr rfl, (List.takeWhile_prefix _).sublist⟩
  · split
    · exact ⟨_, Or.inl rfl, (List.takeWhile_prefix _).sublist⟩
    · exact ⟨_, Or.inl rfl, List.nil_sublist _⟩

theorem WellLinked.overflow_ne (h : WellLinked created st) :
    st.pxOverflowDelayedTaskList ≠ .pendingReady := by
  rcases h.delayed with ⟨-, ho⟩ | ⟨-, ho⟩ <;> rw [ho] <;> simp

theorem dueTasks_created (h : WellLinked created st) :
    (dueTasks st).Nodup ∧ ∀ x ∈ dueTasks st, x ∈ created := by
  obtain ⟨id, hid, hsub⟩ := dueTasks_sublist st
  refine ⟨hsub.nodup (h.wellFormed id).nodup, fun x hx => ?_⟩
  rcases hid with rfl | rfl
  · exact ((h.linked _ h.delayed_ne.1 x).mp (hsub.subset hx)).1
  · exact ((h.linked _ h.overflow_ne x).mp (hsub.subset hx)).1

theorem tickPrologue_ok {sw : Bool} (h : WellLinked created st)
    (hn : NonePending st) (hok : tickPrologue alg st = .ok (sw, st₁)) :
    Prologue created alg st st₁ := by
  have heq : st₁ = (unblockDue alg (countTick st)).2 := by
    rcases tickPrologue_cases alg st with herr | hpro
    · rw [herr] at hok
      exact absurd hok (by simp)
    · rw [hpro, Except.ok.injEq] at hok
      rw [hok]
  obtain ⟨v, hv⟩ := unblockDue_eq alg h hn
  have hspec := countTick_spec st
  have hn' : NonePending (countTick st) := by
    rw [NonePending, State.items, hspec.lists]
    exact hn
  obtain ⟨hnd, hcreated⟩ := dueTasks_created h
  have hpoint := unblock_pointwise created alg (countTick st).xTickCount
  have hinv := hpoint.foldl_inv _ (countTick st) hnd ⟨h.countTick, hn', rfl⟩ hcreated
  have hobs := hpoint.foldl_obs _ (countTick st) hnd ⟨h.countTick, hn', rfl⟩ hcreated
  have hjobs := hpoint.foldl_rel (R := fun a b => SameJobs a b ∧
      b.pxCurrentTCB = a.pxCurrentTCB)
    (fun s => ⟨SameJobs.refl s, rfl⟩)
    (fun ha hb => ⟨ha.1.trans hb.1, hb.2.trans ha.2⟩)
    (fun s x hs hx => ⟨unblock_jobs hs.1 hx hs.2.1,
      (unblock_readied hs.1 hx hs.2.1).current.trans uxListRemove_current⟩)
    _ (countTick st) hnd ⟨h.countTick, hn', rfl⟩ hcreated
  rw [heq, hv]
  generalize (dueTasks st).foldl (unblock alg) (countTick st) = s at *
  refine
    { linked := hinv.1.congr
        ⟨rfl, fun _ => rfl, fun _ => rfl, fun _ => rfl, rfl, rfl, rfl⟩
      nonePending := hinv.2.1
      tick := hinv.2.2.trans hspec.tick
      jobs := { hjobs.1 with }
      current := hjobs.2.trans hspec.current
      block := fun y => ?_ }
  have hblock : (countTick st).block y = st.block y :=
    block_congr (congrFun hspec.tcb y)
  have hy := hobs y
  rw [hblock] at hy
  rw [show ({ s with xNextTaskUnblockTime := v } : State).xTickCount =
    (countTick st).xTickCount from hinv.2.2]
  exact hy

/-! ## The whole tick -/

/-- The state `killTasks` finds in the tick that begins in `st`, unless the
process stops before. -/
def killEntry (alg : Algorithm) (st : State) : Option State :=
  match tickPrologue alg st with
  | .error _ => none
  | .ok (_, st) =>
      if atHiperPeriod (chargeCurrent st) then none else some (chargeCurrent st)

theorem killEntry_cases (hk : killEntry alg st = some st₂) (h : WellLinked created st)
    (hn : NonePending st) :
    ∃ st₁, Prologue created alg st st₁ ∧ st₂ = chargeCurrent st₁ := by
  rw [killEntry] at hk
  cases hpro : tickPrologue alg st with
  | error e =>
      rw [hpro] at hk
      exact absurd hk (by simp)
  | ok r =>
      rw [hpro] at hk
      dsimp only at hk
      split at hk
      · exact absurd hk (by simp)
      · exact ⟨r.2, tickPrologue_ok h hn hpro, (Option.some_inj.mp hk).symm⟩

theorem xTaskIncrementTick_ok {sw : Bool} (hs : st.uxSchedulerSuspended = 0)
    (hok : xTaskIncrementTick alg st = .ok (sw, st₁)) :
    ∃ st₂, killEntry alg st = some st₂ ∧
      st₁ = wakeTasks alg (killTasks st₂) := by
  rw [xTaskIncrementTick, if_pos hs] at hok
  cases hpro : tickPrologue alg st with
  | error e =>
      rw [hpro] at hok
      exact absurd hok (by simp [bind, Except.bind])
  | ok r =>
      rw [hpro] at hok
      simp only [bind, Except.bind] at hok
      rw [killEntry, hpro]
      dsimp only
      split at hok
      · exact absurd hok (by simp [exitFunction])
      · next hexit =>
          rw [if_neg hexit]
          simp only [pure, Except.pure, Except.ok.injEq, Prod.mk.injEq] at hok
          exact ⟨_, rfl, hok.2.symm⟩

/-- What a tick that ends leaves behind. -/
structure Processed (created : List TaskHandle) (st st' : State) : Prop where
  linked : WellLinked created st'
  nonePending : NonePending st'
  tick : st'.xTickCount = tickAdd st.xTickCount 1
  suspended : st'.uxSchedulerSuspended = st.uxSchedulerSuspended
  number : st'.uxCurrentNumberOfTasks = st.uxCurrentNumberOfTasks
  running : st'.xSchedulerRunning = st.xSchedulerRunning
  pended : st'.xPendedTicks = st.xPendedTicks

theorem xTaskIncrementTick_processed {sw : Bool} (h : WellLinked created st)
    (hn : NonePending st) (hs : st.uxSchedulerSuspended = 0)
    (hok : xTaskIncrementTick alg st = .ok (sw, st₁)) :
    Processed created st st₁ := by
  obtain ⟨st₂, hk, heq⟩ := xTaskIncrementTick_ok hs hok
  obtain ⟨st₀, hpro, rfl⟩ := killEntry_cases hk h hn
  obtain ⟨hw₁, hg₁, -⟩ := chargeCurrent_pass hpro.linked
  obtain ⟨hw₂, hg₂, -⟩ := killTasks_pass hw₁
  obtain ⟨hw₃, hg₃, -⟩ := wakeTasks_pass hw₂ alg
  have hg := (hg₁.trans hg₂).trans hg₃
  have hspec := countTick_spec st
  rw [heq]
  exact
    { linked := hw₃
      nonePending := by
        rw [NonePending, State.items, hg.pendingReady]
        exact hpro.nonePending
      tick := hg.tick.trans hpro.tick
      suspended := hg.suspended.trans (hpro.jobs.suspended.trans hspec.suspended)
      number := hg.number.trans (hpro.jobs.number.trans hspec.number)
      running := hg.running.trans (hpro.jobs.running.trans hspec.running)
      pended := hg.pended.trans (hpro.jobs.pended.trans hspec.pended) }

end FreeRtosSim
