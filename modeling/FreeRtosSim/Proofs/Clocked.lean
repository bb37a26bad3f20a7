import FreeRtosSim.Proofs.Delayed
import FreeRtosSim.Proofs.Tracked

/-!
# The tick finds every task whose time has come

The loop of `xTaskIncrementTick` looks at the heads of the delayed list and
stops at the first task whose time lies ahead. Because the list is sorted that
is every task whose time is now, and because the tasks on the list waited for
a time ahead of the last tick it is nobody whose time was before. When the
tick count wraps the list is empty, as `taskSWITCH_DELAYED_LISTS` asserts.
-/

namespace FreeRtosSim

variable {created : List TaskHandle} {alg : Algorithm} {st st₀ st₁ st₂ : State}
  {x y : TaskHandle} {id : ListId} {T : TaskHandle → Prop} {sw : Bool}

/-! ## Counting the tick -/

/-- The tick is counted, and its own time may have come for some. -/
structure Struck (st : State) : Prop where
  tick_lt : st.xTickCount < 2 ^ 64
  sorted : DelayedSorted st
  ahead : ∀ x ∈ st.items st.pxDelayedTaskList,
    st.xTickCount ≤ (st.tcb x).xItemValue ∧ (st.tcb x).xItemValue < 2 ^ 64
  behind : ∀ x ∈ st.items st.pxOverflowDelayedTaskList,
    (st.tcb x).xItemValue < st.xTickCount
  next : NextFits st
  started : st.xSchedulerRunning = false →
    ∀ id : ListId, id.IsDelayed → st.items id = []

theorem Clocked.last_tick (h : Clocked st) (hwrap : tickAdd st.xTickCount 1 = 0) :
    st.xTickCount + 1 = 2 ^ 64 := by
  have hlt := h.tick_lt
  rw [tickAdd] at hwrap
  omega

/-- Nobody waits for a time beyond the last one. -/
theorem Clocked.nil_of_wrap (h : Clocked st) (hwrap : tickAdd st.xTickCount 1 = 0) :
    st.items st.pxDelayedTaskList = [] := by
  have hlast := h.last_tick hwrap
  refine List.eq_nil_iff_forall_not_mem.mpr fun x hx => ?_
  have := h.ahead x hx
  omega

theorem Clocked.countTick (h : Clocked st) (hw : WellLinked created st) :
    Struck (countTick st) := by
  have hspec := countTick_spec st
  have hsorted : DelayedSorted (FreeRtosSim.countTick st) := by
    intro id hid
    rw [State.items, hspec.lists, hspec.tcb]
    exact h.sorted id hid
  have hstarted : (FreeRtosSim.countTick st).xSchedulerRunning = false →
      ∀ id : ListId, id.IsDelayed → (FreeRtosSim.countTick st).items id = [] := by
    intro hrun id hid
    rw [State.items, hspec.lists]
    exact h.started (hspec.running ▸ hrun) id hid
  by_cases hwrap : tickAdd st.xTickCount 1 = 0
  · have hnil := h.nil_of_wrap hwrap
    have hlast := h.last_tick hwrap
    have heq := countTick_of_wrap hwrap
    refine
      { tick_lt := by rw [hspec.tick, hwrap]; decide
        sorted := hsorted, started := hstarted
        ahead := fun x hx => ?_, behind := fun x hx => ?_, next := ?_ }
    · rw [hspec.tick, hwrap, hspec.tcb]
      rw [State.items, hspec.lists, heq] at hx
      have := h.behind x hx
      omega
    · rw [State.items, hspec.lists, heq] at hx
      have hx' : x ∈ st.items st.pxDelayedTaskList := hx
      rw [hnil] at hx'
      exact absurd hx' List.not_mem_nil
    · rw [heq]
      exact nextFits_reset (fun id hid => h.sorted id hid) hw.isDelayed.2
  · have heq := countTick_of_ne hwrap
    have htick : tickAdd st.xTickCount 1 = st.xTickCount + 1 := by
      have hlt := h.tick_lt
      rw [tickAdd] at hwrap ⊢
      omega
    refine
      { tick_lt := by rw [hspec.tick]; exact Clock.add_lt (by decide)
        sorted := hsorted, started := hstarted
        ahead := fun x hx => ?_, behind := fun x hx => ?_, next := ?_ }
    · rw [hspec.tick, htick, hspec.tcb]
      rw [heq] at hx
      have := h.ahead x hx
      omega
    · rw [hspec.tick, htick, hspec.tcb]
      rw [heq] at hx
      have := h.behind x hx
      omega
    · rw [heq]
      exact h.next

/-! ## The tasks that are due -/

/-- In a sorted list the loop stops behind the last task that is due. -/
theorem mem_takeWhile_le {α : Type*} {f : α → Nat} {t : Nat} :
    ∀ {l : List α}, l.Pairwise (fun x y => f x ≤ f y) → ∀ {x : α},
      (x ∈ l.takeWhile fun y => decide (f y ≤ t)) ↔ x ∈ l ∧ f x ≤ t := by
  intro l
  induction l with
  | nil => intro _ x; simp
  | cons a l ih =>
      intro hs x
      obtain ⟨hhead, htail⟩ := List.pairwise_cons.mp hs
      by_cases ha : f a ≤ t
      · rw [List.takeWhile_cons_of_pos (by simpa using ha), List.mem_cons, List.mem_cons,
          ih htail]
        constructor
        · rintro (rfl | hx)
          · exact ⟨Or.inl rfl, ha⟩
          · exact ⟨Or.inr hx.1, hx.2⟩
        · rintro ⟨rfl | hx, hle⟩
          · exact Or.inl rfl
          · exact Or.inr ⟨hx, hle⟩
      · rw [List.takeWhile_cons_of_neg (by simpa using ha)]
        refine iff_of_false List.not_mem_nil ?_
        rintro ⟨hx, hle⟩
        rcases List.mem_cons.mp hx with rfl | hx
        · exact ha hle
        · exact ha (Nat.le_trans (hhead x hx) hle)

theorem mem_dueTasks_current (h : Clocked st) (hw : WellLinked created st) :
    x ∈ dueTasks st ↔ x ∈ st.items (countTick st).pxDelayedTaskList ∧
      (st.tcb x).xItemValue = tickAdd st.xTickCount 1 := by
  have hs := h.countTick hw
  have hspec := countTick_spec st
  have hd := (hw.countTick).isDelayed.1
  rw [dueTasks_eq rfl]
  have hmem : (x ∈ dueIn (countTick st).pxDelayedTaskList (countTick st)) ↔
      x ∈ st.items (countTick st).pxDelayedTaskList ∧
        (st.tcb x).xItemValue = tickAdd st.xTickCount 1 := by
    have hahead := hs.ahead x
    rw [State.items, hspec.lists, hspec.tick, hspec.tcb] at hahead
    rw [dueIn, mem_takeWhile_le (hs.sorted _ hd), State.items, hspec.lists, hspec.tick,
      hspec.tcb]
    refine and_congr_right fun hx => ?_
    have := (hahead hx).1
    omega
  split
  · exact hmem
  · next hlate =>
      refine iff_of_false List.not_mem_nil fun hx => hlate ?_
      have hfits := hs.next x (by rw [State.items, hspec.lists]; exact hx.1)
      rw [hspec.tcb, hx.2, ← hspec.tick] at hfits
      exact hfits

/-- A sleeper is due when its time is the next tick count. -/
theorem mem_dueTasks (h : Clocked st) (hw : WellLinked created st) :
    x ∈ dueTasks st ↔ Asleep x st ∧ (st.tcb x).xItemValue = tickAdd st.xTickCount 1 := by
  rw [mem_dueTasks_current h hw, asleep_iff]
  refine ⟨fun hx => ⟨⟨_, hw.countTick.isDelayed.1, hx.1⟩, hx.2⟩, ?_⟩
  rintro ⟨⟨id, hid, hx⟩, hv⟩
  refine ⟨?_, hv⟩
  by_cases hwrap : tickAdd st.xTickCount 1 = 0
  · rw [countTick_of_wrap hwrap]
    rcases hw.delayed_cases hid with rfl | rfl
    · have := (h.ahead x hx).1
      omega
    · exact hx
  · rw [countTick_of_ne hwrap]
    rcases hw.delayed_cases hid with rfl | rfl
    · exact hx
    · have hlt := h.behind x hx
      have htick := h.tick_lt
      rw [tickAdd] at hwrap hv
      omega

/-! ## Unblocking them -/

section Unblock

variable (hw : WellLinked created st) (hx : x ∈ created) (hn : NonePending st)

include hw hx hn

theorem unblock_onlyWakes : OnlyWakes (· = x) st (unblock alg st x) := by
  have hout := uxListRemove_onlyWakes hw hx
  have hmod : OnlyWakes (· = x) (uxListRemove x st) (unblocked x st) :=
    modifyTcb_onlyWakes (hw.uxListRemove hx) rfl
  refine (hout.trans hmod).trans ?_
  refine prvAddTaskToReadyList_onlyWakes (hw.unblocked hx hn) ?_
  rw [unblocked_tcb]

theorem unblock_awake : Awake x (unblock alg st x) := by
  refine (unblock_linked hw hx hn).awake fun id hid => ?_
  have hr : Readied alg x (unblocked x st) (unblock alg st x) := unblock_readied hw hx hn
  rw [hr.container]
  exact readyTarget_ne_delayed hid

end Unblock

/-- A task that was due is on no delayed list any more. -/
theorem Prologue.awake (h : Prologue created alg st st₁) (hx : x ∈ dueTasks st) :
    Awake x st₁ := by
  have hb := h.block x
  rw [if_pos hx] at hb
  refine h.linked.awake fun id hid hc => ?_
  have hc' : (st₁.block x).pxContainer = some id := hc
  rw [hb] at hc'
  exact readyTarget_ne_delayed hid hc'

/-- When the loop ends, the head of the list decides when it is looked at
again. -/
theorem unblockLoop_next (alg : Algorithm) :
    ∀ (n : Nat) (sw : Bool) (st : State), WellLinked created st → NonePending st →
      DelayedSorted st → (st.items st.pxDelayedTaskList).length ≤ n →
      NextFits (unblockLoop alg n sw st).2 := by
  intro n
  induction n with
  | zero =>
      intro sw st hw hn hs hlen x hx
      have hnil := List.length_eq_zero_iff.mp (Nat.le_zero.mp hlen)
      have hx' : x ∈ st.items st.pxDelayedTaskList := hx
      rw [hnil] at hx'
      exact absurd hx' List.not_mem_nil
  | succ n ih =>
      intro sw st hw hn hs hlen
      rw [unblockLoop]
      cases hitems : st.items st.pxDelayedTaskList with
      | nil =>
          intro x hx
          have hx' : x ∈ st.items st.pxDelayedTaskList := hx
          rw [hitems] at hx'
          exact absurd hx' List.not_mem_nil
      | cons x l =>
          dsimp only
          split
          · intro y hy
            have hy' : y ∈ st.items st.pxDelayedTaskList := hy
            have hsort := hs _ hw.isDelayed.1
            rw [hitems] at hy' hsort
            rcases List.mem_cons.mp hy' with rfl | hl
            · exact Nat.le_refl _
            · exact (List.pairwise_cons.mp hsort).1 y hl
          · have hd := hw.isDelayed.1
            have hmem : x ∈ st.items st.pxDelayedTaskList := by
              rw [hitems]
              exact List.mem_cons_self ..
            obtain ⟨hx, -⟩ := (hw.linked _ hd.ne_pendingReady x).mp hmem
            have hwakes : OnlyWakes (· = x) st (unblock alg st x) :=
              unblock_onlyWakes hw hx hn
            have hgone : x ∉ (unblock alg st x).items st.pxDelayedTaskList :=
              unblock_awake hw hx hn _ hd
            have hsub := hwakes.sublist _ hd
            have hless : ((unblock alg st x).items st.pxDelayedTaskList).length <
                (st.items st.pxDelayedTaskList).length :=
              Nat.lt_of_le_of_ne hsub.length_le fun he =>
                hgone (hsub.eq_of_length he ▸ hmem)
            refine ih _ _ (unblock_linked hw hx hn) (unblock_nonePending hw hx hn)
              (hwakes.sorted hs) ?_
            have hcur := hwakes.delayed
            rw [← hcur] at hless hlen
            exact Nat.le_of_lt_succ (Nat.lt_of_lt_of_le hless hlen)

/-! ## The prologue -/

section Prologue

/-- `taskSWITCH_DELAYED_LISTS` finds the list empty. -/
theorem tickPrologue_succeeds (h : Clocked st) (alg : Algorithm) :
    tickPrologue alg st = .ok (unblockDue alg (countTick st)) := by
  by_cases hwrap : tickAdd st.xTickCount 1 = 0
  · have hempty : (st.items st.pxDelayedTaskList).isEmpty = true := by
      rw [h.nil_of_wrap hwrap]
      rfl
    rw [countTick_of_wrap hwrap]
    simp only [tickPrologue, hwrap, taskSwitchDelayedLists, configAssert, hempty,
      bind, Except.bind, pure, Except.pure, if_true]
    rfl
  · rcases tickPrologue_cases alg st with he | hok
    · rw [tickPrologue, if_neg hwrap] at he
      exact absurd he (by simp [bind, Except.bind, pure, Except.pure])
    · exact hok

variable (h : Clocked st) (hw : WellLinked created st) (hn : NonePending st)
  (hok : tickPrologue alg st = .ok (sw, st₀))

include h hw hn hok

theorem prologue_wakes : OnlyWakes (· ∈ dueTasks st) (countTick st) st₀ := by
  have hs := h.countTick hw
  have hw₀ := hw.countTick
  have hn₀ : NonePending (countTick st) := by
    rw [NonePending, State.items, (countTick_spec st).lists]
    exact hn
  rw [tickPrologue_succeeds h, Except.ok.injEq] at hok
  have hstate : st₀ = (unblockDue alg (countTick st)).2 := by rw [hok]
  have hfits : NextFits st₀ := by
    rw [hstate, unblockDue]
    split
    · exact unblockLoop_next alg _ false _ hw₀ hn₀ hs.sorted (Nat.le_refl _)
    · exact hs.next
  obtain ⟨v, hv⟩ := unblockDue_eq alg hw hn
  obtain ⟨hnd, hcr⟩ := dueTasks_created hw
  have hfold : OnlyWakes (· ∈ dueTasks st) (countTick st)
      ((dueTasks st).foldl (unblock alg) (countTick st)) := by
    refine ((unblock_pointwise created alg (countTick st).xTickCount).strengthen
      (fun x _ => x ∈ created ∧ x ∈ dueTasks st) fun _ _ hx => hx.1).foldl_rel
      OnlyWakes.refl OnlyWakes.trans ?_ _ _ hnd ⟨hw₀, hn₀, rfl⟩ fun x hx => ⟨hcr x hx, hx⟩
    intro s x hs hx
    exact (unblock_onlyWakes hs.1 hx.1 hs.2.1).mono fun y hy => hy ▸ hx.2
  rw [hv] at hstate
  rw [hstate] at hfits ⊢
  exact { hfold with next := fun _ _ => hfits }

theorem prologue_clocked : Clocked st₀ := by
  have hs := h.countTick hw
  have hwakes := prologue_wakes h hw hn hok
  have hpro := tickPrologue_ok hw hn hok
  have hd := (hw.countTick).isDelayed
  have hleft : ∀ x ∈ st₀.items st₀.pxDelayedTaskList, x ∉ dueTasks st :=
    fun x hx hdue => hpro.awake hdue _ hpro.linked.isDelayed.1 hx
  refine
    { tick_lt := by rw [hwakes.tick]; exact hs.tick_lt
      sorted := hwakes.sorted hs.sorted
      ahead := fun x hx => ?_
      behind := fun x hx => ?_
      next := hwakes.next hs.sorted hs.next
      started := fun hrun id hid => ?_ }
  · have hno := hleft x hx
    rw [hwakes.delayed] at hx
    have hv := hwakes.value _ hd.1 x hx
    have hmem := (hwakes.sublist _ hd.1).subset hx
    have hat := hs.ahead x hmem
    rw [hwakes.tick, hv]
    refine ⟨Nat.lt_of_le_of_ne hat.1 fun he =>
      hno ((mem_dueTasks_current h hw).mpr ⟨?_, ?_⟩), hat.2⟩
    · rw [State.items, (countTick_spec st).lists] at hmem
      exact hmem
    · rw [← (countTick_spec st).tick, he, (countTick_spec st).tcb]
  · rw [hwakes.overflow] at hx
    rw [hwakes.tick, hwakes.value _ hd.2 x hx]
    exact hs.behind x ((hwakes.sublist _ hd.2).subset hx)
  · have hnil := hs.started (hwakes.running ▸ hrun) id hid
    have hsub := hwakes.sublist id hid
    rw [hnil] at hsub
    exact List.sublist_nil.mp hsub

end Prologue

/-! ## The running task and the two passes -/

section Stages

variable (hw : WellLinked created st)

include hw

theorem creditState_onlyWakes : OnlyWakes T st (creditState x st) := by
  refine .of_same hw (fun id _ => by rw [State.items, creditState_links.lists])
    (fun id _ y _ => ?_)
    (fun y hy => Or.inl (by rwa [State.items, creditState_links.lists] at hy)) ?_
  · by_cases hy : y = x
    · subst hy
      rw [creditState_tcb]
    · rw [creditState_tcb_other hy]
  · rw [creditState]
    split <;> exact ⟨rfl, rfl, rfl, rfl, rfl⟩

theorem completeJob_onlyWakes (hx : x ∈ created) :
    OnlyWakes (· = x) st (completeJob x st) := by
  by_cases hlate : tickSub st.xTickCount (st.tcb x).startTime ≤ (st.tcb x).xTaskPeriod
  · have heq : completeJob x st = addTaskToWaitList x (creditState x st) := if_pos hlate
    rw [heq]
    exact (creditState_onlyWakes hw).trans
      (addTaskToWaitList_onlyWakes (hw.congr creditState_links) hx)
  · have heq : completeJob x st =
        { st with console := st.console ++ veryBadMessages st x } := if_neg hlate
    rw [heq]
    exact .of_same hw (fun _ _ => rfl) (fun _ _ _ _ => rfl) (fun _ hx => Or.inl hx)
      ⟨rfl, rfl, rfl, rfl, rfl⟩

/-- The running task may be asleep already, if the ticks are replayed. -/
theorem chargeCurrent_onlyWakes :
    OnlyWakes (fun x => st.pxCurrentTCB = some x ∧ (st.tcb x).xTaskPeriod ≠ 0) st
      (chargeCurrent st) := by
  cases hc : st.pxCurrentTCB with
  | none =>
      have heq : chargeCurrent st = st := by rw [chargeCurrent, hc]
      rw [heq]
      exact .refl st
  | some c =>
      by_cases hp : (st.tcb c).xTaskPeriod ≠ 0
      · have hwork : OnlyWakes (· = c) st (workedState c st) := modifyTcb_onlyWakes hw rfl
        have hall : OnlyWakes (· = c) st (chargeCurrent st) := by
          rw [chargeCurrent_working hc hp]
          split
          · exact hwork.trans (completeJob_onlyWakes (hw.congr workedState_links)
              (hw.current c hc))
          · exact hwork
        refine hall.mono fun x hx => ?_
        subst hx
        exact ⟨rfl, hp⟩
      · have heq : chargeCurrent st = st := by
          rw [chargeCurrent, hc]
          exact if_neg hp
        rw [heq]
        exact .refl st

/-- The passes visit tasks that are not asleep. -/
theorem walkList_onlyWakes {t : Nat} {body : TaskHandle → State → State} {f : TCB → TCB}
    (hb : PassBody created id t body f) (hid : id ≠ .pendingReady)
    (ht : st.xTickCount = t)
    (hbody : ∀ (s : State) (x : TaskHandle), WellLinked created s → x ∈ s.items id →
      OnlyWakes T s (body x s)) : OnlyWakes T st (walkList id body st) := by
  have hpre : ∀ x ∈ st.items id, x ∈ created ∧ (st.block x).pxContainer = some id :=
    fun x hx => (hw.linked id hid x).mp hx
  have hnd := (hw.wellFormed id).nodup
  have hpoint := hb.pointwise hid
  have hend := hpoint.foldl_inv _ st hnd ⟨hw, ht⟩ hpre
  rw [walkList_eq_foldl hb hw ht]
  refine (hpoint.foldl_rel OnlyWakes.refl OnlyWakes.trans ?_ _ st hnd ⟨hw, ht⟩ hpre).trans
    (setIndex_onlyWakes hend.1 id _)
  intro s x hs hx
  have hmem : x ∈ s.items id := (hs.1.linked id hid x).mpr hx
  refine (setIndex_onlyWakes hs.1 id (some x)).trans (hbody _ x ?_ ?_)
  · exact hs.1.setIndex fun y hy => Option.some_inj.mp hy ▸ hmem
  · rw [setIndex_items]
    exact hmem

theorem killTasks_onlyWakes : OnlyWakes T st (killTasks st) := by
  refine walkList_onlyWakes hw killBody_pass (by simp) rfl fun s x hs hx => ?_
  obtain ⟨hxc, hc⟩ := (hs.linked _ (by simp) x).mp hx
  have hawake : Awake x s := hs.awake fun id hid => by
    rw [hc]
    simpa using (hid.ne_ready 1).symm
  by_cases hh : isHopeless s.xTickCount (s.tcb x)
  · obtain ⟨sim, heq⟩ := killBody_killed hh
    have hlinks : SameLinks s ({ s with sim := sim }.modifyTcb x fun b =>
        { b with previousDeadlineMet := 0 }) := by
      refine ⟨rfl, fun y => ?_, fun y => ?_, fun y => ?_, rfl, rfl, rfl⟩ <;>
        by_cases hy : y = x <;> simp [hy]
    have hmod : OnlyWakes T s ({ s with sim := sim }.modifyTcb x fun b =>
        { b with previousDeadlineMet := 0 }) := by
      refine .of_same hs (fun _ _ => rfl) (fun id hid y hy => ?_) (fun _ hx => Or.inl hx)
        ⟨rfl, rfl, rfl, rfl, rfl⟩
      have hne : y ≠ x := fun he => hawake id hid (he ▸ hy)
      simp [hne]
    rw [heq]
    exact hmod.trans ((addTaskToWaitList_onlyWakes (hs.congr hlinks) hxc).narrow
      fun _ he => he ▸ hawake)
  · rw [killBody_kept hh]
    exact .refl s

theorem wakeTasks_onlyWakes (alg : Algorithm) : OnlyWakes T st (wakeTasks alg st) := by
  refine walkList_onlyWakes hw wakeBody_pass (by simp) rfl fun s x hs hx => ?_
  obtain ⟨hxc, hc⟩ := (hs.linked _ (by simp) x).mp hx
  have hawake : Awake x s := hs.awake fun id hid => by
    rw [hc]
    simpa using hid.ne_wait.symm
  have hren : OnlyWakes T s (renewed x s) := modifyTcb_onlyWakes hs rfl
  have hs₁ := hs.congr (renewed_links (x := x))
  rw [wakeBody_eq_cases]
  split
  · split
    · exact hren.trans (modifyTcb_onlyWakes hs₁ rfl)
    · exact hren.trans (addTaskToReadyList_awake hs₁ hxc hawake)
  · exact .refl s

end Stages

/-! ## The whole tick -/

/-- Behind the prologue a tick wakes nobody but a periodic task it charges. -/
theorem increment_wakes (ht : Ticking created st)
    (hok : xTaskIncrementTick alg st = .ok (sw, st₁)) :
    ∃ st₀ b, tickPrologue alg st = .ok (b, st₀) ∧ Prologue created alg st st₀ ∧
      OnlyWakes (fun x => st.pxCurrentTCB = some x ∧ (st.tcb x).xTaskPeriod ≠ 0)
        st₀ st₁ := by
  have hok' := hok
  rw [xTaskIncrementTick, if_pos ht.suspended] at hok'
  cases hp : tickPrologue alg st with
  | error e =>
      rw [hp] at hok'
      exact absurd hok' (by simp [bind, Except.bind])
  | ok r =>
      obtain ⟨b, st₀⟩ := r
      have hpro := tickPrologue_ok ht.linked ht.nonePending hp
      obtain ⟨hw₁, -, -⟩ := chargeCurrent_pass hpro.linked
      obtain ⟨hw₂, -, -⟩ := killTasks_pass hw₁
      obtain ⟨st₂, hk, heq⟩ := xTaskIncrementTick_ok ht.suspended hok
      have hst₂ : st₂ = chargeCurrent st₀ := by
        rw [killEntry, hp] at hk
        dsimp only at hk
        split at hk
        · exact absurd hk (by simp)
        · exact (Option.some_inj.mp hk).symm
      refine ⟨st₀, b, rfl, hpro, ?_⟩
      have hcharge : OnlyWakes (fun x => st.pxCurrentTCB = some x ∧
          (st.tcb x).xTaskPeriod ≠ 0) st₀ (chargeCurrent st₀) :=
        (chargeCurrent_onlyWakes hpro.linked).mono fun x hx => by
          have hcore := congrArg TCB.xTaskPeriod (hpro.core x)
          exact ⟨hpro.current ▸ hx.1, hcore ▸ hx.2⟩
      rw [heq, hst₂]
      exact hcharge.trans ((killTasks_onlyWakes hw₁).trans (wakeTasks_onlyWakes hw₂ alg))

theorem Clocked.increment (h : Clocked st) (ht : Ticking created st)
    (hok : xTaskIncrementTick alg st = .ok (sw, st₁)) : Clocked st₁ := by
  obtain ⟨st₀, b, hp, hpro, hwakes⟩ := increment_wakes ht hok
  exact hwakes.clocked hpro.linked (prologue_clocked h ht.linked ht.nonePending hp)

end FreeRtosSim
