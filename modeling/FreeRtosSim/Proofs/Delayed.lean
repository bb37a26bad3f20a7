import FreeRtosSim.Lib.Clock
import FreeRtosSim.Proofs.Sound

/-!
# The two delayed lists

A task that sleeps is on the list of those whose time comes before the tick
count wraps, or on the list of those whose time comes after. `Clocked` is what
makes the first list worth looking at its head only: both are sorted by wake
time, the times on the first lie ahead of the tick count and those on the
second behind it, and `xNextTaskUnblockTime` is never later than the first of
them.

Few calls put a task to sleep. All the others are an `OnlyWakes`: nobody joins
the two lists and nobody on them gets another time, so the sleepers are
disturbed only by being taken off. `T` says who may be.
-/

namespace FreeRtosSim

variable {created : List TaskHandle} {alg : Algorithm} {st st₁ st₂ : State}
  {x y : TaskHandle} {id : ListId} {T T' : TaskHandle → Prop}

theorem tickAdd_eq (a b : Nat) : tickAdd a b = Clock.add (2 ^ 64) a b := rfl

theorem tickSub_eq (a b : Nat) : tickSub a b = Clock.sub (2 ^ 64) a b := rfl

/-- A list of tasks that wait for a tick. -/
def ListId.IsDelayed (id : ListId) : Prop := id = .delayed1 ∨ id = .delayed2

theorem ListId.IsDelayed.ne_ready (h : id.IsDelayed) (p : Nat) : id ≠ .ready p := by
  rcases h with rfl | rfl <;> simp

theorem ListId.IsDelayed.ne_wait (h : id.IsDelayed) : id ≠ .wait := by
  rcases h with rfl | rfl <;> simp

theorem ListId.IsDelayed.ne_suspended (h : id.IsDelayed) : id ≠ .suspended := by
  rcases h with rfl | rfl <;> simp

theorem ListId.IsDelayed.ne_pendingReady (h : id.IsDelayed) : id ≠ .pendingReady := by
  rcases h with rfl | rfl <;> simp

theorem WellLinked.isDelayed (h : WellLinked created st) :
    st.pxDelayedTaskList.IsDelayed ∧ st.pxOverflowDelayedTaskList.IsDelayed :=
  h.delayed_either

/-- One list is the current one, the other the one for later. -/
theorem WellLinked.delayed_cases (h : WellLinked created st) (hid : id.IsDelayed) :
    id = st.pxDelayedTaskList ∨ id = st.pxOverflowDelayedTaskList := by
  rcases h.delayed with ⟨hd, ho⟩ | ⟨hd, ho⟩ <;> rcases hid with rfl | rfl <;>
    simp [hd, ho]

theorem WellLinked.current_ne_overflow (h : WellLinked created st) :
    st.pxDelayedTaskList ≠ st.pxOverflowDelayedTaskList := by
  rcases h.delayed with ⟨hd, ho⟩ | ⟨hd, ho⟩ <;> simp [hd, ho]

def DelayedSorted (st : State) : Prop :=
  ∀ id : ListId, id.IsDelayed →
    (st.items id).Pairwise fun x y => (st.tcb x).xItemValue ≤ (st.tcb y).xItemValue

/-- The tick that looks at the delayed list next does not come too late. -/
def NextFits (st : State) : Prop :=
  ∀ x ∈ st.items st.pxDelayedTaskList, st.xNextTaskUnblockTime ≤ (st.tcb x).xItemValue

/-- The delayed lists and the tick count belong together. -/
structure Clocked (st : State) : Prop where
  tick_lt : st.xTickCount < 2 ^ 64
  sorted : DelayedSorted st
  ahead : ∀ x ∈ st.items st.pxDelayedTaskList,
    st.xTickCount < (st.tcb x).xItemValue ∧ (st.tcb x).xItemValue < 2 ^ 64
  behind : ∀ x ∈ st.items st.pxOverflowDelayedTaskList,
    (st.tcb x).xItemValue < st.xTickCount
  next : NextFits st
  started : st.xSchedulerRunning = false →
    ∀ id : ListId, id.IsDelayed → st.items id = []

/-- Nobody falls asleep, and only sleepers in `T` may be taken off. -/
structure OnlyWakes (T : TaskHandle → Prop) (st st' : State) : Prop where
  tick : st'.xTickCount = st.xTickCount
  running : st'.xSchedulerRunning = st.xSchedulerRunning
  delayed : st'.pxDelayedTaskList = st.pxDelayedTaskList
  overflow : st'.pxOverflowDelayedTaskList = st.pxOverflowDelayedTaskList
  sublist : ∀ id : ListId, id.IsDelayed → (st'.items id).Sublist (st.items id)
  value : ∀ id : ListId, id.IsDelayed → ∀ x ∈ st'.items id,
    (st'.tcb x).xItemValue = (st.tcb x).xItemValue
  stays : ∀ id : ListId, id.IsDelayed → ∀ x ∈ st.items id, ¬ T x → x ∈ st'.items id
  pending : ∀ x ∈ st'.items .pendingReady, x ∈ st.items .pendingReady ∨ T x ∨
    ∀ id : ListId, id.IsDelayed → x ∉ st.items id
  next : DelayedSorted st → NextFits st → NextFits st'

theorem OnlyWakes.sorted (h : OnlyWakes T st st₁) (hs : DelayedSorted st) :
    DelayedSorted st₁ := by
  intro id hid
  refine ((hs id hid).sublist (h.sublist id hid)).imp_of_mem ?_
  intro x y hx hy hle
  rw [h.value id hid x hx, h.value id hid y hy]
  exact hle

/-- Waking tasks up leaves the others on time. -/
theorem OnlyWakes.clocked (h : OnlyWakes T st st₁) (hl : WellLinked created st)
    (hc : Clocked st) : Clocked st₁ where
  tick_lt := h.tick ▸ hc.tick_lt
  sorted := h.sorted hc.sorted
  ahead := by
    intro x hx
    rw [h.delayed] at hx
    have hv := h.value _ hl.isDelayed.1 x hx
    have hmem := (h.sublist _ hl.isDelayed.1).subset hx
    rw [hv, h.tick]
    exact hc.ahead x hmem
  behind := by
    intro x hx
    rw [h.overflow] at hx
    have hv := h.value _ hl.isDelayed.2 x hx
    have hmem := (h.sublist _ hl.isDelayed.2).subset hx
    rw [hv, h.tick]
    exact hc.behind x hmem
  next := h.next hc.sorted hc.next
  started := by
    intro hrun id hid
    have hnil := hc.started (h.running ▸ hrun) id hid
    have hsub := h.sublist id hid
    rw [hnil] at hsub
    exact List.sublist_nil.mp hsub

theorem OnlyWakes.refl (st : State) : OnlyWakes T st st :=
  ⟨rfl, rfl, rfl, rfl, fun _ _ => List.Sublist.refl _, fun _ _ _ _ => rfl,
    fun _ _ _ hx _ => hx, fun _ hx => Or.inl hx, fun _ hn => hn⟩

theorem OnlyWakes.mono (h : OnlyWakes T st st₁) (hT : ∀ x, T x → T' x) :
    OnlyWakes T' st st₁ :=
  { h with
    stays := fun id hid x hx hno => h.stays id hid x hx fun ht => hno (hT x ht)
    pending := fun x hx => (h.pending x hx).imp_right (Or.imp_left (hT x)) }

/-- Tasks that are not asleep need not be mentioned. -/
theorem OnlyWakes.narrow (h : OnlyWakes T st st₁)
    (hT : ∀ x, T x → ∀ id : ListId, id.IsDelayed → x ∉ st.items id) :
    OnlyWakes T' st st₁ :=
  { h with
    stays := fun id hid x hx _ => h.stays id hid x hx fun ht => hT x ht id hid hx
    pending := fun x hx => by
      rcases h.pending x hx with hp | ht | hno
      · exact Or.inl hp
      · exact Or.inr (Or.inr (hT x ht))
      · exact Or.inr (Or.inr hno) }

theorem OnlyWakes.trans (h : OnlyWakes T st st₁) (h' : OnlyWakes T st₁ st₂) :
    OnlyWakes T st st₂ where
  tick := h'.tick.trans h.tick
  running := h'.running.trans h.running
  delayed := h'.delayed.trans h.delayed
  overflow := h'.overflow.trans h.overflow
  sublist id hid := (h'.sublist id hid).trans (h.sublist id hid)
  value id hid x hx := (h'.value id hid x hx).trans
    (h.value id hid x ((h'.sublist id hid).subset hx))
  stays id hid x hx hno := h'.stays id hid x (h.stays id hid x hx hno) hno
  pending x hx := by
    rcases h'.pending x hx with hp | ht | hno
    · exact h.pending x hp
    · exact Or.inr (Or.inl ht)
    · by_cases ht : T x
      · exact Or.inr (Or.inl ht)
      · refine Or.inr (Or.inr fun id hid hx' => ?_)
        exact hno id hid (h.stays id hid x hx' ht)
  next hs hn := h'.next (h.sorted hs) (h.next hs hn)

/-! ## Writes that the sleepers do not see -/

/-- The lists and the item values of the sleepers are as before. -/
theorem OnlyWakes.of_same (hw : WellLinked created st)
    (hl : ∀ id : ListId, id.IsDelayed → st₁.items id = st.items id)
    (hv : ∀ id : ListId, id.IsDelayed → ∀ x ∈ st.items id,
      (st₁.tcb x).xItemValue = (st.tcb x).xItemValue)
    (hp : ∀ x ∈ st₁.items .pendingReady, x ∈ st.items .pendingReady ∨ T x ∨
      ∀ id : ListId, id.IsDelayed → x ∉ st.items id)
    (hg : st₁.xTickCount = st.xTickCount ∧ st₁.xSchedulerRunning = st.xSchedulerRunning ∧
      st₁.pxDelayedTaskList = st.pxDelayedTaskList ∧
      st₁.pxOverflowDelayedTaskList = st.pxOverflowDelayedTaskList ∧
      st₁.xNextTaskUnblockTime = st.xNextTaskUnblockTime) : OnlyWakes T st st₁ where
  tick := hg.1
  running := hg.2.1
  delayed := hg.2.2.1
  overflow := hg.2.2.2.1
  sublist id hid := by rw [hl id hid]
  value id hid x hx := hv id hid x (hl id hid ▸ hx)
  stays id hid x hx _ := by rw [hl id hid]; exact hx
  pending := hp
  next _ hn x hx := by
    have hcur := hw.isDelayed.1
    rw [hg.2.2.1, hl _ hcur] at hx
    rw [hg.2.2.2.2, hv _ hcur x hx]
    exact hn x hx

theorem yieldPending_onlyWakes (hw : WellLinked created st) (b : Bool) :
    OnlyWakes T st { st with xYieldPending := b } :=
  .of_same hw (fun _ _ => rfl) (fun _ _ _ _ => rfl) (fun _ hx => Or.inl hx)
    ⟨rfl, rfl, rfl, rfl, rfl⟩

/-- A block is written, but not its state item. -/
theorem modifyTcb_onlyWakes (hw : WellLinked created st) {f : TCB → TCB}
    (hf : (f (st.tcb x)).xItemValue = (st.tcb x).xItemValue) :
    OnlyWakes T st (st.modifyTcb x f) := by
  refine .of_same hw (fun _ _ => rfl) (fun id _ y _ => ?_) (fun _ hx => Or.inl hx)
    ⟨rfl, rfl, rfl, rfl, rfl⟩
  by_cases hy : y = x
  · subst hy
    simpa using hf
  · simp [hy]

/-- The list is sorted, so its head is the first. -/
theorem nextFits_reset (hs : DelayedSorted st) (hd : st.pxDelayedTaskList.IsDelayed) :
    NextFits (prvResetNextTaskUnblockTime st) := by
  intro x hx
  have hx' : x ∈ st.items st.pxDelayedTaskList := hx
  have hsort := hs _ hd
  show (prvResetNextTaskUnblockTime st).xNextTaskUnblockTime ≤ (st.tcb x).xItemValue
  rw [prvResetNextTaskUnblockTime]
  cases hitems : st.items st.pxDelayedTaskList with
  | nil =>
      rw [hitems] at hx'
      exact absurd hx' List.not_mem_nil
  | cons y l =>
      rw [hitems] at hx' hsort
      rcases List.mem_cons.mp hx' with rfl | hl
      · exact Nat.le_refl _
      · exact (List.pairwise_cons.mp hsort).1 x hl

theorem resetUnblockTime_onlyWakes (hw : WellLinked created st) :
    OnlyWakes T st (prvResetNextTaskUnblockTime st) :=
  { (OnlyWakes.refl st : OnlyWakes T st st) with
    next := fun hs _ => nextFits_reset hs hw.isDelayed.1 }

theorem setIndex_onlyWakes (hw : WellLinked created st) (id : ListId)
    (i : Option TaskHandle) :
    OnlyWakes T st (st.setList id ((st.lists id).setIndex i)) :=
  .of_same hw (fun k _ => setIndex_items st k id i) (fun _ _ _ _ => rfl)
    (fun _ hx => Or.inl (setIndex_items st .pendingReady id i ▸ hx))
    ⟨rfl, rfl, rfl, rfl, rfl⟩

/-! ## List operations -/

theorem uxListRemove_next :
    (uxListRemove x st).xNextTaskUnblockTime = st.xNextTaskUnblockTime := by
  rw [uxListRemove]
  split <;> rfl

theorem uxListRemove_value :
    ((uxListRemove x st).tcb y).xItemValue = (st.tcb y).xItemValue := by
  by_cases hy : y = x
  · subst hy
    rw [uxListRemove_tcb]
  · rw [uxListRemove_tcb_other hy]

theorem uxListRemove_onlyWakes (hw : WellLinked created st) (hx : x ∈ created) :
    OnlyWakes (· = x) st (uxListRemove x st) where
  tick := uxListRemove_sameJobs.tick
  running := uxListRemove_sameJobs.running
  delayed := uxListRemove_delayed.1
  overflow := uxListRemove_delayed.2
  sublist id _ := by
    by_cases hc : (st.tcb x).pxContainer = some id
    · rw [State.items, uxListRemove_lists_self hc]
      exact List.erase_sublist
    · rw [State.items, uxListRemove_lists hc]
  value _ _ _ _ := uxListRemove_value
  stays id _ y hy hne := by
    by_cases hc : (st.tcb x).pxContainer = some id
    · rw [State.items, uxListRemove_lists_self hc]
      exact (List.mem_erase_of_ne hne).mpr hy
    · rw [State.items, uxListRemove_lists hc]
      exact hy
  pending y hy := by
    refine Or.inl ?_
    rw [State.items, uxListRemove_lists (hw.not_pendingReady hx)] at hy
    exact hy
  next _ hn y hy := by
    rw [uxListRemove_next, uxListRemove_value]
    refine hn y ?_
    rw [uxListRemove_delayed.1] at hy
    by_cases hc : (st.tcb x).pxContainer = some st.pxDelayedTaskList
    · rw [State.items, uxListRemove_lists_self hc] at hy
      exact List.mem_of_mem_erase hy
    · rw [State.items, uxListRemove_lists hc] at hy
      exact hy

/-- The task is on no delayed list. -/
def Awake (x : TaskHandle) (st : State) : Prop :=
  ∀ id : ListId, id.IsDelayed → x ∉ st.items id

/-- The task is on one of them. -/
def Asleep (x : TaskHandle) (st : State) : Prop :=
  x ∈ st.items .delayed1 ∨ x ∈ st.items .delayed2

theorem asleep_iff : Asleep x st ↔ ∃ id : ListId, id.IsDelayed ∧ x ∈ st.items id := by
  constructor
  · rintro (hx | hx)
    · exact ⟨_, Or.inl rfl, hx⟩
    · exact ⟨_, Or.inr rfl, hx⟩
  · rintro ⟨id, rfl | rfl, hx⟩
    · exact Or.inl hx
    · exact Or.inr hx

theorem awake_iff : Awake x st ↔ ¬ Asleep x st := by
  rw [asleep_iff]
  exact ⟨fun h hs => h _ hs.choose_spec.1 hs.choose_spec.2,
    fun h id hid hx => h ⟨id, hid, hx⟩⟩

theorem WellLinked.awake (hw : WellLinked created st)
    (hc : ∀ id : ListId, id.IsDelayed → (st.tcb x).pxContainer ≠ some id) :
    Awake x st :=
  fun id hid hx => hc id hid ((hw.linked id hid.ne_pendingReady x).mp hx).2

theorem link_onlyWakes {l : CursorList TaskHandle} (hw : WellLinked created st)
    (hid : ¬ id.IsDelayed) (hp : id ≠ .pendingReady) :
    OnlyWakes T st (link id l x st) := by
  have hlists : ∀ k, k ≠ id → (link id l x st).lists k = st.lists k := fun k hk => by
    simp [link, hk]
  refine .of_same hw (fun k hk => ?_) (fun k _ y _ => ?_) (fun y hy => Or.inl ?_)
    ⟨rfl, rfl, rfl, rfl, rfl⟩
  · rw [State.items, hlists k fun he => hid (he ▸ hk)]
  · by_cases hy : y = x
    · subst hy
      simp [link]
    · rw [link_tcb_other hy]
  · rwa [State.items, hlists _ hp.symm] at hy

theorem listInsertEnd_onlyWakes (hw : WellLinked created st) (hid : ¬ id.IsDelayed)
    (hp : id ≠ .pendingReady) : OnlyWakes T st (listInsertEnd id x st) :=
  link_onlyWakes hw hid hp

theorem not_isDelayed_wait : ¬ ListId.wait.IsDelayed := fun h => h.ne_wait rfl

theorem not_isDelayed_suspended : ¬ ListId.suspended.IsDelayed :=
  fun h => h.ne_suspended rfl

theorem setItemValue_onlyWakes (hw : WellLinked created st) (hx : Awake x st) (v : Nat) :
    OnlyWakes T st (setItemValue x v st) := by
  refine .of_same hw (fun _ _ => rfl) (fun id hid y hy => ?_) (fun _ hx => Or.inl hx)
    ⟨rfl, rfl, rfl, rfl, rfl⟩
  have hne : y ≠ x := fun he => hx id hid (he ▸ hy)
  simp [setItemValue, hne]

theorem removeEventItem_onlyWakes (hw : WellLinked created st) (x : TaskHandle) :
    OnlyWakes T st (removeEventItem x st) := by
  refine .of_same hw (fun id hid => ?_) (fun id _ y _ => ?_) (fun y hy => Or.inl ?_)
    ⟨rfl, rfl, rfl, rfl, rfl⟩
  · simp [removeEventItem, State.items, hid.ne_pendingReady]
  · by_cases hy : y = x
    · subst hy
      simp [removeEventItem]
    · simp [removeEventItem, hy]
  · have hmem : y ∈ ((st.lists .pendingReady).remove x).items := by
      simpa [removeEventItem, State.items] using hy
    exact List.mem_of_mem_erase hmem

theorem insertPendingReady_onlyWakes (hw : WellLinked created st)
    (hx : T x ∨ Awake x st) : OnlyWakes T st (insertPendingReady x st) := by
  refine .of_same hw (fun id hid => ?_) (fun id _ y _ => ?_) (fun y hy => ?_)
    ⟨rfl, rfl, rfl, rfl, rfl⟩
  · simp [insertPendingReady, State.items, hid.ne_pendingReady]
  · by_cases hy : y = x
    · subst hy
      simp [insertPendingReady]
    · simp [insertPendingReady, hy]
  · have hmem : y ∈ ((st.lists .pendingReady).insertEnd x).items := by
      simpa [insertPendingReady, State.items] using hy
    rcases List.mem_cons.mp ((CursorList.perm_insertEnd _ x).mem_iff.mp hmem) with rfl | hm
    · exact Or.inr hx
    · exact Or.inl hm

/-! ## The macro and what is made of it -/

theorem prvAddTaskToReadyList_next (alg : Algorithm) (x : TaskHandle) (st : State) :
    (prvAddTaskToReadyList alg x st).xNextTaskUnblockTime = st.xNextTaskUnblockTime := by
  cases alg with
  | edf =>
      simp only [prvAddTaskToReadyList, prvAddTaskToReadyListEdf]
      split <;> rfl
  | bwp =>
      simp only [prvAddTaskToReadyList, prvAddTaskToReadyListBwp]
      split
      · rfl
      · split
        · rfl
        · split <;> rfl
  | rto =>
      simp only [prvAddTaskToReadyList, prvAddTaskToReadyListRto]
      split
      · rfl
      · split
        · rfl
        · split
          · rfl
          · split <;> rfl

theorem readyTarget_ne_delayed {tick : Nat} {b : TCB} (hid : id.IsDelayed) :
    readyTarget alg tick b ≠ some id := by
  intro h
  rcases readyTarget_cases h with he | he
  · exact hid.ne_ready _ he
  · exact hid.ne_wait he

theorem prvAddTaskToReadyList_onlyWakes (hw : WellLinked created st)
    (hnone : (st.tcb x).pxContainer = none) :
    OnlyWakes T st (prvAddTaskToReadyList alg x st) := by
  have hr := prvAddTaskToReadyList_readied alg hw.wellFormed hnone
  have hawake : Awake x st := hw.awake fun id _ => by simp [hnone]
  refine .of_same hw (fun id hid => ?_) (fun id hid y hy => ?_) (fun y hy => Or.inl ?_)
    ⟨hr.jobs.tick, hr.jobs.running, hr.delayed, hr.overflow,
      prvAddTaskToReadyList_next alg x st⟩
  · rw [State.items, prvAddTaskToReadyList_lists hw.wellFormed (readyTarget_ne_delayed hid)]
  · rw [hr.others y fun he => hawake id hid (he ▸ hy)]
  · rw [State.items, hr.pendingReady] at hy
    exact hy

theorem addTaskToReadyList_onlyWakes (hw : WellLinked created st) (hx : x ∈ created) :
    OnlyWakes (· = x) st (addTaskToReadyList alg x st) :=
  (uxListRemove_onlyWakes hw hx).trans
    (prvAddTaskToReadyList_onlyWakes (hw.uxListRemove hx) uxListRemove_container)

theorem addTaskToWaitList_onlyWakes (hw : WellLinked created st) (hx : x ∈ created) :
    OnlyWakes (· = x) st (addTaskToWaitList x st) :=
  (uxListRemove_onlyWakes hw hx).trans
    (listInsertEnd_onlyWakes (hw.uxListRemove hx) not_isDelayed_wait (by simp))

/-- A task that is not asleep is made ready. -/
theorem addTaskToReadyList_awake (hw : WellLinked created st) (hx : x ∈ created)
    (ha : Awake x st) : OnlyWakes T st (addTaskToReadyList alg x st) :=
  (addTaskToReadyList_onlyWakes hw hx).narrow fun _ he => he ▸ ha

/-! ## The calls -/

theorem switchContext_onlyWakes (hw : WellLinked created st)
    (hok : vTaskSwitchContext st = .ok st₁) : OnlyWakes T st st₁ := by
  obtain ⟨_, _, _, heq, -⟩ := vTaskSwitchContext_ok hok
  rw [heq]
  exact .of_same hw (fun _ _ => rfl) (fun _ _ _ _ => rfl) (fun _ hx => Or.inl hx)
    ⟨rfl, rfl, rfl, rfl, rfl⟩

theorem switchIf_onlyWakes (hw : WellLinked created st) {b : Prop} [Decidable b]
    (hok : (if b then vTaskSwitchContext st else .ok st) = .ok st₁) :
    OnlyWakes T st st₁ := by
  split at hok
  · exact switchContext_onlyWakes hw hok
  · cases hok
    exact .refl st

theorem suspendLists_onlyWakes (hw : WellLinked created st) (hx : x ∈ created) :
    OnlyWakes (· = x) st (vTaskSuspendLists x st) := by
  have hout := uxListRemove_onlyWakes hw hx
  have hw₁ := hw.uxListRemove hx
  rw [vTaskSuspendLists]
  split
  · have hrem := removeEventItem_onlyWakes (T := (· = x)) hw₁ x
    exact (hout.trans hrem).trans
      (listInsertEnd_onlyWakes (hw₁.removeEventItem x) not_isDelayed_suspended (by simp))
  · exact hout.trans (listInsertEnd_onlyWakes hw₁ not_isDelayed_suspended (by simp))

theorem suspendYield_onlyWakes (hw : WellLinked created st)
    (hok : vTaskSuspendYield x st = .ok st₁) : OnlyWakes T st st₁ := by
  have hreset : WellLinked created
        (if st.xSchedulerRunning then prvResetNextTaskUnblockTime st else st) ∧
      OnlyWakes T st
        (if st.xSchedulerRunning then prvResetNextTaskUnblockTime st else st) := by
    split
    · exact ⟨(resetUnblockTime_moved hw).linked, resetUnblockTime_onlyWakes hw⟩
    · exact ⟨hw, .refl st⟩
  rw [vTaskSuspendYield] at hok
  generalize (if st.xSchedulerRunning then prvResetNextTaskUnblockTime st else st)
    = s at hok hreset
  split at hok
  · split at hok
    · rw [configAssert] at hok
      split at hok
      · exact hreset.2.trans (switchContext_onlyWakes hreset.1 hok)
      · exact absurd hok (by simp [bind, Except.bind])
    · split at hok
      · cases hok
        exact hreset.2.trans (.of_same hreset.1 (fun _ _ => rfl) (fun _ _ _ _ => rfl)
          (fun _ hx => Or.inl hx) ⟨rfl, rfl, rfl, rfl, rfl⟩)
      · exact hreset.2.trans (switchContext_onlyWakes hreset.1 hok)
  · cases hok
    exact hreset.2

theorem awake_of_suspended (hw : WellLinked created st)
    (h : prvTaskIsTaskSuspended x st = true) : Awake x st :=
  hw.awake fun id hid => by
    rw [(prvTaskIsTaskSuspended_iff.mp h).1]
    simpa using hid.ne_suspended.symm

theorem resume_onlyWakes (hw : WellLinked created st) (hx : x ∈ created)
    (hok : vTaskResume alg x st = .ok st₁) : OnlyWakes T st st₁ := by
  rw [vTaskResume] at hok
  split at hok
  · next hs =>
      have hput : OnlyWakes T st (addTaskToReadyList alg x st) :=
        addTaskToReadyList_awake hw hx (awake_of_suspended hw hs.2)
      exact hput.trans (switchIf_onlyWakes (hw.addTaskToReadyList hx) hok)
  · cases hok
    exact .refl st

theorem resumeFromISR_onlyWakes (hw : WellLinked created st) (hx : x ∈ created) :
    OnlyWakes T st (xTaskResumeFromISR alg x st) := by
  rw [xTaskResumeFromISR]
  split
  · next hs =>
      have ha := awake_of_suspended hw hs
      split
      · have hyield : OnlyWakes T st (if outranksCurrent x st then
            { st with xYieldPending := true } else st) ∧
            WellLinked created (if outranksCurrent x st then
              { st with xYieldPending := true } else st) ∧
            Awake x (if outranksCurrent x st then
              { st with xYieldPending := true } else st) := by
          split
          · exact ⟨yieldPending_onlyWakes hw true, (yieldPending_moved hw true).linked, ha⟩
          · exact ⟨.refl st, hw, ha⟩
        exact hyield.1.trans (addTaskToReadyList_awake hyield.2.1 hx hyield.2.2)
      · exact insertPendingReady_onlyWakes hw (Or.inr ha)
  · exact .refl st

theorem removeFromEventList_onlyWakes (hw : WellLinked created st) (hx : x ∈ created) :
    OnlyWakes (· = x) st (xTaskRemoveFromEventList alg x st) := by
  have hrem := removeEventItem_onlyWakes (T := (· = x)) hw x
  have hw₁ := hw.removeEventItem x
  have hput : OnlyWakes (· = x) st
        (if (removeEventItem x st).uxSchedulerSuspended = 0 then
          addTaskToReadyList alg x (removeEventItem x st)
        else insertPendingReady x (removeEventItem x st)) ∧
      WellLinked created
        (if (removeEventItem x st).uxSchedulerSuspended = 0 then
          addTaskToReadyList alg x (removeEventItem x st)
        else insertPendingReady x (removeEventItem x st)) := by
    split
    · exact ⟨hrem.trans (addTaskToReadyList_onlyWakes hw₁ hx), hw₁.addTaskToReadyList hx⟩
    · refine ⟨hrem.trans (insertPendingReady_onlyWakes hw₁ (Or.inl rfl)),
        hw₁.insertPendingReady hx fun hm => ?_⟩
      have hmem : x ∈ ((st.lists .pendingReady).remove x).items := by
        simpa [removeEventItem, State.items] using hm
      exact (hw.wellFormed .pendingReady).nodup.not_mem_erase hmem
  rw [xTaskRemoveFromEventList]
  generalize (if (removeEventItem x st).uxSchedulerSuspended = 0 then
    addTaskToReadyList alg x (removeEventItem x st)
    else insertPendingReady x (removeEventItem x st)) = s at hput ⊢
  split
  · exact hput.1
  · split
    · exact hput.1.trans (yieldPending_onlyWakes hput.2 true)
    · exact hput.1

/-- A ready task changes its list, any other keeps it. -/
theorem prioritySet_onlyWakes {p : Nat} (hw : WellLinked created st) (hx : x ∈ created)
    (hok : vTaskPrioritySet alg x p st = .ok st₁) : OnlyWakes T st st₁ := by
  by_cases hp : p < configMaxPriorities
  · have hset := setPriority_moved (x := x) hw hp
    have hmod : OnlyWakes T st (st.modifyTcb x fun b => { b with uxPriority := p }) :=
      modifyTcb_onlyWakes hw rfl
    have hput : OnlyWakes T st
          (if ((st.modifyTcb x fun b => { b with uxPriority := p }).tcb
              x).pxContainer = some (.ready (st.tcb x).uxPriority) then
            addTaskToReadyList alg x
              (st.modifyTcb x fun b => { b with uxPriority := p })
          else st.modifyTcb x fun b => { b with uxPriority := p }) ∧
        WellLinked created
          (if ((st.modifyTcb x fun b => { b with uxPriority := p }).tcb
              x).pxContainer = some (.ready (st.tcb x).uxPriority) then
            addTaskToReadyList alg x
              (st.modifyTcb x fun b => { b with uxPriority := p })
          else st.modifyTcb x fun b => { b with uxPriority := p }) := by
      split
      · next hc =>
          refine ⟨hmod.trans (addTaskToReadyList_awake hset.linked hx ?_),
            hset.linked.addTaskToReadyList hx⟩
          exact hset.linked.awake fun id hid => by
            rw [hc]
            simpa using (hid.ne_ready _).symm
      · exact ⟨hmod, hset.linked⟩
    have hge : ¬ p ≥ configMaxPriorities := Nat.not_le.mpr hp
    simp only [vTaskPrioritySet, configAssert, decide_eq_true hp, if_true,
      bind, Except.bind, if_neg hge] at hok
    split at hok
    · exact hput.1.trans (switchIf_onlyWakes hput.2 hok)
    · cases hok
      exact .refl st
  · simp only [vTaskPrioritySet, configAssert, decide_eq_false hp, bind,
      Except.bind] at hok
    exact absurd hok (by simp)

theorem pendingReadyLoop_onlyWakes (alg : Algorithm) :
    ∀ (n : Nat) (st : State), WellLinked created st → (∀ x ∈ st.items .pendingReady, T x) →
      OnlyWakes T st (pendingReadyLoop alg n st) := by
  intro n
  induction n with
  | zero => intro st hw _; exact .refl st
  | succ n ih =>
      intro st hw hT
      rw [pendingReadyLoop]
      cases hitems : st.items .pendingReady with
      | nil => exact .refl st
      | cons x l =>
          have hmem : x ∈ st.items .pendingReady := by
            rw [hitems]
            exact List.mem_cons_self ..
          have hx := (hw.pending x hmem).1
          have hrem := removeEventItem_onlyWakes (T := T) hw x
          have hw₁ := hw.removeEventItem x
          have hput : OnlyWakes T (removeEventItem x st)
              (addTaskToReadyList alg x (removeEventItem x st)) :=
            (addTaskToReadyList_onlyWakes hw₁ hx).mono fun y hy => hy ▸ hT x hmem
          have hw₂ : WellLinked created (addTaskToReadyList alg x (removeEventItem x st)) :=
            hw₁.addTaskToReadyList hx
          have hr := addTaskToReadyList_readied alg hw₁ hx
          have hleft : ∀ y ∈ (addTaskToReadyList alg x (removeEventItem x st)).items
              .pendingReady, T y := fun y hy => by
            rw [State.items, hr.pendingReady] at hy
            have hmem : y ∈ ((st.lists .pendingReady).remove x).items := by
              simpa [removeEventItem] using hy
            exact hT y (List.mem_of_mem_erase hmem)
          have hstep := hrem.trans hput
          dsimp only
          split
          · exact (hstep.trans (yieldPending_onlyWakes hw₂ true)).trans
              (ih _ (yieldPending_moved hw₂ true).linked hleft)
          · exact hstep.trans (ih _ hw₂ hleft)

theorem resumePending_onlyWakes (hw : WellLinked created st) :
    OnlyWakes (· ∈ st.items .pendingReady) st (resumePending alg st) := by
  have hloop := pendingReadyLoop_onlyWakes (T := (· ∈ st.items .pendingReady)) alg
    (st.items .pendingReady).length st hw fun _ hx => hx
  rw [resumePending]
  split
  · exact hloop
  · exact hloop.trans (resetUnblockTime_onlyWakes
      (pendingReadyLoop_moved alg _ st hw).1.linked)

end FreeRtosSim
