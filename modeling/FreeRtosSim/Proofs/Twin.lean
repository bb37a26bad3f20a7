import FreeRtosSim.Proofs.Sound
import FreeRtosSim.Sim.Contents

/-!
# Two memories the kernel cannot tell apart

`Twin` relates two states of the simulator that differ in task blocks only,
and there only in what is not going to be read before it is written: all of
a block that is no task's, the fields of a periodic task in the blocks of the
idle and the timer task, and of a periodic task that is in no ready list the
item value and `start_time`. Every function of the tick keeps the relation and
notes down the same on both sides.

`start_time` is the one field a ready task may hold that nobody has written;
`known` says for which tasks it agrees anyway.
-/

namespace FreeRtosSim

variable {created : List TaskHandle} {known : TaskHandle → Prop} {alg : Algorithm}
  {st st₁ st' st₁' : State} {x y : TaskHandle} {id : ListId}

/-- The fields of a periodic task that its creation writes. -/
structure SameJobFields (b b' : TCB) : Prop where
  id : b'.xTaskId = b.xTaskId
  duration : b'.xTaskDuration = b.xTaskDuration
  remaining : b'.xRemainingTicks = b.xRemainingTicks
  constraint : b'.weaklyHardConstraint = b.weaklyHardConstraint
  met : b'.previousDeadlineMet = b.previousDeadlineMet

/-- The task is in a ready list. -/
def TCB.IsReady (b : TCB) : Prop := ∃ p, b.pxContainer = some (.ready p)

/-- Two blocks of one task that differ where it does not matter. -/
structure TCB.Alike (known : Prop) (b b' : TCB) : Prop where
  container : b'.pxContainer = b.pxContainer
  event : b'.inEventList = b.inEventList
  priority : b'.uxPriority = b.uxPriority
  period : b'.xTaskPeriod = b.xTaskPeriod
  job : b.xTaskPeriod ≠ 0 → SameJobFields b b'
  value : b.xTaskPeriod ≠ 0 → b.IsReady → b'.xItemValue = b.xItemValue
  start : known → b.xTaskPeriod ≠ 0 → b.IsReady → b'.startTime = b.startTime

structure Twin (created : List TaskHandle) (known : TaskHandle → Prop)
    (st st' : State) : Prop where
  same : st' = { st with tcb := st'.tcb }
  blocks : ∀ x ∈ created, (st.tcb x).Alike (known x) (st'.tcb x)
  linked : WellLinked created st
  priority : ∀ x ∈ created, (st.tcb x).xTaskPeriod ≠ 0 → (st.tcb x).uxPriority = 1
  plain : ∀ x ∈ created, (st.tcb x).xTaskPeriod = 0 →
    (st.tcb x).pxContainer ≠ some (.ready 1) ∧ (st.tcb x).pxContainer ≠ some .wait

namespace Twin

theorem lists (h : Twin created known st st') : st'.lists = st.lists := by
  rw [h.same]

theorem items (h : Twin created known st st') (id : ListId) :
    st'.items id = st.items id := by rw [State.items, h.lists]

theorem current (h : Twin created known st st') :
    st'.pxCurrentTCB = st.pxCurrentTCB := by rw [h.same]

theorem tick (h : Twin created known st st') :
    st'.xTickCount = st.xTickCount := by rw [h.same]

theorem sim (h : Twin created known st st') : st'.sim = st.sim := by rw [h.same]

/-- The members of ready list 1 and of the wait list are periodic tasks. -/
theorem member (h : Twin created known st st') (hid : id = .ready 1 ∨ id = .wait)
    (hx : x ∈ st.items id) : x ∈ created ∧ (st.tcb x).xTaskPeriod ≠ 0 ∧
      (st.tcb x).pxContainer = some id := by
  have hnp : id ≠ .pendingReady := by rcases hid with rfl | rfl <;> simp
  obtain ⟨hxc, hc⟩ := (h.linked.linked id hnp x).mp hx
  refine ⟨hxc, fun hp => ?_, hc⟩
  obtain ⟨hr, hw⟩ := h.plain x hxc hp
  rcases hid with rfl | rfl
  · exact hr hc
  · exact hw hc

/-! ## Steps of both sides -/

/-- Writes to globals that are the same on both sides. -/
theorem rebase (h : Twin created known st st') (hl : WellLinked created st₁)
    (htcb : st₁.tcb = st.tcb) (hsame : st₁' = { st₁ with tcb := st'.tcb }) :
    Twin created known st₁ st₁' where
  same := by rw [hsame]
  blocks x hx := by
    rw [hsame, htcb]
    exact h.blocks x hx
  linked := hl
  priority x hx hp := by
    rw [htcb] at hp ⊢
    exact h.priority x hx hp
  plain x hx hp := by
    rw [htcb] at hp ⊢
    exact h.plain x hx hp

theorem globals (h : Twin created known st st') (hl : SameLinks st st₁)
    (htcb : st₁.tcb = st.tcb) (hsame : st₁' = { st₁ with tcb := st'.tcb }) :
    Twin created known st₁ st₁' := h.rebase (h.linked.congr hl) htcb hsame

theorem setIndex (h : Twin created known st st') {i : Option TaskHandle}
    (hi : ∀ x, i = some x → x ∈ st.items id) :
    Twin created known (st.setList id ((st.lists id).setIndex i))
      (st'.setList id ((st.lists id).setIndex i)) where
  same := by
    rw [h.same]
    rfl
  blocks := h.blocks
  linked := h.linked.setIndex hi
  priority := h.priority
  plain := h.plain

/-- A write to the block of one task. -/
theorem write (h : Twin created known st st') {f f' : TCB → TCB}
    (hl : SameLinks st (st.modifyTcb x f))
    (hperiod : (f (st.tcb x)).xTaskPeriod = (st.tcb x).xTaskPeriod)
    (ha : x ∈ created → (f (st.tcb x)).Alike (known x) (f' (st'.tcb x))) :
    Twin created known (st.modifyTcb x f) (st'.modifyTcb x f') := by
  have hfield : ∀ y, ((st.modifyTcb x f).tcb y).xTaskPeriod =
      (st.tcb y).xTaskPeriod := fun y => by
    by_cases hy : y = x
    · subst hy
      simpa using hperiod
    · simp [hy]
  refine
    { same := ?_, blocks := fun y hy => ?_, linked := h.linked.congr hl
      priority := fun y hy hp => ?_, plain := fun y hy hp => ?_ }
  · rw [h.same]
    rfl
  · by_cases hyx : y = x
    · subst hyx
      simpa using ha hy
    · simpa [hyx] using h.blocks y hy
  · rw [hfield] at hp
    rw [hl.priority]
    exact h.priority y hy hp
  · rw [hfield] at hp
    rw [hl.container]
    exact h.plain y hy hp

end Twin

/-- Only the container is written, and the task gets into no ready list. -/
theorem TCB.Alike.contain {k : Prop} {b b' : TCB} (h : b.Alike k b')
    {c : Option ListId} (hc : ∀ p, c = some (.ready p) → b.xTaskPeriod ≠ 0 →
      b'.xItemValue = b.xItemValue ∧ (k → b'.startTime = b.startTime)) :
    TCB.Alike k { b with pxContainer := c } { b' with pxContainer := c } where
  container := rfl
  event := h.event
  priority := h.priority
  period := h.period
  job hp :=
    have hj := h.job hp
    ⟨hj.id, hj.duration, hj.remaining, hj.constraint, hj.met⟩
  value hp hr := by
    obtain ⟨p, hr⟩ := hr
    exact (hc p hr hp).1
  start hk hp hr := by
    obtain ⟨p, hr⟩ := hr
    exact (hc p hr hp).2 hk

theorem Twin.uxListRemove (h : Twin created known st st') (hx : x ∈ created) :
    Twin created known (uxListRemove x st) (uxListRemove x st') := by
  have hc : (st'.tcb x).pxContainer = (st.tcb x).pxContainer := (h.blocks x hx).container
  have hblock : ∀ y ∈ created, ((FreeRtosSim.uxListRemove x st).tcb y).Alike (known y)
      ((FreeRtosSim.uxListRemove x st').tcb y) := fun y hy => by
    by_cases hyx : y = x
    · subst hyx
      rw [uxListRemove_tcb, uxListRemove_tcb]
      exact (h.blocks y hy).contain fun p hp => absurd hp (by simp)
    · rw [uxListRemove_tcb_other hyx, uxListRemove_tcb_other hyx]
      exact h.blocks y hy
  have hjobs : SameJobs st (FreeRtosSim.uxListRemove x st) := uxListRemove_sameJobs
  refine
    { same := ?_, blocks := hblock, linked := h.linked.uxListRemove hx
      priority := fun y hy hp => ?_, plain := fun y hy hp => ?_ }
  · rw [FreeRtosSim.uxListRemove, FreeRtosSim.uxListRemove, hc]
    cases (st.tcb x).pxContainer with
    | none => exact h.same
    | some id =>
        dsimp only
        rw [h.same]
        rfl
  · rw [hjobs.period] at hp
    rw [uxListRemove_priority]
    exact h.priority y hy hp
  · rw [hjobs.period] at hp
    by_cases hyx : y = x
    · subst hyx
      rw [uxListRemove_container]
      simp
    · rw [uxListRemove_tcb_other hyx]
      exact h.plain y hy hp

/-- Linking into the same ring on both sides. -/
theorem Twin.link (h : Twin created known st st') {l : CursorList TaskHandle}
    (hl : WellLinked created (link id l x st))
    (hplain : x ∈ created → (st.tcb x).xTaskPeriod = 0 → id ≠ .ready 1 ∧ id ≠ .wait)
    (hready : ∀ p, id = .ready p → x ∈ created → (st.tcb x).xTaskPeriod ≠ 0 →
      (st'.tcb x).xItemValue = (st.tcb x).xItemValue ∧
        (known x → (st'.tcb x).startTime = (st.tcb x).startTime)) :
    Twin created known (link id l x st) (link id l x st') := by
  have hself : ∀ s : State, (FreeRtosSim.link id l x s).tcb x =
      { s.tcb x with pxContainer := some id } := fun s => by simp [FreeRtosSim.link]
  have hjobs : SameJobs st (FreeRtosSim.link id l x st) := link_sameJobs
  refine
    { same := ?_, blocks := fun y hy => ?_, linked := hl
      priority := fun y hy hp => ?_, plain := fun y hy hp => ?_ }
  · rw [h.same]
    rfl
  · by_cases hyx : y = x
    · subst hyx
      rw [hself, hself]
      exact (h.blocks y hy).contain fun p hp =>
        hready p (Option.some_inj.mp hp) hy
    · rw [link_tcb_other hyx, link_tcb_other hyx]
      exact h.blocks y hy
  · rw [hjobs.period] at hp
    by_cases hyx : y = x
    · subst hyx
      rw [hself]
      exact h.priority y hy hp
    · rw [link_tcb_other hyx]
      exact h.priority y hy hp
  · rw [hjobs.period] at hp
    by_cases hyx : y = x
    · subst hyx
      rw [hself]
      simpa using hplain hy hp
    · rw [link_tcb_other hyx]
      exact h.plain y hy hp

theorem Twin.listInsertEnd (h : Twin created known st st') (hx : x ∈ created)
    (hnone : (st.tcb x).pxContainer = none) (hid : id.IsState)
    (hready : ∀ p, id ≠ .ready p)
    (hplain : (st.tcb x).xTaskPeriod = 0 → id ≠ .wait) :
    Twin created known (listInsertEnd id x st) (listInsertEnd id x st') := by
  obtain ⟨l, hins, hadds⟩ := listInsertEnd_link (x := x) (h.linked.wellFormed id)
  have hlinked := h.linked.link hx hnone hid hadds
  rw [← hins] at hlinked
  have hlink' : FreeRtosSim.listInsertEnd id x st' =
      FreeRtosSim.link id ((st.lists id).insertEnd x) x st' := by
    rw [← h.lists]
    rfl
  rw [hlink']
  exact h.link hlinked (fun _ hp => ⟨hready 1, hplain hp⟩)
    fun p hp => absurd hp (hready p)

/-! ## Into a ready list -/

/-- Inserting by keys that agree. -/
theorem Twin.vListInsert (h : Twin created known st st') (hx : x ∈ created)
    (hnone : (st.tcb x).pxContainer = none) (hid : id.IsState)
    (hplain : (st.tcb x).xTaskPeriod = 0 → id ≠ .ready 1 ∧ id ≠ .wait)
    (hkeys : st.items id ≠ [] → (st'.tcb x).xItemValue = (st.tcb x).xItemValue ∧
      ∀ y ∈ st.items id, (st'.tcb y).xItemValue = (st.tcb y).xItemValue)
    (hready : ∀ p, id = .ready p → (st.tcb x).xTaskPeriod ≠ 0 →
      (st'.tcb x).xItemValue = (st.tcb x).xItemValue ∧
        (known x → (st'.tcb x).startTime = (st.tcb x).startTime)) :
    Twin created known (vListInsert id x st) (vListInsert id x st') := by
  obtain ⟨l, hins, hadds⟩ := vListInsert_link (x := x) (h.linked.wellFormed id)
  have hlinked := h.linked.link hx hnone hid hadds
  rw [← hins] at hlinked
  have hring : ∀ key : TaskHandle → Nat, ∀ v : Nat, st.items id = [] →
      (if v = portMaxDelay then (st.lists id).append x
        else (st.lists id).insertSorted key x) = (st.lists id).append x := by
    intro key v hempty
    split
    · rfl
    · rw [CursorList.insertSorted, CursorList.append]
      rw [State.items] at hempty
      rw [hempty]
      rfl
  have hsame : (if (st'.tcb x).xItemValue = portMaxDelay then (st'.lists id).append x
        else (st'.lists id).insertSorted (fun y => (st'.tcb y).xItemValue) x) =
      if (st.tcb x).xItemValue = portMaxDelay then (st.lists id).append x
        else (st.lists id).insertSorted (fun y => (st.tcb y).xItemValue) x := by
    rw [h.lists]
    by_cases hempty : st.items id = []
    · rw [hring _ _ hempty, hring _ _ hempty]
    · obtain ⟨hxv, hall⟩ := hkeys hempty
      rw [hxv, CursorList.insertSorted_congr hall hxv]
  have hlink' : FreeRtosSim.vListInsert id x st' = FreeRtosSim.link id
      (if (st.tcb x).xItemValue = portMaxDelay then (st.lists id).append x
        else (st.lists id).insertSorted (fun y => (st.tcb y).xItemValue) x) x st' := by
    rw [← hsame]
    rfl
  rw [hlink']
  exact h.link hlinked (fun _ => hplain) fun p hp _ => hready p hp

theorem Twin.setItemValue (h : Twin created known st st') (v : Nat) :
    Twin created known (setItemValue x v st) (setItemValue x v st') := by
  refine h.write (setItemValue_links v) rfl fun hx => ?_
  have ha := h.blocks x hx
  exact { ha with
    job := fun hp =>
      have hj := ha.job hp
      ⟨hj.id, hj.duration, hj.remaining, hj.constraint, hj.met⟩
    value := fun _ _ => rfl }

theorem Twin.record (h : Twin created known st st') (p : Nat) :
    Twin created known (taskRecordReadyPriority p st) (taskRecordReadyPriority p st') := by
  refine h.globals ⟨rfl, fun _ => rfl, fun _ => rfl, fun _ => rfl, rfl, rfl, rfl⟩ rfl ?_
  rw [taskRecordReadyPriority, taskRecordReadyPriority, h.same]

/-- The macro, for a periodic task that is on no list. -/
theorem Twin.prvAddTaskToReadyList (h : Twin created known st st') (hx : x ∈ created)
    (hnone : (st.tcb x).pxContainer = none) (hp : (st.tcb x).xTaskPeriod ≠ 0)
    (hstart : known x → (st'.tcb x).startTime = (st.tcb x).startTime) :
    Twin created known (prvAddTaskToReadyList alg x st)
      (prvAddTaskToReadyList alg x st') := by
  have ha := h.blocks x hx
  have hj := ha.job hp
  have hone := h.priority x hx hp
  have hmust : mustMeet (st'.tcb x) = mustMeet (st.tcb x) := by
    rw [mustMeet, mustMeet, hj.constraint, hj.met]
  have htick : (taskRecordReadyPriority 1 st').xTickCount =
      (taskRecordReadyPriority 1 st).xTickCount := h.tick
  have hrec := h.record 1
  have hinsert : ∀ v, Twin created known
      (FreeRtosSim.vListInsert (.ready 1) x (FreeRtosSim.setItemValue x v
        (taskRecordReadyPriority 1 st)))
      (FreeRtosSim.vListInsert (.ready 1) x (FreeRtosSim.setItemValue x v
        (taskRecordReadyPriority 1 st'))) := fun v => by
    have hset := hrec.setItemValue (x := x) v
    have hcont := (hset.blocks x hx).container
    refine hset.vListInsert hx ?_ (show 1 < configMaxPriorities by decide)
      (fun hz => absurd ?_ hp)
      (fun _ => ⟨by simp [FreeRtosSim.setItemValue], fun y hy => ?_⟩)
      fun _ _ _ => ⟨by simp [FreeRtosSim.setItemValue], fun hk => ?_⟩
    · simpa [FreeRtosSim.setItemValue, taskRecordReadyPriority] using hnone
    · simpa [FreeRtosSim.setItemValue, taskRecordReadyPriority] using hz
    · obtain ⟨hyc, hyp, hyr⟩ := hset.member (Or.inl rfl) hy
      exact (hset.blocks y hyc).value hyp ⟨1, hyr⟩
    · simpa [FreeRtosSim.setItemValue, taskRecordReadyPriority] using hstart hk
  have hwait : Twin created known
      (FreeRtosSim.listInsertEnd .wait x (taskRecordReadyPriority 1 st))
      (FreeRtosSim.listInsertEnd .wait x (taskRecordReadyPriority 1 st')) :=
    hrec.listInsertEnd hx hnone trivial (fun _ => by simp) fun hz => absurd hz hp
  cases alg with
  | edf =>
      simp only [FreeRtosSim.prvAddTaskToReadyList, prvAddTaskToReadyListEdf, hone,
        ha.priority, ha.period, htick, hp, ne_eq, not_false_eq_true, if_true]
      exact hinsert _
  | bwp =>
      simp only [FreeRtosSim.prvAddTaskToReadyList, prvAddTaskToReadyListBwp, hone,
        ha.priority, ha.period, hj.constraint, hmust, htick, hp, ne_eq,
        not_false_eq_true, and_true, if_true]
      split
      · exact hinsert _
      · split
        · exact hinsert _
        · exact hinsert _
  | rto =>
      simp only [FreeRtosSim.prvAddTaskToReadyList, prvAddTaskToReadyListRto, hone,
        ha.priority, ha.period, hj.constraint, hmust, htick, hp, ne_eq,
        not_false_eq_true, and_true, if_false]
      split
      · exact hinsert _
      · split
        · exact hinsert _
        · split
          · exact hwait
          · exact hrec

/-! ## The accounting -/

theorem Twin.setSim (h : Twin created known st st') (g : Simulator → Simulator) :
    Twin created known { st with sim := g st.sim } { st' with sim := g st'.sim } := by
  refine h.globals ⟨rfl, fun _ => rfl, fun _ => rfl, fun _ => rfl, rfl, rfl, rfl⟩ rfl ?_
  rw [h.same]

theorem Twin.addTaskToWaitList (h : Twin created known st st') (hx : x ∈ created)
    (hp : (st.tcb x).xTaskPeriod ≠ 0) :
    Twin created known (addTaskToWaitList x st) (addTaskToWaitList x st') := by
  have hremove := h.uxListRemove hx
  refine hremove.listInsertEnd hx uxListRemove_container trivial (fun _ => by simp)
    fun hz => absurd ?_ hp
  rw [uxListRemove_tcb] at hz
  exact hz

/-- The writes to fields of a periodic task other than `start_time`. -/
theorem Twin.writeJob (h : Twin created known st st') {f : TCB → TCB}
    (hl : SameLinks st (st.modifyTcb x f))
    (hkeep : ∀ b, (f b).xTaskPeriod = b.xTaskPeriod ∧ (f b).xItemValue = b.xItemValue ∧
      (f b).startTime = b.startTime ∧ (f b).pxContainer = b.pxContainer ∧
      (f b).inEventList = b.inEventList ∧ (f b).uxPriority = b.uxPriority)
    (hjob : ∀ b b', SameJobFields b b' → SameJobFields (f b) (f b')) :
    Twin created known (st.modifyTcb x f) (st'.modifyTcb x f) := by
  refine h.write hl (hkeep _).1 fun hx => ?_
  have ha := h.blocks x hx
  obtain ⟨hp, hv, hs, hc, he, hr⟩ := hkeep (st.tcb x)
  obtain ⟨hp', hv', hs', hc', he', hr'⟩ := hkeep (st'.tcb x)
  have hready : (f (st.tcb x)).IsReady → (st.tcb x).IsReady := by
    rintro ⟨p, hf⟩
    exact ⟨p, hc ▸ hf⟩
  exact
    { container := by rw [hc, hc', ha.container]
      event := by rw [he, he', ha.event]
      priority := by rw [hr, hr', ha.priority]
      period := by rw [hp, hp', ha.period]
      job := fun hz => hjob _ _ (ha.job (hp ▸ hz))
      value := fun hz hf => by rw [hv, hv', ha.value (hp ▸ hz) (hready hf)]
      start := fun hk hz hf => by rw [hs, hs', ha.start hk (hp ▸ hz) (hready hf)] }

theorem modifyTcb_links {f : TCB → TCB}
    (hf : ∀ b, (f b).pxContainer = b.pxContainer ∧ (f b).inEventList = b.inEventList ∧
      (f b).uxPriority = b.uxPriority) : SameLinks st (st.modifyTcb x f) := by
  refine ⟨rfl, fun y => ?_, fun y => ?_, fun y => ?_, rfl, rfl, rfl⟩ <;>
    by_cases hy : y = x <;> simp [hy, hf]

theorem Twin.completeJob (h : Twin created known st st') (hx : x ∈ created)
    (hp : (st.tcb x).xTaskPeriod ≠ 0)
    (hstart : (st'.tcb x).startTime = (st.tcb x).startTime) :
    Twin created known (completeJob x st) (completeJob x st') := by
  have ha := h.blocks x hx
  have hj := ha.job hp
  have hsim := h.setSim fun sim => sim.setReport (st.tcb x).xTaskId
    ((st.tcb x).startTime / (st.tcb x).xTaskPeriod)
  have hmet := hsim.writeJob (x := x)
    (f := fun t => { t with previousDeadlineMet := (t.previousDeadlineMet + 1) % 2 ^ 8 })
    (modifyTcb_links fun _ => ⟨rfl, rfl, rfl⟩) (fun _ => ⟨rfl, rfl, rfl, rfl, rfl, rfl⟩)
    fun b b' hb => ⟨hb.id, hb.duration, hb.remaining, hb.constraint, by rw [hb.met]⟩
  have htime : tickSub st'.xTickCount (st'.tcb x).startTime ≤ (st'.tcb x).xTaskPeriod ↔
      tickSub st.xTickCount (st.tcb x).startTime ≤ (st.tcb x).xTaskPeriod := by
    rw [hstart, h.tick, ha.period]
  by_cases hin : tickSub st.xTickCount (st.tcb x).startTime ≤ (st.tcb x).xTaskPeriod
  · rw [FreeRtosSim.completeJob, FreeRtosSim.completeJob, if_pos hin,
      if_pos (htime.mpr hin)]
    dsimp only
    rw [hj.id, hstart, ha.period, hj.constraint]
    split
    · exact hmet.addTaskToWaitList hx (by simpa using hp)
    · exact hsim.addTaskToWaitList hx hp
  · rw [FreeRtosSim.completeJob, FreeRtosSim.completeJob, if_neg hin,
      if_neg fun hc => hin (htime.mp hc)]
    have hmsg : veryBadMessages st' x = veryBadMessages st x := by
      simp only [veryBadMessages, hstart, h.tick, ha.period, hj.id]
    refine h.globals ⟨rfl, fun _ => rfl, fun _ => rfl, fun _ => rfl, rfl, rfl, rfl⟩ rfl ?_
    rw [hmsg, h.same]

/-- A periodic task that runs is in a ready list, and its `start_time` is
known. -/
def RunsReady (known : TaskHandle → Prop) (st : State) : Prop :=
  ∀ c, st.pxCurrentTCB = some c → (st.tcb c).xTaskPeriod ≠ 0 →
    (st.tcb c).IsReady ∧ known c

theorem Twin.chargeCurrent (h : Twin created known st st') (hrun : RunsReady known st) :
    Twin created known (chargeCurrent st) (chargeCurrent st') := by
  rw [FreeRtosSim.chargeCurrent, FreeRtosSim.chargeCurrent, h.current]
  cases hc : st.pxCurrentTCB with
  | none => exact h
  | some c =>
      have hcc := h.linked.current c hc
      have ha := h.blocks c hcc
      simp only [ha.period]
      by_cases hp : (st.tcb c).xTaskPeriod = 0
      · simpa [hp] using h
      · have hj := ha.job hp
        obtain ⟨hr, hk⟩ := hrun c hc hp
        have hstart := ha.start hk hp hr
        have hwork := h.writeJob (x := c)
          (f := fun t => { t with xRemainingTicks := t.xRemainingTicks - 1 })
          (modifyTcb_links fun _ => ⟨rfl, rfl, rfl⟩)
          (fun _ => ⟨rfl, rfl, rfl, rfl, rfl, rfl⟩)
          fun b b' hb => ⟨hb.id, hb.duration, by rw [hb.remaining], hb.constraint, hb.met⟩
        rw [if_pos hp, if_pos hp, hj.remaining]
        split
        · simp only [State.modifyTcb_tcb, Function.update_self, hj.remaining]
          split
          · exact hwork.completeJob hcc (by simpa using hp) (by simpa using hstart)
          · exact hwork
        · simp only [hj.remaining]
          split
          · exact h.completeJob hcc hp hstart
          · exact h

theorem Twin.reportLog (h : Twin created known st st') (hrun : RunsReady known st) :
    reportLog st' = reportLog st := by
  rw [FreeRtosSim.reportLog, FreeRtosSim.reportLog, h.current]
  cases hc : st.pxCurrentTCB with
  | none => rfl
  | some c =>
      have ha := h.blocks c (h.linked.current c hc)
      dsimp only
      by_cases hp : (st.tcb c).xTaskPeriod = 0
      · rw [if_neg fun hn => hn.1 (ha.period.trans hp), if_neg fun hn => hn.1 hp]
      · have hj := ha.job hp
        obtain ⟨hr, hk⟩ := hrun c hc hp
        rw [ha.start hk hp hr, h.tick, ha.period, hj.id, hj.remaining]

/-! ## `killTasks` -/

theorem Twin.checkWeaklyHard (h : Twin created known st st') (hx : x ∈ created)
    (hp : (st.tcb x).xTaskPeriod ≠ 0) :
    Twin created known (checkWeaklyHard x st) (checkWeaklyHard x st') := by
  have hj := (h.blocks x hx).job hp
  have hmust : mustMeet (st'.tcb x) = mustMeet (st.tcb x) := by
    rw [mustMeet, mustMeet, hj.constraint, hj.met]
  have hbroken := h.setSim Simulator.weaklyHardBroken
  rw [FreeRtosSim.checkWeaklyHard, FreeRtosSim.checkWeaklyHard]
  simp only [hj.constraint, hmust]
  split
  · exact hbroken
  · split
    · exact hbroken
    · exact h

theorem Twin.hopeless (h : Twin created known st st') (hx : x ∈ st.items (.ready 1))
    (hk : known x) : hopeless st' x = hopeless st x := by
  obtain ⟨hxc, hp, hc⟩ := h.member (Or.inl rfl) hx
  have ha := h.blocks x hxc
  rw [FreeRtosSim.hopeless, FreeRtosSim.hopeless]
  simp only [ha.start hk hp ⟨1, hc⟩, h.tick, ha.period, (ha.job hp).remaining]

theorem checkWeaklyHard_tcb : (checkWeaklyHard x st).tcb = st.tcb := by
  obtain ⟨sim, heq⟩ := checkWeaklyHard_eq x st
  rw [heq]

theorem Twin.killBody (h : Twin created known st st') (hx : x ∈ st.items (.ready 1))
    (hk : known x) : Twin created known (killBody x st) (killBody x st') := by
  obtain ⟨hxc, hp, -⟩ := h.member (Or.inl rfl) hx
  have ha := h.blocks x hxc
  rw [FreeRtosSim.killBody, FreeRtosSim.killBody, ha.priority, h.hopeless hx hk]
  split
  · split
    · have hcount := h.setSim fun sim => sim.incrementTimesKilled (st.tcb x).xTaskId
      have hcheck := hcount.checkWeaklyHard hxc hp
      have hmet := hcheck.writeJob (x := x)
        (f := fun t => { t with previousDeadlineMet := 0 })
        (modifyTcb_links fun _ => ⟨rfl, rfl, rfl⟩) (fun _ => ⟨rfl, rfl, rfl, rfl, rfl, rfl⟩)
        fun b b' hb => ⟨hb.id, hb.duration, hb.remaining, hb.constraint, rfl⟩
      rw [(ha.job hp).id]
      refine hmet.addTaskToWaitList hxc ?_
      simpa [checkWeaklyHard_tcb] using hp
    · exact h
  · exact h

/-- Walks over a list that is the same on both sides. -/
theorem twin_walkPair (id : ListId) :
    WalkPair (fun st : State => st.lists id) (fun st l => st.setList id l)
      (fun st : State => st.lists id) (fun st l => st.setList id l)
      (Twin created known) where
  ring _ _ h := by rw [h.lists]
  get_set _ _ := by simp
  setIndex _ _ _ h hi := h.setIndex hi

/-- Every `start_time` that can be read is known. -/
abbrev allKnown : TaskHandle → Prop := fun _ => True

theorem twin_killBody (x : TaskHandle) (s s' : State) (h : Twin created allKnown s s')
    (hx : x ∈ (s.lists (.ready 1)).items) :
    Twin created allKnown (killBody x s) (killBody x s') := h.killBody hx trivial

theorem Twin.killTasks (h : Twin created allKnown st st') :
    Twin created allKnown (killTasks st) (killTasks st') :=
  (twin_walkPair (.ready 1)).walk twin_killBody h

theorem Twin.killLog (h : Twin created allKnown st st') : killLog st' = killLog st := by
  rw [FreeRtosSim.killLog, FreeRtosSim.killLog, walkListLog, walkListLog]
  refine (twin_walkPair (.ready 1)).walkLog twin_killBody (fun x s s' hR hx => ?_) h
  have hxc := (hR.member (Or.inl rfl) hx).1
  rw [(hR.blocks x hxc).priority, hR.hopeless hx trivial]

/-! ## `wakeTasks` -/

theorem Twin.renewed (h : Twin created known st st') (hx : x ∈ created)
    (hp : (st.tcb x).xTaskPeriod ≠ 0) :
    Twin created known (renewed x st) (renewed x st') := by
  have hj := (h.blocks x hx).job hp
  rw [FreeRtosSim.renewed, FreeRtosSim.renewed, h.tick]
  refine h.write renewed_links rfl fun hxc => ?_
  have ha := h.blocks x hxc
  exact { ha with
    job := fun _ => ⟨hj.id, hj.duration, hj.duration, hj.constraint, hj.met⟩
    start := fun _ _ _ => rfl }

theorem Twin.passedOver (h : Twin created known st st') (hx : x ∈ created)
    (hp : (st.tcb x).xTaskPeriod ≠ 0) :
    passedOver alg (st'.tcb x) ↔ passedOver alg (st.tcb x) := by
  have hj := (h.blocks x hx).job hp
  rw [FreeRtosSim.passedOver, FreeRtosSim.passedOver, hj.constraint, hj.met]

theorem Twin.isDue (h : Twin created known st st') (hx : x ∈ created) :
    isDue st'.xTickCount (st'.tcb x) ↔ isDue st.xTickCount (st.tcb x) := by
  have ha := h.blocks x hx
  rw [FreeRtosSim.isDue, FreeRtosSim.isDue, ha.priority, ha.period, h.tick]

theorem Twin.wakeBody (h : Twin created known st st') (hx : x ∈ st.items .wait) :
    Twin created known (wakeBody alg x st) (wakeBody alg x st') := by
  obtain ⟨hxc, hp, -⟩ := h.member (Or.inr rfl) hx
  have hnew := h.renewed hxc hp
  rw [wakeBody_eq_cases, wakeBody_eq_cases]
  by_cases hd : FreeRtosSim.isDue st.xTickCount (st.tcb x)
  · rw [if_pos hd, if_pos ((h.isDue hxc).mpr hd)]
    by_cases hl : FreeRtosSim.passedOver alg (st.tcb x)
    · rw [if_pos hl, if_pos ((h.passedOver hxc hp).mpr hl)]
      exact hnew.writeJob (modifyTcb_links fun _ => ⟨rfl, rfl, rfl⟩)
        (fun _ => ⟨rfl, rfl, rfl, rfl, rfl, rfl⟩)
        fun b b' hb => ⟨hb.id, hb.duration, hb.remaining, hb.constraint, rfl⟩
    · rw [if_neg hl, if_neg fun hc => hl ((h.passedOver hxc hp).mp hc)]
      refine (hnew.uxListRemove hxc).prvAddTaskToReadyList hxc uxListRemove_container ?_
        fun _ => ?_
      · simpa [uxListRemove_tcb, FreeRtosSim.renewed] using hp
      · simp [uxListRemove_tcb, FreeRtosSim.renewed, h.tick]
  · rw [if_neg hd, if_neg fun hc => hd ((h.isDue hxc).mp hc)]
    exact h

theorem twin_wakeBody (alg : Algorithm) (x : TaskHandle) (s s' : State)
    (h : Twin created known s s') (hx : x ∈ (s.lists .wait).items) :
    Twin created known (wakeBody alg x s) (wakeBody alg x s') := h.wakeBody hx

theorem Twin.wakeTasks (h : Twin created known st st') :
    Twin created known (wakeTasks alg st) (wakeTasks alg st') :=
  (twin_walkPair .wait).walk (twin_wakeBody alg) h

theorem Twin.wakeLog (h : Twin created known st st') :
    wakeLog alg st' = wakeLog alg st := by
  rw [FreeRtosSim.wakeLog, FreeRtosSim.wakeLog, walkListLog, walkListLog]
  refine (twin_walkPair .wait).walkLog (twin_wakeBody alg) (fun x s s' hR hx => ?_) h
  obtain ⟨hxc, hp, -⟩ := hR.member (Or.inr rfl) hx
  have ha := hR.blocks x hxc
  have hj := ha.job hp
  rw [ha.priority, ha.period, hj.constraint, hj.met, hR.tick]

end FreeRtosSim
