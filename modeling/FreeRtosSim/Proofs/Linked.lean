import FreeRtosSim.Sim.System

/-!
# The lists agree with the tasks

`WellLinked` is what stays true of the lists whatever the tasks do: every
list is a well-formed ring, and a task is in a list exactly if its state item
says so. It leaves one thing open, that the item says it is in no list at
all; `Unlost` below is the relation of the steps that lose nobody.

Each list operation has one lemma, and the functions built from them that
only move tasks keep the fields their jobs live in, which is `SameJobs`.
-/

namespace FreeRtosSim

variable {created : List TaskHandle} {alg : Algorithm} {st st₁ st₂ : State}
  {x y : TaskHandle} {id : ListId}

/-- The lists a state item can be in. -/
def ListId.IsState : ListId → Prop
  | .ready p => p < configMaxPriorities
  | .pendingReady => False
  | _ => True

theorem ListId.IsState.ne_pendingReady {id : ListId} (h : id.IsState) :
    id ≠ .pendingReady := by
  rintro rfl
  exact h

structure WellLinked (created : List TaskHandle) (st : State) : Prop where
  wellFormed : ∀ id, (st.lists id).WellFormed
  linked : ∀ id, id ≠ .pendingReady → ∀ x,
    x ∈ st.items id ↔ x ∈ created ∧ (st.tcb x).pxContainer = some id
  container : ∀ x ∈ created, ∀ id,
    (st.tcb x).pxContainer = some id → id.IsState
  pending : ∀ x ∈ st.items .pendingReady,
    x ∈ created ∧ (st.tcb x).inEventList = true
  priority : ∀ x ∈ created, (st.tcb x).uxPriority < configMaxPriorities
  current : ∀ c ∈ st.pxCurrentTCB, c ∈ created
  delayed : st.pxDelayedTaskList = .delayed1 ∧
      st.pxOverflowDelayedTaskList = .delayed2 ∨
    st.pxDelayedTaskList = .delayed2 ∧ st.pxOverflowDelayedTaskList = .delayed1

/-! ## What a step leaves alone -/

/-- Nothing that `WellLinked` speaks of differs. -/
structure SameLinks (st st' : State) : Prop where
  lists : st'.lists = st.lists
  container : ∀ x, (st'.tcb x).pxContainer = (st.tcb x).pxContainer
  event : ∀ x, (st'.tcb x).inEventList = (st.tcb x).inEventList
  priority : ∀ x, (st'.tcb x).uxPriority = (st.tcb x).uxPriority
  current : st'.pxCurrentTCB = st.pxCurrentTCB
  delayed : st'.pxDelayedTaskList = st.pxDelayedTaskList
  overflow : st'.pxOverflowDelayedTaskList = st.pxOverflowDelayedTaskList

theorem SameLinks.refl (st : State) : SameLinks st st :=
  ⟨rfl, fun _ => rfl, fun _ => rfl, fun _ => rfl, rfl, rfl, rfl⟩

theorem WellLinked.congr (h : WellLinked created st) (hs : SameLinks st st₁) :
    WellLinked created st₁ := by
  have hitems : ∀ id, st₁.items id = st.items id := fun id => by
    rw [State.items, hs.lists]
  refine
    { wellFormed := fun id => by rw [hs.lists]; exact h.wellFormed id
      linked := fun id hid x => by
        rw [hitems, hs.container]; exact h.linked id hid x
      container := fun x hx id hc => h.container x hx id (hs.container x ▸ hc)
      pending := fun x hx => by
        rw [hs.event]; exact h.pending x (hitems _ ▸ hx)
      priority := fun x hx => by rw [hs.priority]; exact h.priority x hx
      current := fun c hc => h.current c (hs.current ▸ hc)
      delayed := ?_ }
  rw [hs.delayed, hs.overflow]
  exact h.delayed

/-- A block without its list items and its priority: what the jobs of the
task live in. -/
def TCB.core (b : TCB) : TCB :=
  { b with
    xItemValue := 0, pxContainer := none, inEventList := false, uxPriority := 0 }

/-- The clock and the state of the scheduler. -/
structure SameGlobals (st st' : State) : Prop where
  tick : st'.xTickCount = st.xTickCount
  suspended : st'.uxSchedulerSuspended = st.uxSchedulerSuspended
  number : st'.uxCurrentNumberOfTasks = st.uxCurrentNumberOfTasks
  running : st'.xSchedulerRunning = st.xSchedulerRunning
  pended : st'.xPendedTicks = st.xPendedTicks

theorem SameGlobals.refl (st : State) : SameGlobals st st :=
  ⟨rfl, rfl, rfl, rfl, rfl⟩

theorem SameGlobals.trans (h : SameGlobals st st₁) (h' : SameGlobals st₁ st₂) :
    SameGlobals st st₂ where
  tick := h'.tick.trans h.tick
  suspended := h'.suspended.trans h.suspended
  number := h'.number.trans h.number
  running := h'.running.trans h.running
  pended := h'.pended.trans h.pended

/-- Tasks may have moved between lists and changed their priority; their jobs
have not changed. -/
structure SameJobs (st st' : State) : Prop extends SameGlobals st st' where
  core : ∀ x, (st'.tcb x).core = (st.tcb x).core
  sim : st'.sim = st.sim

theorem SameJobs.refl (st : State) : SameJobs st st :=
  ⟨SameGlobals.refl st, fun _ => rfl, rfl⟩

theorem SameJobs.trans (h : SameJobs st st₁) (h' : SameJobs st₁ st₂) :
    SameJobs st st₂ :=
  ⟨h.toSameGlobals.trans h'.toSameGlobals,
    fun x => (h'.core x).trans (h.core x), h'.sim.trans h.sim⟩

theorem SameJobs.modifyTcb {f : TCB → TCB}
    (hf : (f (st.tcb x)).core = (st.tcb x).core) :
    SameJobs st (st.modifyTcb x f) := by
  refine ⟨⟨rfl, rfl, rfl, rfl, rfl⟩, fun y => ?_, rfl⟩
  by_cases hy : y = x
  · subst hy
    simpa using hf
  · simp [hy]

section Core

variable (h : SameJobs st st₁)

include h

theorem SameJobs.period (x : TaskHandle) :
    (st₁.tcb x).xTaskPeriod = (st.tcb x).xTaskPeriod :=
  (congrArg TCB.xTaskPeriod (h.core x) : _)

theorem SameJobs.start (x : TaskHandle) :
    (st₁.tcb x).startTime = (st.tcb x).startTime :=
  (congrArg TCB.startTime (h.core x) : _)

end Core

/-- No task is lost: a state item that was in a list is in one. -/
def Unlost (st st' : State) : Prop :=
  ∀ x, (st'.tcb x).pxContainer = none → (st.tcb x).pxContainer = none

theorem Unlost.refl (st : State) : Unlost st st := fun _ h => h

theorem Unlost.trans (h : Unlost st st₁) (h' : Unlost st₁ st₂) : Unlost st st₂ :=
  fun x hx => h x (h' x hx)

theorem SameLinks.unlost (h : SameLinks st st₁) : Unlost st st₁ :=
  fun x hx => (h.container x).symm.trans hx

/-! ## Linking an item -/

/-- `x` becomes a member of list `id`, which turns into `l`. -/
def link (id : ListId) (l : CursorList TaskHandle) (x : TaskHandle) (st : State) :
    State :=
  (st.setList id l).modifyTcb x fun t => { t with pxContainer := some id }

/-- `l` is the list `id` of `st` with `x` added somewhere. -/
structure Adds (st : State) (id : ListId) (x : TaskHandle)
    (l : CursorList TaskHandle) : Prop where
  mem : ∀ y, y ∈ l.items ↔ y = x ∨ y ∈ st.items id
  wellFormed : x ∉ st.items id → l.WellFormed

theorem vListInsert_link (hw : (st.lists id).WellFormed) :
    ∃ l, vListInsert id x st = link id l x st ∧ Adds st id x l := by
  refine ⟨_, rfl, ?_⟩
  split
  · refine ⟨fun y => ?_, fun hx => hw.append hx⟩
    rw [CursorList.append, List.mem_append, List.mem_singleton, or_comm]
  · refine ⟨fun y => ?_, fun hx => hw.insertSorted hx _⟩
    exact (List.perm_orderedInsert _ x _).mem_iff.trans List.mem_cons

theorem listInsertEnd_link (hw : (st.lists id).WellFormed) :
    ∃ l, listInsertEnd id x st = link id l x st ∧ Adds st id x l :=
  ⟨_, rfl, fun _ => (CursorList.perm_insertEnd _ x).mem_iff.trans List.mem_cons,
    fun hx => hw.insertEnd hx⟩

section Link

variable {l : CursorList TaskHandle}

@[simp] theorem link_container_self :
    ((link id l x st).tcb x).pxContainer = some id := by simp [link]

theorem link_tcb_other (hy : y ≠ x) : (link id l x st).tcb y = st.tcb y := by
  simp [link, hy]

theorem link_sameJobs : SameJobs st (link id l x st) :=
  { (SameJobs.modifyTcb rfl : SameJobs (st.setList id l) (link id l x st)) with }

theorem WellLinked.link (h : WellLinked created st) (hx : x ∈ created)
    (hnone : (st.tcb x).pxContainer = none) (hid : id.IsState)
    (hl : Adds st id x l) : WellLinked created (link id l x st) := by
  have hnp : id ≠ .pendingReady := fun he => by
    rw [he] at hid
    exact hid
  have hfree : ∀ k, k ≠ .pendingReady → x ∉ st.items k := fun k hk hm => by
    have hc := ((h.linked k hk x).mp hm).2
    rw [hnone] at hc
    exact absurd hc (by simp)
  have hself : (FreeRtosSim.link id l x st).lists id = l := by
    simp [FreeRtosSim.link]
  have hother : ∀ k, k ≠ id →
      (FreeRtosSim.link id l x st).lists k = st.lists k := fun k hk => by
    simp [FreeRtosSim.link, hk]
  have hprio : ∀ y, ((FreeRtosSim.link id l x st).tcb y).uxPriority =
      (st.tcb y).uxPriority := fun y => by
    by_cases hy : y = x
    · subst hy
      simp [FreeRtosSim.link]
    · rw [link_tcb_other hy]
  have hevent : ∀ y, ((FreeRtosSim.link id l x st).tcb y).inEventList =
      (st.tcb y).inEventList := fun y => by
    by_cases hy : y = x
    · subst hy
      simp [FreeRtosSim.link]
    · rw [link_tcb_other hy]
  refine
    { wellFormed := fun k => ?_, linked := fun k hk y => ?_
      container := fun y hy k hc => ?_, pending := fun y hy => ?_
      priority := fun y hy => by rw [hprio]; exact h.priority y hy
      current := h.current
      delayed := h.delayed }
  · by_cases hk : k = id
    · subst hk
      rw [hself]
      exact hl.wellFormed (hfree k hnp)
    · rw [hother k hk]
      exact h.wellFormed k
  · by_cases hy : y = x
    · subst hy
      rw [link_container_self, Option.some_inj]
      by_cases hkid : k = id
      · subst hkid
        rw [State.items, hself]
        exact iff_of_true ((hl.mem y).mpr (Or.inl rfl)) ⟨hx, rfl⟩
      · rw [State.items, hother k hkid]
        exact iff_of_false (hfree k hk) fun hc => hkid hc.2.symm
    · rw [link_tcb_other hy]
      by_cases hkid : k = id
      · subst hkid
        rw [State.items, hself, hl.mem, or_iff_right hy]
        exact h.linked k hk y
      · rw [State.items, hother k hkid]
        exact h.linked k hk y
  · by_cases hyx : y = x
    · subst hyx
      rw [link_container_self, Option.some_inj] at hc
      exact hc ▸ hid
    · rw [link_tcb_other hyx] at hc
      exact h.container y hy k hc
  · rw [State.items, hother _ fun he => hnp he.symm] at hy
    rw [hevent]
    exact h.pending y hy

end Link

/-! ## Unlinking an item -/

theorem uxListRemove_tcb_other (hy : y ≠ x) :
    (uxListRemove x st).tcb y = st.tcb y := by
  rw [uxListRemove]
  split
  · rfl
  · simp [hy]

theorem uxListRemove_container :
    ((uxListRemove x st).tcb x).pxContainer = none := by
  rw [uxListRemove]
  split
  · assumption
  · simp

theorem uxListRemove_sameJobs : SameJobs st (uxListRemove x st) := by
  rw [uxListRemove]
  split
  · exact SameJobs.refl st
  · next k _ =>
      exact { (SameJobs.modifyTcb rfl : SameJobs
        (st.setList k ((st.lists k).remove x))
        ((st.setList k ((st.lists k).remove x)).modifyTcb x
          fun t => { t with pxContainer := none })) with }

/-- The rest of the block: nothing but the container is written. -/
theorem uxListRemove_tcb :
    (uxListRemove x st).tcb x = { st.tcb x with pxContainer := none } := by
  rw [uxListRemove]
  split
  · next hc =>
      rw [← hc]
  · simp

theorem uxListRemove_current :
    (uxListRemove x st).pxCurrentTCB = st.pxCurrentTCB := by
  rw [uxListRemove]
  split <;> rfl

theorem WellLinked.uxListRemove (h : WellLinked created st) (hx : x ∈ created) :
    WellLinked created (uxListRemove x st) := by
  cases hc : (st.tcb x).pxContainer with
  | none =>
      have heq : FreeRtosSim.uxListRemove x st = st := by
        simp only [FreeRtosSim.uxListRemove, hc]
      rw [heq]
      exact h
  | some id =>
      have hid := h.container x hx id hc
      have hnp : id ≠ .pendingReady := fun he => by
        rw [he] at hid
        exact hid
      have heq : FreeRtosSim.uxListRemove x st =
          (st.setList id ((st.lists id).remove x)).modifyTcb x
            fun t => { t with pxContainer := none } := by
        simp only [FreeRtosSim.uxListRemove, hc]
      have hself : (FreeRtosSim.uxListRemove x st).lists id =
          (st.lists id).remove x := by simp [heq]
      have hother : ∀ k, k ≠ id →
          (FreeRtosSim.uxListRemove x st).lists k = st.lists k := fun k hk => by
        simp [heq, hk]
      refine
        { wellFormed := fun k => ?_, linked := fun k hk y => ?_
          container := fun y hy k hk => ?_, pending := fun y hy => ?_
          priority := fun y hy => ?_
          current := fun c hcur => h.current c (uxListRemove_current ▸ hcur)
          delayed := by rw [heq]; exact h.delayed }
      · by_cases hk : k = id
        · subst hk
          rw [hself]
          exact (h.wellFormed k).remove x
        · rw [hother k hk]
          exact h.wellFormed k
      · by_cases hy : y = x
        · subst hy
          rw [uxListRemove_container]
          refine iff_of_false (fun hm => ?_) (by simp)
          by_cases hkid : k = id
          · subst hkid
            rw [State.items, hself] at hm
            exact (h.wellFormed k).nodup.not_mem_erase hm
          · rw [State.items, hother k hkid] at hm
            have := ((h.linked k hk y).mp hm).2
            rw [hc, Option.some_inj] at this
            exact hkid this.symm
        · rw [uxListRemove_tcb_other hy]
          by_cases hkid : k = id
          · subst hkid
            rw [State.items, hself, CursorList.items_remove,
              List.mem_erase_of_ne hy]
            exact h.linked k hk y
          · rw [State.items, hother k hkid]
            exact h.linked k hk y
      · by_cases hyx : y = x
        · subst hyx
          rw [uxListRemove_container] at hk
          exact absurd hk (by simp)
        · rw [uxListRemove_tcb_other hyx] at hk
          exact h.container y hy k hk
      · rw [State.items, hother _ fun he => hnp he.symm] at hy
        have hold := h.pending y hy
        by_cases hyx : y = x
        · subst hyx
          rw [uxListRemove_tcb]
          exact hold
        · rw [uxListRemove_tcb_other hyx]
          exact hold
      · by_cases hyx : y = x
        · subst hyx
          rw [uxListRemove_tcb]
          exact h.priority y hy
        · rw [uxListRemove_tcb_other hyx]
          exact h.priority y hy

/-! ## Event items -/

theorem removeEventItem_sameJobs : SameJobs st (removeEventItem x st) :=
  { (SameJobs.modifyTcb rfl : SameJobs
      (st.setList .pendingReady ((st.lists .pendingReady).remove x))
      (removeEventItem x st)) with }

theorem insertPendingReady_sameJobs : SameJobs st (insertPendingReady x st) :=
  { (SameJobs.modifyTcb rfl : SameJobs
      (st.setList .pendingReady ((st.lists .pendingReady).insertEnd x))
      (insertPendingReady x st)) with }

/-- What the two event operations have in common: only `xPendingReadyList`
and the event item of `x` are written. -/
theorem WellLinked.eventItem (h : WellLinked created st)
    {l : CursorList TaskHandle} {b : Bool} (hl : l.WellFormed)
    (hpend : ∀ y ∈ l.items, y ∈ created ∧
      (if y = x then b else (st.tcb y).inEventList) = true) :
    WellLinked created ((st.setList .pendingReady l).modifyTcb x
      fun t => { t with inEventList := b }) := by
  have htcb : ∀ y, ((st.setList .pendingReady l).modifyTcb x
      fun t => { t with inEventList := b }).tcb y =
      { st.tcb y with
        inEventList := if y = x then b else (st.tcb y).inEventList } := by
    intro y
    by_cases hy : y = x
    · subst hy
      simp
    · simp [hy]
  have hother : ∀ k, k ≠ .pendingReady → ((st.setList .pendingReady l).modifyTcb x
      fun t => { t with inEventList := b }).lists k = st.lists k := fun k hk => by
    simp [hk]
  have hself : ((st.setList .pendingReady l).modifyTcb x
      fun t => { t with inEventList := b }).lists .pendingReady = l := by simp
  refine
    { wellFormed := fun k => ?_, linked := fun k hk y => ?_
      container := fun y hy k hc => ?_, pending := fun y hy => ?_
      priority := fun y hy => by rw [htcb]; exact h.priority y hy
      current := h.current
      delayed := h.delayed }
  · by_cases hk : k = .pendingReady
    · subst hk
      rw [hself]
      exact hl
    · rw [hother k hk]
      exact h.wellFormed k
  · rw [State.items, hother k hk, htcb]
    exact h.linked k hk y
  · rw [htcb] at hc
    exact h.container y hy k hc
  · rw [State.items, hself] at hy
    rw [htcb]
    exact hpend y hy

theorem WellLinked.removeEventItem (h : WellLinked created st) (x : TaskHandle) :
    WellLinked created (removeEventItem x st) := by
  refine h.eventItem ((h.wellFormed _).remove x) fun y hy => ?_
  obtain ⟨hne, hmem⟩ := (h.wellFormed .pendingReady).nodup.mem_erase_iff.mp hy
  rw [if_neg hne]
  exact h.pending y hmem

theorem WellLinked.insertPendingReady (h : WellLinked created st)
    (hx : x ∈ created) (hn : x ∉ st.items .pendingReady) :
    WellLinked created (insertPendingReady x st) := by
  refine h.eventItem ((h.wellFormed _).insertEnd hn) fun y hy => ?_
  by_cases hyx : y = x
  · subst hyx
    exact ⟨hx, if_pos rfl⟩
  · rw [if_neg hyx]
    exact h.pending y
      ((List.mem_cons.mp ((CursorList.perm_insertEnd _ x).mem_iff.mp hy)).resolve_left
        hyx)

theorem removeEventItem_container :
    ((removeEventItem x st).tcb y).pxContainer = (st.tcb y).pxContainer := by
  by_cases hy : y = x
  · subst hy
    simp [removeEventItem]
  · simp [removeEventItem, hy]

theorem insertPendingReady_container :
    ((insertPendingReady x st).tcb y).pxContainer = (st.tcb y).pxContainer := by
  by_cases hy : y = x
  · subst hy
    simp [insertPendingReady]
  · simp [insertPendingReady, hy]

/-! ## `prvAddTaskToReadyList` -/

/-- The list the macro puts a task into. Under RTO there is none for a task
that may miss its deadline, except at tick 0. -/
def readyTarget (alg : Algorithm) (tick : Nat) (b : TCB) : Option ListId :=
  if alg ≠ .rto ∨ b.xTaskPeriod = 0 ∨ b.weaklyHardConstraint = 0 ∨ mustMeet b then
    some (.ready b.uxPriority)
  else if tick = 0 then some .wait
  else none

/-- The macro has a branch for the task. -/
def HasBranch (alg : Algorithm) (tick : Nat) (b : TCB) : Prop :=
  alg ≠ .rto ∨ b.xTaskPeriod = 0 ∨ b.weaklyHardConstraint = 0 ∨
    mustMeet b = true ∨ tick = 0

theorem readyTarget_isSome {tick : Nat} {b : TCB} (h : HasBranch alg tick b) :
    readyTarget alg tick b ≠ none := by
  rw [readyTarget]
  split
  · simp
  · next hno =>
      rw [if_pos]
      · simp
      · unfold HasBranch at h
        tauto

/-- The task is put into the list, if there is one. -/
def Placed (target : Option ListId) (x : TaskHandle) (st st' : State) : Prop :=
  match target with
  | none => st' = st
  | some id => ∃ l, st' = link id l x st ∧ Adds st id x l

/-- What the macro writes before it links the item. -/
structure Prepared (x : TaskHandle) (st st' : State) : Prop where
  links : SameLinks st st'
  jobs : SameJobs st st'
  others : ∀ y, y ≠ x → st'.tcb y = st.tcb y

theorem prepared_record (p : Nat) : Prepared x st (taskRecordReadyPriority p st) :=
  ⟨⟨rfl, fun _ => rfl, fun _ => rfl, fun _ => rfl, rfl, rfl, rfl⟩,
    ⟨⟨rfl, rfl, rfl, rfl, rfl⟩, fun _ => rfl, rfl⟩, fun _ _ => rfl⟩

theorem prepared_setItemValue (p v : Nat) :
    Prepared x st (setItemValue x v (taskRecordReadyPriority p st)) := by
  have hsame : ∀ {β : Type} (g : TCB → β) (_ : ∀ b w, g { b with xItemValue := w } = g b)
      (y : TaskHandle),
      g ((setItemValue x v (taskRecordReadyPriority p st)).tcb y) = g (st.tcb y) := by
    intro β g hg y
    by_cases hy : y = x
    · subst hy
      simp [setItemValue, taskRecordReadyPriority, hg]
    · simp [setItemValue, taskRecordReadyPriority, hy]
  refine ⟨⟨rfl, hsame _ fun _ _ => rfl, hsame _ fun _ _ => rfl,
    hsame _ fun _ _ => rfl, rfl, rfl, rfl⟩, ⟨⟨rfl, rfl, rfl, rfl, rfl⟩,
    hsame _ fun _ _ => rfl, rfl⟩, fun y hy => ?_⟩
  simp [setItemValue, taskRecordReadyPriority, hy]

theorem placed_vListInsert (hw : ∀ id, (st.lists id).WellFormed)
    (h : Prepared x st st₁) :
    Placed (some id) x st₁ (vListInsert id x st₁) :=
  vListInsert_link (by rw [h.links.lists]; exact hw id)

theorem prvAddTaskToReadyList_placed (hw : ∀ id, (st.lists id).WellFormed)
    (alg : Algorithm) (x : TaskHandle) :
    ∃ st₁, Prepared x st st₁ ∧
      Placed (readyTarget alg st.xTickCount (st.tcb x)) x st₁
        (prvAddTaskToReadyList alg x st) := by
  have hrec : Prepared x st (taskRecordReadyPriority (st.tcb x).uxPriority st) :=
    prepared_record _
  have hset : ∀ v, Prepared x st
      (setItemValue x v (taskRecordReadyPriority (st.tcb x).uxPriority st)) :=
    prepared_setItemValue _
  cases alg with
  | edf =>
      rw [readyTarget, if_pos (Or.inl (by decide))]
      simp only [prvAddTaskToReadyList, prvAddTaskToReadyListEdf]
      split
      · exact ⟨_, hset _, placed_vListInsert hw (hset _)⟩
      · exact ⟨_, hrec, placed_vListInsert hw hrec⟩
  | bwp =>
      rw [readyTarget, if_pos (Or.inl (by decide))]
      simp only [prvAddTaskToReadyList, prvAddTaskToReadyListBwp]
      split
      · exact ⟨_, hset _, placed_vListInsert hw (hset _)⟩
      · split
        · exact ⟨_, hset _, placed_vListInsert hw (hset _)⟩
        · split
          · exact ⟨_, hset _, placed_vListInsert hw (hset _)⟩
          · exact ⟨_, hrec, placed_vListInsert hw hrec⟩
  | rto =>
      simp only [prvAddTaskToReadyList, prvAddTaskToReadyListRto]
      by_cases hp : (st.tcb x).xTaskPeriod = 0
      · rw [readyTarget, if_pos (Or.inr (Or.inl hp))]
        simp only [hp, ne_eq, not_true_eq_false, and_false, if_false, if_true]
        exact ⟨_, hrec, placed_vListInsert hw hrec⟩
      · by_cases h0 : (st.tcb x).weaklyHardConstraint = 0
        · rw [readyTarget, if_pos (Or.inr (Or.inr (Or.inl h0))), if_pos ⟨h0, hp⟩]
          exact ⟨_, hset _, placed_vListInsert hw (hset _)⟩
        · by_cases hm : mustMeet (st.tcb x) = true
          · rw [readyTarget, if_pos (Or.inr (Or.inr (Or.inr hm))),
              if_neg fun hc => h0 hc.1, if_pos ⟨hm, hp⟩]
            exact ⟨_, hset _, placed_vListInsert hw (hset _)⟩
          · rw [readyTarget, if_neg (by simp [hp, h0, hm])]
            by_cases ht : st.xTickCount = 0
            · have hwait : (taskRecordReadyPriority (st.tcb x).uxPriority
                  st).xTickCount = 0 ∧ (st.tcb x).xTaskPeriod ≠ 0 := ⟨ht, hp⟩
              rw [if_pos ht, if_neg fun hc => h0 hc.1, if_neg fun hc => hm hc.1,
                if_pos hwait]
              exact ⟨_, hrec, listInsertEnd_link (hw .wait)⟩
            · rw [if_neg ht, if_neg fun hc => h0 hc.1, if_neg fun hc => hm hc.1,
                if_neg fun hc => ht hc.1, if_neg hp]
              exact ⟨_, hrec, rfl⟩

/-- What the macro does to `x` and to the rest. -/
structure Readied (alg : Algorithm) (x : TaskHandle) (st st' : State) : Prop where
  container : (st'.tcb x).pxContainer = readyTarget alg st.xTickCount (st.tcb x)
  others : ∀ y, y ≠ x → st'.tcb y = st.tcb y
  jobs : SameJobs st st'
  event : ∀ y, (st'.tcb y).inEventList = (st.tcb y).inEventList
  priority : ∀ y, (st'.tcb y).uxPriority = (st.tcb y).uxPriority
  pendingReady : st'.lists .pendingReady = st.lists .pendingReady
  current : st'.pxCurrentTCB = st.pxCurrentTCB
  delayed : st'.pxDelayedTaskList = st.pxDelayedTaskList
  overflow : st'.pxOverflowDelayedTaskList = st.pxOverflowDelayedTaskList

theorem readyTarget_cases {tick : Nat} {b : TCB}
    (h : readyTarget alg tick b = some id) :
    id = .ready b.uxPriority ∨ id = .wait := by
  rw [readyTarget] at h
  split at h
  · exact Or.inl (Option.some_inj.mp h).symm
  · split at h
    · exact Or.inr (Option.some_inj.mp h).symm
    · exact absurd h (by simp)

theorem readyTarget_wait {tick : Nat} {b : TCB}
    (h : readyTarget alg tick b = some .wait) : b.xTaskPeriod ≠ 0 := by
  intro hp
  rw [readyTarget, if_pos (Or.inr (Or.inl hp))] at h
  exact absurd h (by simp)

theorem prvAddTaskToReadyList_readied (alg : Algorithm)
    (hw : ∀ id, (st.lists id).WellFormed) (hnone : (st.tcb x).pxContainer = none) :
    Readied alg x st (prvAddTaskToReadyList alg x st) := by
  obtain ⟨st₁, hpre, hplaced⟩ := prvAddTaskToReadyList_placed hw alg x
  cases htarget : readyTarget alg st.xTickCount (st.tcb x) with
  | none =>
      rw [htarget] at hplaced
      rw [show prvAddTaskToReadyList alg x st = st₁ from hplaced]
      exact
        { container := by rw [hpre.links.container, hnone, htarget]
          others := hpre.others
          jobs := hpre.jobs
          event := hpre.links.event
          priority := hpre.links.priority
          pendingReady := by rw [hpre.links.lists]
          current := hpre.links.current
          delayed := hpre.links.delayed
          overflow := hpre.links.overflow }
  | some id =>
      rw [htarget] at hplaced
      obtain ⟨l, heq, -⟩ := hplaced
      rw [heq]
      have hfield : ∀ {β : Type} (g : TCB → β)
          (_ : ∀ b c, g { b with pxContainer := c } = g b) (y : TaskHandle),
          g ((link id l x st₁).tcb y) = g (st₁.tcb y) := by
        intro β g hg y
        by_cases hy : y = x
        · subst hy
          simp [link, hg]
        · rw [link_tcb_other hy]
      exact
        { container := by rw [link_container_self, htarget]
          others := fun y hy => by rw [link_tcb_other hy, hpre.others y hy]
          jobs := hpre.jobs.trans link_sameJobs
          event := fun y => (hfield _ (fun _ _ => rfl) y).trans (hpre.links.event y)
          priority := fun y =>
            (hfield _ (fun _ _ => rfl) y).trans (hpre.links.priority y)
          pendingReady := by
            have hk : ListId.pendingReady ≠ id := by
              rcases readyTarget_cases htarget with rfl | rfl <;> simp
            rw [← hpre.links.lists]
            simp [link, hk]
          current := hpre.links.current
          delayed := hpre.links.delayed
          overflow := hpre.links.overflow }

theorem WellLinked.prvAddTaskToReadyList (h : WellLinked created st)
    (hx : x ∈ created) (hnone : (st.tcb x).pxContainer = none) :
    WellLinked created (prvAddTaskToReadyList alg x st) := by
  obtain ⟨st₁, hpre, hplaced⟩ := prvAddTaskToReadyList_placed h.wellFormed alg x
  have h₁ := h.congr hpre.links
  cases htarget : readyTarget alg st.xTickCount (st.tcb x) with
  | none =>
      rw [htarget] at hplaced
      rw [show FreeRtosSim.prvAddTaskToReadyList alg x st = st₁ from hplaced]
      exact h₁
  | some id =>
      rw [htarget] at hplaced
      obtain ⟨l, heq, hadds⟩ := hplaced
      rw [heq]
      refine h₁.link hx ((hpre.links.container x).trans hnone) ?_ hadds
      rcases readyTarget_cases htarget with rfl | rfl
      · exact h.priority x hx
      · trivial

/-- The macro writes one list at most. -/
theorem prvAddTaskToReadyList_lists (hw : ∀ id, (st.lists id).WellFormed)
    (hid : readyTarget alg st.xTickCount (st.tcb x) ≠ some id) :
    (prvAddTaskToReadyList alg x st).lists id = st.lists id := by
  obtain ⟨st₁, hpre, hplaced⟩ := prvAddTaskToReadyList_placed hw alg x
  rw [← hpre.links.lists]
  cases htarget : readyTarget alg st.xTickCount (st.tcb x) with
  | none =>
      rw [htarget] at hplaced
      rw [show prvAddTaskToReadyList alg x st = st₁ from hplaced]
  | some k =>
      rw [htarget] at hplaced hid
      obtain ⟨l, heq, -⟩ := hplaced
      have hk : id ≠ k := fun he => hid (he ▸ rfl)
      rw [heq]
      simp [link, hk]

/-! ## The moves -/

theorem uxListRemove_event : ((uxListRemove x st).tcb y).inEventList =
    (st.tcb y).inEventList := by
  by_cases hy : y = x
  · subst hy
    rw [uxListRemove_tcb]
  · rw [uxListRemove_tcb_other hy]

theorem uxListRemove_priority : ((uxListRemove x st).tcb y).uxPriority =
    (st.tcb y).uxPriority := by
  by_cases hy : y = x
  · subst hy
    rw [uxListRemove_tcb]
  · rw [uxListRemove_tcb_other hy]

theorem uxListRemove_lists (hid : (st.tcb x).pxContainer ≠ some id) :
    (uxListRemove x st).lists id = st.lists id := by
  rw [uxListRemove]
  split
  · rfl
  · next k hk =>
      have hne : id ≠ k := fun he => hid (he ▸ hk)
      simp [hne]

theorem uxListRemove_delayed :
    (uxListRemove x st).pxDelayedTaskList = st.pxDelayedTaskList ∧
    (uxListRemove x st).pxOverflowDelayedTaskList =
      st.pxOverflowDelayedTaskList := by
  rw [uxListRemove]
  split <;> exact ⟨rfl, rfl⟩

theorem uxListRemove_lists_self (hc : (st.tcb x).pxContainer = some id) :
    (uxListRemove x st).lists id = (st.lists id).remove x := by
  simp [uxListRemove, hc]

theorem WellLinked.not_pendingReady (h : WellLinked created st)
    (hx : x ∈ created) : (st.tcb x).pxContainer ≠ some .pendingReady :=
  fun hc => h.container x hx _ hc

theorem addTaskToReadyList_readied (alg : Algorithm) (h : WellLinked created st)
    (hx : x ∈ created) :
    Readied alg x st (addTaskToReadyList alg x st) := by
  have hr := prvAddTaskToReadyList_readied alg (h.uxListRemove hx).wellFormed
    uxListRemove_container
  have hjobs : SameJobs st (uxListRemove x st) := uxListRemove_sameJobs
  exact
    { container := by
        rw [addTaskToReadyList, hr.container, hjobs.tick, uxListRemove_tcb]
        rfl
      others := fun y hy => (hr.others y hy).trans (uxListRemove_tcb_other hy)
      jobs := hjobs.trans hr.jobs
      event := fun y => (hr.event y).trans uxListRemove_event
      priority := fun y => (hr.priority y).trans uxListRemove_priority
      pendingReady :=
        hr.pendingReady.trans (uxListRemove_lists (h.not_pendingReady hx))
      current := hr.current.trans uxListRemove_current
      delayed := hr.delayed.trans uxListRemove_delayed.1
      overflow := hr.overflow.trans uxListRemove_delayed.2 }

theorem WellLinked.addTaskToReadyList (h : WellLinked created st)
    (hx : x ∈ created) : WellLinked created (addTaskToReadyList alg x st) :=
  (h.uxListRemove hx).prvAddTaskToReadyList hx uxListRemove_container

/-- The task is lost only where the macro has no list for it. -/
theorem Readied.unlost (h : Readied alg x st st₁)
    (hkeep : HasBranch alg st.xTickCount (st.tcb x)) : Unlost st st₁ := by
  intro y hy
  by_cases hyx : y = x
  · subst hyx
    rw [h.container] at hy
    exact absurd hy (readyTarget_isSome hkeep)
  · rwa [h.others y hyx] at hy

theorem addTaskToWaitList_link (h : WellLinked created st) (hx : x ∈ created) :
    ∃ l, addTaskToWaitList x st = link .wait l x (uxListRemove x st) ∧
      Adds (uxListRemove x st) .wait x l :=
  listInsertEnd_link ((h.uxListRemove hx).wellFormed .wait)

theorem WellLinked.addTaskToWaitList (h : WellLinked created st)
    (hx : x ∈ created) : WellLinked created (addTaskToWaitList x st) := by
  obtain ⟨l, heq, hadds⟩ := addTaskToWaitList_link h hx
  rw [heq]
  exact (h.uxListRemove hx).link hx uxListRemove_container trivial hadds

theorem addTaskToWaitList_tcb (h : WellLinked created st) (hx : x ∈ created) :
    (addTaskToWaitList x st).tcb x = { st.tcb x with pxContainer := some .wait } := by
  obtain ⟨l, heq, -⟩ := addTaskToWaitList_link h hx
  rw [heq]
  simp [link, uxListRemove_tcb]

theorem addTaskToWaitList_tcb_other (hy : y ≠ x) :
    (addTaskToWaitList x st).tcb y = st.tcb y := by
  rw [addTaskToWaitList, listInsertEnd, State.modifyTcb_tcb, State.setList_tcb,
    Function.update_of_ne hy, uxListRemove_tcb_other hy]

theorem addTaskToWaitList_lists (hid : id ≠ .wait)
    (hc : (st.tcb x).pxContainer = some id) :
    (addTaskToWaitList x st).lists id = (st.lists id).remove x := by
  rw [← uxListRemove_lists_self hc]
  simp [addTaskToWaitList, listInsertEnd, hid]

theorem addTaskToWaitList_pendingReady
    (hc : (st.tcb x).pxContainer ≠ some .pendingReady) :
    (addTaskToWaitList x st).lists .pendingReady = st.lists .pendingReady := by
  rw [← uxListRemove_lists hc]
  simp [addTaskToWaitList, listInsertEnd]

theorem addTaskToWaitList_sameJobs (h : WellLinked created st) (hx : x ∈ created) :
    SameJobs st (addTaskToWaitList x st) := by
  obtain ⟨l, heq, -⟩ := addTaskToWaitList_link h hx
  rw [heq]
  exact uxListRemove_sameJobs.trans link_sameJobs

/-- The list a released task goes to is known. -/
theorem addTaskToReadyList_lists (h : WellLinked created st) (hx : x ∈ created)
    (hc : (st.tcb x).pxContainer = some id)
    (hid : readyTarget alg st.xTickCount (st.tcb x) ≠ some id) :
    (addTaskToReadyList alg x st).lists id = (st.lists id).remove x := by
  rw [addTaskToReadyList, prvAddTaskToReadyList_lists (h.uxListRemove hx).wellFormed,
    uxListRemove_lists_self hc]
  rw [uxListRemove_sameJobs.tick, uxListRemove_tcb]
  exact hid

end FreeRtosSim
