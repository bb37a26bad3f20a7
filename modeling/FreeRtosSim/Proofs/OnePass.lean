import FreeRtosSim.Proofs.Filtered
import FreeRtosSim.Proofs.Linkage

/-!
# The list walks are one-pass filters

The result about the links: from any two well-formed lists
`pxReadyTasksLists[1]` and `xWaitTaskList`, whatever their `pxIndex`, each of
`killTasks` and `wakeTasks` has every task of the list it walks in hand once,
takes out those it is to take out, and leaves both lists well formed. Two
lists are all that is assumed about the memory, so the sequences they stand
for are put into a `State` of their own, where `Proofs.Filtered` says what
the passes do; `Proofs.Linkage` brings it back to the links.
-/

namespace FreeRtosSim

open RingMemory

variable {created ready wait xs : List TaskHandle} {K : ListId → Prop}
  {alg : Algorithm} {s : LinkedState} {st : State} {x : TaskHandle} {id : ListId}

/-- The list `id` has the members `xs`: the links of neighbours are inverse to
each other all around, the counter is the length, `pxIndex` is on a member or
on the end marker, and every member's item says it is in the list. -/
structure LinkedState.WellFormedList (s : LinkedState) (id : ListId)
    (xs : List TaskHandle) : Prop where
  nodup : xs.Nodup
  linked : RingMemory.Linked s.mem (.marker id) xs (.marker id)
  count : s.mem.count id = xs.length
  index : OnRing id xs (s.mem.index id)
  container : ∀ x ∈ xs, (s.tcb x).pxContainer = some id

theorem LinkedState.WellFormedList.inverse (h : s.WellFormedList id xs)
    {n : RingNode ListId TaskHandle} (hn : OnRing id xs n) :
    s.mem.prev (s.mem.next n) = n ∧ s.mem.next (s.mem.prev n) = n :=
  h.linked.inverse hn

/-- The sequence of a list in memory. -/
def LinkedState.sequence (s : LinkedState) (id : ListId) (xs : List TaskHandle) :
    CursorList TaskHandle :=
  ⟨xs, owner (s.mem.index id), s.mem.count id⟩

theorem LinkedState.WellFormedList.cursor (h : s.WellFormedList id xs) :
    s.mem.index id = cursorNode id (s.sequence id xs).index := by
  rcases h.index with he | ⟨x, -, he⟩
  · rw [LinkedState.sequence, he]
    rfl
  · rw [LinkedState.sequence, he]
    rfl

theorem LinkedState.WellFormedList.ring (h : s.WellFormedList id xs) :
    Ring s.mem id (s.sequence id xs) ∧ (s.sequence id xs).WellFormed := by
  refine ⟨⟨h.linked, h.cursor, rfl⟩, h.nodup, h.count, fun x hx => ?_⟩
  have hidx : s.mem.index id = .item x := by
    rw [h.cursor, hx]
    rfl
  rcases h.index with he | ⟨y, hy, he⟩
  · rw [hidx] at he
    exact absurd he (by simp)
  · rw [hidx] at he
    exact RingNode.item.inj he ▸ hy

/-- And back: a list that is represented is well formed. -/
theorem Represents.wellFormedList (h : Represents created K s st) (hK : K id) :
    s.WellFormedList id (st.items id) where
  nodup := (h.mem.wellFormed id hK).nodup
  linked := (h.mem.ring id hK).linked
  count := by
    rw [(h.mem.ring id hK).count, (h.mem.wellFormed id hK).counted]
  index := by
    rw [(h.mem.ring id hK).index]
    cases hi : (st.lists id).index with
    | none => exact Or.inl rfl
    | some x => exact Or.inr ⟨x, (h.mem.wellFormed id hK).cursor x hi, rfl⟩
  container x hx := by
    rw [h.tcb]
    exact (h.member id hK x hx).2

/-! ## The state of two lists -/

/-- The two lists the passes are about. -/
def PassList (id : ListId) : Prop := id = .ready 1 ∨ id = .wait

/-- The kernel's state with these two lists and no other. -/
def LinkedState.twoLists (s : LinkedState) (ready wait : List TaskHandle) : State where
  tcb := s.tcb
  lists := Function.update (Function.update (fun _ => CursorList.empty) (.ready 1)
    (s.sequence (.ready 1) ready)) .wait (s.sequence .wait wait)
  pxCurrentTCB := none
  pxDelayedTaskList := .delayed1
  pxOverflowDelayedTaskList := .delayed2
  uxCurrentNumberOfTasks := 0
  xTickCount := s.xTickCount
  uxTopReadyPriority := s.uxTopReadyPriority
  xSchedulerRunning := true
  uxSchedulerSuspended := 0
  xPendedTicks := 0
  xYieldPending := false
  xNextTaskUnblockTime := 0
  sim := s.sim
  console := []

theorem twoLists_ready : (s.twoLists ready wait).lists (.ready 1) =
    s.sequence (.ready 1) ready := by
  simp [LinkedState.twoLists]

theorem twoLists_wait : (s.twoLists ready wait).lists .wait =
    s.sequence .wait wait := by
  simp [LinkedState.twoLists]

theorem twoLists_other (h : ¬ PassList id) :
    (s.twoLists ready wait).lists id = CursorList.empty := by
  rw [PassList, not_or] at h
  simp [LinkedState.twoLists, h.1, h.2]

/-- Two well-formed lists of tasks of priority 1. -/
structure LinkedState.TwoLists (s : LinkedState) (ready wait : List TaskHandle) :
    Prop where
  readyList : s.WellFormedList (.ready 1) ready
  waitList : s.WellFormedList .wait wait
  priority : ∀ x ∈ ready ++ wait, (s.tcb x).uxPriority = 1
  value : ∀ x ∈ ready ++ wait, (s.tcb x).xItemValue ≤ portMaxDelay

namespace LinkedState.TwoLists

theorem passList (h : s.TwoLists ready wait) (hx : x ∈ ready ++ wait)
    (hc : (s.tcb x).pxContainer = some id) : PassList id := by
  rcases List.mem_append.mp hx with hx | hx
  · rw [h.readyList.container x hx, Option.some_inj] at hc
    exact Or.inl hc.symm
  · rw [h.waitList.container x hx, Option.some_inj] at hc
    exact Or.inr hc.symm

theorem items (h : s.TwoLists ready wait) (id : ListId) (x : TaskHandle) :
    x ∈ (s.twoLists ready wait).items id ↔
      x ∈ ready ++ wait ∧ (s.tcb x).pxContainer = some id := by
  rw [State.items]
  by_cases hid : PassList id
  · rcases hid with rfl | rfl
    · rw [twoLists_ready]
      refine ⟨fun hx => ⟨List.mem_append_left _ hx, h.readyList.container x hx⟩, ?_⟩
      rintro ⟨hx, hc⟩
      rcases List.mem_append.mp hx with hx | hx
      · exact hx
      · rw [h.waitList.container x hx] at hc
        exact absurd hc (by simp)
    · rw [twoLists_wait]
      refine ⟨fun hx => ⟨List.mem_append_right _ hx, h.waitList.container x hx⟩, ?_⟩
      rintro ⟨hx, hc⟩
      rcases List.mem_append.mp hx with hx | hx
      · rw [h.readyList.container x hx] at hc
        exact absurd hc (by simp)
      · exact hx
  · rw [twoLists_other hid]
    exact ⟨fun hx => absurd hx List.not_mem_nil,
      fun hx => absurd (h.passList hx.1 hx.2) hid⟩

theorem wellFormed (h : s.TwoLists ready wait) (id : ListId) :
    ((s.twoLists ready wait).lists id).WellFormed := by
  by_cases hid : PassList id
  · rcases hid with rfl | rfl
    · rw [twoLists_ready]
      exact h.readyList.ring.2
    · rw [twoLists_wait]
      exact h.waitList.ring.2
  · rw [twoLists_other hid]
    exact CursorList.WellFormed.empty

theorem wellLinked (h : s.TwoLists ready wait) :
    WellLinked (ready ++ wait) (s.twoLists ready wait) where
  wellFormed := h.wellFormed
  linked id _ x := h.items id x
  container x hx id hc := by
    rcases h.passList hx hc with rfl | rfl
    · exact (by decide : (1 : Nat) < configMaxPriorities)
    · exact trivial
  pending x hx := by
    have hno : ¬ PassList .pendingReady := by simp [PassList]
    rw [State.items, twoLists_other hno] at hx
    exact absurd hx List.not_mem_nil
  priority x hx := by
    rw [show ((s.twoLists ready wait).tcb x).uxPriority = 1 from h.priority x hx]
    decide
  current c hc := absurd hc (by simp [LinkedState.twoLists])
  delayed := Or.inl ⟨rfl, rfl⟩

theorem represents (h : s.TwoLists ready wait) :
    Represents (ready ++ wait) PassList s (s.twoLists ready wait) where
  tcb := rfl
  tick := rfl
  top := rfl
  sim := rfl
  mem := by
    refine ⟨fun k hk => ?_, fun k _ => h.wellFormed k, fun k k' hk hk' hne x hx hx' => ?_⟩
    · rcases hk with rfl | rfl
      · rw [twoLists_ready]
        exact h.readyList.ring.1
      · rw [twoLists_wait]
        exact h.waitList.ring.1
    · have hc := ((h.items k x).mp hx).2
      rw [((h.items k' x).mp hx').2, Option.some_inj] at hc
      exact hne hc.symm
  member k _ x hx := (h.items k x).mp hx
  value := h.value
  ready x hx := by
    rw [show ((s.twoLists ready wait).tcb x).uxPriority = 1 from h.priority x hx]
    exact Or.inl rfl

end LinkedState.TwoLists

/-! ## The passes -/

/-- `( xTaskGetTickCount() % Tcb->xTaskPeriod ) == 0`, and RTO does not skip
the job. -/
def LinkedState.wakes (alg : Algorithm) (s : LinkedState) (x : TaskHandle) : Bool :=
  decide (s.xTickCount % (s.tcb x).xTaskPeriod = 0 ∧ ¬ passedOver alg (s.tcb x))

/-- What `killTasks` is to do with the two lists. -/
structure KillsOnce (s : LinkedState) (ready wait : List TaskHandle) : Prop where
  visits : s.killNodes = ready.map .item
  kept : s.killTasks.WellFormedList (.ready 1) (ready.filter fun x => !s.hopeless x)
  moved : ∃ pre post, wait = pre ++ post ∧
    s.mem.index .wait = firstNode post (.marker .wait) ∧
    s.killTasks.WellFormedList .wait (pre ++ ready.filter s.hopeless ++ post)

/-- What `wakeTasks` is to do with them. -/
structure WakesOnce (alg : Algorithm) (s : LinkedState)
    (ready wait : List TaskHandle) : Prop where
  visits : s.wakeNodes alg = wait.map .item
  kept : (s.wakeTasks alg).WellFormedList .wait (wait.filter fun x => !s.wakes alg x)
  moved : ∃ ready', (s.wakeTasks alg).WellFormedList (.ready 1) ready' ∧
    ready'.Perm (wait.filter (s.wakes alg) ++ ready) ∧ List.Sublist ready ready' ∧
    SortedByKey (fun x => ((s.wakeTasks alg).tcb x).xItemValue) ready'

namespace LinkedState.TwoLists

theorem killsOnce (h : s.TwoLists ready wait) : KillsOnce s ready wait := by
  have hl := h.wellLinked
  have hrep := h.represents.killTasks (Or.inl rfl) (Or.inr rfl)
  have hready : (s.twoLists ready wait).items (.ready 1) = ready :=
    congrArg CursorList.items twoLists_ready
  have hwait : (s.twoLists ready wait).items .wait = wait :=
    congrArg CursorList.items twoLists_wait
  have hhope : ∀ x ∈ ready, decide (isHopeless (s.twoLists ready wait).xTickCount
      ((s.twoLists ready wait).tcb x)) = s.hopeless x := by
    intro x hx
    have hp := h.priority x (List.mem_append_left _ hx)
    show decide (isHopeless s.xTickCount (s.tcb x)) = s.hopeless x
    simp [isHopeless, LinkedState.hopeless, hp]
  -- where the cursor of the wait list is
  obtain ⟨pre, post, hitems, hindex⟩ : ∃ pre post, wait = pre ++ post ∧
      (s.sequence .wait wait).index = post.head? := by
    cases hi : (s.sequence .wait wait).index with
    | none => exact ⟨wait, [], by simp, rfl⟩
    | some y =>
        obtain ⟨pre, post, hw⟩ := List.append_of_mem (h.waitList.ring.2.cursor y hi)
        exact ⟨pre, y :: post, hw, rfl⟩
  have hkept : s.killTasks.WellFormedList (.ready 1) _ := hrep.wellFormedList (Or.inl rfl)
  have hmoved : s.killTasks.WellFormedList .wait _ := hrep.wellFormedList (Or.inr rfl)
  rw [killTasks_ready_items hl, hready] at hkept
  rw [killTasks_wait_items hl (hwait.trans hitems)
    (by rw [twoLists_wait]; exact hindex), hready] at hmoved
  refine ⟨?_, ?_, pre, post, hitems, ?_, ?_⟩
  · have hnodes := h.represents.killNodes hl (Or.inl rfl) (Or.inr rfl)
    rwa [hready] at hnodes
  · rwa [List.filter_congr fun x hx => congrArg (!·) (hhope x hx)] at hkept
  · rw [h.waitList.cursor, hindex, cursorNode_head?]
  · rwa [List.filter_congr hhope] at hmoved

theorem wakesOnce (h : s.TwoLists ready wait) (alg : Algorithm)
    (hsorted : SortedByKey (fun x => (s.tcb x).xItemValue) ready) :
    WakesOnce alg s ready wait := by
  have hl := h.wellLinked
  have hrep : Represents (ready ++ wait) PassList (s.wakeTasks alg)
      (FreeRtosSim.wakeTasks alg (s.twoLists ready wait)) := h.represents.wakeTasks (Or.inr rfl)
  have hready : (s.twoLists ready wait).items (.ready 1) = ready :=
    congrArg CursorList.items twoLists_ready
  have hwait : (s.twoLists ready wait).items .wait = wait :=
    congrArg CursorList.items twoLists_wait
  have hwakes : ∀ x ∈ wait, decide (isReleased alg (s.twoLists ready wait).xTickCount
      ((s.twoLists ready wait).tcb x)) = s.wakes alg x := by
    intro x hx
    have hp := h.priority x (List.mem_append_right _ hx)
    show decide (isReleased alg s.xTickCount (s.tcb x)) = s.wakes alg x
    simp [isReleased, isDue, LinkedState.wakes, hp]
  have hkept : (s.wakeTasks alg).WellFormedList .wait _ :=
    hrep.wellFormedList (Or.inr rfl)
  have hmoved : (s.wakeTasks alg).WellFormedList (.ready 1) _ :=
    hrep.wellFormedList (Or.inl rfl)
  have hprio : ∀ x ∈ (s.twoLists ready wait).items .wait,
      ((s.twoLists ready wait).tcb x).uxPriority = 1 := by
    rw [hwait]
    exact fun x hx => h.priority x (List.mem_append_right _ hx)
  rw [wakeTasks_wait_items hl, hwait,
    List.filter_congr fun x hx => congrArg (!·) (hwakes x hx)] at hkept
  rw [wakeTasks_ready_items hl alg hprio h.value, hready, hwait,
    List.filter_congr hwakes] at hmoved
  refine ⟨?_, hkept, _, hmoved, perm_insertAllByKey _ _ _, sublist_insertAllByKey _ _ _, ?_⟩
  · have hnodes : s.wakeNodes alg = _ := h.represents.wakeNodes hl (Or.inr rfl)
    rwa [hwait] at hnodes
  · rw [hrep.tcb]
    refine (hsorted.congr fun x hx => ?_).insertAllByKey
    -- the keys of the tasks that were ready are not written
    have hno : x ∉ (s.twoLists ready wait).items .wait := by
      intro hw
      have hc := ((h.items _ x).mp hw).2
      rw [h.readyList.container x hx] at hc
      exact absurd hc (by simp)
    rw [wakeTasks_tcb hl, if_neg hno]
    rfl

end LinkedState.TwoLists

/-- Both walks, from any two well-formed lists of tasks of priority 1 whose
values are `TickType_t` values. -/
theorem list_walks_one_pass (hready : s.WellFormedList (.ready 1) ready)
    (hwait : s.WellFormedList .wait wait)
    (hsorted : SortedByKey (fun x => (s.tcb x).xItemValue) ready)
    (htask : ∀ x ∈ ready ++ wait,
      (s.tcb x).uxPriority = 1 ∧ 1 ≤ (s.tcb x).xTaskPeriod)
    (hvalue : ∀ x ∈ ready ++ wait, (s.tcb x).xItemValue ≤ portMaxDelay) :
    KillsOnce s ready wait ∧ ∀ alg, WakesOnce alg s ready wait := by
  have h : s.TwoLists ready wait :=
    ⟨hready, hwait, fun x hx => (htask x hx).1, hvalue⟩
  exact ⟨h.killsOnce, fun alg => h.wakesOnce alg hsorted⟩

/-- Empty lists: every end marker points to itself. -/
def LinkedState.empty (tcb : TaskHandle → TCB) (xTickCount : Nat) : LinkedState where
  mem := ⟨fun n => n, fun n => n, .marker, fun _ => 0⟩
  tcb := tcb
  xTickCount := xTickCount
  uxTopReadyPriority := 1
  sim := hardTask.simulator

/-- At tick 8 the job of task 0 is hopeless, that of task 1 is not, and task 2
waits for its release. Both cursors are on a task. -/
def sampleLinks : LinkedState :=
  let tcb : TaskHandle → TCB := fun x =>
    { zeroTcb with
      xTaskId := x
      uxPriority := 1
      xTaskPeriod := if x = 2 then 4 else 8
      xTaskDuration := 2
      xRemainingTicks := 2
      startTime := if x = 0 then 1 else 4
      xItemValue := if x = 0 then 8 else 12 }
  let s := (LinkedState.empty tcb 8).vListInsert (.ready 1) 1
  let s := (s.vListInsert (.ready 1) 0).listInsertEnd .wait 2
  let s := s.setMem (s.mem.nextEntry (.ready 1)).2
  s.setMem (s.mem.nextEntry .wait).2

theorem list_walks_one_pass_sample : KillsOnce sampleLinks [0, 1] [2] ∧
    ∀ alg, WakesOnce alg sampleLinks [0, 1] [2] :=
  list_walks_one_pass
    ⟨by decide, ⟨rfl, rfl, rfl, rfl, rfl, rfl⟩, rfl, Or.inr ⟨0, by decide, rfl⟩, by decide⟩
    ⟨by decide, ⟨rfl, rfl, rfl, rfl⟩, rfl, Or.inr ⟨2, by decide, rfl⟩, by decide⟩
    (by simp [SortedByKey, sampleLinks]; decide) (by decide) (by decide)

end FreeRtosSim
