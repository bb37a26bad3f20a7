import FreeRtosSim.Proofs.Passes

/-!
# The key a task is released with

The three macros compute the item value in different branches. `macroKey` is
the value itself, as a function of the block and the tick, and for a task the
macro has a ready list for everything it does is then one state: the value
written, the item inserted by it. With that the two passes of a tick are
described to the last field, keys included, where `Proofs.Passes` leaves the
keys open.
-/

namespace FreeRtosSim

variable {created : List TaskHandle} {alg : Algorithm} {st st₁ : State}
  {x y : TaskHandle} {id : ListId} {t : Nat} {b : TCB}

/-- The item value the macro gives a task it puts into a ready list. -/
def macroKey (alg : Algorithm) (tick : Nat) (b : TCB) : Nat :=
  if b.xTaskPeriod = 0 then b.xItemValue
  else
    match alg with
    | .edf => deadlineValue b.xTaskPeriod tick
    | .rto => deadlineValue b.xTaskPeriod tick
    | .bwp =>
        if b.weaklyHardConstraint = 0 ∨ mustMeet b = true then
          deadlineValue b.xTaskPeriod tick ||| bit31
        else deadlineValue b.xTaskPeriod tick ||| bit31 ||| bit30

theorem deadlineValue_le (p t : Nat) : deadlineValue p t ≤ portMaxDelay := by
  rw [deadlineValue, tickSub, portMaxDelay]
  omega

/-- The bits of BWP stay within the `TickType_t`. -/
theorem bwpValue_le (p t : Nat) :
    deadlineValue p t ||| bit31 ≤ portMaxDelay ∧
      deadlineValue p t ||| bit31 ||| bit30 ≤ portMaxDelay := by
  have hle := deadlineValue_le p t
  have hlt : portMaxDelay < 2 ^ 64 := by decide
  have h₁ := Nat.or_lt_two_pow (Nat.lt_of_le_of_lt hle hlt) (show bit31 < 2 ^ 64 by decide)
  have h₂ := Nat.or_lt_two_pow h₁ (show bit30 < 2 ^ 64 by decide)
  rw [portMaxDelay]
  omega

theorem macroKey_le (h : b.xItemValue ≤ portMaxDelay) :
    macroKey alg t b ≤ portMaxDelay := by
  have hb := bwpValue_le b.xTaskPeriod t
  simp only [macroKey]
  split
  · exact h
  · cases alg with
    | edf => exact deadlineValue_le _ _
    | rto => exact deadlineValue_le _ _
    | bwp =>
        dsimp only
        split
        · exact hb.1
        · exact hb.2

/-- The ready list with `x` inserted by the key `v`. -/
def keyedList (st : State) (p : Nat) (v : Nat) (x : TaskHandle) :
    CursorList TaskHandle :=
  if v = portMaxDelay then (st.lists (.ready p)).append x
  else (st.lists (.ready p)).insertSorted
    (fun y => if y = x then v else (st.tcb y).xItemValue) x

/-- `x` put into the ready list of its priority with the key `v`. -/
def keyedState (x : TaskHandle) (v : Nat) (st : State) : State :=
  let p := (st.tcb x).uxPriority
  { taskRecordReadyPriority p st with
    lists := Function.update st.lists (.ready p) (keyedList st p v x)
    tcb := Function.update st.tcb x
      { st.tcb x with xItemValue := v, pxContainer := some (.ready p) } }

theorem vListInsert_keyed (x : TaskHandle) (v : Nat) (st : State) :
    vListInsert (.ready (st.tcb x).uxPriority) x
      (setItemValue x v (taskRecordReadyPriority (st.tcb x).uxPriority st)) =
        keyedState x v st := by
  have hkey : (fun y => ((setItemValue x v
      (taskRecordReadyPriority (st.tcb x).uxPriority st)).tcb y).xItemValue) =
      fun y => if y = x then v else (st.tcb y).xItemValue := by
    funext y
    by_cases hy : y = x
    · subst hy
      simp [setItemValue]
    · simp [setItemValue, taskRecordReadyPriority, hy]
  have hself : ((setItemValue x v
      (taskRecordReadyPriority (st.tcb x).uxPriority st)).tcb x).xItemValue = v := by
    simp [setItemValue]
  rw [vListInsert, hkey, hself]
  simp [keyedState, keyedList, setItemValue, taskRecordReadyPriority,
    State.modifyTcb, State.setList]

/-- A macro that writes no value leaves the one that is there. -/
theorem vListInsert_unkeyed (x : TaskHandle) (st : State) :
    vListInsert (.ready (st.tcb x).uxPriority) x
      (taskRecordReadyPriority (st.tcb x).uxPriority st) =
        keyedState x (st.tcb x).xItemValue st := by
  rw [← vListInsert_keyed]
  congr 1
  simp [setItemValue, taskRecordReadyPriority, State.modifyTcb]

/-- The macro on a task it has a ready list for. -/
theorem prvAddTaskToReadyList_keyed
    (h : readyTarget alg st.xTickCount (st.tcb x) =
      some (.ready (st.tcb x).uxPriority)) :
    prvAddTaskToReadyList alg x st =
      keyedState x (macroKey alg st.xTickCount (st.tcb x)) st := by
  have htick : (taskRecordReadyPriority (st.tcb x).uxPriority st).xTickCount =
      st.xTickCount := rfl
  by_cases hp : (st.tcb x).xTaskPeriod = 0
  · have hkey : macroKey alg st.xTickCount (st.tcb x) = (st.tcb x).xItemValue :=
      if_pos hp
    rw [hkey, ← vListInsert_unkeyed]
    cases alg with
    | edf => simp [prvAddTaskToReadyList, prvAddTaskToReadyListEdf, hp]
    | bwp => simp [prvAddTaskToReadyList, prvAddTaskToReadyListBwp, hp]
    | rto => simp [prvAddTaskToReadyList, prvAddTaskToReadyListRto, hp]
  · rw [← vListInsert_keyed]
    simp only [macroKey, if_neg hp]
    cases alg with
    | edf =>
        simp only [prvAddTaskToReadyList, prvAddTaskToReadyListEdf, if_pos hp, htick]
    | bwp =>
        simp only [prvAddTaskToReadyList, prvAddTaskToReadyListBwp, hp, ne_eq,
          not_false_eq_true, and_true, if_true, htick]
        by_cases h0 : (st.tcb x).weaklyHardConstraint = 0
        · simp [h0]
        · by_cases hm : mustMeet (st.tcb x) = true
          · simp [h0, hm]
          · simp [h0, hm]
    | rto =>
        simp only [prvAddTaskToReadyList, prvAddTaskToReadyListRto, hp, ne_eq,
          not_false_eq_true, and_true, htick]
        by_cases h0 : (st.tcb x).weaklyHardConstraint = 0
        · simp [h0]
        · by_cases hm : mustMeet (st.tcb x) = true
          · simp [h0, hm]
          · rw [readyTarget, if_neg (by simp [hp, h0, hm])] at h
            split at h <;> exact absurd h (by simp)

section Keyed

variable {v : Nat}

theorem keyedState_tcb : (keyedState x v st).tcb x =
    { st.tcb x with
      xItemValue := v, pxContainer := some (.ready (st.tcb x).uxPriority) } := by
  simp [keyedState]

theorem keyedState_lists : (keyedState x v st).lists
    (.ready (st.tcb x).uxPriority) = keyedList st (st.tcb x).uxPriority v x := by
  simp [keyedState]

theorem keyedState_lists_other (hid : id ≠ .ready (st.tcb x).uxPriority) :
    (keyedState x v st).lists id = st.lists id := by
  simp [keyedState, hid]

end Keyed

/-- The list a released task leaves and the one it enters. -/
theorem addTaskToReadyList_keyed
    (h : readyTarget alg st.xTickCount (st.tcb x) =
      some (.ready (st.tcb x).uxPriority)) :
    addTaskToReadyList alg x st =
      keyedState x (macroKey alg st.xTickCount (st.tcb x)) (uxListRemove x st) := by
  have htcb : (uxListRemove x st).tcb x = { st.tcb x with pxContainer := none } :=
    uxListRemove_tcb
  have htick : (uxListRemove x st).xTickCount = st.xTickCount :=
    uxListRemove_sameJobs.tick
  have htarget : readyTarget alg (uxListRemove x st).xTickCount
      ((uxListRemove x st).tcb x) =
        some (.ready ((uxListRemove x st).tcb x).uxPriority) := by
    rw [htick, htcb]
    exact h
  rw [addTaskToReadyList, prvAddTaskToReadyList_keyed htarget, htick, htcb]
  rfl

/-! ## The blocks after the passes, keys included -/

/-- What `wakeTasks` makes of the block of a waiting task. -/
def wokenTcb (alg : Algorithm) (tick : Nat) (b : TCB) : TCB :=
  if isDue tick b then
    if passedOver alg b then
      { b with
        xRemainingTicks := b.xTaskDuration, startTime := tick
        previousDeadlineMet := 0 }
    else
      { b with
        xRemainingTicks := b.xTaskDuration, startTime := tick
        xItemValue := macroKey alg tick b
        pxContainer := some (.ready b.uxPriority) }
  else b

/-- The task `wakeTasks` releases goes into the ready list of its priority. -/
theorem wakeBody_released
    (hd : isDue st.xTickCount (st.tcb x)) (hl : ¬ passedOver alg (st.tcb x)) :
    wakeBody alg x st =
      keyedState x (macroKey alg st.xTickCount (st.tcb x))
        (uxListRemove x (renewed x st)) := by
  have htcb : (renewed x st).tcb x = { st.tcb x with
      xRemainingTicks := (st.tcb x).xTaskDuration, startTime := st.xTickCount } := by
    simp [renewed]
  have htarget : readyTarget alg (renewed x st).xTickCount ((renewed x st).tcb x) =
      some (.ready ((renewed x st).tcb x).uxPriority) := by
    refine readyTarget_of_released ?_
    rw [htcb]
    exact hl
  rw [wakeBody_eq_cases, if_pos hd, if_neg hl,
    addTaskToReadyList_keyed htarget, htcb]
  rfl

theorem wakeBody_tcb :
    (wakeBody alg x st).tcb x = wokenTcb alg st.xTickCount (st.tcb x) := by
  by_cases hd : isDue st.xTickCount (st.tcb x)
  · by_cases hl : passedOver alg (st.tcb x)
    · rw [wokenTcb, if_pos hd, if_pos hl, wakeBody_eq_cases, if_pos hd, if_pos hl]
      simp [renewed]
    · rw [wokenTcb, if_pos hd, if_neg hl, wakeBody_released hd hl, keyedState_tcb,
        uxListRemove_tcb]
      simp [renewed]
  · rw [wokenTcb, if_neg hd, wakeBody_eq_cases, if_neg hd]

/-- What `killTasks` makes of the block of a task in ready list 1, the key
stays. -/
theorem killBody_tcb (h : WellLinked created st) (hx : x ∈ created) :
    (killBody x st).tcb x = killBlock st.xTickCount (st.tcb x) := by
  by_cases hh : isHopeless st.xTickCount (st.tcb x)
  · obtain ⟨sim, heq⟩ := killBody_killed hh
    have hlinks : SameLinks st ({ st with sim := sim }.modifyTcb x fun b =>
        { b with previousDeadlineMet := 0 }) := by
      refine ⟨rfl, fun y => ?_, fun y => ?_, fun y => ?_, rfl, rfl, rfl⟩ <;>
        by_cases hy : y = x <;> simp [hy]
    rw [killBlock, if_pos hh, heq, addTaskToWaitList_tcb (h.congr hlinks) hx]
    simp
  · rw [killBlock, if_neg hh, killBody_kept hh]

/-- The lists a killed task has nothing to do with. -/
theorem killBody_lists (hc : (st.tcb x).pxContainer ≠ some id) (hid : id ≠ .wait) :
    (killBody x st).lists id = st.lists id := by
  by_cases hh : isHopeless st.xTickCount (st.tcb x)
  · obtain ⟨sim, heq⟩ := killBody_killed hh
    rw [heq, addTaskToWaitList, listInsertEnd, State.modifyTcb_lists,
      State.setList_lists, Function.update_of_ne hid, uxListRemove_lists]
    · rfl
    · simpa using hc
  · rw [killBody_kept hh]

/-! ## The passes -/

section Pass

variable {body : TaskHandle → State → State} {f g : TCB → TCB}

/-- A body that is known to the last field of the block. -/
def TcbBody (created : List TaskHandle) (id : ListId) (t : Nat)
    (body : TaskHandle → State → State) (g : TCB → TCB) : Prop :=
  ∀ st x, WellLinked created st → st.xTickCount = t → x ∈ st.items id →
    (body x st).tcb x = g (st.tcb x)

theorem PassBody.pointwise_tcb (hb : PassBody created id t body f)
    (hg : TcbBody created id t body g) (hid : id ≠ .pendingReady) :
    PointwiseStep (fun s x => s.tcb x) (visitList id body) (fun _ => g)
      (fun s => WellLinked created s ∧ s.xTickCount = t)
      (fun x b => x ∈ created ∧ b.pxContainer = some id) where
  inv s x hs hx := (hb.pointwise hid).inv s x hs hx
  self s x hs hx := by
    have hmem := (hs.1.linked id hid x).mpr hx
    exact hg _ x (hs.1.setIndex fun _ hy => Option.some_inj.mp hy ▸ hmem) hs.2
      (by rw [setIndex_items]; exact hmem)
  other s x y hs hx hy :=
    (hb.visit hs.1 hs.2 ((hs.1.linked id hid x).mpr hx)).others y hy

theorem walkList_tcb (hb : PassBody created id t body f)
    (hg : TcbBody created id t body g) (hid : id ≠ .pendingReady)
    (h : WellLinked created st) (ht : st.xTickCount = t) (y : TaskHandle) :
    (walkList id body st).tcb y =
      if y ∈ st.items id then g (st.tcb y) else st.tcb y := by
  rw [walkList_eq_foldl hb h ht]
  exact (hb.pointwise_tcb hg hid).foldl_obs _ st (h.wellFormed id).nodup ⟨h, ht⟩
    (fun x hx => (h.linked id hid x).mp hx) y

end Pass

theorem killTasks_tcb (h : WellLinked created st) (y : TaskHandle) :
    (killTasks st).tcb y = if y ∈ st.items (.ready 1) then
      killBlock st.xTickCount (st.tcb y) else st.tcb y := by
  refine walkList_tcb killBody_pass (fun s x hs ht hx => ?_) (by simp) h rfl y
  rw [killBody_tcb hs ((hs.linked _ (by simp) x).mp hx).1, ht]

end FreeRtosSim
