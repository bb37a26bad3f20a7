import FreeRtosSim.Proofs.Graded

/-!
# What the functions for mutexes change

Lending a priority, taking it back and counting the mutexes each touch one
task: its priority, its fields and, when it is ready, the list it is in. For
each function of `Kernel.Mutex` there is a lemma here that says so and what the
task has afterwards, and the proofs about runs use these and not the functions.
-/

namespace FreeRtosSim

variable {created : List TaskHandle} {alg : Algorithm} {st st₁ : State}
  {x y h c : TaskHandle} {p : Nat} {k k' : MutexKernel} {m : MutexHandle}

/-! ## The lists -/

theorem uxListRemove_setPriority :
    uxListRemove x (setPriority x p st) = setPriority x p (uxListRemove x st) := by
  rw [uxListRemove, uxListRemove]
  have hc : ((setPriority x p st).tcb x).pxContainer = (st.tcb x).pxContainer := by
    simp [setPriority]
  rw [hc]
  cases (st.tcb x).pxContainer with
  | none => rfl
  | some id => simp [setPriority, State.modifyTcb, State.setList]

/-- `x` has the priority `p` now and is in the list for it if it is ready. -/
structure Lent (created : List TaskHandle) (x : TaskHandle) (p : Nat)
    (st st' : State) : Prop where
  settled : Settled created st'
  homed : Homed created st'
  priority : ∀ y, (st'.tcb y).uxPriority =
    if y = x then p else (st.tcb y).uxPriority
  current : st'.pxCurrentTCB = st.pxCurrentTCB

theorem setPriority_priority (y : TaskHandle) :
    ((setPriority x p st).tcb y).uxPriority =
      if y = x then p else (st.tcb y).uxPriority := by
  by_cases hy : y = x
  · subst hy
    simp [setPriority]
  · simp [setPriority, hy]

section Lend

variable (hs : Settled created st) (hh : Homed created st) (hx : x ∈ created)
  (hp : p < configMaxPriorities)

include hs hh hx hp

/-- Out of the ready list of the old priority and into the other one. -/
theorem lent_ready (alg : Algorithm) : Lent created x p st
    (prvAddTaskToReadyList alg x (setPriority x p (uxListRemove x st))) := by
  have hset : Moved created True st (setPriority x p st) :=
    setPriority_moved hs.linked hp
  have heq : prvAddTaskToReadyList alg x (setPriority x p (uxListRemove x st)) =
      addTaskToReadyList alg x (setPriority x p st) := by
    rw [addTaskToReadyList, uxListRemove_setPriority]
  have hl := hset.linked
  have hr := addTaskToReadyList_readied alg hl hx
  rw [heq]
  exact
    { settled := (hset.trans (readyList_moved alg hl hx)).settled hs
      homed := by
        refine hh.place (fun y hy => ?_) fun q hc => hr.home q hc
        rw [hr.others y hy]
        simp [setPriority, hy]
      priority := fun y => (hr.priority y).trans (setPriority_priority y)
      current := hr.current }

theorem lent_elsewhere
    (hc : (st.tcb x).pxContainer ≠ some (.ready (st.tcb x).uxPriority)) :
    Lent created x p st (setPriority x p st) where
  settled := (setPriority_moved hs.linked hp).settled hs
  homed := by
    refine hh.place (x := x) (fun y hy => by simp [setPriority, hy])
      fun q hq => ?_
    have hq' : (st.tcb x).pxContainer = some (.ready q) := by
      simpa [setPriority] using hq
    rw [hh x hx q hq'] at hc
    exact absurd hq' hc
  priority := setPriority_priority
  current := rfl

theorem lent_either : Lent created x p st
    (if (st.tcb x).pxContainer = some (.ready (st.tcb x).uxPriority) then
      prvAddTaskToReadyList alg x (setPriority x p (uxListRemove x st))
    else setPriority x p st) := by
  split
  · exact lent_ready hs hh hx hp alg
  · next hc => exact lent_elsewhere hs hh hx hp hc

end Lend

/-! ## The functions of `tasks.c` -/

namespace MutexKernel

/-- Only the priority and the fields of `x` differ. -/
structure Touches (created : List TaskHandle) (x : TaskHandle)
    (k k' : MutexKernel) : Prop where
  settled : Settled created k'.st
  homed : Homed created k'.st
  mutex : k'.mutex = k.mutex
  current : k'.st.pxCurrentTCB = k.st.pxCurrentTCB
  priority : ∀ y, y ≠ x → (k'.st.tcb y).uxPriority = (k.st.tcb y).uxPriority
  fields : ∀ y, y ≠ x → k'.fields y = k.fields y

@[simp] theorem modifyFields_self {f : MutexFields → MutexFields} :
    (k.modifyFields x f).fields x = f (k.fields x) := by simp [modifyFields]

theorem modifyFields_of_ne {f : MutexFields → MutexFields} (hy : y ≠ x) :
    (k.modifyFields x f).fields y = k.fields y := by simp [modifyFields, hy]

@[simp] theorem modifyFields_st {f : MutexFields → MutexFields} :
    (k.modifyFields x f).st = k.st := rfl

@[simp] theorem modifyFields_mutex {f : MutexFields → MutexFields} :
    (k.modifyFields x f).mutex = k.mutex := rfl

@[simp] theorem resetEventItemValue_st :
    (k.resetEventItemValue x p).st = k.st := by
  rw [resetEventItemValue]
  split <;> rfl

@[simp] theorem resetEventItemValue_mutex :
    (k.resetEventItemValue x p).mutex = k.mutex := by
  rw [resetEventItemValue]
  split <;> rfl

theorem resetEventItemValue_of_ne (hy : y ≠ x) :
    (k.resetEventItemValue x p).fields y = k.fields y := by
  rw [resetEventItemValue]
  split
  · exact modifyFields_of_ne hy
  · rfl

theorem resetEventItemValue_base :
    ((k.resetEventItemValue x p).fields x).uxBasePriority =
      (k.fields x).uxBasePriority := by
  rw [resetEventItemValue]
  split
  · rw [modifyFields_self]
  · rfl

theorem resetEventItemValue_held :
    ((k.resetEventItemValue x p).fields x).uxMutexesHeld =
      (k.fields x).uxMutexesHeld := by
  rw [resetEventItemValue]
  split
  · rw [modifyFields_self]
  · rfl

theorem resetEventItemValue_with :
    ({ k with st := st }).resetEventItemValue x p =
      { k.resetEventItemValue x p with st := st } := by
  rw [resetEventItemValue, resetEventItemValue]
  split <;> rfl

theorem resetEventItemValue_pos (hp : p < configMaxPriorities)
    (hv : 1 ≤ (k.fields x).xEventItemValue) :
    1 ≤ ((k.resetEventItemValue x p).fields x).xEventItemValue := by
  rw [resetEventItemValue]
  split
  · rw [modifyFields_self]
    exact Nat.sub_pos_of_lt hp
  · exact hv

/-- The task has the priority `p` for the time being. -/
structure Lends (created : List TaskHandle) (x : TaskHandle) (p : Nat)
    (k k' : MutexKernel) : Prop extends Touches created x k k' where
  lent : (k'.st.tcb x).uxPriority = p
  base : (k'.fields x).uxBasePriority = (k.fields x).uxBasePriority
  held : (k'.fields x).uxMutexesHeld = (k.fields x).uxMutexesHeld
  pos : 1 ≤ (k.fields x).xEventItemValue → 1 ≤ (k'.fields x).xEventItemValue

/-- A new state for the task and its event item. -/
theorem Lends.write (hp : p < configMaxPriorities)
    (hlent : Lent created x p k.st st) :
    Lends created x p k { k.resetEventItemValue x p with st := st } := by
  have hself : (st.tcb x).uxPriority = p := by rw [hlent.priority, if_pos rfl]
  refine ⟨⟨hlent.settled, hlent.homed, resetEventItemValue_mutex, hlent.current,
    fun y hy => ?_, fun y hy => resetEventItemValue_of_ne hy⟩, hself,
    resetEventItemValue_base, resetEventItemValue_held, resetEventItemValue_pos hp⟩
  rw [hlent.priority, if_neg hy]

section Functions

variable (hs : Settled created k.st) (hh : Homed created k.st)

include hs hh

theorem Lends.refl : Lends created x (k.st.tcb x).uxPriority k k :=
  ⟨⟨hs, hh, rfl, rfl, fun _ _ => rfl, fun _ _ => rfl⟩, rfl, rfl, rfl, id⟩

/-- The holder has the higher of the two priorities. -/
theorem inherit_lends (alg : Algorithm) (hx : h ∈ created)
    (hcur : k.st.pxCurrentTCB = some c) :
    Lends created h (max (k.st.tcb h).uxPriority (k.st.tcb c).uxPriority) k
      (k.xTaskPriorityInherit alg (some h)).2 := by
  have hc : c ∈ created := hs.linked.current c (by rw [hcur]; rfl)
  simp only [xTaskPriorityInherit, hcur]
  split
  · next hlt =>
      rw [Nat.max_eq_right (Nat.le_of_lt hlt)]
      simp only [resetEventItemValue_st]
      have hp := hs.linked.priority c hc
      exact .write hp (lent_either hs hh hx hp)
  · next hle =>
      rw [Nat.max_eq_left (Nat.not_lt.mp hle)]
      exact .refl hs hh

/-- The task that gives a mutex back has its own priority when it was the last
one. -/
theorem disinherit_spec {b : Bool}
    (hbase : (k.fields x).uxBasePriority < configMaxPriorities)
    (hok : k.xTaskPriorityDisinherit alg (some x) = some (b, k')) :
    Touches created x k k' ∧ (k.fields x).uxMutexesHeld ≠ 0 ∧
      (k'.fields x).uxMutexesHeld = (k.fields x).uxMutexesHeld - 1 ∧
      (k'.fields x).uxBasePriority = (k.fields x).uxBasePriority ∧
      (k'.st.tcb x).uxPriority =
        (if (k.fields x).uxMutexesHeld = 1 then (k.fields x).uxBasePriority
        else (k.st.tcb x).uxPriority) ∧
      (1 ≤ (k.fields x).xEventItemValue → 1 ≤ (k'.fields x).xEventItemValue) := by
  simp only [xTaskPriorityDisinherit, modifyFields_self, modifyFields_st,
    Option.ite_none_right_eq_some] at hok
  obtain ⟨⟨hcur, hheld⟩, hok⟩ := hok
  have hx : x ∈ created := hs.linked.current x (by rw [hcur]; rfl)
  split at hok
  · next hlast =>
      simp only [Option.some.injEq, Prod.mk.injEq] at hok
      obtain ⟨-, rfl⟩ := hok
      have hlent := lent_ready hs hh hx hbase alg
      have hself := hlent.priority x
      rw [if_pos rfl] at hself
      refine ⟨⟨hlent.settled, hlent.homed, rfl, hlent.current, fun y hy => ?_,
        fun y hy => ?_⟩, hheld, ?_, ?_, ?_, fun _ => ?_⟩
      · rw [hlent.priority, if_neg hy]
      · rw [modifyFields_of_ne hy, modifyFields_of_ne hy]
      · rw [modifyFields_self, modifyFields_self]
      · rw [modifyFields_self, modifyFields_self]
      · rw [if_pos (by omega)]
        exact hself
      · rw [modifyFields_self, modifyFields_self]
        exact Nat.sub_pos_of_lt hbase
  · next hnot =>
      simp only [Option.some.injEq, Prod.mk.injEq] at hok
      obtain ⟨-, rfl⟩ := hok
      refine ⟨⟨hs, hh, rfl, rfl, fun _ _ => rfl, fun y hy => modifyFields_of_ne hy⟩,
        hheld, ?_, ?_, ?_, fun hv => ?_⟩
      · rw [modifyFields_self]
      · rw [modifyFields_self]
      · split
        · by_contra hne
          exact hnot ⟨fun he => hne he, by omega⟩
        · rfl
      · rwa [modifyFields_self]

/-- After a timeout the holder of one mutex has what the first of the remaining
tasks lends it. -/
theorem timeout_lends {q : Nat} (hx : h ∈ created)
    (hbase : (k.fields h).uxBasePriority < configMaxPriorities)
    (hq : q < configMaxPriorities)
    (hok : k.vTaskPriorityDisinheritAfterTimeout alg (some h) q = some k') :
    Lends created h
      (if (k.fields h).uxMutexesHeld = 1 then max (k.fields h).uxBasePriority q
      else (k.st.tcb h).uxPriority) k k' := by
  have hmax : (if (k.fields h).uxBasePriority < q then q
      else (k.fields h).uxBasePriority) = max (k.fields h).uxBasePriority q := by
    split <;> omega
  simp only [vTaskPriorityDisinheritAfterTimeout, hmax,
    Option.ite_none_right_eq_some] at hok
  obtain ⟨-, hok⟩ := hok
  split at hok
  · next hchange =>
      simp only [Option.ite_none_right_eq_some] at hok
      obtain ⟨-, hok⟩ := hok
      rw [if_pos hchange.2]
      have hp := Nat.max_lt.mpr ⟨hbase, hq⟩
      have hcont : ((setPriority h (max (k.fields h).uxBasePriority q)
          k.st).tcb h).pxContainer = (k.st.tcb h).pxContainer := by
        simp [setPriority]
      simp only [resetEventItemValue_with, hcont, uxListRemove_setPriority] at hok
      split at hok
      · cases hok
        exact .write hp (lent_ready hs hh hx hp alg)
      · next hc =>
          cases hok
          exact .write hp (lent_elsewhere hs hh hx hp hc)
  · next hsame =>
      cases hok
      have hp : (if (k.fields h).uxMutexesHeld = 1 then
          max (k.fields h).uxBasePriority q else (k.st.tcb h).uxPriority) =
          (k.st.tcb h).uxPriority := by
        split
        · next hone => exact (of_not_not fun hne => hsame ⟨hne, hone⟩).symm
        · rfl
      rw [hp]
      exact .refl hs hh

omit hs hh in
/-- The fields do not depend on the lists. -/
theorem prioritySetLists_eq
    (hst : st = if (k.fields x).uxBasePriority = (k.st.tcb x).uxPriority then
      setPriority x p k.st else k.st) :
    k.prioritySetLists alg x p =
      { (k.modifyFields x fun t => { t with uxBasePriority := p }).resetEventItemValue
          x p with
        st := if (st.tcb x).pxContainer = some (.ready (k.st.tcb x).uxPriority) then
          prvAddTaskToReadyList alg x (uxListRemove x st) else st } := by
  have hfields : (({ k with st := st } : MutexKernel).modifyFields x
      fun t => { t with uxBasePriority := p }).resetEventItemValue x p =
      { (k.modifyFields x fun t => { t with uxBasePriority := p }).resetEventItemValue
        x p with st := st } :=
    resetEventItemValue_with (k := k.modifyFields x fun t =>
      { t with uxBasePriority := p })
  simp only [prioritySetLists, ← hst, hfields]
  split <;> rfl

/-- An inherited priority stays when the base priority is set. -/
theorem prioritySet_spec (alg : Algorithm) (hx : x ∈ created)
    (hp : p < configMaxPriorities) :
    Touches created x k (k.prioritySetLists alg x p) ∧
      ((k.prioritySetLists alg x p).fields x).uxBasePriority = p ∧
      ((k.prioritySetLists alg x p).fields x).uxMutexesHeld =
        (k.fields x).uxMutexesHeld ∧
      ((k.prioritySetLists alg x p).st.tcb x).uxPriority =
        (if (k.fields x).uxBasePriority = (k.st.tcb x).uxPriority then p
        else (k.st.tcb x).uxPriority) ∧
      (1 ≤ (k.fields x).xEventItemValue →
        1 ≤ ((k.prioritySetLists alg x p).fields x).xEventItemValue) := by
  have hlent : ∃ st, Lent created x
      (if (k.fields x).uxBasePriority = (k.st.tcb x).uxPriority then p
        else (k.st.tcb x).uxPriority) k.st st ∧
      k.prioritySetLists alg x p =
        { (k.modifyFields x fun t => { t with uxBasePriority := p }).resetEventItemValue
            x p with st := st } := by
    have hcont : ((setPriority x p k.st).tcb x).pxContainer =
        (k.st.tcb x).pxContainer := by simp [setPriority]
    rw [prioritySetLists_eq rfl]
    split
    · simp only [hcont, uxListRemove_setPriority]
      split
      · exact ⟨_, lent_ready hs hh hx hp alg, rfl⟩
      · next hc => exact ⟨_, lent_elsewhere hs hh hx hp hc, rfl⟩
    · split
      · have hr := addTaskToReadyList_readied alg hs.linked hx
        refine ⟨addTaskToReadyList alg x k.st, ⟨?_, ?_, fun y => ?_, hr.current⟩, rfl⟩
        · exact (readyList_moved alg hs.linked hx).settled hs
        · exact hh.addTaskToReadyList hs.linked hx
        · split
          · next hy => rw [hr.priority, hy]
          · exact hr.priority y
      · refine ⟨k.st, ⟨hs, hh, fun y => ?_, rfl⟩, rfl⟩
        split
        · next hy => rw [hy]
        · rfl
  obtain ⟨st, hlent, heq⟩ := hlent
  have hself := hlent.priority x
  rw [if_pos rfl] at hself
  rw [heq]
  refine ⟨⟨hlent.settled, hlent.homed, resetEventItemValue_mutex, hlent.current,
    fun y hy => ?_, fun y hy => ?_⟩, ?_, ?_, hself, fun hv => ?_⟩
  · rw [hlent.priority, if_neg hy]
  · exact (resetEventItemValue_of_ne hy).trans (modifyFields_of_ne hy)
  · exact resetEventItemValue_base.trans (by rw [modifyFields_self])
  · exact resetEventItemValue_held.trans (by rw [modifyFields_self])
  · exact resetEventItemValue_pos hp (by rwa [modifyFields_self])

end Functions

end MutexKernel

end FreeRtosSim
