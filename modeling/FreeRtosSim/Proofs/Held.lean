import FreeRtosSim.Proofs.Advance
import FreeRtosSim.Proofs.Lent

/-!
# Who holds which mutex

The count of a mutex, its holder, the numbers of mutexes held and the lent
priorities are written in different places and at different times. This is how
they fit together in every run, however the calls of the tasks interleave: a
mutex is free or one task holds it, `uxMutexesHeld` is the number of mutexes a
task holds, and a task that holds none has its own priority.

`Accounted` is the part about the kernel, `Orderly` adds where the tasks are in
their calls.
-/

namespace FreeRtosSim

variable {created : List TaskHandle} {alg : Algorithm} {st st₁ : State}
  {x y h c : TaskHandle} {p : Nat} {k k' : MutexKernel} {m : MutexHandle}
  {mutexes : Finset MutexHandle} {recursive : MutexHandle → Bool}

namespace MutexKernel

/-- The mutexes that `x` holds. -/
def heldBy (mutexes : Finset MutexHandle) (x : TaskHandle) (k : MutexKernel) :
    Finset MutexHandle :=
  mutexes.filter fun m => (k.mutex m).xMutexHolder = some x

/-- A mutex is free, or a task holds it. -/
def FreeOrHeld (created : List TaskHandle) (mutex : Mutex) : Prop :=
  mutex.queue.uxMessagesWaiting = 1 ∧ mutex.xMutexHolder = none ∨
    mutex.queue.uxMessagesWaiting = 0 ∧ ∃ x ∈ created, mutex.xMutexHolder = some x

structure Accounted (mutexes : Finset MutexHandle) (created : List TaskHandle)
    (k : MutexKernel) : Prop where
  settled : Settled created k.st
  homed : Homed created k.st
  base : ∀ x ∈ created, (k.fields x).uxBasePriority < configMaxPriorities
  length : ∀ m ∈ mutexes, (k.mutex m).queue.uxLength = 1
  size : ∀ m ∈ mutexes, (k.mutex m).queue.uxItemSize = 0
  free : ∀ m ∈ mutexes, FreeOrHeld created (k.mutex m)
  held : ∀ x ∈ created, (k.fields x).uxMutexesHeld = (k.heldBy mutexes x).card
  own : ∀ x ∈ created, (k.fields x).uxMutexesHeld = 0 →
    (k.st.tcb x).uxPriority = (k.fields x).uxBasePriority
  listed : ∀ m ∈ mutexes, ∀ y ∈ k.waiting m, y ∈ created
  item : ∀ x ∈ created, 1 ≤ (k.fields x).xEventItemValue

theorem mem_heldBy : m ∈ k.heldBy mutexes x ↔
    m ∈ mutexes ∧ (k.mutex m).xMutexHolder = some x := Finset.mem_filter

theorem heldBy_congr
    (hh : ∀ m ∈ mutexes, (k'.mutex m).xMutexHolder = some x ↔
      (k.mutex m).xMutexHolder = some x) :
    k'.heldBy mutexes x = k.heldBy mutexes x := Finset.filter_congr hh

@[simp] theorem setMutex_self {mutex : Mutex} :
    (k.setMutex m mutex).mutex m = mutex := by simp [setMutex]

theorem setMutex_of_ne {mutex : Mutex} {n : MutexHandle} (hn : n ≠ m) :
    (k.setMutex m mutex).mutex n = k.mutex n := by simp [setMutex, hn]

@[simp] theorem setMutex_fields {mutex : Mutex} :
    (k.setMutex m mutex).fields = k.fields := rfl

namespace Accounted

variable (hk : Accounted mutexes created k)

include hk

/-- A mutex with its item is free. -/
theorem holder_of_count (hm : m ∈ mutexes)
    (hc : (k.mutex m).queue.uxMessagesWaiting ≠ 0) :
    (k.mutex m).queue.uxMessagesWaiting = 1 ∧ (k.mutex m).xMutexHolder = none :=
  (hk.free m hm).resolve_right fun hr => hc hr.1

theorem count_of_holder (hm : m ∈ mutexes)
    (hh : (k.mutex m).xMutexHolder = some x) :
    (k.mutex m).queue.uxMessagesWaiting = 0 ∧ x ∈ created := by
  rcases hk.free m hm with ⟨-, hn⟩ | ⟨hc, y, hy, hs⟩
  · exact absurd (hn.symm.trans hh) (by simp)
  · exact ⟨hc, Option.some.inj (hs.symm.trans hh) ▸ hy⟩

theorem held_ne_zero (hm : m ∈ mutexes)
    (hh : (k.mutex m).xMutexHolder = some x) : (k.fields x).uxMutexesHeld ≠ 0 := by
  rw [hk.held x (hk.count_of_holder hm hh).2]
  exact Finset.card_ne_zero.mpr ⟨m, mem_heldBy.mpr ⟨hm, hh⟩⟩

/-- Only the state, the priorities and the fields differ. -/
theorem change (hset : Settled created k'.st) (hhome : Homed created k'.st)
    (hmutex : k'.mutex = k.mutex)
    (hbase : ∀ x ∈ created, (k'.fields x).uxBasePriority < configMaxPriorities)
    (hheld : ∀ x ∈ created,
      (k'.fields x).uxMutexesHeld = (k.fields x).uxMutexesHeld)
    (hown : ∀ x ∈ created, (k.fields x).uxMutexesHeld = 0 →
      (k'.st.tcb x).uxPriority = (k'.fields x).uxBasePriority)
    (hitem : ∀ x ∈ created, 1 ≤ (k'.fields x).xEventItemValue) :
    Accounted mutexes created k' where
  settled := hset
  homed := hhome
  base := hbase
  length := hmutex ▸ hk.length
  size := hmutex ▸ hk.size
  free := hmutex ▸ hk.free
  held x hx := by
    rw [hheld x hx, hk.held x hx, heldBy, heldBy, hmutex]
  own x hx hz := hown x hx ((hheld x hx).symm.trans hz)
  listed m hm y hy := hk.listed m hm y (by rwa [waiting, hmutex] at hy)
  item := hitem

/-- A loan to a task that holds a mutex. -/
theorem lend (hl : Lends created h p k k') (hh : (k.fields h).uxMutexesHeld ≠ 0) :
    Accounted mutexes created k' := by
  refine hk.change hl.settled hl.homed hl.mutex (fun x hx => ?_) (fun x hx => ?_)
    (fun x hx hz => ?_) fun x hx => ?_
  · by_cases hxh : x = h
    · subst hxh
      exact hl.base ▸ hk.base x hx
    · exact hl.fields x hxh ▸ hk.base x hx
  · by_cases hxh : x = h
    · subst hxh
      exact hl.held
    · rw [hl.fields x hxh]
  · have hxh : x ≠ h := fun he => hh (he ▸ hz)
    rw [hl.priority x hxh, hl.fields x hxh]
    exact hk.own x hx hz
  · by_cases hxh : x = h
    · subst hxh
      exact hl.pos (hk.item x hx)
    · exact hl.fields x hxh ▸ hk.item x hx

/-- Another state of the kernel with the same priorities. -/
theorem move (hset : Settled created st) (hhome : Homed created st)
    (hp : SamePriorities k.st st) : Accounted mutexes created { k with st := st } :=
  hk.change hset hhome rfl hk.base (fun _ _ => rfl)
    (fun x hx hz => (hp x).trans (hk.own x hx hz)) hk.item

/-- A mutex is written but its count and its holder. -/
theorem write {mutex : Mutex}
    (hlen : mutex.queue.uxLength = (k.mutex m).queue.uxLength)
    (hsize : mutex.queue.uxItemSize = (k.mutex m).queue.uxItemSize)
    (hcount : mutex.queue.uxMessagesWaiting = (k.mutex m).queue.uxMessagesWaiting)
    (hholder : mutex.xMutexHolder = (k.mutex m).xMutexHolder)
    (hlisted : ∀ y ∈ mutex.queue.xTasksWaitingToReceive, y ∈ created) :
    Accounted mutexes created (k.setMutex m mutex) := by
  have hsame : ∀ {β : Type} (g : Mutex → β), g mutex = g (k.mutex m) →
      ∀ n, g ((k.setMutex m mutex).mutex n) = g (k.mutex n) := by
    intro β g hg n
    by_cases hn : n = m
    · subst hn
      rw [setMutex_self, hg]
    · rw [setMutex_of_ne hn]
  have hhold := hsame Mutex.xMutexHolder hholder
  refine ⟨hk.settled, hk.homed, hk.base, fun n hn => ?_, fun n hn => ?_,
    fun n hn => ?_, fun x hx => ?_, hk.own, fun n hn y hy => ?_, hk.item⟩
  · exact (hsame (fun b => b.queue.uxLength) hlen n).trans (hk.length n hn)
  · exact (hsame (fun b => b.queue.uxItemSize) hsize n).trans (hk.size n hn)
  · have hcnt := hsame (fun b => b.queue.uxMessagesWaiting) hcount n
    have hfree := hk.free n hn
    rw [FreeOrHeld] at hfree ⊢
    rw [hhold n]
    simp only [hcnt]
    exact hfree
  · exact (hk.held x hx).trans (congrArg Finset.card
      (heldBy_congr fun n _ => by rw [hhold n]).symm)
  · by_cases hnm : n = m
    · subst hnm
      rw [waiting, setMutex_self] at hy
      exact hlisted y hy
    · rw [waiting, setMutex_of_ne hnm] at hy
      exact hk.listed n hn y hy

theorem count (f : Nat → Nat) (hm : m ∈ mutexes) :
    Accounted mutexes created (k.countCalls m f) :=
  hk.write rfl rfl rfl rfl (hk.listed m hm)

end Accounted

/-! ## Taking and giving -/

/-- Who holds `m` is written, and nothing else about holders. -/
def Hands (m : MutexHandle) (o : Option TaskHandle) (k k' : MutexKernel) : Prop :=
  ∀ n, (k'.mutex n).xMutexHolder = if n = m then o else (k.mutex n).xMutexHolder

theorem hands_setMutex {mutex : Mutex} :
    Hands m mutex.xMutexHolder k (k.setMutex m mutex) := by
  intro n
  by_cases hn : n = m
  · subst hn
    rw [setMutex_self, if_pos rfl]
  · rw [setMutex_of_ne hn, if_neg hn]

theorem Hands.other {o : Option TaskHandle} (h : Hands m o k k') {n : MutexHandle}
    (hn : n ≠ m) : (k'.mutex n).xMutexHolder = (k.mutex n).xMutexHolder := by
  rw [h, if_neg hn]

theorem Hands.self {o : Option TaskHandle} (h : Hands m o k k') :
    (k'.mutex m).xMutexHolder = o := by rw [h, if_pos rfl]

/-- Of the tasks only the old and the new holder are concerned. -/
theorem Hands.others {o : Option TaskHandle} (h : Hands m o k k') (ho : o ≠ some y)
    (hold : (k.mutex m).xMutexHolder ≠ some y) (n : MutexHandle) :
    (k'.mutex n).xMutexHolder = some y ↔ (k.mutex n).xMutexHolder = some y := by
  by_cases hn : n = m
  · subst hn
    rw [h.self]
    exact iff_of_false ho hold
  · rw [h.other hn]

/-- `uxRecursiveCallCount` is as before. -/
def SameCalls (k k' : MutexKernel) : Prop :=
  ∀ n, (k'.mutex n).uxRecursiveCallCount = (k.mutex n).uxRecursiveCallCount

theorem sameCalls_setMutex {mutex : Mutex}
    (hcalls : mutex.uxRecursiveCallCount = (k.mutex m).uxRecursiveCallCount) :
    SameCalls k (k.setMutex m mutex) := by
  intro n
  by_cases hn : n = m
  · subst hn
    rw [setMutex_self, hcalls]
  · rw [setMutex_of_ne hn]

theorem holder_setWaiting {l : List TaskHandle} (n : MutexHandle) :
    ((k.setWaiting m l).mutex n).xMutexHolder = (k.mutex n).xMutexHolder := by
  by_cases hn : n = m
  · subst hn
    simp [setWaiting]
  · simp [setWaiting, setMutex_of_ne hn]

theorem sameCalls_setWaiting {l : List TaskHandle} :
    SameCalls k (k.setWaiting m l) := sameCalls_setMutex rfl

theorem heldBy_take (h : Hands m (some x) k k') (hm : m ∈ mutexes) :
    k'.heldBy mutexes x = insert m (k.heldBy mutexes x) := by
  ext n
  rw [Finset.mem_insert, mem_heldBy, mem_heldBy]
  by_cases hn : n = m
  · subst hn
    exact iff_of_true ⟨hm, h.self⟩ (Or.inl rfl)
  · rw [h.other hn]
    exact ⟨Or.inr, fun hor => hor.resolve_left hn⟩

theorem heldBy_give (h : Hands m none k k') :
    k'.heldBy mutexes x = (k.heldBy mutexes x).erase m := by
  ext n
  rw [Finset.mem_erase, mem_heldBy, mem_heldBy]
  by_cases hn : n = m
  · subst hn
    exact iff_of_false (fun hr => absurd (h.self.symm.trans hr.2) (by simp))
      fun hr => hr.1 rfl
  · rw [h.other hn]
    exact ⟨fun hr => ⟨hn, hr⟩, And.right⟩

theorem takeSection_eq (hcur : k.st.pxCurrentTCB = some x)
    (hok : k.takeSection m = some k') :
    (k.mutex m).queue.uxMessagesWaiting ≠ 0 ∧ ∃ queue : QueueDefinition Unit,
      queue.uxLength = (k.mutex m).queue.uxLength ∧
      queue.uxItemSize = (k.mutex m).queue.uxItemSize ∧
      queue.uxMessagesWaiting = (k.mutex m).queue.uxMessagesWaiting - 1 ∧
      queue.xTasksWaitingToReceive =
        (k.mutex m).queue.xTasksWaitingToReceive ∧
      k' = (k.modifyFields x fun t =>
          { t with uxMutexesHeld := t.uxMutexesHeld + 1 }).setMutex m
        { k.mutex m with queue := queue, xMutexHolder := some x } := by
  rw [takeSection, Option.map_eq_some_iff] at hok
  obtain ⟨queue, hqueue, rfl⟩ := hok
  simp only [QueueDefinition.takeSection, Option.ite_none_right_eq_some,
    Option.some.injEq] at hqueue
  obtain ⟨hpos, hqueue⟩ := hqueue
  refine ⟨Nat.ne_of_gt hpos, queue, ?_, ?_, ?_, ?_, ?_⟩
  · rw [← hqueue, QueueDefinition.unblockSender]
  · rw [← hqueue, QueueDefinition.unblockSender]
  · rw [← hqueue, QueueDefinition.unblockSender]
  · rw [← hqueue, QueueDefinition.unblockSender]
  · simp [pvTaskIncrementMutexHeldCount, hcur]

/-- What `vTaskPrioritySet` does: nothing, or the lists and perhaps a yield. -/
theorem vTaskPrioritySet_cases (hok : k.vTaskPrioritySet alg x p = .ok k') :
    p < configMaxPriorities ∧ ((k.fields x).uxBasePriority = p ∧ k' = k ∨
      ∃ st, (st = (k.prioritySetLists alg x p).st ∨
          vTaskSwitchContext (k.prioritySetLists alg x p).st = .ok st) ∧
        k' = { k.prioritySetLists alg x p with st := st }) := by
  by_cases hp : p < configMaxPriorities
  · have hge : ¬ p ≥ configMaxPriorities := Nat.not_le.mpr hp
    simp only [vTaskPrioritySet, configAssert, decide_eq_true hp, if_true,
      bind, Except.bind, if_neg hge] at hok
    refine ⟨hp, ?_⟩
    split at hok
    · split at hok
      · cases hsw : vTaskSwitchContext (k.prioritySetLists alg x p).st with
        | error e =>
            rw [hsw] at hok
            exact absurd hok (by simp)
        | ok st₁ =>
            rw [hsw] at hok
            cases hok
            exact Or.inr ⟨st₁, Or.inr rfl, rfl⟩
      · cases hok
        exact Or.inr ⟨_, Or.inl rfl, rfl⟩
    · next hbase =>
        cases hok
        exact Or.inl ⟨of_not_not hbase, rfl⟩
  · simp only [vTaskPrioritySet, configAssert, decide_eq_false hp, bind,
      Except.bind] at hok
    exact absurd hok (by simp)

namespace Accounted

variable (hk : Accounted mutexes created k)

include hk

/-- The mutex changes hands, and of the tasks only `x` and who had the mutex or
has it now are concerned. -/
theorem hand {k₁ : MutexKernel} {mutex : Mutex} (ht : Touches created x k k₁)
    (hlen : mutex.queue.uxLength = (k.mutex m).queue.uxLength)
    (hsize : mutex.queue.uxItemSize = (k.mutex m).queue.uxItemSize)
    (hlist : mutex.queue.xTasksWaitingToReceive = k.waiting m)
    (hfree : FreeOrHeld created mutex)
    (hothers : ∀ y, y ≠ x →
      mutex.xMutexHolder ≠ some y ∧ (k.mutex m).xMutexHolder ≠ some y)
    (hbase : (k₁.fields x).uxBasePriority = (k.fields x).uxBasePriority)
    (hheld : x ∈ created →
      (k₁.fields x).uxMutexesHeld = ((k₁.setMutex m mutex).heldBy mutexes x).card)
    (hown : (k₁.fields x).uxMutexesHeld = 0 →
      (k₁.st.tcb x).uxPriority = (k₁.fields x).uxBasePriority)
    (hitem : 1 ≤ (k.fields x).xEventItemValue → 1 ≤ (k₁.fields x).xEventItemValue) :
    Accounted mutexes created (k₁.setMutex m mutex) := by
  have hkeep : ∀ n, n ≠ m → (k₁.setMutex m mutex).mutex n = k.mutex n :=
    fun n hn => by rw [setMutex_of_ne hn, ht.mutex]
  have hhands : Hands m mutex.xMutexHolder k (k₁.setMutex m mutex) := fun n => by
    rw [hands_setMutex n, ht.mutex]
  refine ⟨ht.settled, ht.homed, fun y hy => ?_, fun n hn => ?_, fun n hn => ?_,
    fun n hn => ?_, fun y hy => ?_, fun y hy hz => ?_, fun n hn y hy => ?_,
    fun y hy => ?_⟩
  · rw [setMutex_fields]
    by_cases hyx : y = x
    · subst hyx
      exact hbase ▸ hk.base y hy
    · exact ht.fields y hyx ▸ hk.base y hy
  · by_cases hnm : n = m
    · subst hnm
      rw [setMutex_self, hlen]
      exact hk.length n hn
    · rw [hkeep n hnm]
      exact hk.length n hn
  · by_cases hnm : n = m
    · subst hnm
      rw [setMutex_self, hsize]
      exact hk.size n hn
    · rw [hkeep n hnm]
      exact hk.size n hn
  · by_cases hnm : n = m
    · subst hnm
      rw [setMutex_self]
      exact hfree
    · rw [hkeep n hnm]
      exact hk.free n hn
  · by_cases hyx : y = x
    · subst hyx
      exact hheld hy
    · obtain ⟨hnew, hold⟩ := hothers y hyx
      rw [heldBy_congr fun n _ => hhands.others hnew hold n, setMutex_fields,
        ht.fields y hyx]
      exact hk.held y hy
  · rw [setMutex_fields] at hz ⊢
    by_cases hyx : y = x
    · subst hyx
      exact hown hz
    · rw [ht.fields y hyx] at hz ⊢
      exact (ht.priority y hyx).trans (hk.own y hy hz)
  · by_cases hnm : n = m
    · subst hnm
      rw [waiting, setMutex_self, hlist] at hy
      exact hk.listed n hn y hy
    · rw [waiting, hkeep n hnm] at hy
      exact hk.listed n hn y hy
  · rw [setMutex_fields]
    by_cases hyx : y = x
    · subst hyx
      exact hitem (hk.item y hy)
    · exact ht.fields y hyx ▸ hk.item y hy

theorem take (hm : m ∈ mutexes) (hcur : k.st.pxCurrentTCB = some x)
    (hok : k.takeSection m = some k') :
    Accounted mutexes created k' ∧ Hands m (some x) k k' ∧ SameCalls k k' ∧
      (k.mutex m).xMutexHolder = none := by
  obtain ⟨hcount, queue, hlen, hsize, hless, hlist, rfl⟩ := takeSection_eq hcur hok
  obtain ⟨hone, hnone⟩ := hk.holder_of_count hm hcount
  have hx : x ∈ created := hk.settled.linked.current x (by rw [hcur]; rfl)
  have hhands : Hands m (some x) k ((k.modifyFields x fun t =>
      { t with uxMutexesHeld := t.uxMutexesHeld + 1 }).setMutex m
        { k.mutex m with queue := queue, xMutexHolder := some x }) :=
    hands_setMutex (k := k.modifyFields x _)
  refine ⟨hk.hand ⟨hk.settled, hk.homed, rfl, rfl, fun _ _ => rfl,
      fun y hy => modifyFields_of_ne hy⟩ hlen hsize hlist
      (Or.inr ⟨by rw [hless, hone], x, hx, rfl⟩) (fun y hy => ⟨?_, ?_⟩) ?_ (fun _ => ?_)
      (fun hz => ?_) (fun hv => ?_), hhands,
    sameCalls_setMutex (k := k.modifyFields x _) rfl, hnone⟩
  · exact fun he => hy (Option.some.inj he).symm
  · rw [hnone]
    simp
  · rw [modifyFields_self]
  · have hnot : m ∉ k.heldBy mutexes x := fun hmem =>
      absurd (hnone.symm.trans (mem_heldBy.mp hmem).2) (by simp)
    rw [heldBy_take hhands hm, Finset.card_insert_of_notMem hnot, ← hk.held x hx,
      modifyFields_self]
  · rw [modifyFields_self] at hz
    exact absurd hz (Nat.succ_ne_zero _)
  · rwa [modifyFields_self]

/-- The mutex is free again. -/
theorem copy {b : Bool} (hm : m ∈ mutexes)
    (hholder : (k.mutex m).xMutexHolder = some x)
    (hok : k.prvCopyDataToQueue alg m = some (b, k')) :
    Accounted mutexes created k' ∧ Hands m none k k' ∧ SameCalls k k' := by
  rw [prvCopyDataToQueue, hholder, Option.map_eq_some_iff] at hok
  obtain ⟨⟨b', k₁⟩, hdis, heq⟩ := hok
  obtain ⟨-, rfl⟩ := Prod.mk.inj heq
  obtain ⟨hzero, hx⟩ := hk.count_of_holder hm hholder
  obtain ⟨ht, hne, hheld, hbase, hprio, hpos⟩ :=
    disinherit_spec hk.settled hk.homed (hk.base x hx) hdis
  have hcopy : (k.mutex m).queue.prvCopyDataToQueue () .sendToBack =
      { (k.mutex m).queue with uxMessagesWaiting := 1 } := by
    rw [QueueDefinition.prvCopyDataToQueue, if_pos (hk.size m hm), hzero]
  dsimp only
  rw [ht.mutex, hcopy]
  have hhands : Hands m none k (k₁.setMutex m { k.mutex m with
      queue := { (k.mutex m).queue with uxMessagesWaiting := 1 }
      xMutexHolder := none }) := fun n => by
    rw [hands_setMutex n, ht.mutex]
  refine ⟨hk.hand ht rfl rfl rfl (Or.inl ⟨rfl, rfl⟩) (fun y hy => ⟨by simp, ?_⟩) hbase
    (fun _ => ?_) (fun hz => ?_) hpos, hhands, fun n => ?_⟩
  · exact fun he => hy (Option.some.inj (he.symm.trans hholder))
  · have hmem : m ∈ k.heldBy mutexes x := mem_heldBy.mpr ⟨hm, hholder⟩
    rw [heldBy_give hhands, Finset.card_erase_of_mem hmem, ← hk.held x hx]
    exact hheld
  · have hone : (k.fields x).uxMutexesHeld = 1 := by
      have hz' := hheld.symm.trans hz
      omega
    rw [if_pos hone] at hprio
    exact hprio.trans hbase.symm
  · by_cases hnm : n = m
    · subst hnm
      rw [setMutex_self]
    · rw [setMutex_of_ne hnm, ht.mutex]

/-- The first of the waiting tasks is made ready. -/
theorem unblock (alg : Algorithm) (hm : m ∈ mutexes) :
    Accounted mutexes created (k.unblockReceiver alg m) ∧
      (∀ n, ((k.unblockReceiver alg m).mutex n).xMutexHolder =
        (k.mutex n).xMutexHolder) ∧ SameCalls k (k.unblockReceiver alg m) := by
  rw [unblockReceiver]
  cases hw : k.waiting m with
  | nil => exact ⟨hk, fun _ => rfl, fun _ => rfl⟩
  | cons y ys =>
      have hmem : ∀ z ∈ y :: ys, z ∈ created := fun z hz =>
        hk.listed m hm z (hw ▸ hz)
      have hy := hmem y (List.mem_cons_self ..)
      have hl := hk.settled.linked
      have hset : Settled created (xTaskRemoveFromEventList alg y k.st) :=
        (xTaskRemoveFromEventList_moved hl hy).settled hk.settled
      have hwrite : Accounted mutexes created (k.setWaiting m ys) :=
        hk.write rfl rfl rfl rfl fun z hz => hmem z (List.mem_cons_of_mem _ hz)
      exact ⟨hwrite.move hset (hk.homed.removeFromEventList hl hy)
        (removeFromEventList_grade hl hy), holder_setWaiting, sameCalls_setWaiting⟩

theorem unblock_grade (alg : Algorithm) (hm : m ∈ mutexes) :
    SamePriorities k.st (k.unblockReceiver alg m).st := by
  rw [unblockReceiver]
  cases hw : k.waiting m with
  | nil => exact .refl k.st
  | cons y ys =>
      exact removeFromEventList_grade hk.settled.linked
        (hk.listed m hm y (hw ▸ List.mem_cons_self ..))

/-- `xQueueGenericSend` by the holder. -/
theorem send {sent : Bool} (hm : m ∈ mutexes)
    (hholder : (k.mutex m).xMutexHolder = some x)
    (hok : k.xQueueGenericSend alg m = some (sent, k')) :
    Accounted mutexes created k' ∧ Hands m none k k' ∧ SameCalls k k' ∧
      sent = true := by
  have hroom : (k.mutex m).queue.mayCopy .sendToBack = true := by
    simp [QueueDefinition.mayCopy, (hk.count_of_holder hm hholder).1, hk.length m hm]
  rw [xQueueGenericSend, if_pos hroom, Option.map_eq_some_iff] at hok
  obtain ⟨⟨b, k₁⟩, hcopy, heq⟩ := hok
  obtain ⟨rfl, rfl⟩ := Prod.mk.inj heq
  obtain ⟨hk₁, hhands, hcalls₁⟩ := hk.copy hm hholder hcopy
  obtain ⟨hk₂, hsame, hcalls₂⟩ := hk₁.unblock alg hm
  exact ⟨hk₂, fun n => (hsame n).trans (hhands n),
    fun n => (hcalls₂ n).trans (hcalls₁ n), rfl⟩

/-! ## Waiting -/

/-- The running task goes on the list of the mutex. -/
theorem place {n : Nat} (hm : m ∈ mutexes) :
    Accounted mutexes created (k.placeOnEventList n m) ∧
      (∀ i, ((k.placeOnEventList n m).mutex i).xMutexHolder =
        (k.mutex i).xMutexHolder) ∧ SameCalls k (k.placeOnEventList n m) ∧
      SamePriorities k.st (k.placeOnEventList n m).st := by
  have hl := hk.settled.linked
  have hset := (vTaskPlaceOnEventList_moved hl n).settled hk.settled
  have hhome := hk.homed.placeOnEventList hl n
  rw [placeOnEventList]
  cases hcur : k.st.pxCurrentTCB with
  | none =>
      exact ⟨hk.move hset hhome (placeOnEventList_grade n), fun _ => rfl,
        fun _ => rfl, placeOnEventList_grade n⟩
  | some c =>
      have hc : c ∈ created := hl.current c (by rw [hcur]; rfl)
      have hwrite : Accounted mutexes created (k.setWaiting m
          (insertByKey (fun y => (k.fields y).xEventItemValue) (k.waiting m) c)) :=
        hk.write rfl rfl rfl rfl fun z hz =>
          (mem_insertByKey.mp hz).elim (fun he => he ▸ hc) (hk.listed m hm z)
      exact ⟨hwrite.move hset hhome (placeOnEventList_grade n), holder_setWaiting,
        sameCalls_setWaiting, placeOnEventList_grade n⟩

/-- The holder borrows, then the running task waits. -/
theorem wait {n : Nat} (alg : Algorithm) (hm : m ∈ mutexes)
    (hcur : k.st.pxCurrentTCB = some c)
    (hholder : (k.mutex m).xMutexHolder = some h) :
    Accounted mutexes created (k.waitSection alg n m).2 ∧
      (∀ i, ((k.waitSection alg n m).2.mutex i).xMutexHolder =
        (k.mutex i).xMutexHolder) ∧ SameCalls k (k.waitSection alg n m).2 ∧
      ((k.waitSection alg n m).2.st.tcb h).uxPriority =
        max (k.st.tcb h).uxPriority (k.st.tcb c).uxPriority := by
  have hl := inherit_lends hk.settled hk.homed alg
    (hk.count_of_holder hm hholder).2 hcur
  have hk₁ := hk.lend hl (hk.held_ne_zero hm hholder)
  rw [waitSection, hholder]
  obtain ⟨hk₂, hsame, hcalls, hprio⟩ := hk₁.place (n := n) hm
  exact ⟨hk₂, fun i => (hsame i).trans (by rw [hl.mutex]),
    fun i => (hcalls i).trans (by rw [hl.mutex]), (hprio h).trans hl.lent⟩

theorem lent_lt (hm : m ∈ mutexes) :
    k.prvGetDisinheritPriorityAfterTimeout m < configMaxPriorities := by
  rw [prvGetDisinheritPriorityAfterTimeout]
  cases hw : k.waiting m with
  | nil => exact Nat.zero_lt_succ _
  | cons y ys =>
      have hy := hk.item y (hk.listed m hm y (hw ▸ List.mem_cons_self ..))
      dsimp only
      rw [configMaxPriorities]
      omega

theorem timeout (hm : m ∈ mutexes)
    (hok : k.timeoutSection alg m = some k') :
    Accounted mutexes created k' ∧ k'.mutex = k.mutex ∧
      ∀ h, (k.mutex m).xMutexHolder = some h → (k'.st.tcb h).uxPriority =
        if (k.fields h).uxMutexesHeld = 1 then
          max (k.fields h).uxBasePriority
            (k.prvGetDisinheritPriorityAfterTimeout m)
        else (k.st.tcb h).uxPriority := by
  have hitems := hk.lent_lt hm
  rw [timeoutSection] at hok
  cases hholder : (k.mutex m).xMutexHolder with
  | none =>
      rw [hholder] at hok
      cases hok
      exact ⟨hk, rfl, fun h hh => absurd hh (by simp)⟩
  | some h =>
      rw [hholder] at hok
      have hx := (hk.count_of_holder hm hholder).2
      have hl := timeout_lends hk.settled hk.homed hx (hk.base h hx) hitems hok
      refine ⟨hk.lend hl (hk.held_ne_zero hm hholder), hl.mutex, fun y hy => ?_⟩
      rw [← Option.some.inj hy]
      exact hl.lent

/-! ## The assertions -/

theorem take_none_iff (hm : m ∈ mutexes) :
    k.takeSection m = none ↔ (k.mutex m).xMutexHolder ≠ none := by
  rw [takeSection, Option.map_eq_none_iff, QueueDefinition.takeSection]
  rcases hk.free m hm with ⟨hone, hnone⟩ | ⟨hzero, y, -, hy⟩
  · exact iff_of_false (by simp [hone]) fun hne => hne hnone
  · exact iff_of_true (by simp [hzero]) (by simp [hy])

/-- The running task gives a mutex: it holds it, or the mutex is free and the
send fails. -/
theorem send_cases {sent : Bool} (hm : m ∈ mutexes) (hcur : k.st.pxCurrentTCB = some x)
    (hok : k.xQueueGenericSend alg m = some (sent, k')) :
    (k.mutex m).xMutexHolder = some x ∨
      sent = false ∧ k' = k ∧ (k.mutex m).xMutexHolder = none := by
  rcases hk.free m hm with ⟨hone, hnone⟩ | ⟨hzero, y, -, hy⟩
  · have hfull : ¬ (k.mutex m).queue.mayCopy .sendToBack = true := by
      simp [QueueDefinition.mayCopy, hone, hk.length m hm]
    rw [xQueueGenericSend, if_neg hfull] at hok
    cases hok
    exact Or.inr ⟨rfl, rfl, hnone⟩
  · refine Or.inl ?_
    have hroom : (k.mutex m).queue.mayCopy .sendToBack = true := by
      simp [QueueDefinition.mayCopy, hzero, hk.length m hm]
    rw [xQueueGenericSend, if_pos hroom, Option.map_eq_some_iff] at hok
    obtain ⟨r, hcopy, -⟩ := hok
    rw [prvCopyDataToQueue, hy, xTaskPriorityDisinherit, Option.map_eq_some_iff] at hcopy
    obtain ⟨r', hdis, -⟩ := hcopy
    dsimp only at hdis
    split at hdis
    · next hin => rw [hy, ← hin.1, hcur]
    · cases hdis

/-- Nobody but the holder may give a mutex that is held. -/
theorem send_isSome_iff (hm : m ∈ mutexes) (hcur : k.st.pxCurrentTCB = some x) :
    (k.xQueueGenericSend alg m).isSome ↔
      ∀ y, y ≠ x → (k.mutex m).xMutexHolder ≠ some y := by
  rcases hk.free m hm with ⟨hone, hnone⟩ | ⟨hzero, y, -, hy⟩
  · have hfull : ¬ (k.mutex m).queue.mayCopy .sendToBack = true := by
      simp [QueueDefinition.mayCopy, hone, hk.length m hm]
    rw [xQueueGenericSend, if_neg hfull, hnone]
    exact iff_of_true rfl fun y _ => by simp
  · have hroom : (k.mutex m).queue.mayCopy .sendToBack = true := by
      simp [QueueDefinition.mayCopy, hzero, hk.length m hm]
    rw [xQueueGenericSend, if_pos hroom, Option.isSome_map, prvCopyDataToQueue,
      Option.isSome_map, hy, xTaskPriorityDisinherit, hcur]
    dsimp only
    by_cases hyx : y = x
    · subst hyx
      rw [if_pos ⟨rfl, hk.held_ne_zero hm hy⟩]
      refine iff_of_true ?_ fun z hz he => hz (Option.some.inj he).symm
      split <;> rfl
    · rw [if_neg fun hin => hyx (Option.some.inj hin.1).symm]
      exact iff_of_false (by simp) fun hall => hall y hyx rfl

theorem heldBy_eq_singleton (hm : m ∈ mutexes)
    (hholder : (k.mutex m).xMutexHolder = some x) :
    k.heldBy mutexes x = {m} ↔ (k.fields x).uxMutexesHeld = 1 := by
  rw [hk.held x (hk.count_of_holder hm hholder).2, Finset.card_eq_one]
  refine ⟨fun heq => ⟨m, heq⟩, fun hone => ?_⟩
  obtain ⟨n, hn⟩ := hone
  have hmem : m ∈ k.heldBy mutexes x := mem_heldBy.mpr ⟨hm, hholder⟩
  rw [hn, Finset.mem_singleton] at hmem
  rw [hn, hmem]

/-- The running task may give up any mutex but its only one, and that one too if
its priority is what it should be without the task that gives up. -/
theorem timeout_isSome_iff (hm : m ∈ mutexes) (hcur : k.st.pxCurrentTCB = some x) :
    (k.timeoutSection alg m).isSome ↔
      ((k.mutex m).xMutexHolder = some x → k.heldBy mutexes x = {m} →
        (k.st.tcb x).uxPriority = max (k.fields x).uxBasePriority
          (k.prvGetDisinheritPriorityAfterTimeout m)) := by
  rw [timeoutSection]
  cases hh : (k.mutex m).xMutexHolder with
  | none => exact iff_of_true rfl fun he => absurd he (by simp)
  | some h =>
      have hmax : (if (k.fields h).uxBasePriority <
          k.prvGetDisinheritPriorityAfterTimeout m then
            k.prvGetDisinheritPriorityAfterTimeout m
          else (k.fields h).uxBasePriority) = max (k.fields h).uxBasePriority
            (k.prvGetDisinheritPriorityAfterTimeout m) := by
        split <;> omega
      have hone := hk.heldBy_eq_singleton hm hh
      rw [vTaskPriorityDisinheritAfterTimeout, hcur]
      dsimp only
      rw [if_pos (hk.held_ne_zero hm hh), hmax]
      by_cases hx : h = x
      · subst hx
        simp only [ne_eq, not_true_eq_false, if_false, forall_const]
        rw [hone]
        split
        · next hin => exact iff_of_false (by simp) fun hall => hin.1 (hall hin.2)
        · next hout =>
            exact iff_of_true rfl fun hheld => by_contra fun hne => hout ⟨hne, hheld⟩
      · have hne : some x ≠ some h := fun he => hx (Option.some.inj he).symm
        rw [if_pos hne]
        refine iff_of_true ?_ fun he => absurd (Option.some.inj he) hx
        generalize max (k.fields h).uxBasePriority
          (k.prvGetDisinheritPriorityAfterTimeout m) = q
        split
        · split <;> rfl
        · rfl

/-! ## The other calls -/

/-- The base priority of a task is set. -/
theorem prioritySet (hx : x ∈ created)
    (hok : k.vTaskPrioritySet alg x p = .ok k') :
    Accounted mutexes created k' ∧ k'.mutex = k.mutex := by
  obtain ⟨hp, ⟨-, rfl⟩ | ⟨st, hst, rfl⟩⟩ := vTaskPrioritySet_cases hok
  · exact ⟨hk, rfl⟩
  · obtain ⟨ht, hbase, hheld, hprio, hpos⟩ :=
      prioritySet_spec hk.settled hk.homed alg hx hp
    have hset : Accounted mutexes created (k.prioritySetLists alg x p) := by
      refine hk.change ht.settled ht.homed ht.mutex (fun y hy => ?_)
        (fun y hy => ?_) (fun y hy hz => ?_) fun y hy => ?_
      · by_cases hyx : y = x
        · subst hyx
          rwa [hbase]
        · exact ht.fields y hyx ▸ hk.base y hy
      · by_cases hyx : y = x
        · subst hyx
          exact hheld
        · rw [ht.fields y hyx]
      · by_cases hyx : y = x
        · subst hyx
          rw [hprio, if_pos (hk.own y hy hz).symm, hbase]
        · rw [ht.priority y hyx, ht.fields y hyx]
          exact hk.own y hy hz
      · by_cases hyx : y = x
        · subst hyx
          exact hpos (hk.item y hy)
        · exact ht.fields y hyx ▸ hk.item y hy
    rcases hst with rfl | hsw
    · exact ⟨hset, ht.mutex⟩
    · have hmove := switchContext_moved hset.settled.linked hsw
      exact ⟨hset.move (hmove.settled hset.settled)
        (hset.homed.switchContext hsw) (switchContext_grade hsw), ht.mutex⟩

/-- The kernel's own calls. A new task has its own priority and holds
nothing. -/
theorem call {c : Call} (hc : c.setsPriority = false)
    (hallowed : c.Allowed ⟨k.st, created⟩)
    (hok : c.exec alg k.st = .ok st) :
    Accounted mutexes (c.createdAfter ⟨k.st, created⟩)
      (k.afterCall created (c.createdAfter ⟨k.st, created⟩) st) := by
  have hset := (exec_survived hk.settled hallowed hok).settled
  have hhome := exec_homed hk.settled hk.homed hallowed hok
  have hsub : ∀ x ∈ created, x ∈ c.createdAfter ⟨k.st, created⟩ :=
    fun x hx => mem_createdAfter.mpr (Or.inr (Or.inr hx))
  have hprio := fun x (hx : x ∈ created) =>
    exec_grade hk.settled hallowed hc hok hx
  generalize c.createdAfter ⟨k.st, created⟩ = created' at *
  have hold : ∀ x ∈ created,
      (k.afterCall created created' st).fields x = k.fields x := fun x hx =>
    if_neg fun hn => hn.2 hx
  have hnew : ∀ x ∈ created', x ∉ created →
      (k.afterCall created created' st).fields x = newFields (st.tcb x) :=
    fun x hx hn => if_pos ⟨hx, hn⟩
  refine ⟨hset, hhome, fun x hx => ?_, hk.length, hk.size, fun m hm => ?_,
    fun x hx => ?_, fun x hx hz => ?_, fun m hm y hy => ?_, fun x hx => ?_⟩
  · by_cases hxc : x ∈ created
    · exact hold x hxc ▸ hk.base x hxc
    · rw [hnew x hx hxc]
      exact hset.linked.priority x hx
  · exact (hk.free m hm).imp_right fun hh =>
      ⟨hh.1, hh.2.imp fun y hy => ⟨hsub y hy.1, hy.2⟩⟩
  · by_cases hxc : x ∈ created
    · rw [hold x hxc]
      exact hk.held x hxc
    · rw [hnew x hx hxc]
      refine (Finset.card_eq_zero.mpr (Finset.eq_empty_of_forall_notMem
        fun m hmem => ?_)).symm
      obtain ⟨hm, hh⟩ := mem_heldBy.mp hmem
      exact hxc (hk.count_of_holder hm hh).2
  · by_cases hxc : x ∈ created
    · rw [hold x hxc] at hz ⊢
      exact (hprio x hxc).trans (hk.own x hxc hz)
    · rw [hnew x hx hxc]
      rfl
  · exact hsub y (hk.listed m hm y (List.mem_of_mem_filter hy))
  · by_cases hxc : x ∈ created
    · exact hold x hxc ▸ hk.item x hxc
    · rw [hnew x hx hxc]
      exact Nat.sub_pos_of_lt (hset.linked.priority x hx)

end Accounted

end MutexKernel

end FreeRtosSim
