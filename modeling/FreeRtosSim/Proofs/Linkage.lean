import FreeRtosSim.Kernel.Links
import FreeRtosSim.Proofs.Keyed

/-!
# The linked lists are the sequences

`Represents` says that a `LinkedState` is a `State` whose lists `K` are laid
out in memory. Every operation of `Kernel.Links` is the operation of the same
name of the kernel model under it, up to the two passes: what the model says
about sequences holds of the links.
-/

namespace FreeRtosSim

open RingMemory

variable {created : List TaskHandle} {K : ListId → Prop} {alg : Algorithm}
  {s : LinkedState} {st : State} {x : TaskHandle} {id : ListId}
  {l : CursorList TaskHandle} {mem : RingMemory ListId TaskHandle}

structure Represents (created : List TaskHandle) (K : ListId → Prop)
    (s : LinkedState) (st : State) : Prop where
  tcb : s.tcb = st.tcb
  tick : s.xTickCount = st.xTickCount
  top : s.uxTopReadyPriority = st.uxTopReadyPriority
  sim : s.sim = st.sim
  mem : Holds s.mem K st.lists
  member : ∀ k, K k → ∀ x ∈ st.items k,
    x ∈ created ∧ (st.tcb x).pxContainer = some k
  value : ∀ x ∈ created, (st.tcb x).xItemValue ≤ portMaxDelay
  ready : ∀ x ∈ created, K (.ready (st.tcb x).uxPriority)

namespace Represents

/-- A list is laid out anew without a change of its members. -/
theorem setMem (h : Represents created K s st)
    (hm : Holds mem K (Function.update st.lists id l))
    (hl : l.items = st.items id) : Represents created K (s.setMem mem) (st.setList id l) where
  tcb := h.tcb
  tick := h.tick
  top := h.top
  sim := h.sim
  mem := hm
  member k hk x hx := by
    refine h.member k hk x ?_
    by_cases he : k = id
    · subst he
      rwa [State.items, State.setList_lists, Function.update_self, hl] at hx
    · rwa [State.items, State.setList_lists, Function.update_of_ne he] at hx
  value := h.value
  ready := h.ready

/-- Data of a block that has nothing to do with the lists. -/
theorem modifyTcb (h : Represents created K s st) {f : TCB → TCB}
    (hc : (f (st.tcb x)).pxContainer = (st.tcb x).pxContainer)
    (hv : (f (st.tcb x)).xItemValue ≤ portMaxDelay)
    (hp : (f (st.tcb x)).uxPriority = (st.tcb x).uxPriority) :
    Represents created K (s.modifyTcb x f) (st.modifyTcb x f) where
  tcb := by
    show Function.update s.tcb x (f (s.tcb x)) = Function.update st.tcb x (f (st.tcb x))
    rw [h.tcb]
  tick := h.tick
  top := h.top
  sim := h.sim
  mem := h.mem
  member k hk y hy := by
    refine ⟨(h.member k hk y hy).1, ?_⟩
    by_cases he : y = x
    · subst he
      simp only [State.modifyTcb_tcb, Function.update_self, hc]
      exact (h.member k hk y hy).2
    · simp only [State.modifyTcb_tcb, Function.update_of_ne he]
      exact (h.member k hk y hy).2
  value y hy := by
    by_cases he : y = x
    · subst he
      simpa using hv
    · simpa [he] using h.value y hy
  ready y hy := by
    by_cases he : y = x
    · subst he
      simp only [State.modifyTcb_tcb, Function.update_self, hp]
      exact h.ready y hy
    · simpa [he] using h.ready y hy

/-- A task that is in no list is in none of the rings. -/
theorem out (h : Represents created K s st) (hc : (st.tcb x).pxContainer = none) :
    ∀ k, K k → x ∉ st.items k := by
  intro k hk hx
  have hcont := (h.member k hk x hx).2
  rw [hc] at hcont
  exact absurd hcont (by simp)

/-- A task is put into a list. -/
theorem put (h : Represents created K s st) (hx : x ∈ created)
    (hc : (st.tcb x).pxContainer = none)
    (hm : Holds mem K (Function.update st.lists id l))
    (hl : ∀ y ∈ l.items, y = x ∨ y ∈ st.items id) :
    Represents created K
      ((s.setMem mem).modifyTcb x fun t => { t with pxContainer := some id })
      ((st.setList id l).modifyTcb x fun t => { t with pxContainer := some id }) where
  tcb := by
    have ht : (s.setMem mem).tcb = st.tcb := h.tcb
    show Function.update (s.setMem mem).tcb x _ = Function.update st.tcb x _
    rw [ht]
    rfl
  tick := h.tick
  top := h.top
  sim := h.sim
  mem := hm
  member k hk y hy := by
    by_cases he : y = x
    · subst he
      refine ⟨hx, ?_⟩
      by_cases hki : k = id
      · subst hki
        simp
      · rw [State.items, State.modifyTcb_lists, State.setList_lists,
          Function.update_of_ne hki] at hy
        exact absurd hy (h.out hc k hk)
    · have hold : y ∈ st.items k := by
        by_cases hki : k = id
        · subst hki
          rw [State.items, State.modifyTcb_lists, State.setList_lists,
            Function.update_self] at hy
          exact (hl y hy).resolve_left he
        · rwa [State.items, State.modifyTcb_lists, State.setList_lists,
            Function.update_of_ne hki] at hy
      simpa [he] using h.member k hk y hold
  value y hy := by
    by_cases he : y = x
    · subst he
      simpa using h.value y hy
    · simpa [he] using h.value y hy
  ready y hy := by
    by_cases he : y = x
    · subst he
      simpa using h.ready y hy
    · simpa [he] using h.ready y hy

theorem listInsertEnd (h : Represents created K s st) (hK : K id) (hx : x ∈ created)
    (hc : (st.tcb x).pxContainer = none) :
    Represents created K (s.listInsertEnd id x) (FreeRtosSim.listInsertEnd id x st) := by
  refine h.put hx hc (h.mem.insertEnd hK fun k hk => h.out hc k hk) fun y hy => ?_
  exact List.mem_cons.mp ((CursorList.perm_insertEnd _ x).mem_iff.mp hy)

theorem vListInsert (h : Represents created K s st) (hK : K id) (hx : x ∈ created)
    (hc : (st.tcb x).pxContainer = none) :
    Represents created K (s.vListInsert id x) (FreeRtosSim.vListInsert id x st) := by
  have hout := h.out hc
  have hval : s.itemValue (.item x) = (st.tcb x).xItemValue := by
    rw [LinkedState.itemValue, h.tcb]
  have hkeys : (fun y => s.itemValue (.item y)) = fun y => (st.tcb y).xItemValue := by
    funext y
    rw [LinkedState.itemValue, h.tcb]
  rw [LinkedState.vListInsert, FreeRtosSim.vListInsert, h.tcb]
  by_cases hmax : (st.tcb x).xItemValue = portMaxDelay
  · rw [if_pos hmax, if_pos hmax]
    refine h.put hx hc (h.mem.append hK hout) fun y hy => ?_
    rcases List.mem_append.mp hy with hy | hy
    · exact Or.inr hy
    · exact Or.inl (List.mem_singleton.mp hy)
  · rw [if_neg hmax, if_neg hmax, ← hkeys, ← hval]
    refine h.put hx hc (h.mem.insertSorted hK hout ?_ ?_) fun y hy => ?_
    · rw [hval]
      exact Nat.lt_of_le_of_ne (h.value x hx) hmax
    · rw [(h.mem.ring id hK).count, (h.mem.wellFormed id hK).counted]
    · exact (List.mem_orderedInsert _).mp hy

theorem uxListRemove (h : Represents created K s st) (hK : K id)
    (hx : x ∈ st.items id) :
    Represents created K (s.uxListRemove x) (FreeRtosSim.uxListRemove x st) := by
  have hc := (h.member id hK x hx).2
  have hm := h.mem.remove hK hx
  have htcb : s.tcb x = st.tcb x := by rw [h.tcb]
  rw [LinkedState.uxListRemove, FreeRtosSim.uxListRemove, htcb, hc]
  dsimp only
  have ht : (s.setMem (s.mem.remove id x)).tcb = st.tcb := h.tcb
  refine ⟨?_, h.tick, h.top, h.sim, hm, fun k hk y hy => ?_, fun y hy => ?_,
    fun y hy => ?_⟩
  · show Function.update (s.setMem (s.mem.remove id x)).tcb x _ =
      Function.update st.tcb x _
    rw [ht]
    rfl
  · have hold : y ≠ x ∧ y ∈ st.items k := by
      by_cases hki : k = id
      · subst hki
        rw [State.items, State.modifyTcb_lists, State.setList_lists,
          Function.update_self, CursorList.items_remove] at hy
        exact (h.mem.wellFormed k hk).nodup.mem_erase_iff.mp hy
      · rw [State.items, State.modifyTcb_lists, State.setList_lists,
          Function.update_of_ne hki] at hy
        exact ⟨fun he => h.mem.disjoint k id hk hK hki y hy (he ▸ hx), hy⟩
    simpa [hold.1] using h.member k hk y hold.2
  · by_cases he : y = x
    · subst he
      simpa using h.value y hy
    · simpa [he] using h.value y hy
  · by_cases he : y = x
    · subst he
      simpa using h.ready y hy
    · simpa [he] using h.ready y hy

/-! ## The ready-list macros -/

theorem record (h : Represents created K s st) (p : Nat) :
    Represents created K (s.taskRecordReadyPriority p)
      (taskRecordReadyPriority p st) where
  tcb := h.tcb
  tick := h.tick
  top := by
    show (if p > s.uxTopReadyPriority then p else s.uxTopReadyPriority) = _
    rw [h.top]
    rfl
  sim := h.sim
  mem := h.mem
  member := h.member
  value := h.value
  ready := h.ready

theorem setItemValue (h : Represents created K s st) {v : Nat} (hv : v ≤ portMaxDelay) :
    Represents created K (s.setItemValue x v) (FreeRtosSim.setItemValue x v st) :=
  h.modifyTcb rfl hv rfl

/-- The value written, then the insertion by it. -/
theorem keyed (h : Represents created K s st) (hx : x ∈ created)
    (hc : (st.tcb x).pxContainer = none) {v : Nat} (hv : v ≤ portMaxDelay) :
    Represents created K ((s.setItemValue x v).vListInsert (.ready (st.tcb x).uxPriority) x)
      (FreeRtosSim.vListInsert (.ready (st.tcb x).uxPriority) x
        (FreeRtosSim.setItemValue x v st)) := by
  refine (h.setItemValue (x := x) hv).vListInsert (h.ready x hx) hx ?_
  simpa [FreeRtosSim.setItemValue] using hc

theorem prvAddTaskToReadyList (h : Represents created K s st) (hx : x ∈ created)
    (hc : (st.tcb x).pxContainer = none) (hw : K .wait) :
    Represents created K (s.prvAddTaskToReadyList alg x)
      (FreeRtosSim.prvAddTaskToReadyList alg x st) := by
  have htcb : s.tcb x = st.tcb x := by rw [h.tcb]
  have htick : (s.taskRecordReadyPriority (st.tcb x).uxPriority).xTickCount =
      (taskRecordReadyPriority (st.tcb x).uxPriority st).xTickCount := h.tick
  have hrec := h.record (st.tcb x).uxPriority
  have hplain := hrec.vListInsert (h.ready x hx) hx hc
  have hd := deadlineValue_le (st.tcb x).xTaskPeriod
    (taskRecordReadyPriority (st.tcb x).uxPriority st).xTickCount
  have hb := bwpValue_le (st.tcb x).xTaskPeriod
    (taskRecordReadyPriority (st.tcb x).uxPriority st).xTickCount
  cases alg with
  | edf =>
      simp only [LinkedState.prvAddTaskToReadyList, LinkedState.prvAddTaskToReadyListEdf,
        FreeRtosSim.prvAddTaskToReadyList, prvAddTaskToReadyListEdf, htcb, htick]
      split
      · exact hrec.keyed hx hc hd
      · exact hplain
  | bwp =>
      simp only [LinkedState.prvAddTaskToReadyList, LinkedState.prvAddTaskToReadyListBwp,
        FreeRtosSim.prvAddTaskToReadyList, prvAddTaskToReadyListBwp, htcb, htick]
      split
      · exact hrec.keyed hx hc hb.1
      · split
        · exact hrec.keyed hx hc hb.1
        · split
          · exact hrec.keyed hx hc hb.2
          · exact hplain
  | rto =>
      simp only [LinkedState.prvAddTaskToReadyList, LinkedState.prvAddTaskToReadyListRto,
        FreeRtosSim.prvAddTaskToReadyList, prvAddTaskToReadyListRto, htcb, htick]
      split
      · exact hrec.keyed hx hc hd
      · split
        · exact hrec.keyed hx hc hd
        · split
          · exact hrec.listInsertEnd hw hx hc
          · split
            · exact hplain
            · exact hrec

/-! ## The moves -/

theorem addTaskToWaitList (h : Represents created K s st) (hK : K id)
    (hx : x ∈ st.items id) (hw : K .wait) :
    Represents created K (s.addTaskToWaitList x)
      (FreeRtosSim.addTaskToWaitList x st) :=
  (h.uxListRemove hK hx).listInsertEnd hw (h.member id hK x hx).1
    uxListRemove_container

theorem addTaskToReadyList (h : Represents created K s st) (hK : K id)
    (hx : x ∈ st.items id) (hw : K .wait) :
    Represents created K (s.addTaskToReadyList alg x)
      (FreeRtosSim.addTaskToReadyList alg x st) :=
  (h.uxListRemove hK hx).prvAddTaskToReadyList (h.member id hK x hx).1
    uxListRemove_container hw

/-! ## The bodies of the passes -/

theorem withSim (h : Represents created K s st) (sim : Simulator) :
    Represents created K { s with sim := sim } { st with sim := sim } :=
  ⟨h.tcb, h.tick, h.top, rfl, h.mem, h.member, h.value, h.ready⟩

theorem checkWeaklyHard (h : Represents created K s st) (x : TaskHandle) :
    Represents created K (s.checkWeaklyHard x) (FreeRtosSim.checkWeaklyHard x st) := by
  have htcb : s.tcb x = st.tcb x := by rw [h.tcb]
  rw [LinkedState.checkWeaklyHard, FreeRtosSim.checkWeaklyHard, htcb, h.sim]
  split
  · exact h.withSim _
  · split
    · exact h.withSim _
    · exact h

theorem killBody (h : Represents created K s st) (hr : K (.ready 1)) (hw : K .wait)
    (hx : x ∈ st.items (.ready 1)) :
    Represents created K (s.killBody x) (FreeRtosSim.killBody x st) := by
  have htcb : s.tcb x = st.tcb x := by rw [h.tcb]
  have hhope : s.hopeless x = hopeless st x := by
    rw [LinkedState.hopeless, hopeless, htcb, h.tick]
  rw [LinkedState.killBody, FreeRtosSim.killBody, htcb, hhope, h.sim]
  split
  · split
    · have hcheck := (h.withSim
        (st.sim.incrementTimesKilled (st.tcb x).xTaskId)).checkWeaklyHard x
      obtain ⟨sim, heq⟩ := checkWeaklyHard_eq x
        { st with sim := st.sim.incrementTimesKilled (st.tcb x).xTaskId }
      dsimp only
      rw [heq] at hcheck ⊢
      refine (hcheck.modifyTcb rfl ?_ rfl).addTaskToWaitList hr hx hw
      exact h.value x (h.member _ hr x hx).1
    · exact h
  · exact h

theorem wakeBody (h : Represents created K s st) (hw : K .wait)
    (hx : x ∈ st.items .wait) :
    Represents created K (s.wakeBody alg x) (FreeRtosSim.wakeBody alg x st) := by
  have htcb : s.tcb x = st.tcb x := by rw [h.tcb]
  have hval := h.value x (h.member _ hw x hx).1
  have hrenewed : Represents created K
      (s.modifyTcb x fun t =>
        { t with xRemainingTicks := t.xTaskDuration, startTime := s.xTickCount })
      (renewed x st) := by
    rw [h.tick]
    exact h.modifyTcb rfl hval rfl
  have hrtcb : (s.modifyTcb x fun t =>
      { t with xRemainingTicks := t.xTaskDuration, startTime := s.xTickCount }).tcb x =
      (renewed x st).tcb x := by rw [hrenewed.tcb]
  rw [LinkedState.wakeBody, FreeRtosSim.wakeBody, htcb, h.tick]
  rw [h.tick] at hrenewed hrtcb
  have hmem : x ∈ (renewed x st).items .wait := hx
  have hplain : ((renewed x st).tcb x).xItemValue ≤ portMaxDelay := by
    simpa [renewed] using hval
  split
  · split
    · dsimp only
      rw [hrtcb, show (st.modifyTcb x fun t => { t with
        xRemainingTicks := t.xTaskDuration, startTime := st.xTickCount }) =
          renewed x st from rfl]
      split
      · exact hrenewed.modifyTcb rfl hplain rfl
      · exact hrenewed.addTaskToReadyList hw hmem hw
    · exact h
  · exact h

/-! ## The passes -/

theorem walkRefines (hK : K id) : WalkRefines LinkedState.mem LinkedState.setMem id
    (fun st => st.lists id) (fun st l => st.setList id l) (Represents created K) where
  ring _ _ h := h.mem.ring id hK
  wellFormed _ _ h := h.mem.wellFormed id hK
  get_set st l := by simp
  reset _ _ h := by
    refine h.setMem (h.mem.setIndex hK (i := none) fun y hy => ?_) rfl
    exact absurd hy (by simp)
  advance _ _ h := h.setMem (h.mem.nextEntry hK).2 rfl

theorem killTasks (h : Represents created K s st) (hr : K (.ready 1)) (hw : K .wait) :
    Represents created K s.killTasks (FreeRtosSim.killTasks st) :=
  (walkRefines hr).walk (fun _ _ _ h hx => h.killBody hr hw hx) h

theorem wakeTasks (h : Represents created K s st) (hw : K .wait) :
    Represents created K (s.wakeTasks alg) (FreeRtosSim.wakeTasks alg st) :=
  (walkRefines hw).walk (fun _ _ _ h hx => h.wakeBody hw hx) h

/-- `killTasks` has every ready task in hand once. -/
theorem killNodes (h : Represents created K s st) (hl : WellLinked created st)
    (hr : K (.ready 1)) (hw : K .wait) :
    s.killNodes = (st.items (.ready 1)).map .item :=
  (walkRefines hr).nodes (fun _ _ _ h hx => h.killBody hr hw hx) h
    (killBody_pass.members hl rfl)

/-- `wakeTasks` has every waiting task in hand once. -/
theorem wakeNodes (h : Represents created K s st) (hl : WellLinked created st)
    (hw : K .wait) : s.wakeNodes alg = (st.items .wait).map .item :=
  (walkRefines hw).nodes (fun _ _ _ h hx => h.wakeBody hw hx) h
    (wakeBody_pass.members hl rfl)

end Represents

end FreeRtosSim
