import FreeRtosSim.Proofs.Shape

/-!
# The moves keep the shape

One preservation lemma for each thing that happens inside a tick: a task
goes to the wait list, a task goes to the ready list, a control block in
place is written, a cursor is moved. Beside each stands what the move does
to the jobs, which is all the passes need to know about it.
-/

namespace FreeRtosSim

variable {sys : ClosedSystem} {t : Nat} {st : State} {x i : TaskHandle}

/-- A write to the simulator's globals on behalf of task `x`. -/
structure Simulator.Keeps (x : Nat) (s s' : Simulator) : Prop where
  taskCnt : s'.taskCnt = s.taskCnt
  hiperperiod : s'.hiperperiod = s.hiperperiod
  others : ∀ i, i ≠ x → s'.taskSet i = s.taskSet i
  entry : ∀ p H, Entry p H (s.taskSet x) → Entry p H (s'.taskSet x)
  flag : s'.weaklyHard ≤ s.weaklyHard

theorem readyKey_congr {alg : Algorithm} {p : JobParams} {j j' : Job}
    (hs : j'.start = j.start) (hm : j'.met = j.met) :
    readyKey alg p j' = readyKey alg p j := by
  have hred : j'.red p ↔ j.red p := by rw [Job.red, Job.red, Job.owes, Job.owes, hm]
  cases alg with
  | edf => simp only [readyKey, hs]
  | rto => simp only [readyKey, hs]
  | bwp =>
      simp only [readyKey, hs]
      exact if_congr hred rfl rfl

theorem Shape.ready_nodup (h : Shape sys t st) : (st.items (.ready 1)).Nodup :=
  h.nodup.of_append_left

theorem Shape.wait_nodup (h : Shape sys t st) : (st.items .wait).Nodup :=
  h.nodup.of_append_right

theorem Shape.lt_of_ready (h : Shape sys t st) (hx : x ∈ st.items (.ready 1)) :
    x < sys.taskCnt := (h.mem x).mp (List.mem_append_left _ hx)

theorem Shape.lt_of_wait (h : Shape sys t st) (hx : x ∈ st.items .wait) :
    x < sys.taskCnt := (h.mem x).mp (List.mem_append_right _ hx)

theorem Shape.not_wait_of_ready (h : Shape sys t st)
    (hx : x ∈ st.items (.ready 1)) : x ∉ st.items .wait := fun hw =>
  List.disjoint_of_nodup_append h.nodup hx hw

/-- All a job depends on. -/
theorem job_congr {st' : State}
    (hl : st'.items (.ready 1) = st.items (.ready 1))
    (ht : st'.tcb i = st.tcb i) (hs : st'.sim.taskSet i = st.sim.taskSet i) :
    st'.job i = st.job i := by
  simp only [State.job, hl, ht, hs]

theorem job_ready_iff : (st.job i).ready = true ↔ i ∈ st.items (.ready 1) :=
  decide_eq_true_iff

theorem job_waiting_iff : (st.job i).ready = false ↔ i ∉ st.items (.ready 1) :=
  decide_eq_false_iff_not

theorem Shape.wait_iff (h : Shape sys t st) (hi : i < sys.taskCnt) :
    i ∈ st.items .wait ↔ (st.job i).ready = false := by
  rw [job_waiting_iff]
  constructor
  · intro hw hr
    exact h.not_wait_of_ready hr hw
  · intro hr
    rcases List.mem_append.mp ((h.mem i).mpr hi) with hm | hm
    · exact absurd hm hr
    · exact hm

/-! ## To the wait list -/

section ToWait

variable {f : TCB → TCB} {g : Simulator → Simulator}

@[simp] theorem toWait_items_ready :
    (toWait x f g st).items (.ready 1) = (st.items (.ready 1)).erase x := by
  simp [toWait, State.items]

@[simp] theorem toWait_items_wait :
    (toWait x f g st).items .wait = ((st.lists .wait).insertEnd x).items := by
  simp [toWait, State.items]

theorem toWait_items_other {id : ListId} (hr : id ≠ .ready 1)
    (hw : id ≠ .wait) : (toWait x f g st).items id = st.items id := by
  simp [toWait, State.items, hr, hw]

theorem toWait_tcb_other (hi : i ≠ x) :
    (toWait x f g st).tcb i = st.tcb i := by simp [toWait, hi]

theorem toWait_perm (hx : x ∈ st.items (.ready 1)) :
    ((toWait x f g st).items (.ready 1) ++ (toWait x f g st).items .wait).Perm
      (st.items (.ready 1) ++ st.items .wait) := by
  rw [toWait_items_ready, toWait_items_wait]
  have hend := CursorList.perm_insertEnd (st.lists .wait) x
  have hmid : ((st.items (.ready 1)).erase x ++ x :: st.items .wait).Perm
      (x :: ((st.items (.ready 1)).erase x ++ st.items .wait)) :=
    List.perm_middle
  exact (hend.append_left _).trans
    (hmid.trans ((List.perm_cons_erase hx).symm.append_right _))

theorem toWait_job_other (hi : i ≠ x)
    (hg : (g st.sim).taskSet i = st.sim.taskSet i) :
    (toWait x f g st).job i = st.job i := by
  have hmem : i ∈ (st.items (.ready 1)).erase x ↔ i ∈ st.items (.ready 1) :=
    List.mem_erase_of_ne hi
  simp only [State.job, toWait_items_ready, toWait_tcb_other hi, hmem]
  rw [show (toWait x f g st).sim = g st.sim from rfl, hg]

theorem toWait_job_self (hnd : (st.items (.ready 1)).Nodup) :
    (toWait x f g st).job x =
      { ready := false
        remaining := (f (st.tcb x)).xRemainingTicks
        start := (f (st.tcb x)).startTime
        met := (f (st.tcb x)).previousDeadlineMet
        report := ((g st.sim).taskSet x).report
        killed := ((g st.sim).taskSet x).timesKilled } := by
  have hmem : ¬ x ∈ (st.items (.ready 1)).erase x := hnd.not_mem_erase
  simp only [State.job, toWait_items_ready, decide_eq_false hmem]
  simp [toWait]

theorem Shape.toWait (h : Shape sys t st) (hx : x ∈ st.items (.ready 1))
    (hf : ∀ p, Static p x (st.tcb x) → Static p x (f (st.tcb x)))
    (hb : Bounds (sys.params x) t (f (st.tcb x)))
    (hg : st.sim.Keeps x (g st.sim)) : Shape sys t (toWait x f g st) := by
  have hnd := h.ready_nodup
  have hxlt := h.lt_of_ready hx
  have hne : ∀ i ∈ (st.items (.ready 1)).erase x,
      i ≠ x ∧ i ∈ st.items (.ready 1) := fun i hi => hnd.mem_erase_iff.mp hi
  have hperm := toWait_perm (f := f) (g := g) hx
  refine
    { tick := h.tick
      notSuspended := h.notSuspended
      nextUnblock := h.nextUnblock
      nodup := hperm.nodup_iff.mpr h.nodup
      mem := fun i => hperm.mem_iff.trans (h.mem i)
      inReady := ?_, inWait := ?_, static := ?_, bounds := ?_, key := ?_, idle := ?_
      idleList := ?_, upper := ?_, top := ?_
      simCnt := hg.taskCnt.trans h.simCnt
      simHiper := hg.hiperperiod.trans h.simHiper
      entry := ?_
      flag := Nat.le_trans hg.flag h.flag }
  · intro i hi
    rw [toWait_items_ready] at hi
    rw [toWait_tcb_other (hne i hi).1]
    exact h.inReady i (hne i hi).2
  · intro i hi
    rw [toWait_items_wait] at hi
    by_cases hix : i = x
    · subst hix
      simp [FreeRtosSim.toWait]
    · rw [toWait_tcb_other hix]
      have := (CursorList.perm_insertEnd _ x).mem_iff.mp hi
      exact h.inWait i ((List.mem_cons.mp this).resolve_left hix)
  · intro i hi
    by_cases hix : i = x
    · subst hix
      obtain ⟨h1, h2, h3, h4, h5⟩ := hf _ (h.static i hi)
      simp only [FreeRtosSim.toWait, Function.update_self]
      exact ⟨h1, h2, h3, h4, h5⟩
    · rw [toWait_tcb_other hix]
      exact h.static i hi
  · intro i hi
    by_cases hix : i = x
    · subst hix
      simp only [FreeRtosSim.toWait, Function.update_self]
      exact ⟨hb.start_le, hb.remaining_le⟩
    · rw [toWait_tcb_other hix]
      exact h.bounds i hi
  · intro i hi
    rw [toWait_items_ready] at hi
    obtain ⟨hix, hi⟩ := hne i hi
    rw [toWait_tcb_other hix, toWait_job_other hix (hg.others i hix)]
    exact h.key i hi
  · rw [toWait_tcb_other (Nat.ne_of_gt hxlt)]
    exact h.idle
  · rw [toWait_items_other (by simp) (by simp)]
    exact h.idleList
  · intro p hp
    rw [toWait_items_other (by simp; omega) (by simp)]
    exact h.upper p hp
  · intro _
    exact h.top (List.ne_nil_of_mem hx)
  · intro i hi
    by_cases hix : i = x
    · subst hix
      exact hg.entry _ _ (h.entry i hi)
    · show Entry _ _ ((g st.sim).taskSet i)
      rw [hg.others i hix]
      exact h.entry i hi

end ToWait

/-! ## To the ready list -/

section ToReady

variable {f : TCB → TCB} {v : Nat}

/-- The ready list with `x` linked in under key `v`. -/
def linkReady (st : State) (x : TaskHandle) (v : Nat) : List TaskHandle :=
  (st.items (.ready 1)).orderedInsert
    (fun a b => (if a = x then v else (st.tcb a).xItemValue) <
      if b = x then v else (st.tcb b).xItemValue) x

theorem perm_linkReady : (linkReady st x v).Perm (x :: st.items (.ready 1)) :=
  List.perm_orderedInsert _ x _

/-- An item of value `portMAX_DELAY` at the back is where a sorted insertion
would have put it, since no value is larger. -/
theorem toReady_items_ready (hv : ∀ y ∈ st.items (.ready 1),
      v = portMaxDelay → (st.tcb y).xItemValue ≤ v) :
    (toReady x f v st).items (.ready 1) = linkReady st x v := by
  simp only [toReady, State.items, Function.update_self]
  split
  · next hmax =>
      refine (CursorList.orderedInsert_eq_append fun y hy => ?_).symm
      have hle := hv y hy hmax
      show ¬ (if x = x then v else _) < if y = x then v else _
      rw [if_pos rfl]
      split <;> omega
  · rfl

@[simp] theorem toReady_items_wait :
    (toReady x f v st).items .wait = (st.items .wait).erase x := by
  simp [toReady, State.items]

theorem toReady_items_other {id : ListId} (hr : id ≠ .ready 1)
    (hw : id ≠ .wait) : (toReady x f v st).items id = st.items id := by
  simp [toReady, State.items, hr, hw]

theorem toReady_tcb_other (hi : i ≠ x) :
    (toReady x f v st).tcb i = st.tcb i := by simp [toReady, hi]

theorem toReady_perm (hv : ∀ y ∈ st.items (.ready 1),
      v = portMaxDelay → (st.tcb y).xItemValue ≤ v) (hx : x ∈ st.items .wait) :
    ((toReady x f v st).items (.ready 1) ++
      (toReady x f v st).items .wait).Perm
      (st.items (.ready 1) ++ st.items .wait) := by
  rw [toReady_items_ready hv, toReady_items_wait]
  refine (perm_linkReady.append_right _).trans ?_
  rw [List.cons_append]
  exact List.perm_middle.symm.trans
    ((List.perm_cons_erase hx).symm.append_left _)

theorem toReady_job_other (hv : ∀ y ∈ st.items (.ready 1),
      v = portMaxDelay → (st.tcb y).xItemValue ≤ v) (hi : i ≠ x) :
    (toReady x f v st).job i = st.job i := by
  have hmem : i ∈ linkReady st x v ↔ i ∈ st.items (.ready 1) := by
    rw [perm_linkReady.mem_iff, List.mem_cons, or_iff_right hi]
  simp only [State.job, toReady_items_ready hv, toReady_tcb_other hi, hmem]
  rfl

theorem toReady_job_self (hv : ∀ y ∈ st.items (.ready 1),
      v = portMaxDelay → (st.tcb y).xItemValue ≤ v) :
    (toReady x f v st).job x =
      { st.job x with
        ready := true
        remaining := (f (st.tcb x)).xRemainingTicks
        start := (f (st.tcb x)).startTime
        met := (f (st.tcb x)).previousDeadlineMet } := by
  have hmem : x ∈ linkReady st x v := perm_linkReady.mem_iff.mpr (by simp)
  simp only [State.job, toReady_items_ready hv, decide_eq_true hmem]
  simp [toReady]

theorem Shape.toReady (h : Shape sys t st) (hx : x ∈ st.items .wait)
    (hf : ∀ p, Static p x (st.tcb x) → Static p x (f (st.tcb x)))
    (hb : Bounds (sys.params x) t (f (st.tcb x)))
    (hv : ∀ y ∈ st.items (.ready 1),
      v = portMaxDelay → (st.tcb y).xItemValue ≤ v)
    (hkey : v = readyKey sys.alg (sys.params x) ((toReady x f v st).job x)) :
    Shape sys t (toReady x f v st) := by
  have hxlt := h.lt_of_wait hx
  have hperm := toReady_perm (f := f) hv hx
  have hcase : ∀ i ∈ (FreeRtosSim.toReady x f v st).items (.ready 1), i ≠ x →
      i ∈ st.items (.ready 1) := by
    intro i hi hix
    rw [toReady_items_ready hv, perm_linkReady.mem_iff] at hi
    exact (List.mem_cons.mp hi).resolve_left hix
  refine
    { tick := h.tick
      notSuspended := h.notSuspended
      nextUnblock := h.nextUnblock
      nodup := hperm.nodup_iff.mpr h.nodup
      mem := fun i => hperm.mem_iff.trans (h.mem i)
      inReady := ?_, inWait := ?_, static := ?_, bounds := ?_, key := ?_, idle := ?_
      idleList := ?_, upper := ?_, top := ?_
      simCnt := h.simCnt
      simHiper := h.simHiper
      entry := h.entry
      flag := h.flag }
  · intro i hi
    by_cases hix : i = x
    · subst hix
      simp [FreeRtosSim.toReady]
    · rw [toReady_tcb_other hix]
      exact h.inReady i (hcase i hi hix)
  · intro i hi
    rw [toReady_items_wait, h.wait_nodup.mem_erase_iff] at hi
    rw [toReady_tcb_other hi.1]
    exact h.inWait i hi.2
  · intro i hi
    by_cases hix : i = x
    · subst hix
      obtain ⟨h1, h2, h3, h4, h5⟩ := hf _ (h.static i hi)
      simp only [FreeRtosSim.toReady, Function.update_self]
      exact ⟨h1, h2, h3, h4, h5⟩
    · rw [toReady_tcb_other hix]
      exact h.static i hi
  · intro i hi
    by_cases hix : i = x
    · subst hix
      simp only [FreeRtosSim.toReady, Function.update_self]
      exact ⟨hb.start_le, hb.remaining_le⟩
    · rw [toReady_tcb_other hix]
      exact h.bounds i hi
  · intro i hi
    by_cases hix : i = x
    · subst hix
      rw [← hkey]
      simp [FreeRtosSim.toReady]
    · rw [toReady_tcb_other hix, toReady_job_other hv hix]
      exact h.key i (hcase i hi hix)
  · rw [toReady_tcb_other (Nat.ne_of_gt hxlt)]
    exact h.idle
  · rw [toReady_items_other (by simp) (by simp)]
    exact h.idleList
  · intro p hp
    rw [toReady_items_other (by simp; omega) (by simp)]
    exact h.upper p hp
  · intro _
    simp only [FreeRtosSim.toReady]
    split <;> omega

end ToReady

/-! ## In place -/

/-- The shape does not see where a cursor stands. -/
theorem Shape.setIndex (h : Shape sys t st) (id : ListId)
    (c : Option TaskHandle) :
    Shape sys t (st.setList id ((st.lists id).setIndex c)) := by
  have hitems := fun l => setIndex_items st l id c
  have hjob : ∀ i, (st.setList id ((st.lists id).setIndex c)).job i =
      st.job i := by
    intro i
    simp only [State.job, hitems]
    rfl
  constructor
  case nodup => rw [hitems, hitems]; exact h.nodup
  case mem => intro i; rw [hitems, hitems]; exact h.mem i
  case inReady => intro i hi; exact h.inReady i (hitems _ ▸ hi)
  case inWait => intro i hi; exact h.inWait i (hitems _ ▸ hi)
  case key =>
    intro i hi
    rw [hjob]
    exact h.key i (hitems _ ▸ hi)
  case idleList => rw [hitems]; exact h.idleList
  case upper => intro p hp; rw [hitems]; exact h.upper p hp
  case top => rw [hitems]; exact h.top
  all_goals
    first
      | exact h.tick
      | exact h.notSuspended
      | exact h.nextUnblock
      | exact h.static
      | exact h.bounds
      | exact h.idle
      | exact h.simCnt
      | exact h.simHiper
      | exact h.entry
      | exact h.flag

theorem setIndex_job (id : ListId) (c : Option TaskHandle) :
    (st.setList id ((st.lists id).setIndex c)).job i = st.job i := by
  simp only [State.job, setIndex_items]
  rfl

section Modify

variable {f : TCB → TCB}

theorem modifyTcb_tcb_other (hi : i ≠ x) :
    (st.modifyTcb x f).tcb i = st.tcb i := by simp [hi]

theorem modifyTcb_job_other (hi : i ≠ x) :
    (st.modifyTcb x f).job i = st.job i := by
  simp only [State.job, modifyTcb_tcb_other hi]
  rfl

theorem modifyTcb_job_self :
    (st.modifyTcb x f).job x =
      { st.job x with
        remaining := (f (st.tcb x)).xRemainingTicks
        start := (f (st.tcb x)).startTime
        met := (f (st.tcb x)).previousDeadlineMet } := by
  simp only [State.job, State.modifyTcb_tcb, Function.update_self]
  rfl

/-- A control block written in place; while the task is ready, its key has
to stay what it was. -/
theorem Shape.modifyTcb (h : Shape sys t st) (hx : x < sys.taskCnt)
    (hf : ∀ p, Static p x (st.tcb x) → Static p x (f (st.tcb x)))
    (hb : Bounds (sys.params x) t (f (st.tcb x)))
    (hc : (f (st.tcb x)).pxContainer = (st.tcb x).pxContainer)
    (hkey : x ∈ st.items (.ready 1) →
      (f (st.tcb x)).xItemValue = (st.tcb x).xItemValue ∧
      (f (st.tcb x)).startTime = (st.tcb x).startTime ∧
      (f (st.tcb x)).previousDeadlineMet = (st.tcb x).previousDeadlineMet) :
    Shape sys t (st.modifyTcb x f) := by
  have hself : (st.modifyTcb x f).tcb x = f (st.tcb x) := by simp
  have hcont : ∀ i, ((st.modifyTcb x f).tcb i).pxContainer =
      (st.tcb i).pxContainer := by
    intro i
    by_cases hix : i = x
    · rw [hix, hself, hc]
    · rw [modifyTcb_tcb_other hix]
  refine
    { tick := h.tick
      notSuspended := h.notSuspended
      nextUnblock := h.nextUnblock
      nodup := h.nodup
      mem := h.mem
      inReady := fun i hi => (hcont i).trans (h.inReady i hi)
      inWait := fun i hi => (hcont i).trans (h.inWait i hi)
      static := ?_, bounds := ?_, key := ?_, idle := ?_
      idleList := h.idleList
      upper := h.upper
      top := h.top
      simCnt := h.simCnt
      simHiper := h.simHiper
      entry := h.entry
      flag := h.flag }
  · intro i hi
    by_cases hix : i = x
    · subst hix
      rw [hself]
      exact hf _ (h.static i hi)
    · rw [modifyTcb_tcb_other hix]
      exact h.static i hi
  · intro i hi
    by_cases hix : i = x
    · subst hix
      rw [hself]
      exact hb
    · rw [modifyTcb_tcb_other hix]
      exact h.bounds i hi
  · intro i hi
    have hold := h.key i hi
    by_cases hix : i = x
    · subst hix
      obtain ⟨hv, hs, hm⟩ := hkey hi
      rw [hself, hv, hold]
      refine (readyKey_congr ?_ ?_).symm
      · rw [modifyTcb_job_self]
        exact hs
      · rw [modifyTcb_job_self]
        exact hm
    · rw [modifyTcb_tcb_other hix, modifyTcb_job_other hix]
      exact hold
  · rw [modifyTcb_tcb_other (Nat.ne_of_gt hx)]
    exact h.idle

end Modify

end FreeRtosSim
