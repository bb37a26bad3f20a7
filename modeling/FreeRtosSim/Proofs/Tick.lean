import FreeRtosSim.Proofs.Wake

/-!
# One tick, outside the two passes

The part of the tick every kernel has does nothing here but count, since no
task is delayed and the scheduler is not suspended. The accounting charges
the running task, which either stays in place with one tick less to do or
completes and moves to the wait list. The context switch picks the head of
ready list 1 when there is one and the idle task otherwise.
-/

namespace FreeRtosSim

variable {sys : ClosedSystem} {t : Nat} {st : State} {c i : TaskHandle}

/-! ## The prologue -/

/-- The tick count moved on by one. -/
def State.advance (st : State) : State :=
  { st with xTickCount := st.xTickCount + 1 }

theorem Shape.advance (h : Shape sys t st) : Shape sys (t + 1) st.advance where
  tick := congrArg (· + 1) h.tick
  notSuspended := h.notSuspended
  nextUnblock := h.nextUnblock
  nodup := h.nodup
  mem := h.mem
  inReady := h.inReady
  inWait := h.inWait
  static := h.static
  bounds i hi :=
    ⟨Nat.le_succ_of_le (h.bounds i hi).start_le, (h.bounds i hi).remaining_le⟩
  key := h.key
  idle := h.idle
  idleList := h.idleList
  upper := h.upper
  top := h.top
  simCnt := h.simCnt
  simHiper := h.simHiper
  entry := h.entry
  flag := h.flag

theorem tickPrologue_eq (h : Shape sys t st) (ht : t < sys.hiperperiod) :
    tickPrologue sys.alg st = .ok (st.xYieldPending, st.advance) := by
  have hH := sys.hiperperiod_lt
  have hadd : tickAdd t 1 = t + 1 := tickAdd_of_lt (by omega)
  have hnz : ¬ t + 1 = 0 := by omega
  have hdue : ¬ t + 1 ≥ st.xNextTaskUnblockTime := by
    rw [h.nextUnblock, portMaxDelay]
    omega
  simp only [tickPrologue, hadd, if_neg hnz, if_neg hdue, pure, Except.pure,
    bind, Except.bind, Bool.false_or, State.advance, h.tick]

theorem atHiperPeriod_iff (h : Shape sys t st) :
    atHiperPeriod st = true ↔ t = sys.hiperperiod := by
  have hH := sys.hiperperiod_lt
  simp only [atHiperPeriod, h.tick, h.simHiper, decide_eq_true_eq]
  omega

/-! ## The accounting -/

/-- What completing a job writes to the control block. -/
def completeWrite (b : TCB) : TCB :=
  { b with
    xRemainingTicks := b.xRemainingTicks - 1
    previousDeadlineMet :=
      if b.weaklyHardConstraint ≠ 0 then (b.previousDeadlineMet + 1) % 2 ^ 8
      else b.previousDeadlineMet }

/-- A job that is ready and in time, as the accounting finds it. -/
structure Chargeable (p : JobParams) (t : Nat) (j : Job) : Prop where
  ready : j.ready = true
  remaining_pos : 1 ≤ j.remaining
  in_time : t ≤ j.start + p.period

theorem setReport_keeps {k : Nat} {sim : Simulator} :
    sim.Keeps i (sim.setReport i k) := by
  refine ⟨rfl, rfl, fun j hj => ?_, fun q H he => ?_, Nat.le_refl _⟩
  · simp [Simulator.setReport, Simulator.modify, hj]
  · simp only [Simulator.setReport, Simulator.modify, Function.update_self]
    exact ⟨he.period, he.duration, he.constraint, he.numOfPeriods⟩

/-- What the accounting does to the state. -/
def chargeState (sys : ClosedSystem) (c : TaskHandle) (st : State) : State :=
  if (st.job c).remaining - 1 = 0 then
    toWait c completeWrite
      (Simulator.setReport c ((st.job c).start / (sys.params c).period)) st
  else
    st.modifyTcb c fun b => { b with xRemainingTicks := b.xRemainingTicks - 1 }

theorem chargeCurrent_eq (h : Shape sys t st) (ht : t ≤ sys.hiperperiod)
    (hcur : st.pxCurrentTCB = some c) (hc : c < sys.taskCnt)
    (hj : Chargeable (sys.params c) t (st.job c)) :
    chargeCurrent st = chargeState sys c st := by
  have hs := h.static c hc
  have hH := sys.hiperperiod_lt
  have hstart : (st.tcb c).startTime ≤ t := (h.bounds c hc).start_le
  have hpos : (st.tcb c).xRemainingTicks > 0 := hj.remaining_pos
  have hin : t ≤ (st.tcb c).startTime + (sys.params c).period := hj.in_time
  have hp0 : (st.tcb c).xTaskPeriod ≠ 0 := by
    rw [hs.period]
    exact Nat.ne_of_gt (sys.params c).period_pos
  have hcont : (st.tcb c).pxContainer = some (.ready 1) :=
    h.inReady c (job_ready_iff.mp hj.ready)
  simp only [chargeCurrent, hcur]
  rw [if_pos hp0, if_pos hpos]
  simp only [State.modifyTcb_tcb, Function.update_self]
  unfold chargeState
  show (if (st.tcb c).xRemainingTicks - 1 = 0 then _ else _) =
    if (st.tcb c).xRemainingTicks - 1 = 0 then _ else _
  by_cases hdone : (st.tcb c).xRemainingTicks - 1 = 0
  · rw [if_pos hdone, if_pos hdone]
    have hle : tickSub st.xTickCount (st.tcb c).startTime ≤
        (st.tcb c).xTaskPeriod := by
      rw [h.tick, hs.period, tickSub_of_le (by omega) hstart]
      omega
    rw [← addTaskToWaitList_eq (by exact hcont)]
    simp only [completeJob, State.modifyTcb_tcb, Function.update_self,
      State.modifyTcb_xTickCount]
    rw [if_pos hle]
    split
    · next hw =>
        simp [State.modifyTcb, completeWrite, hw, State.job, hs.id, hs.period]
    · next hw =>
        simp [State.modifyTcb, completeWrite, hw, State.job, hs.id, hs.period]
  · rw [if_neg hdone, if_neg hdone]

theorem chargeCurrent_idle (hcur : st.pxCurrentTCB = some c)
    (hc : (st.tcb c).xTaskPeriod = 0) : chargeCurrent st = st := by
  simp only [chargeCurrent, hcur]
  rw [if_neg (by simp [hc])]

section ChargeState

variable (h : Shape sys t st) (hc : c < sys.taskCnt)
  (hj : Chargeable (sys.params c) t (st.job c))

include h hc hj

theorem Shape.chargeState : Shape sys t (chargeState sys c st) := by
  have hb := h.bounds c hc
  have hready := job_ready_iff.mp hj.ready
  have hless : (st.tcb c).xRemainingTicks - 1 ≤ (sys.params c).period :=
    Nat.le_trans (Nat.sub_le _ _) hb.remaining_le
  unfold FreeRtosSim.chargeState
  split
  · refine h.toWait hready (fun p hp => ?_) ⟨hb.start_le, hless⟩ setReport_keeps
    exact ⟨hp.priority, hp.id, hp.period, hp.duration, hp.skip⟩
  · refine h.modifyTcb hc (fun p hp => ?_) ⟨hb.start_le, hless⟩ rfl
      fun _ => ⟨rfl, rfl, rfl⟩
    exact ⟨hp.priority, hp.id, hp.period, hp.duration, hp.skip⟩

theorem chargeState_job :
    (FreeRtosSim.chargeState sys c st).job c = (st.job c).charge (sys.params c) := by
  have hs := h.static c hc
  have hready := job_ready_iff.mp hj.ready
  unfold FreeRtosSim.chargeState
  split
  · next hdone =>
      rw [toWait_job_self h.ready_nodup, Job.charge_done hdone]
      simp only [completeWrite, hs.skip, Simulator.setReport, Simulator.modify,
        Function.update_self]
      have hrem : (st.tcb c).xRemainingTicks - 1 = 0 := hdone
      rw [hrem]
      rfl
  · next hmore =>
      rw [modifyTcb_job_self, Job.charge_more hmore]
      rfl

omit h hc hj in
theorem chargeState_job_other (hi : i ≠ c) :
    (FreeRtosSim.chargeState sys c st).job i = st.job i := by
  unfold FreeRtosSim.chargeState
  split
  · exact toWait_job_other hi (setReport_keeps.others i hi)
  · exact modifyTcb_job_other hi

omit h hc hj in
theorem chargeState_quiet : Quiet st (FreeRtosSim.chargeState sys c st) ∧
    (FreeRtosSim.chargeState sys c st).sim.weaklyHard = st.sim.weaklyHard := by
  unfold FreeRtosSim.chargeState
  split
  · exact ⟨⟨rfl, rfl⟩, rfl⟩
  · exact ⟨⟨rfl, rfl⟩, rfl⟩

omit h hc hj in
theorem chargeState_items :
    List.Sublist ((FreeRtosSim.chargeState sys c st).items (.ready 1))
      (st.items (.ready 1)) := by
  unfold FreeRtosSim.chargeState
  split
  · rw [toWait_items_ready]
    exact List.erase_sublist
  · exact List.Sublist.refl _

end ChargeState

/-! ## The context switch -/

/-- The task the switch picks. -/
def headOrIdle (sys : ClosedSystem) (st : State) : TaskHandle :=
  (st.items (.ready 1)).head?.getD sys.taskCnt

theorem selectTopPriority_eq (h : Shape sys t st) (n : Nat) :
    selectTopPriority st n = .ok
      (if st.items (.ready 1) ≠ [] ∧ 1 ≤ n then 1 else 0) := by
  induction n with
  | zero =>
      rw [selectTopPriority, h.idleList, if_neg (by simp), if_neg (by simp)]
  | succ p ih =>
      rw [selectTopPriority]
      by_cases hp : p = 0
      · subst hp
        by_cases hr : st.items (.ready 1) = []
        · rw [ih]
          simp [hr]
        · simp [hr]
      · have hempty := h.upper (p + 1) (by omega)
        rw [if_pos (by rw [hempty]; rfl), ih]
        have hone : 1 ≤ p ∧ 1 ≤ p + 1 := ⟨by omega, by omega⟩
        simp [hone.1]

/-- The state after the switch. -/
def switched (sys : ClosedSystem) (st : State) : State :=
  { st with
    xYieldPending := false
    pxCurrentTCB := some (headOrIdle sys st)
    uxTopReadyPriority := if st.items (.ready 1) ≠ [] then 1 else 0 }

theorem vTaskSwitchContext_eq (h : Shape sys t st) :
    vTaskSwitchContext st = .ok (switched sys st) := by
  have htop : (st.items (.ready 1) ≠ [] ∧ 1 ≤ st.uxTopReadyPriority) ↔
      st.items (.ready 1) ≠ [] := ⟨fun hc => hc.1, fun hc => ⟨hc, h.top hc⟩⟩
  have hsel : selectTopPriority { st with xYieldPending := false }
      st.uxTopReadyPriority =
      .ok (if st.items (.ready 1) ≠ [] then 1 else 0) := by
    have hquiet : Shape sys t { st with xYieldPending := false } :=
      { h with }
    rw [selectTopPriority_eq hquiet]
    simp only [State.items] at htop ⊢
    simp only [htop]
  rw [vTaskSwitchContext, if_neg (by simp [h.notSuspended])]
  simp only [taskSelectHighestPriorityTask, hsel, bind, Except.bind, pure,
    Except.pure, switched, headOrIdle]
  by_cases hr : st.items (.ready 1) = []
  · simp only [State.items] at hr
    have hidle := h.idleList
    simp only [State.items] at hidle
    simp [hr, hidle, State.items]
  · obtain ⟨y, l, hyl⟩ := List.exists_cons_of_ne_nil hr
    simp only [State.items] at hyl
    simp [hyl, State.items]

theorem Shape.switched (h : Shape sys t st) : Shape sys t (switched sys st) :=
  { h with
    top := fun hne => by
      have hne' : st.items (.ready 1) ≠ [] := hne
      show 1 ≤ if st.items (.ready 1) ≠ [] then 1 else 0
      rw [if_pos hne'] }

end FreeRtosSim
