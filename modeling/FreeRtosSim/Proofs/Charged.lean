import FreeRtosSim.Job.Charges
import FreeRtosSim.Proofs.Verdict
import FreeRtosSim.Sim.Generator
import FreeRtosSim.Sim.Observe

/-!
# What the report says about the processor

A task is charged a tick by losing one of its remaining ticks to the
accounting, and that happens exactly when it is the running task. So the
entry of a period tells whether the task ran for as many ticks of the period
as its jobs take, and the index the accounting computes for it from
`start_time` is the period the tick falls in, which the table has room for.
-/

namespace FreeRtosSim

variable {sys : ClosedSystem} {t : Nat} {st : State} {i k : Nat}

/-! ## The call of `setReport` -/

theorem uxListRemove_sim (x : TaskHandle) (st : State) :
    (uxListRemove x st).sim = st.sim := by
  unfold uxListRemove
  split <;> rfl

theorem addTaskToWaitList_sim (x : TaskHandle) (st : State) :
    (addTaskToWaitList x st).sim = st.sim := uxListRemove_sim x st

theorem completeJob_sim (c : TaskHandle) (st : State) :
    (completeJob c st).sim =
      if tickSub st.xTickCount (st.tcb c).startTime ≤ (st.tcb c).xTaskPeriod then
        st.sim.setReport (st.tcb c).xTaskId
          ((st.tcb c).startTime / (st.tcb c).xTaskPeriod)
      else st.sim := by
  unfold completeJob
  dsimp only
  split
  · rw [addTaskToWaitList_sim]
    split <;> rfl
  · rfl

/-- The accounting writes to the simulator's globals through that call only. -/
theorem chargeCurrent_sim (st : State) :
    (chargeCurrent st).sim =
      (reportLog st).foldl (fun sim call => sim.setReport call.1 call.2) st.sim := by
  unfold chargeCurrent reportLog
  cases hcur : st.pxCurrentTCB with
  | none => rfl
  | some c =>
      dsimp only
      by_cases hp : (st.tcb c).xTaskPeriod = 0
      · rw [if_neg (by simp [hp]), if_neg (by simp [hp]), List.foldl_nil]
      · rw [if_pos hp]
        have hless : ∀ s, s = (if (st.tcb c).xRemainingTicks > 0 then
              st.modifyTcb c fun t =>
                { t with xRemainingTicks := t.xRemainingTicks - 1 }
            else st) →
            s.sim = st.sim ∧ s.xTickCount = st.xTickCount ∧
            (s.tcb c).xRemainingTicks = (st.tcb c).xRemainingTicks - 1 ∧
            (s.tcb c).startTime = (st.tcb c).startTime ∧
            (s.tcb c).xTaskPeriod = (st.tcb c).xTaskPeriod ∧
            (s.tcb c).xTaskId = (st.tcb c).xTaskId := by
          rintro s rfl
          split
          · simp
          · next hzero =>
              refine ⟨rfl, rfl, ?_, rfl, rfl, rfl⟩
              omega
        generalize (if (st.tcb c).xRemainingTicks > 0 then _ else st) = s at hless
        obtain ⟨hsim, htick, hrem, hstart, hper, hid⟩ := hless s rfl
        by_cases hdone : (st.tcb c).xRemainingTicks - 1 = 0
        · rw [if_pos (hrem.trans hdone), completeJob_sim, hsim, htick, hstart,
            hper, hid]
          by_cases hin : tickSub st.xTickCount (st.tcb c).startTime ≤
              (st.tcb c).xTaskPeriod
          · rw [if_pos hin, if_pos ⟨hp, hdone, hin⟩, List.foldl_cons, List.foldl_nil]
          · rw [if_neg hin, if_neg fun h => hin h.2.2, List.foldl_nil]
        · rw [if_neg (by rwa [hrem]), if_neg fun h => hdone h.2.1, List.foldl_nil, hsim]

theorem chargeCurrent_hiperperiod (st : State) :
    (chargeCurrent st).sim.hiperperiod = st.sim.hiperperiod := by
  rw [chargeCurrent_sim]
  unfold reportLog
  cases st.pxCurrentTCB with
  | none => rfl
  | some c =>
      dsimp only
      split <;> rfl

/-! ## Charges -/

/-- The tick handler of tick `t + 1` takes a remaining tick from task `i`. -/
def ClosedSystem.chargedAt (sys : ClosedSystem) (i t : Nat) : Bool :=
  match sys.run t, sys.afterCharge t with
  | .ok st, .ok st₁ =>
      (st₁.tcb i).xRemainingTicks < (st.tcb i).xRemainingTicks
  | _, _ => false

/-- A process that has ended does not run. -/
theorem run_after_exit (ht : sys.hiperperiod ≤ t) :
    ∃ e, sys.run t = .error e := by
  induction t, ht using Nat.le_induction with
  | base =>
      obtain ⟨st, hexit, -⟩ := run_exits sys
      exact ⟨_, hexit⟩
  | succ t _ ih =>
      obtain ⟨e, he⟩ := ih
      exact ⟨e, by simp only [ClosedSystem.run, he, bind, Except.bind]⟩

theorem lt_of_running (hrun : sys.running i t = true) :
    t < sys.hiperperiod := by
  by_contra hge
  obtain ⟨e, he⟩ := run_after_exit (Nat.le_of_not_lt hge)
  simp [ClosedSystem.running, he] at hrun

/-- The running task is ready. -/
theorem ready_of_running (hi : i < sys.taskCnt)
    (hrun : sys.running i t = true) : (sys.jobAt i t).ready = true := by
  obtain ⟨st, hst, h⟩ := run_follows sys (lt_of_running hrun)
  have hcur := (running_iff hst).mp hrun
  rw [h.current, Option.some_inj] at hcur
  rw [← h.mem_ready_iff hi]
  rcases headOrIdle_cases h with ⟨hmem, -⟩ | ⟨-, hidle⟩
  · rwa [hcur] at hmem
  · rw [← hcur, hidle] at hi
    exact absurd hi (Nat.lt_irrefl _)

theorem chargedAt_eq (ht : t < sys.hiperperiod) (hi : i < sys.taskCnt) :
    sys.chargedAt i t = sys.running i t := by
  obtain ⟨st, st₁, st₂, st₃, h⟩ := tick_states sys ht
  have hacc := sys.accountedAt_eq i t
  simp only [ClosedSystem.chargedAt, h.run, h.afterCharge]
  rw [h.charged.remaining hi, h.follows.remaining hi, hacc]
  cases hrun : sys.running i t with
  | false =>
      rw [Job.account_idle (by simp)]
      exact decide_eq_false (Nat.lt_irrefl _)
  | true =>
      have hr := ready_of_running hi hrun
      have hpos := (sys.fitsAt i t).remaining_pos hr
      rw [Job.account_charged hr]
      refine decide_eq_true ?_
      by_cases hdone : (sys.jobAt i t).remaining - 1 = 0
      · rw [Job.charge_done hdone]
        exact hpos
      · rw [Job.charge_more hdone]
        show (sys.jobAt i t).remaining - 1 < (sys.jobAt i t).remaining
        omega

/-! ## The report -/

theorem end_of_period_le (hk : k < sys.hiperperiod / (sys.params i).period) :
    (k + 1) * (sys.params i).period ≤ sys.hiperperiod :=
  (Nat.le_div_iff_mul_le (sys.params i).period_pos).mp hk

theorem row_iff_charges (hi : i < sys.taskCnt)
    (hk : k < sys.hiperperiod / (sys.params i).period) :
    (sys.row i k = true ↔ chargesIn (sys.params i) (sys.running i) k
      (sys.params i).period = (sys.params i).duration) ∧
    chargesIn (sys.params i) (sys.running i) k (sys.params i).period ≤
      (sys.params i).duration :=
  rowAt_iff_charges (fun _ => ready_of_running hi) (lastTick_le hk)

/-- Every tick of a period comes before the exit, so in it the running task
is the one that is charged. -/
theorem chargedIn_eq (hi : i < sys.taskCnt)
    (hk : k < sys.hiperperiod / (sys.params i).period) :
    chargesIn (sys.params i) (sys.chargedAt i) k (sys.params i).period =
      chargesIn (sys.params i) (sys.running i) k (sys.params i).period := by
  have hend := end_of_period_le hk
  rw [Nat.succ_mul] at hend
  have hsame : ∀ v < (sys.params i).period,
      sys.chargedAt i (k * (sys.params i).period + v) =
        sys.running i (k * (sys.params i).period + v) := fun v hv =>
    chargedAt_eq (by omega) hi
  refine Nat.le_antisymm (Nat.count_mono_left fun v hv h => ?_)
    (Nat.count_mono_left fun v hv h => ?_)
  · rwa [hsame v hv] at h
  · rwa [hsame v hv]

/-- The tick that calls `setReport` does so for the period it is in. -/
theorem reportLog_lt (h : Follows sys t st) (ht : t < sys.hiperperiod)
    (hcall : (i, k) ∈ reportLog st.advance) :
    i < sys.taskCnt ∧ k < sys.hiperperiod / (sys.params i).period := by
  have hcur : st.advance.pxCurrentTCB = some (headOrIdle sys st) := h.current
  simp only [reportLog, hcur] at hcall
  rcases headOrIdle_cases h with ⟨-, hlt⟩ | ⟨-, hidle⟩
  · generalize headOrIdle sys st = c at *
    have hs := h.shape.static c hlt
    have hstart := h.start hlt
    rw [(sys.fitsAt c t).start_eq] at hstart
    split at hcall
    · have hpair := List.mem_singleton.mp hcall
      rw [Prod.mk.injEq] at hpair
      obtain ⟨hid, hidx⟩ := hpair
      have hci : c = i := hs.id.symm.trans hid.symm
      have hkt : t / (sys.params c).period = k := by
        have hidx : (st.tcb c).startTime / (st.tcb c).xTaskPeriod = k := hidx.symm
        rwa [hstart, hs.period,
          Nat.mul_div_cancel _ (sys.params c).period_pos] at hidx
      subst hci
      refine ⟨hlt, ?_⟩
      rw [← hkt, Nat.div_lt_iff_lt_mul (sys.params c).period_pos,
        Nat.div_mul_cancel (sys.params_period_dvd hlt)]
      exact ht
    · exact absurd hcall List.not_mem_nil
  · rw [if_neg] at hcall
    · exact absurd hcall List.not_mem_nil
    · rw [hidle]
      exact fun hc => hc.1 h.shape.idle

/-- The report means what it says. -/
theorem report_means_charged (sys : ClosedSystem)
    (hH : (sys.hiperperiod : Int) < maxHiperperiod) :
    (∃ st, sys.run sys.hiperperiod = .error (.exit st) ∧
      ∀ i < sys.taskCnt,
        (st.sim.taskSet i).numOfPeriods =
          sys.hiperperiod / (sys.task i).period ∧
        (st.sim.taskSet i).numOfPeriods ≤ maxPeriodCnt ∧
        ∀ k < (st.sim.taskSet i).numOfPeriods,
          ((st.sim.taskSet i).report k = true ↔
            Nat.count (fun v =>
                sys.running i (k * (sys.task i).period + v) = true)
              (sys.task i).period = (sys.task i).duration) ∧
          Nat.count (fun v =>
              sys.chargedAt i (k * (sys.task i).period + v) = true)
            (sys.task i).period ≤ (sys.task i).duration) ∧
    ∀ t < sys.hiperperiod, ∃ st b st', sys.run t = .ok st ∧
      tickPrologue sys.alg st = .ok (b, st') ∧
      sys.afterCharge t = .ok (chargeCurrent st') ∧
      ∀ i k, (i, k) ∈ reportLog st' →
        i < sys.taskCnt ∧ k < (st'.sim.taskSet i).numOfPeriods := by
  constructor
  · obtain ⟨st, hrun, hfin⟩ := run_exits sys
    refine ⟨st, hrun, fun i hi => ?_⟩
    have hnum := (hfin.entry i hi).numOfPeriods
    refine ⟨hnum, ?_, fun k hk => ?_⟩
    · have hle := Nat.div_le_self sys.hiperperiod (sys.task i).period
      have hmax : maxHiperperiod = 10000 := rfl
      rw [hnum, maxPeriodCnt]
      omega
    · rw [hnum] at hk
      obtain ⟨hiff, hle⟩ := row_iff_charges hi hk
      rw [← chargedIn_eq hi hk] at hle
      rw [hfin.report i hi]
      exact ⟨hiff, hle⟩
  · intro t ht
    obtain ⟨st, hrun, h⟩ := run_follows sys ht
    refine ⟨st, _, _, hrun, tickPrologue_eq h.shape ht, afterCharge_eq hrun h ht,
      fun i k hcall => ?_⟩
    obtain ⟨hi, hk⟩ := reportLog_lt h ht hcall
    refine ⟨hi, ?_⟩
    show k < (st.sim.taskSet i).numOfPeriods
    rw [(h.shape.entry i hi).numOfPeriods]
    exact hk

theorem report_means_charged_twoTasks :
    (∃ st, (twoTasks .rto).run 4 = .error (.exit st) ∧
      ∀ i < 2,
        (st.sim.taskSet i).numOfPeriods =
          4 / ((twoTasks .rto).task i).period ∧
        (st.sim.taskSet i).numOfPeriods ≤ maxPeriodCnt ∧
        ∀ k < (st.sim.taskSet i).numOfPeriods,
          ((st.sim.taskSet i).report k = true ↔
            Nat.count (fun v => (twoTasks .rto).running i
                (k * ((twoTasks .rto).task i).period + v) = true)
              ((twoTasks .rto).task i).period =
                ((twoTasks .rto).task i).duration) ∧
          Nat.count (fun v => (twoTasks .rto).chargedAt i
              (k * ((twoTasks .rto).task i).period + v) = true)
            ((twoTasks .rto).task i).period ≤
              ((twoTasks .rto).task i).duration) ∧
    ∀ t < 4, ∃ st b st', (twoTasks .rto).run t = .ok st ∧
      tickPrologue .rto st = .ok (b, st') ∧
      (twoTasks .rto).afterCharge t = .ok (chargeCurrent st') ∧
      ∀ i k, (i, k) ∈ reportLog st' →
        i < 2 ∧ k < (st'.sim.taskSet i).numOfPeriods :=
  report_means_charged (twoTasks .rto) (by decide)

end FreeRtosSim
