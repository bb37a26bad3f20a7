import FreeRtosSim.Proofs.Refine

/-!
# When jobs begin and end

Two laws about single jobs. A task is released at every multiple of its
period and at no other time, and it is always on exactly one of its two
lists. A job is killed at the first tick at which it cannot finish any more,
never earlier, and never in the tick that was charged to it; so the branch of
the accounting that reports a job completing after its deadline is dead.
-/

namespace FreeRtosSim

variable {sys : ClosedSystem} {t : Nat} {st st₁ st₂ st₃ : State} {i : Nat}

/-! ## Releases -/

/-- Task `i` has one state item, on ready list 1 or on the wait list. -/
def OnOneList (st : State) (i : TaskHandle) : Prop :=
  (st.items (.ready 1)).count i + (st.items .wait).count i = 1

theorem Shape.onOneList (h : Shape sys t st) (hi : i < sys.taskCnt) :
    OnOneList st i := by
  have hmem := (h.mem i).mpr hi
  rw [OnOneList, ← List.count_append]
  exact List.count_eq_one_of_mem h.nodup hmem

/-- `wakeTasks` leaves the next job of the task out, as the control block
stands when it comes to the task. -/
def leftOut (alg : Algorithm) (b : TCB) : Prop :=
  alg = .rto ∧ b.weaklyHardConstraint ≠ 0 ∧
    (b.previousDeadlineMet : Int) ≥ (b.weaklyHardConstraint : Int) - 1

theorem leftOut_iff (h : Shape sys t st) (hi : i < sys.taskCnt) :
    leftOut sys.alg (st.tcb i) ↔ skips sys.alg (sys.params i) (st.job i) := by
  have hm : (st.job i).met = (st.tcb i).previousDeadlineMet := rfl
  rw [leftOut, skips, Job.red, Job.owes, (h.static i hi).skip, hm]
  refine and_congr_right fun _ => ?_
  omega

/-- A tick that starts a period of task `i` finds it waiting and releases its
next job or leaves it out. -/
theorem TickStates.released (h : TickStates sys t st st₁ st₂ st₃)
    (hi : i < sys.taskCnt) (hp : (t + 1) % (sys.params i).period = 0) :
    i ∈ st₂.items .wait ∧
    (st₃.tcb i).xRemainingTicks = (st₃.tcb i).xTaskDuration ∧
    (st₃.tcb i).startTime = t + 1 ∧
    (leftOut sys.alg (st₂.tcb i) → i ∈ st₃.items .wait) ∧
    (¬ leftOut sys.alg (st₂.tcb i) → i ∈ st₃.items (.ready 1)) := by
  have hfit := sys.fitsCulledAt i t
  have hend : (t / (sys.params i).period + 1) * (sys.params i).period ≤ t + 1 := by
    have hdvd := Nat.dvd_of_mod_eq_zero hp
    have hmul := Nat.div_mul_cancel hdvd
    rw [Nat.succ_div, if_pos hdvd] at hmul
    exact Nat.le_of_eq hmul
  have hw : (sys.culledAt i t).ready = false := hfit.waiting_at_end hend
  have hnext : sys.jobAt i (t + 1) =
      (sys.culledAt i t).release sys.alg (sys.params i) (t + 1) :=
    (sys.jobAt_succ i t).trans
      (Job.wake_released hw hp)
  obtain ⟨hrem, hstart⟩ := Job.release_remaining sys.alg (sys.params i) (t + 1)
    (sys.culledAt i t)
  have hskip : leftOut sys.alg (st₂.tcb i) ↔
      skips sys.alg (sys.params i) (sys.culledAt i t) := by
    rw [leftOut_iff h.killed.shape hi, h.killed.job i hi]
  refine ⟨(h.killed.mem_wait_iff hi).mpr hw, ?_, ?_, fun hs => ?_, fun hs => ?_⟩
  · rw [h.woken.remaining hi, hnext, hrem, (h.woken.shape.static i hi).duration]
  · rw [h.woken.start hi, hnext, hstart]
  · rw [h.woken.mem_wait_iff hi, hnext, Bool.eq_false_iff, ne_eq,
      Job.release_ready hw]
    exact not_not.mpr (hskip.mp hs)
  · rw [h.woken.mem_ready_iff hi, hnext, Job.release_ready hw]
    exact fun hc => hs (hskip.mpr hc)

/-- At any other tick the task is not released: it does not become ready, and
its job is the one it had. -/
theorem TickStates.kept (h : TickStates sys t st st₁ st₂ st₃)
    (hi : i < sys.taskCnt) (hp : (t + 1) % (sys.params i).period ≠ 0) :
    (i ∈ st₃.items (.ready 1) → i ∈ st.items (.ready 1)) ∧
    (st₃.tcb i).startTime = (st.tcb i).startTime ∧
    (st₃.tcb i).xRemainingTicks ≤ (st.tcb i).xRemainingTicks := by
  have hnext : sys.jobAt i (t + 1) = sys.culledAt i t :=
    (sys.jobAt_succ i t).trans
      (Job.wake_kept hp)
  refine ⟨fun hr => ?_, ?_, ?_⟩
  · rw [h.woken.mem_ready_iff hi] at hr
    rw [h.follows.mem_ready_iff hi]
    exact ready_of_succ sys.alg (sys.params i) (sys.running i) hp hr
  · rw [h.woken.start hi, h.follows.start hi, hnext]
    rw [(sys.fitsCulledAt i t).start_eq,
      (sys.fitsAt i t).start_eq]
  · rw [h.woken.remaining hi, h.follows.remaining hi, hnext]
    refine Nat.le_trans (Job.cull_remaining_le _) ?_
    exact Job.account_remaining_le _

/-- No release is lost and none is invented. -/
theorem release_instants (sys : ClosedSystem) :
    (∀ t < sys.hiperperiod, ∃ st, sys.run t = .ok st ∧
      ∀ i < sys.taskCnt, OnOneList st i ∧
        (st.tcb i).startTime =
          (sys.task i).period * (t / (sys.task i).period)) ∧
    (∀ t, t + 1 < sys.hiperperiod → ∃ st st₂ st₃, sys.run t = .ok st ∧
      sys.afterKill t = .ok st₂ ∧ sys.afterWake t = .ok st₃ ∧
      sys.run (t + 1) = vTaskSwitchContext st₃ ∧
      ∀ i < sys.taskCnt,
        ((t + 1) % (sys.task i).period = 0 →
          i ∈ st₂.items .wait ∧
          (st₃.tcb i).xRemainingTicks = (st₃.tcb i).xTaskDuration ∧
          (st₃.tcb i).startTime = t + 1 ∧
          (leftOut sys.alg (st₂.tcb i) → i ∈ st₃.items .wait) ∧
          (¬ leftOut sys.alg (st₂.tcb i) → i ∈ st₃.items (.ready 1))) ∧
        ((t + 1) % (sys.task i).period ≠ 0 →
          (i ∈ st₃.items (.ready 1) → i ∈ st.items (.ready 1)) ∧
          (st₃.tcb i).startTime = (st.tcb i).startTime ∧
          (st₃.tcb i).xRemainingTicks ≤ (st.tcb i).xRemainingTicks)) := by
  constructor
  · intro t ht
    obtain ⟨st, hrun, h⟩ := run_follows sys ht
    refine ⟨st, hrun, fun i hi => ⟨h.shape.onOneList hi, ?_⟩⟩
    rw [h.start hi,
      (sys.fitsAt i t).start_eq]
    exact Nat.mul_comm _ _
  · intro t ht
    obtain ⟨st, st₁, st₂, st₃, h⟩ := tick_states sys (show t < _ by omega)
    exact ⟨st, st₂, st₃, h.run, h.afterKill, h.afterWake, h.run_succ ht,
      fun i hi => ⟨h.released hi, h.kept hi⟩⟩

/-! ## Kills -/

/-- After `killTasks` every ready job has work left and can finish in time. -/
theorem TickStates.in_time (h : TickStates sys t st st₁ st₂ st₃)
    (hi : i ∈ st₂.items (.ready 1)) :
    1 ≤ (st₂.tcb i).xRemainingTicks ∧ (st₂.tcb i).startTime ≤ t + 1 ∧
    t + 1 - (st₂.tcb i).startTime + (st₂.tcb i).xRemainingTicks ≤
      (st₂.tcb i).xTaskPeriod := by
  have hlt := h.killed.shape.lt_of_ready hi
  have hfit := sys.fitsCulledAt i t
  have hr := (h.killed.mem_ready_iff hlt).mp hi
  have hstart := h.killed.start hlt
  have hle := (h.killed.shape.bounds i hlt).start_le
  have hfin := hfit.finish_le hr
  rw [h.killed.remaining hlt, (h.killed.shape.static i hlt).period]
  refine ⟨hfit.remaining_pos hr, hle, ?_⟩
  omega

/-- `killTasks` removes exactly the jobs that cannot finish any more. -/
theorem TickStates.killed_iff (h : TickStates sys t st st₁ st₂ st₃)
    (hi : i ∈ st₁.items (.ready 1)) :
    i ∉ st₂.items (.ready 1) ↔
      (st₁.tcb i).startTime + (st₁.tcb i).xTaskPeriod <
        t + 1 + (st₁.tcb i).xRemainingTicks := by
  have hlt := h.charged.shape.lt_of_ready hi
  have hr := (h.charged.mem_ready_iff hlt).mp hi
  have hcull : (sys.culledAt i t).ready = true ↔ (sys.accountedAt i t).ready = true
      ∧ ¬ (sys.accountedAt i t).late (sys.params i) (t + 1) := Job.cull_ready
  rw [h.killed.mem_ready_iff hlt, hcull, h.charged.start hlt,
    h.charged.remaining hlt, (h.charged.shape.static i hlt).period]
  simp only [hr, true_and, not_not, Job.late]

/-- At the end of every tick since its release, the job could still finish. -/
theorem TickStates.not_earlier (h : TickStates sys t st st₁ st₂ st₃)
    (ht : t < sys.hiperperiod) (hi : i ∈ st₁.items (.ready 1)) {u : Nat}
    (hlo : (st₁.tcb i).startTime ≤ u) (hu : u ≤ t) :
    ∃ s, sys.run u = .ok s ∧ i ∈ s.items (.ready 1) ∧
      (s.tcb i).startTime = (st₁.tcb i).startTime ∧
      u + (s.tcb i).xRemainingTicks ≤
        (s.tcb i).startTime + (s.tcb i).xTaskPeriod := by
  have hlt := h.charged.shape.lt_of_ready hi
  have hr := Job.account_ready ((h.charged.mem_ready_iff hlt).mp hi)
  have hfit := sys.fitsAt i t
  have hstart : (st₁.tcb i).startTime =
      t / (sys.params i).period * (sys.params i).period := by
    rw [h.charged.start hlt]
    exact (hfit.account (sys.running i t)).1
  rw [hstart] at hlo
  have hru := ready_since sys.alg (sys.params i) (sys.running i) hr u hlo hu
  have hdiv : u / (sys.params i).period = t / (sys.params i).period := by
    refine Nat.le_antisymm (Nat.div_le_div_right hu) ?_
    exact (Nat.le_div_iff_mul_le (sys.params i).period_pos).mpr hlo
  obtain ⟨s, hrun, hs⟩ := run_follows sys (show u < sys.hiperperiod by omega)
  have hfitu := sys.fitsAt i u
  have hfin := hfitu.finish_le hru
  refine ⟨s, hrun, (hs.mem_ready_iff hlt).mpr hru, ?_, ?_⟩
  · rw [hs.start hlt, hfitu.start_eq, hdiv, hstart]
  · rw [hs.start hlt, hs.remaining hlt, (hs.shape.static i hlt).period]
    exact hfin

/-- The tick a task was charged does not cost it its job. -/
theorem TickStates.charged_kept (h : TickStates sys t st st₁ st₂ st₃)
    (hcur : st.pxCurrentTCB = some i) (hi : i ∈ st₁.items (.ready 1)) :
    i ∈ st₂.items (.ready 1) := by
  have hlt := h.charged.shape.lt_of_ready hi
  have hr := (h.charged.mem_ready_iff hlt).mp hi
  have hrun : sys.running i t = true := (running_iff h.run).mpr hcur
  rw [h.killed.mem_ready_iff hlt, sys.culledAt_eq, Job.cull_ready]
  exact ⟨hr, fun hlate => (late_idle ⟨hr, hlate⟩).1 hrun⟩

/-- A job is killed exactly when it has become hopeless, and no job completes
after its deadline. -/
theorem kill_instants (sys : ClosedSystem) :
    (∀ t, t + 1 < sys.hiperperiod → ∃ st st₁ st₂, sys.run t = .ok st ∧
      sys.afterCharge t = .ok st₁ ∧ sys.afterKill t = .ok st₂ ∧
      (∀ i ∈ st₂.items (.ready 1), 1 ≤ (st₂.tcb i).xRemainingTicks ∧
        (st₂.tcb i).startTime ≤ t + 1 ∧
        t + 1 - (st₂.tcb i).startTime + (st₂.tcb i).xRemainingTicks ≤
          (st₂.tcb i).xTaskPeriod) ∧
      (∀ i ∈ st₁.items (.ready 1), i ∉ st₂.items (.ready 1) ↔
        (st₁.tcb i).startTime + (st₁.tcb i).xTaskPeriod <
          t + 1 + (st₁.tcb i).xRemainingTicks) ∧
      (∀ i ∈ st₁.items (.ready 1), ∀ u, (st₁.tcb i).startTime ≤ u → u ≤ t →
        ∃ s, sys.run u = .ok s ∧ i ∈ s.items (.ready 1) ∧
          (s.tcb i).startTime = (st₁.tcb i).startTime ∧
          u + (s.tcb i).xRemainingTicks ≤
            (s.tcb i).startTime + (s.tcb i).xTaskPeriod) ∧
      (∀ i, st.pxCurrentTCB = some i → i ∈ st₁.items (.ready 1) →
        i ∈ st₂.items (.ready 1))) ∧
    (∀ t < sys.hiperperiod, ∃ st₁, sys.afterCharge t = .ok st₁ ∧
      st₁.console = []) := by
  constructor
  · intro t ht
    obtain ⟨st, st₁, st₂, st₃, h⟩ := tick_states sys (show t < _ by omega)
    exact ⟨st, st₁, st₂, h.run, h.afterCharge, h.afterKill,
      fun _ => h.in_time, fun _ => h.killed_iff,
      fun i hi u hlo hu => h.not_earlier (by omega) hi hlo hu,
      fun _ => h.charged_kept⟩
  · intro t ht
    obtain ⟨st, st₁, st₂, st₃, h⟩ := tick_states sys ht
    exact ⟨st₁, h.afterCharge, h.charged.console⟩

end FreeRtosSim
