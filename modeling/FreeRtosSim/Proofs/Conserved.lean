import FreeRtosSim.Job.Tally
import FreeRtosSim.Proofs.Counter
import FreeRtosSim.Proofs.Lifetime

/-!
# Conservation of jobs

The balance of `Job.Tally` for the tasks of a run. What a tick did to a job
is read off the run itself: the accounting completed it, `killTasks` killed
it, or the tick that should have released it ended with the task on the wait
list. The report, `times_killed` and the number of skipped jobs then add up
to the number of jobs that are over, at the end of every tick.
-/

namespace FreeRtosSim

variable {sys : ClosedSystem} {t u k : Nat} {st st₁ st₂ st₃ : State} {i : Nat}

namespace ClosedSystem

variable (sys : ClosedSystem)

/-- The tick that starts period `k` of task `i`, for `k = 0` the creation,
leaves the task on the wait list. -/
def skippedAt (i k : Nat) : Bool :=
  match sys.run (k * (sys.task i).period) with
  | .ok st => i ∈ st.items .wait
  | .error _ => false

/-- How many of the first `n` jobs of task `i` were skipped. -/
def skippedCount (i n : Nat) : Nat :=
  Nat.count (fun k => sys.skippedAt i k = true) n

end ClosedSystem

/-! ## The events of a tick -/

theorem skippedAt_iff (hi : i < sys.taskCnt)
    (hk : k * (sys.params i).period < sys.hiperperiod) :
    sys.skippedAt i k = true ↔
      (sys.jobAt i (k * (sys.params i).period)).ready = false := by
  obtain ⟨st, hrun, h⟩ := run_follows sys hk
  have hrun' : sys.run (k * (sys.task i).period) = .ok st := hrun
  simp only [ClosedSystem.skippedAt, hrun', decide_eq_true_eq]
  exact h.mem_wait_iff hi

theorem completesAt_done (ht : t < sys.hiperperiod) (hi : i < sys.taskCnt) :
    sys.completesAt i t = true ↔
      doneIn sys.alg (sys.params i) (sys.running i) t := by
  obtain ⟨st, st₁, st₂, st₃, h⟩ := tick_states sys ht
  exact h.completesAt_iff hi

theorem killedAt_late (ht : t < sys.hiperperiod) (hi : i < sys.taskCnt) :
    sys.killedAt i t = true ↔
      lateIn sys.alg (sys.params i) (sys.running i) t := by
  obtain ⟨st, st₁, st₂, st₃, h⟩ := tick_states sys ht
  rw [lateIn_iff]
  exact h.killedAt_iff hi

/-- Only RTO skips jobs. -/
theorem rto_of_skipped (hi : i < sys.taskCnt)
    (hk : k * (sys.params i).period < sys.hiperperiod)
    (hskip : sys.skippedAt i k = true) : sys.alg = .rto := by
  rw [skippedAt_iff hi hk] at hskip
  have hiff := released_iff sys.alg (sys.params i) (sys.running i)
    (Nat.le_refl (k * (sys.params i).period))
  have hout := mt hiff.mpr (by simp [hskip])
  rw [not_not] at hout
  exact hout.1

/-! ## The balance -/

/-- The skipped jobs are those the machine left out. -/
theorem skippedCount_eq (hi : i < sys.taskCnt) (ht : t < sys.hiperperiod) :
    sys.skippedCount i (t / (sys.params i).period + 1) =
      leftOutCount sys.alg (sys.params i) (sys.running i)
        (t / (sys.params i).period + 1) := by
  refine count_congr fun k hk => skippedAt_iff hi ?_
  have hle := Nat.mul_le_mul_right (sys.params i).period (Nat.le_of_lt_succ hk)
  have hlo := Nat.div_mul_le_self t (sys.params i).period
  omega

theorem killed_eq_count (ht : t ≤ sys.hiperperiod) (hi : i < sys.taskCnt) :
    (sys.jobAt i t).killed =
      Nat.count (fun u => sys.killedAt i u = true) t := by
  refine (jobAt_killed sys.alg (sys.params i) (sys.running i) t).trans ?_
  refine count_congr fun u hu => ?_
  exact (killedAt_late (by omega) hi).symm

theorem reported_iff (ht : t ≤ sys.hiperperiod) (hi : i < sys.taskCnt) :
    (sys.jobAt i t).report k = true ↔
      ∃ u < t, u / (sys.params i).period = k ∧ sys.completesAt i u = true := by
  refine jobAt_report_iff.trans (exists_congr fun u => ?_)
  refine and_congr_right fun hu => and_congr_right fun _ => ?_
  exact (completesAt_done (by omega) hi).symm

/-- Entries nobody has written do not count. -/
theorem metCount_of_later {row : Nat → Bool} {n N : Nat} (hle : n ≤ N)
    (hlater : ∀ k, n ≤ k → row k = false) : metCount row N = metCount row n := by
  induction N, hle using Nat.le_induction with
  | base => rfl
  | succ N hle ih =>
      unfold metCount at ih ⊢
      rw [Nat.count_succ, ih, hlater N hle]
      simp

section Tick

variable (h : Follows sys t st) (ht : t < sys.hiperperiod) (hi : i < sys.taskCnt)

include h ht hi

/-- The periods that have begun are periods of the report. -/
theorem Follows.period_lt : t / (sys.params i).period <
    (st.sim.taskSet i).numOfPeriods := by
  have hP := (sys.params i).period_pos
  have hdvd := sys.params_period_dvd hi
  rw [(h.shape.entry i hi).numOfPeriods]
  show t / (sys.params i).period < sys.hiperperiod / (sys.params i).period
  rw [Nat.div_lt_iff_lt_mul hP, Nat.div_mul_cancel hdvd]
  exact ht

theorem Follows.balance :
    metCount (st.sim.taskSet i).report (st.sim.taskSet i).numOfPeriods +
      (st.sim.taskSet i).timesKilled +
      sys.skippedCount i (t / (sys.params i).period + 1) =
    t / (sys.params i).period + if i ∈ st.items .wait then 1 else 0 := by
  have hreport : (st.sim.taskSet i).report = (sys.jobAt i t).report :=
    congrArg Job.report (h.job i hi)
  have hkilled : (st.sim.taskSet i).timesKilled = (sys.jobAt i t).killed :=
    congrArg Job.killed (h.job i hi)
  have htally := tally_jobAt sys.alg (sys.params i) (sys.running i) t
  have hmet := metCount_of_later (h.period_lt ht hi)
    fun k hk => (sys.fitsAt i t).report_later k hk
  rw [hreport, hkilled, hmet, skippedCount_eq hi ht]
  simp only [h.mem_wait_iff hi]
  rw [Job.Tally, Job.judged] at htally
  refine htally.trans ?_
  cases (sys.jobAt i t).ready <;> rfl

end Tick

/-- Every job that is over was completed, killed or skipped, and no two of
these happen to one job. -/
theorem job_conservation (sys : ClosedSystem) :
    (∀ t < sys.hiperperiod, ∃ st, sys.run t = .ok st ∧
      ∀ i < sys.taskCnt,
        let entry := st.sim.taskSet i
        let n := t / (sys.task i).period
        OnOneList st i ∧
        (∀ k, entry.report k = true → k < entry.numOfPeriods) ∧
        metCount entry.report entry.numOfPeriods + entry.timesKilled +
          sys.skippedCount i (n + 1) =
          n + (if i ∈ st.items .wait then 1 else 0) ∧
        (∀ k ≤ n, sys.skippedAt i k = true → sys.alg = .rto) ∧
        (∀ k, entry.report k = true ↔
          ∃ u < t, u / (sys.task i).period = k ∧
            sys.completesAt i u = true) ∧
        entry.timesKilled =
          Nat.count (fun u => sys.killedAt i u = true) t) ∧
    ∀ i < sys.taskCnt, ∀ u < sys.hiperperiod, ∀ v < sys.hiperperiod,
      u / (sys.task i).period = v / (sys.task i).period →
      sys.killedAt i u = true →
        ¬ sys.completesAt i v = true ∧ (sys.killedAt i v = true → u = v) := by
  constructor
  · intro t ht
    obtain ⟨st, hrun, h⟩ := run_follows sys ht
    refine ⟨st, hrun, fun i hi => ?_⟩
    have hreport : (st.sim.taskSet i).report = (sys.jobAt i t).report :=
      congrArg Job.report (h.job i hi)
    have hkilled : (st.sim.taskSet i).timesKilled = (sys.jobAt i t).killed :=
      congrArg Job.killed (h.job i hi)
    have hlo := Nat.div_mul_le_self t (sys.params i).period
    have hlt := h.period_lt ht hi
    refine ⟨h.shape.onOneList hi, fun k hk => ?_, h.balance ht hi,
      fun k hk hskip => ?_, fun k => ?_, ?_⟩
    · by_contra hge
      rw [hreport, (sys.fitsAt i t).report_later k (by omega)] at hk
      exact Bool.noConfusion hk
    · have hle := Nat.mul_le_mul_right (sys.params i).period hk
      refine rto_of_skipped hi (Nat.lt_of_le_of_lt (Nat.le_trans hle hlo) ht) hskip
    · rw [hreport]
      exact reported_iff (Nat.le_of_lt ht) hi
    · rw [hkilled]
      exact killed_eq_count (Nat.le_of_lt ht) hi
  · intro i hi u hu v hv hdiv hkill
    have hlate := (killedAt_late hu hi).mp hkill
    refine ⟨fun hdone => ?_, fun hkill' => ?_⟩
    · exact not_done_and_late ((completesAt_done hv hi).mp hdone) hdiv.symm hlate
    · exact end_unique (Or.inr hlate) (Or.inr ((killedAt_late hv hi).mp hkill'))
        hdiv

end FreeRtosSim
